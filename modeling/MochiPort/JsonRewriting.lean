import MochiPort.JsonValues

/-! Rewriting of JSON values from the top down, with a note of whether anything changed. -/

namespace JsonValue

mutual

def weight : JsonValue → Nat
  | .null => 1
  | .bool _ => 1
  | .number _ => 1
  | .string value => value.length + 2
  | .array values => weightValues values + 2
  | .object fields => weightFields fields + 2

def weightValues : List JsonValue → Nat
  | [] => 0
  | value :: values => weight value + weightValues values

def weightFields : List (String × JsonValue) → Nat
  | [] => 0
  | (key, value) :: fields => key.length + 2 + weight value + weightFields fields

end

theorem weight_pos (value : JsonValue) : 0 < value.weight := by
  cases value with
  | string value | array values | object fields => exact Nat.succ_pos _
  | _ => exact Nat.one_pos

theorem weight_lt_array {value : JsonValue} {values : List JsonValue} (h : value ∈ values) :
    value.weight < (JsonValue.array values).weight := by
  have hle : value.weight ≤ weightValues values := by
    induction values with
    | nil => exact absurd h List.not_mem_nil
    | cons first values ih =>
      rw [weightValues]
      rcases List.mem_cons.mp h with rfl | h
      · omega
      · have hrest := ih h
        omega
  rw [weight]
  omega

variable {fields : List (String × JsonValue)}

theorem weight_le_fields {field : String × JsonValue} (h : field ∈ fields) : field.2.weight ≤ weightFields fields := by
  induction fields with
  | nil => exact absurd h List.not_mem_nil
  | cons first fields ih =>
    rw [weightFields]
    rcases List.mem_cons.mp h with rfl | h
    · omega
    · have hrest := ih h
      omega

theorem weight_lt_object {field : String × JsonValue} (h : field ∈ fields) :
    field.2.weight < (JsonValue.object fields).weight := by
  have hle := weight_le_fields h
  rw [weight]
  omega

end JsonValue

namespace JsonRewriting

section

variable {α : Type*}

/-- Rewrites the elements of a list, and says whether one of them changed. -/
def each (f : α → Option (α × Bool)) : List α → Option (List α × Bool)
  | [] => some ([], false)
  | a :: as =>
    (f a).bind fun (a, changed) => (each f as).map fun (as, later) => (a :: as, changed || later)

variable {f g : α → Option (α × Bool)} {as bs : List α} {changed : Bool}

theorem each_cons_eq_some {a : α} :
    each f (a :: as) = some (bs, changed) ↔ ∃ b bs' first later, f a = some (b, first) ∧ each f as = some (bs', later) ∧
      bs = b :: bs' ∧ changed = (first || later) := by
  rw [each]
  simp only [Option.bind_eq_some_iff, Option.map_eq_some_iff, Prod.exists, Prod.mk.injEq]
  constructor
  · rintro ⟨b, first, hf, bs', later, heach, rfl, rfl⟩
    exact ⟨b, bs', first, later, hf, heach, rfl, rfl⟩
  · rintro ⟨b, bs', first, later, hf, heach, rfl, rfl⟩
    exact ⟨b, first, hf, bs', later, heach, rfl, rfl⟩

theorem each_mono (h : ∀ a r, f a = some r → g a = some r) (heach : each f as = some (bs, changed)) :
    each g as = some (bs, changed) := by
  induction as generalizing bs changed with
  | nil => exact heach
  | cons a as ih =>
    obtain ⟨b, bs', first, later, hf, hrest, rfl, rfl⟩ := each_cons_eq_some.mp heach
    exact each_cons_eq_some.mpr ⟨b, bs', first, later, h a _ hf, ih hrest, rfl, rfl⟩

theorem each_isSome (h : ∀ a ∈ as, (f a).isSome) : (each f as).isSome := by
  induction as with
  | nil => rfl
  | cons a as ih =>
    obtain ⟨⟨b, first⟩, hf⟩ := Option.isSome_iff_exists.mp (h a List.mem_cons_self)
    obtain ⟨⟨bs', later⟩, hrest⟩ := Option.isSome_iff_exists.mp (ih fun a' ha' => h a' (List.mem_cons_of_mem a ha'))
    exact Option.isSome_iff_exists.mpr ⟨_, each_cons_eq_some.mpr ⟨b, bs', first, later, hf, hrest, rfl, rfl⟩⟩

theorem each_forall₂ (heach : each f as = some (bs, changed)) :
    List.Forall₂ (fun a b => ∃ changed, f a = some (b, changed)) as bs := by
  induction as generalizing bs changed with
  | nil =>
    cases heach
    exact .nil
  | cons a as ih =>
    obtain ⟨b, bs', first, later, hf, hrest, rfl, rfl⟩ := each_cons_eq_some.mp heach
    exact .cons ⟨first, hf⟩ (ih hrest)

theorem each_eq_self_iff : each f as = some (as, false) ↔ ∀ a ∈ as, f a = some (a, false) := by
  induction as with
  | nil => simp [each]
  | cons a as ih =>
    rw [each_cons_eq_some, List.forall_mem_cons, ← ih]
    constructor
    · rintro ⟨b, bs', first, later, hf, hrest, hcons, hchanged⟩
      obtain ⟨rfl, rfl⟩ := List.cons.inj hcons
      obtain ⟨rfl, rfl⟩ := Bool.or_eq_false_iff.mp hchanged.symm
      exact ⟨hf, hrest⟩
    · rintro ⟨hf, hrest⟩
      exact ⟨a, as, false, false, hf, hrest, rfl, rfl⟩

/-- Whether a second round changes nothing is decided element by element. -/
theorem each_again_iff (settled : α → Prop) (heach : each f as = some (bs, changed))
    (h : ∀ a ∈ as, ∀ b changed, f a = some (b, changed) → (f b = some (b, false) ↔ settled a)) :
    each f bs = some (bs, false) ↔ ∀ a ∈ as, settled a := by
  rw [each_eq_self_iff]
  have hpairs := each_forall₂ heach
  clear heach
  induction hpairs with
  | nil => simp
  | cons hfirst _ ih =>
    obtain ⟨first, hf⟩ := hfirst
    rw [List.forall_mem_cons, List.forall_mem_cons]
    exact and_congr (h _ List.mem_cons_self _ _ hf) (ih fun a ha => h a (List.mem_cons_of_mem _ ha))

end

def member (f : JsonValue → Option (JsonValue × Bool)) (field : String × JsonValue) :
    Option ((String × JsonValue) × Bool) :=
  (f field.2).map fun (value, changed) => ((field.1, value), changed)

/-- An object is rewritten before its members are; the rounds are as many as the value is deep. -/
def run (rewrite : List (String × JsonValue) → List (String × JsonValue) × Bool) :
    Nat → JsonValue → Option (JsonValue × Bool)
  | 0, _ => none
  | fuel + 1, .object fields =>
    let (fields, changed) := rewrite fields
    (each (member (run rewrite fuel)) fields).map fun (fields, later) => (.object fields, changed || later)
  | fuel + 1, .array values => (each (run rewrite fuel) values).map fun (values, changed) => (.array values, changed)
  | _ + 1, value => some (value, false)

/-- The objects that are rewritten on the way through a value, as they are before. -/
inductive Visits (rewrite : List (String × JsonValue) → List (String × JsonValue) × Bool) :
    JsonValue → List (String × JsonValue) → Prop
  | self (fields : List (String × JsonValue)) : Visits rewrite (.object fields) fields
  | element {values : List JsonValue} {value : JsonValue} {fields : List (String × JsonValue)} (hmem : value ∈ values)
      (h : Visits rewrite value fields) : Visits rewrite (.array values) fields
  | member {object fields : List (String × JsonValue)} {field : String × JsonValue} (hmem : field ∈ (rewrite object).1)
      (h : Visits rewrite field.2 fields) : Visits rewrite (.object object) fields

structure SameTexts (fields fields' : List (String × JsonValue)) : Prop where
  text : ∀ key, (fields.lookup key).bind JsonValue.asStr = (fields'.lookup key).bind JsonValue.asStr
  present : ∀ key, (fields.lookup key).isSome = (fields'.lookup key).isSome

/-- What the rewriting of an object must do: to say when it changes something, to decide that by the texts, and to
put nothing into it that is larger, apart from strings. -/
structure Lawful (rewrite : List (String × JsonValue) → List (String × JsonValue) × Bool) : Prop where
  unchanged : ∀ fields, (rewrite fields).2 = false → (rewrite fields).1 = fields
  same : ∀ fields fields', SameTexts fields fields' → (rewrite fields).2 = (rewrite fields').2
  shrinks : ∀ fields, ∀ field ∈ (rewrite fields).1,
    field.2.asStr.isSome ∨ field.2.weight < (JsonValue.object fields).weight

section

variable {rewrite : List (String × JsonValue) → List (String × JsonValue) × Bool} {n m : Nat}
  {value result : JsonValue} {fields : List (String × JsonValue)} {changed : Bool}

theorem member_eq_some {f : JsonValue → Option (JsonValue × Bool)} {field field' : String × JsonValue} :
    member f field = some (field', changed) ↔ field'.1 = field.1 ∧ f field.2 = some (field'.2, changed) := by
  simp only [member, Option.map_eq_some_iff, Prod.exists, Prod.mk.injEq]
  constructor
  · rintro ⟨value, c, hf, rfl, rfl⟩
    exact ⟨rfl, hf⟩
  · rintro ⟨hkey, hf⟩
    exact ⟨field'.2, changed, hf, Prod.ext hkey.symm rfl, rfl⟩

theorem run_object :
    run rewrite (n + 1) (.object fields) = some (result, changed) ↔
      ∃ members later, each (member (run rewrite n)) (rewrite fields).1 = some (members, later) ∧
        result = .object members ∧ changed = ((rewrite fields).2 || later) := by
  rw [run]
  simp only [Option.map_eq_some_iff, Prod.exists, Prod.mk.injEq]
  constructor
  · rintro ⟨members, later, heach, rfl, rfl⟩
    exact ⟨members, later, heach, rfl, rfl⟩
  · rintro ⟨members, later, heach, rfl, rfl⟩
    exact ⟨members, later, heach, rfl, rfl⟩

theorem run_array {values : List JsonValue} :
    run rewrite (n + 1) (.array values) = some (result, changed) ↔
      ∃ values', each (run rewrite n) values = some (values', changed) ∧ result = .array values' := by
  rw [run]
  simp only [Option.map_eq_some_iff, Prod.exists, Prod.mk.injEq]
  constructor
  · rintro ⟨values', c, heach, rfl, rfl⟩
    exact ⟨values', heach, rfl⟩
  · rintro ⟨values', heach, rfl⟩
    exact ⟨values', changed, heach, rfl, rfl⟩

theorem run_succ (h : run rewrite n value = some (result, changed)) :
    run rewrite (n + 1) value = some (result, changed) := by
  induction n generalizing value result changed with
  | zero => cases h
  | succ n ih =>
    cases value with
    | object fields =>
      obtain ⟨members, later, heach, hresult, hchanged⟩ := run_object.mp h
      refine run_object.mpr ⟨members, later, each_mono (fun field r hr => ?_) heach, hresult, hchanged⟩
      obtain ⟨hkey, hrun⟩ := member_eq_some.mp hr
      exact member_eq_some.mpr ⟨hkey, ih hrun⟩
    | array values =>
      obtain ⟨values', heach, hresult⟩ := run_array.mp h
      exact run_array.mpr ⟨values', each_mono (fun value r hr => ih hr) heach, hresult⟩
    | _ => exact h

theorem run_mono (hle : n ≤ m) (h : run rewrite n value = some (result, changed)) :
    run rewrite m value = some (result, changed) := by
  induction hle with
  | refl => exact h
  | step _ ih => exact run_succ ih

theorem run_isSome (hlaw : Lawful rewrite) (h : value.weight ≤ n) : (run rewrite n value).isSome := by
  induction n generalizing value with
  | zero =>
    have hpos := value.weight_pos
    omega
  | succ n ih =>
    cases value with
    | object fields =>
      have htwo : 2 ≤ (JsonValue.object fields).weight := by
        rw [JsonValue.weight]
        omega
      have heach : (each (member (run rewrite n)) (rewrite fields).1).isSome := by
        refine each_isSome fun field hfield => ?_
        rw [member, Option.isSome_map]
        rcases hlaw.shrinks fields field hfield with hstring | hweight
        · obtain ⟨k, rfl⟩ : ∃ k, n = k + 1 := ⟨n - 1, by omega⟩
          obtain ⟨key, field⟩ := field
          cases field with
          | string text => rfl
          | _ => cases hstring
        · exact ih (by omega)
      obtain ⟨⟨members, later⟩, hmembers⟩ := Option.isSome_iff_exists.mp heach
      exact Option.isSome_iff_exists.mpr ⟨_, run_object.mpr ⟨members, later, hmembers, rfl, rfl⟩⟩
    | array values =>
      have heach : (each (run rewrite n) values).isSome := by
        refine each_isSome fun value hvalue => ih ?_
        have hlt := JsonValue.weight_lt_array hvalue
        omega
      obtain ⟨⟨values', c⟩, hvalues⟩ := Option.isSome_iff_exists.mp heach
      exact Option.isSome_iff_exists.mpr ⟨_, run_array.mpr ⟨values', hvalues, rfl⟩⟩
    | _ => rfl

theorem run_asStr (h : run rewrite n value = some (result, changed)) : result.asStr = value.asStr := by
  cases n with
  | zero => cases h
  | succ n =>
    cases value with
    | object fields =>
      obtain ⟨members, _, _, rfl, _⟩ := run_object.mp h
      rfl
    | array values =>
      obtain ⟨values', _, rfl⟩ := run_array.mp h
      rfl
    | _ =>
      cases h
      rfl

theorem sameTexts_of_each {members : List (String × JsonValue)}
    (h : each (member (run rewrite n)) fields = some (members, changed)) : SameTexts fields members := by
  have hpairs := each_forall₂ h
  clear h
  have hlookup : ∀ key, ((fields.lookup key).bind JsonValue.asStr = (members.lookup key).bind JsonValue.asStr) ∧
      (fields.lookup key).isSome = (members.lookup key).isSome := by
    intro key
    induction hpairs with
    | nil => exact ⟨rfl, rfl⟩
    | @cons field field' _ _ hfirst _ ih =>
      obtain ⟨c, hfirst⟩ := hfirst
      obtain ⟨hkey, hrun⟩ := member_eq_some.mp hfirst
      obtain ⟨k, v⟩ := field
      obtain ⟨k', v'⟩ := field'
      cases hkey
      rw [List.lookup_cons, List.lookup_cons]
      cases key == k with
      | true => exact ⟨(run_asStr hrun).symm, rfl⟩
      | false => exact ih
  exact ⟨fun key => (hlookup key).1, fun key => (hlookup key).2⟩

/-- A second run changes nothing when no visited object would be rewritten again. -/
theorem run_again_iff (hlaw : Lawful rewrite) (h : run rewrite n value = some (result, changed)) :
    run rewrite n result = some (result, false) ↔
      ∀ fields, Visits rewrite value fields → (rewrite (rewrite fields).1).2 = false := by
  induction n generalizing value result changed with
  | zero => cases h
  | succ n ih =>
    cases value with
    | object fields =>
      obtain ⟨members, later, heach, rfl, _⟩ := run_object.mp h
      have hsame := hlaw.same _ _ (sameTexts_of_each heach)
      have hagain := each_again_iff (fun field => ∀ fields', Visits rewrite field.2 fields' →
        (rewrite (rewrite fields').1).2 = false) heach fun field _ field' c hfield => by
          obtain ⟨hkey, hrun⟩ := member_eq_some.mp hfield
          rw [member_eq_some, ← ih hrun]
          exact and_iff_right rfl
      have hquiet : run rewrite (n + 1) (.object members) = some (.object members, false) ↔
          (rewrite members).2 = false ∧ each (member (run rewrite n)) members = some (members, false) := by
        rw [run_object]
        constructor
        · rintro ⟨members', later', heach', hresult, hchanged⟩
          obtain ⟨hflag, rfl⟩ := Bool.or_eq_false_iff.mp hchanged.symm
          rw [hlaw.unchanged members hflag] at heach'
          cases hresult
          exact ⟨hflag, heach'⟩
        · rintro ⟨hflag, heach'⟩
          refine ⟨members, false, ?_, rfl, by rw [hflag]; rfl⟩
          rw [hlaw.unchanged members hflag]
          exact heach'
      rw [hquiet, hagain, ← hsame]
      constructor
      · rintro ⟨hflag, hmembers⟩ fields' hvisits
        cases hvisits with
        | self => exact hflag
        | member hmem hvisits => exact hmembers _ hmem _ hvisits
      · intro hall
        exact ⟨hall fields (.self fields), fun field hmem fields' hvisits => hall fields' (.member hmem hvisits)⟩
    | array values =>
      obtain ⟨values', heach, rfl⟩ := run_array.mp h
      have hagain := each_again_iff _ heach fun value _ result c hrun => ih hrun
      have hquiet : run rewrite (n + 1) (.array values') = some (.array values', false) ↔
          each (run rewrite n) values' = some (values', false) := by
        rw [run_array]
        constructor
        · rintro ⟨values'', heach', hresult⟩
          cases hresult
          exact heach'
        · intro heach'
          exact ⟨values', heach', rfl⟩
      rw [hquiet, hagain]
      constructor
      · intro hvalues fields hvisits
        cases hvisits with
        | element hmem hvisits => exact hvalues _ hmem _ hvisits
      · intro hall value hmem fields hvisits
        exact hall fields (.element hmem hvisits)
    | _ =>
      cases h
      refine iff_of_true rfl fun fields hvisits => ?_
      cases hvisits

def rewritten (rewrite : List (String × JsonValue) → List (String × JsonValue) × Bool) (value : JsonValue) :
    Option (JsonValue × Bool) := run rewrite value.weight value

/-- A lawful rewriting ends, and when a second one changes nothing is known before the first. -/
theorem rewritten_again_iff (hlaw : Lawful rewrite) (value : JsonValue) :
    ∃ result changed, rewritten rewrite value = some (result, changed) ∧
      (rewritten rewrite result = some (result, false) ↔
        ∀ fields, Visits rewrite value fields → (rewrite (rewrite fields).1).2 = false) := by
  obtain ⟨⟨result, changed⟩, hrun⟩ := Option.isSome_iff_exists.mp (run_isSome hlaw (Nat.le_refl value.weight))
  obtain ⟨⟨again, changed'⟩, hagain⟩ := Option.isSome_iff_exists.mp (run_isSome hlaw (Nat.le_refl result.weight))
  refine ⟨result, changed, hrun, ?_⟩
  -- rounds enough for both
  have hlong := run_mono (Nat.le_add_right value.weight result.weight) hrun
  have hlong' := run_mono (Nat.le_add_left result.weight value.weight) hagain
  rw [← run_again_iff hlaw hlong, rewritten, hagain, hlong']

end

end JsonRewriting

import MochiPort.ToolNames

namespace Table

variable {K V : Type*} [DecidableEq K]

theorem exists_free {f : Nat → K} (hf : Function.Injective f) (m : Table K V) :
    ∃ i, i ≤ m.entries.length ∧ m.lookup (f i) = none := by
  by_contra hall
  have htaken : ∀ i, i ≤ m.entries.length → f i ∈ m.entries.keys := by
    intro i hi
    by_contra hfree
    exact hall ⟨i, hi, AList.lookup_eq_none.mpr hfree⟩
  have hnodup : ((List.range (m.entries.length + 1)).map f).Nodup := List.nodup_range.map hf
  have hsub : (List.range (m.entries.length + 1)).map f ⊆ m.entries.keys := by
    intro k hk
    obtain ⟨i, hi, rfl⟩ := List.mem_map.mp hk
    exact htaken i (Nat.lt_succ_iff.mp (List.mem_range.mp hi))
  have hle := (List.subperm_of_subset hnodup hsub).length_le
  simp only [List.length_map, List.length_range, List.keys] at hle
  omega

end Table

namespace MochiPort

structure ProviderSafe (encoded : String) : Prop where
  nonempty : 1 ≤ encoded.length
  fits : encoded.length ≤ providerToolNameMaxLen
  safe : ∀ c ∈ encoded.toList, isProviderSafe c = true

section

variable {sha256 : List UInt8 → Vector UInt8 32} {base hash encoded : String} {target : ToolCallTarget}
  {counter : Nat}

theorem providerSafeToolName_ne_empty (name : String) : providerSafeToolName name ≠ "" := by
  simp only [providerSafeToolName]
  split
  next => decide
  next houtput =>
    intro hempty
    apply houtput
    have hlist := congrArg String.toList hempty
    simpa using hlist

theorem providerSafeToolName_safe (name : String) :
    ∀ c ∈ (providerSafeToolName name).toList, isProviderSafe c = true := by
  simp only [providerSafeToolName]
  split
  next => exact List.all_eq_true.mp rfl
  next =>
    intro c hc
    rw [String.toList_ofList] at hc
    obtain ⟨d, _, rfl⟩ := List.mem_map.mp hc
    by_cases hd : isProviderSafe d = true
    · rw [if_pos hd]; exact hd
    · rw [if_neg hd]; rfl

theorem hexEncode_mem (bytes : List UInt8) : ∀ c ∈ (hexEncode bytes).toList, c ∈ "0123456789abcdef".toList := by
  intro c hc
  rw [hexEncode, String.toList_ofList] at hc
  obtain ⟨b, _, hb⟩ := List.mem_flatMap.mp hc
  rcases List.mem_pair.mp hb with rfl | rfl
  · exact RustText.hexDigit_mem _
  · exact RustText.hexDigit_mem _

theorem targetHash_length (sha256 : List UInt8 → Vector UInt8 32) (target : ToolCallTarget) :
    (targetHash sha256 target).toList.length = 10 := by
  rw [targetHash, hexEncode_length]
  simp

def SuffixChar (c : Char) : Prop := isProviderSafe c = true ∧ c ≠ '_'

instance (c : Char) : Decidable (SuffixChar c) := inferInstanceAs (Decidable (_ ∧ _))

theorem suffixChar_of_isDigit {c : Char} (h : c.isDigit = true) : SuffixChar c := by
  obtain ⟨hlow, hhigh⟩ := (Bool.and_eq_true ..).mp h
  constructor
  · have hdigit : ('0' ≤ c && c ≤ '9') = true := h
    simp only [isProviderSafe, hdigit, Bool.or_true, Bool.true_or]
  · intro hc
    subst hc
    exact absurd hhigh (by decide)

theorem suffixChar_of_hex {c : Char} (h : c ∈ "0123456789abcdef".toList) : SuffixChar c := by
  have hall : ("0123456789abcdef".toList.all fun d => decide (SuffixChar d)) = true := rfl
  exact of_decide_eq_true (List.all_eq_true.mp hall c h)

/-- The digits that tell the names of one target apart. -/
def counterDigits (counter : Nat) : String := if counter = 0 then "" else toString counter

theorem counterDigits_suffixChar (counter : Nat) : ∀ c ∈ (counterDigits counter).toList, SuffixChar c := by
  intro c hc
  by_cases hcounter : counter = 0
  · have hempty : (counterDigits 0).toList = [] := by decide
    rw [hcounter, hempty] at hc
    exact absurd hc List.not_mem_nil
  · rw [counterDigits, if_neg hcounter, Nat.toString_eq_repr, Nat.toList_repr] at hc
    exact suffixChar_of_isDigit (Nat.isDigit_of_mem_toDigits (by decide) (by decide) hc)

theorem counterDigits_injective : Function.Injective counterDigits := by
  have hne : ∀ n : Nat, toString n ≠ "" := fun n => Nat.repr_ne_empty
  intro m n h
  unfold counterDigits at h
  by_cases hm : m = 0
  · by_cases hn : n = 0
    · rw [hm, hn]
    · rw [if_pos hm, if_neg hn] at h
      exact absurd h.symm (hne n)
  · by_cases hn : n = 0
    · rw [if_neg hm, if_pos hn] at h
      exact absurd h (hne m)
    · rw [if_neg hm, if_neg hn] at h
      exact RustText.toString_injective h

theorem counterDigits_length (h : counter ≤ UInt64.size) : (counterDigits counter).toList.length ≤ 20 := by
  by_cases hcounter : counter = 0
  · subst hcounter
    decide
  · rw [counterDigits, if_neg hcounter, Nat.toString_eq_repr, Nat.toList_repr]
    refine (Nat.length_toDigits_le_iff (by decide) (by decide)).mpr ?_
    have hsize : UInt64.size < 10 ^ 20 := by decide
    omega

def suffixStem (base : String) (room : Nat) : String :=
  if trimEndUnderscores (trimToCharBoundary base room) = "" then "tool"
  else trimEndUnderscores (trimToCharBoundary base room)

theorem suffixStem_sublist (base : String) (room : Nat) :
    (trimEndUnderscores (trimToCharBoundary base room)).toList.Sublist (base.toList.take room) := by
  rw [trimEndUnderscores, trimToCharBoundary, String.toList_ofList, String.toList_ofList]
  have hdrop := List.dropWhile_sublist (· = '_') (l := (base.toList.take room).reverse)
  have hreverse := hdrop.reverse
  rwa [List.reverse_reverse] at hreverse

theorem suffixStem_safe (h : ∀ c ∈ base.toList, isProviderSafe c = true) (room : Nat) :
    ∀ c ∈ (suffixStem base room).toList, isProviderSafe c = true := by
  unfold suffixStem
  split
  next => exact List.all_eq_true.mp rfl
  next =>
    intro c hc
    exact h c (List.mem_of_mem_take ((suffixStem_sublist base room).subset hc))

theorem suffixStem_length (base : String) (room : Nat) :
    1 ≤ (suffixStem base room).toList.length ∧ (suffixStem base room).toList.length ≤ max 4 room := by
  unfold suffixStem
  split
  next => exact ⟨by decide, le_max_left _ _⟩
  next hne =>
    constructor
    · refine List.length_pos_iff.mpr ?_
      intro hnil
      exact hne (String.toList_inj.mp hnil)
    · have hle := (suffixStem_sublist base room).length_le
      rw [List.length_take] at hle
      omega

theorem suffixedName_toList (base hash : String) (counter : Nat) :
    (suffixedName base hash counter).toList =
      (suffixStem base (providerToolNameMaxLen - ("_h" ++ hash ++ counterDigits counter).length)).toList ++
        '_' :: 'h' :: (hash.toList ++ (counterDigits counter).toList) := by
  obtain ⟨suffix, hsuffix⟩ : ∃ suffix, suffix = "_h" ++ hash ++ counterDigits counter := ⟨_, rfl⟩
  have hstem : suffixedName base hash counter =
      suffixStem base (providerToolNameMaxLen - suffix.length) ++ suffix := by
    simp only [suffixedName]
    rw [← counterDigits, ← hsuffix, suffixStem]
    by_cases hempty : trimEndUnderscores (trimToCharBoundary base (providerToolNameMaxLen - suffix.length)) = ""
    · rw [if_pos hempty, if_pos hempty]
    · rw [if_neg hempty, if_neg hempty]
  have hlist : suffix.toList = '_' :: 'h' :: (hash.toList ++ (counterDigits counter).toList) := by
    rw [hsuffix, String.toList_append, String.toList_append]
    rfl
  rw [hstem, String.toList_append, hlist, hsuffix]

theorem suffixedName_injective (base : String) (hhash : ∀ c ∈ hash.toList, SuffixChar c) :
    Function.Injective (suffixedName base hash) := by
  have hfree : ∀ counter, '_' ∉ 'h' :: (hash.toList ++ (counterDigits counter).toList) := by
    intro counter hmem
    rcases List.mem_cons.mp hmem with hh | hmem
    · exact absurd hh (by decide)
    rcases List.mem_append.mp hmem with hin | hin
    · exact (hhash _ hin).2 rfl
    · exact (counterDigits_suffixChar counter _ hin).2 rfl
  intro m n h
  have hlists := congrArg String.toList h
  rw [suffixedName_toList, suffixedName_toList] at hlists
  have hrest := RustText.last_split_unique (hfree m) (hfree n) hlists
  have hdigits := List.append_cancel_left (List.cons.inj hrest).2
  exact counterDigits_injective (String.toList_inj.mp hdigits)

theorem suffixedName_safe (hbase : ∀ c ∈ base.toList, isProviderSafe c = true)
    (hhash : ∀ c ∈ hash.toList, SuffixChar c) (counter : Nat) :
    ∀ c ∈ (suffixedName base hash counter).toList, isProviderSafe c = true := by
  intro c hc
  rw [suffixedName_toList] at hc
  rcases List.mem_append.mp hc with hstem | hsuffix
  · exact suffixStem_safe hbase _ c hstem
  rcases List.mem_cons.mp hsuffix with rfl | hsuffix
  · rfl
  rcases List.mem_cons.mp hsuffix with rfl | hsuffix
  · rfl
  rcases List.mem_append.mp hsuffix with hin | hin
  · exact (hhash c hin).1
  · exact (counterDigits_suffixChar counter c hin).1

theorem suffixedName_length (base : String) (counter : Nat) (hhash : hash.toList.length = 10) (hcounter : counter ≤ UInt64.size) :
    1 ≤ (suffixedName base hash counter).length ∧
      (suffixedName base hash counter).length ≤ providerToolNameMaxLen := by
  have hdigits := counterDigits_length hcounter
  have hsuffix : ("_h" ++ hash ++ counterDigits counter).length = 12 + (counterDigits counter).toList.length := by
    rw [← String.length_toList, String.toList_append, String.toList_append, List.length_append, List.length_append,
      hhash]
    rfl
  have hstem := suffixStem_length base
    (providerToolNameMaxLen - ("_h" ++ hash ++ counterDigits counter).length)
  rw [← String.length_toList, suffixedName_toList, List.length_append, List.length_cons, List.length_cons,
    List.length_append, hhash]
  have hmax : providerToolNameMaxLen = 64 := rfl
  omega

theorem targetHash_suffixChar (sha256 : List UInt8 → Vector UInt8 32) (target : ToolCallTarget) :
    ∀ c ∈ (targetHash sha256 target).toList, SuffixChar c := by
  intro c hc
  exact suffixChar_of_hex (hexEncode_mem _ c hc)

end

namespace ToolNameMap

section

variable {sha256 : List UInt8 → Vector UInt8 32} {map next : ToolNameMap} {preferred base hash encoded : String}
  {target : ToolCallTarget} {fuel counter : Nat}

theorem allocateSuffixed_eq_some (h : map.allocateSuffixed base hash target fuel counter = some encoded) :
    ∃ i, i < counter + fuel ∧ encoded = suffixedName base hash i ∧ map.available target encoded = true := by
  induction fuel generalizing counter with
  | zero => simp [allocateSuffixed] at h
  | succ fuel ih =>
    rw [allocateSuffixed] at h
    split at h
    next havailable =>
      cases Option.some.inj h
      exact ⟨counter, by omega, rfl, havailable⟩
    next =>
      obtain ⟨i, hi, hencoded, havailable⟩ := ih h
      exact ⟨i, by omega, hencoded, havailable⟩

theorem allocateSuffixed_isSome {i : Nat} (hle : counter ≤ i) (hlt : i < counter + fuel)
    (h : map.available target (suffixedName base hash i) = true) :
    (map.allocateSuffixed base hash target fuel counter).isSome := by
  induction fuel generalizing counter with
  | zero => omega
  | succ fuel ih =>
    rw [allocateSuffixed]
    split
    next => rfl
    next htaken =>
      have hne : counter ≠ i := by
        intro he
        exact htaken (he ▸ h)
      exact ih (by omega) (by omega)

theorem allocateEncodedName_isSome (sha256 : List UInt8 → Vector UInt8 32) (map : ToolNameMap) (preferred : String)
    (target : ToolCallTarget) :
    (map.allocateEncodedName sha256 preferred target (map.encodedToTarget.entries.length + 1)).isSome := by
  simp only [allocateEncodedName]
  split
  next => rfl
  next =>
    obtain ⟨i, hi, hfree⟩ := Table.exists_free
      (suffixedName_injective (providerSafeToolName preferred) (targetHash_suffixChar sha256 target))
      map.encodedToTarget
    have havailable : map.available target (suffixedName (providerSafeToolName preferred)
        (targetHash sha256 target) i) = true := by
      rw [available, hfree]
      rfl
    exact allocateSuffixed_isSome (Nat.zero_le i) (by omega) havailable

theorem allocateEncodedName_cases (h : map.allocateEncodedName sha256 preferred target fuel = some encoded) :
    map.available target encoded = true ∧ (fuel ≤ UInt64.size + 1 → ProviderSafe encoded) := by
  have hbase := providerSafeToolName_safe preferred
  simp only [allocateEncodedName] at h
  split at h
  next hfits =>
    cases Option.some.inj h
    obtain ⟨hlength, havailable⟩ := (Bool.and_eq_true ..).mp hfits
    refine ⟨havailable, fun _ => ⟨?_, of_decide_eq_true hlength, hbase⟩⟩
    have hne : (providerSafeToolName preferred).length ≠ 0 := by
      intro hzero
      exact providerSafeToolName_ne_empty preferred (String.length_eq_zero_iff.mp hzero)
    omega
  next =>
    obtain ⟨i, hi, hencoded, havailable⟩ := allocateSuffixed_eq_some h
    refine ⟨havailable, fun hfuel => ?_⟩
    have hlength := suffixedName_length (providerSafeToolName preferred) i (targetHash_length sha256 target)
      (by omega)
    rw [hencoded]
    exact ⟨hlength.1, hlength.2, suffixedName_safe hbase (targetHash_suffixChar sha256 target) i⟩

structure Sound (map : ToolNameMap) : Prop where
  paired : ∀ target encoded,
    map.targetToEncoded.lookup target = some encoded ↔ map.encodedToTarget.lookup encoded = some target

theorem sound_empty : Sound .empty := by
  constructor
  intro target encoded
  simp [empty]

theorem Sound.insert (hs : map.Sound) (htarget : map.targetToEncoded.lookup target = none)
    (hencoded : map.encodedToTarget.lookup encoded = none) : (map.insert encoded target).Sound := by
  constructor
  intro t e
  simp only [ToolNameMap.insert]
  by_cases ht : t = target
  · by_cases he : e = encoded
    · rw [ht, he, AList.lookup_insert, AList.lookup_insert]
      simp
    · rw [ht, AList.lookup_insert, AList.lookup_insert_ne he, ← hs.paired, htarget]
      simp [Ne.symm he]
  · by_cases he : e = encoded
    · rw [he, AList.lookup_insert_ne ht, AList.lookup_insert, hs.paired, hencoded]
      simp [Ne.symm ht]
    · rw [AList.lookup_insert_ne ht, AList.lookup_insert_ne he]
      exact hs.paired t e

theorem Sound.free (hs : map.Sound) (htarget : map.targetToEncoded.lookup target = none)
    (havailable : map.available target encoded = true) : map.encodedToTarget.lookup encoded = none := by
  rw [available] at havailable
  cases hlookup : map.encodedToTarget.lookup encoded with
  | none => rfl
  | some existing =>
    rw [hlookup] at havailable
    have he : existing = target := of_decide_eq_true havailable
    subst he
    have hknown := (hs.paired existing encoded).mpr hlookup
    rw [htarget] at hknown
    cases hknown

theorem Sound.encode_cases (hs : map.Sound) (sha256 : List UInt8 → Vector UInt8 32) (target : ToolCallTarget) :
    ∃ next encoded, map.encode sha256 target = some (next, encoded) ∧
      (map.targetToEncoded.lookup target = some encoded ∧ next = map ∨
        map.targetToEncoded.lookup target = none ∧ map.encodedToTarget.lookup encoded = none ∧
          next = map.insert encoded target ∧
          (map.encodedToTarget.entries.length ≤ UInt64.size → ProviderSafe encoded)) := by
  cases htarget : map.targetToEncoded.lookup target with
  | some encoded => exact ⟨map, encoded, by simp [encode, htarget], .inl ⟨rfl, rfl⟩⟩
  | none =>
    obtain ⟨encoded, hencoded⟩ :=
      Option.isSome_iff_exists.mp (allocateEncodedName_isSome sha256 map (preferredName target) target)
    obtain ⟨havailable, hsafe⟩ := allocateEncodedName_cases hencoded
    refine ⟨map.insert encoded target, encoded, by simp [encode, htarget, hencoded], .inr ?_⟩
    exact ⟨rfl, hs.free htarget havailable, rfl, fun hsize => hsafe (by omega)⟩

/-- Every name given so far stays with its target. -/
def Extends (next map : ToolNameMap) : Prop :=
  ∀ target encoded, map.targetToEncoded.lookup target = some encoded →
    next.targetToEncoded.lookup target = some encoded

theorem Extends.refl (map : ToolNameMap) : map.Extends map := fun _ _ h => h

theorem Extends.trans {last : ToolNameMap} (h₁ : last.Extends next) (h₂ : next.Extends map) : last.Extends map :=
  fun target encoded h => h₁ target encoded (h₂ target encoded h)

theorem extends_insert (htarget : map.targetToEncoded.lookup target = none) :
    (map.insert encoded target).Extends map := by
  intro t e h
  have hne : t ≠ target := by
    intro he
    rw [he, htarget] at h
    cases h
  simpa [ToolNameMap.insert, AList.lookup_insert_ne hne] using h

/-- The names of the map are safe, and there are at most `limit` of them. -/
structure Within (limit : Nat) (map : ToolNameMap) : Prop where
  size : map.encodedToTarget.entries.length ≤ limit
  safe : limit ≤ UInt64.size → ∀ target encoded, map.encodedToTarget.lookup encoded = some target →
    ProviderSafe encoded

theorem within_empty : Within 0 .empty := by
  refine ⟨Nat.le_refl 0, fun _ target encoded h => ?_⟩
  simp [empty] at h

variable {limit : Nat}

theorem Within.insert (hw : map.Within limit) (hencoded : map.encodedToTarget.lookup encoded = none)
    (hsafe : map.encodedToTarget.entries.length ≤ UInt64.size → ProviderSafe encoded) :
    (map.insert encoded target).Within (limit + 1) := by
  constructor
  · have hentries := AList.entries_insert_of_notMem (b := target) (AList.lookup_eq_none.mp hencoded)
    simp only [ToolNameMap.insert, hentries, List.length_cons]
    have hsize := hw.size
    omega
  · intro hlimit t e h
    have hsize := hw.size
    by_cases he : e = encoded
    · exact he ▸ hsafe (by omega)
    · rw [ToolNameMap.insert, AList.lookup_insert_ne he] at h
      exact hw.safe (by omega) t e h

theorem Within.succ (hw : map.Within limit) : map.Within (limit + 1) :=
  ⟨Nat.le_succ_of_le hw.size, fun hlimit => hw.safe (by omega)⟩

theorem Sound.encode_step (hs : map.Sound) (hw : map.Within limit) (sha256 : List UInt8 → Vector UInt8 32)
    (target : ToolCallTarget) :
    ∃ next encoded, map.encode sha256 target = some (next, encoded) ∧ next.Sound ∧ next.Within (limit + 1) ∧
      next.Extends map ∧ next.targetToEncoded.lookup target = some encoded := by
  obtain ⟨next, encoded, hencode, ⟨hknown, hnext⟩ | ⟨htarget, hencoded, hnext, hsafe⟩⟩ :=
    hs.encode_cases sha256 target
  · subst hnext
    exact ⟨_, encoded, hencode, hs, hw.succ, .refl _, hknown⟩
  · subst hnext
    refine ⟨_, encoded, hencode, hs.insert htarget hencoded, hw.insert hencoded hsafe, extends_insert htarget, ?_⟩
    exact AList.lookup_insert ..

theorem Sound.encodeAll_run (hs : map.Sound) (hw : map.Within limit) (sha256 : List UInt8 → Vector UInt8 32)
    (calls : List EncodeCall) :
    ∃ last names, map.encodeAll sha256 calls = some (last, names) ∧ last.Sound ∧
      last.Within (limit + calls.length) ∧ last.Extends map ∧ names.map Prod.fst = calls.map EncodeCall.target ∧
      ∀ e ∈ names, last.targetToEncoded.lookup e.1 = some e.2 := by
  induction calls generalizing map limit with
  | nil => exact ⟨map, [], rfl, hs, hw, .refl map, rfl, fun e he => absurd he List.not_mem_nil⟩
  | cons call calls ih =>
    obtain ⟨next, encoded, hencode, hs', hw', hextends, hknown⟩ := hs.encode_step hw sha256 call.target
    obtain ⟨last, names, hall, hs'', hw'', hextends', htargets, hnames⟩ := ih hs' hw'
    refine ⟨last, (call.target, encoded) :: names, ?_, hs'', ?_, hextends'.trans hextends, ?_, ?_⟩
    · simp [encodeAll, hencode, hall]
    · have hlength : limit + (call :: calls).length = limit + 1 + calls.length := by
        rw [List.length_cons]
        omega
      exact hlength ▸ hw''
    · rw [List.map_cons, List.map_cons, htargets]
    · intro e he
      rcases List.mem_cons.mp he with rfl | he
      · exact hextends' _ _ hknown
      · exact hnames e he

theorem Sound.decode (hs : map.Sound) (h : map.targetToEncoded.lookup target = some encoded) :
    map.decode encoded = target := by
  rw [ToolNameMap.decode, (hs.paired target encoded).mp h]
  rfl

end

/-- The names that the calls return, from the first one on. -/
theorem names_faithful (sha256 : List UInt8 → Vector UInt8 32) (calls : List EncodeCall) :
    ∃ map names, empty.encodeAll sha256 calls = some (map, names) ∧
      names.map Prod.fst = calls.map EncodeCall.target ∧
      (calls.length ≤ UInt64.size → ∀ e ∈ names, ProviderSafe e.2) ∧
      (∀ e ∈ names, ∀ e' ∈ names, e.2 = e'.2 ↔ e.1 = e'.1) ∧
      (∀ later, ∃ map' names', map.encodeAll sha256 later = some (map', names') ∧
        ∀ e ∈ names, map.decode e.2 = e.1 ∧ map'.decode e.2 = e.1) ∧
      ∀ preferred target,
        (map.allocateEncodedName sha256 preferred target (map.encodedToTarget.entries.length + 1)).isSome := by
  obtain ⟨map, names, hall, hs, hw, _, htargets, hnames⟩ := sound_empty.encodeAll_run within_empty sha256 calls
  refine ⟨map, names, hall, htargets, ?_, ?_, ?_, ?_⟩
  · intro hcalls e he
    exact hw.safe (by omega) e.1 e.2 ((hs.paired e.1 e.2).mp (hnames e he))
  · intro e he e' he'
    have hknown := hnames e he
    have hknown' := hnames e' he'
    constructor
    · intro heq
      rw [← hs.decode hknown, ← hs.decode hknown', heq]
    · intro heq
      rw [heq, hknown'] at hknown
      exact (Option.some.inj hknown).symm
  · intro later
    obtain ⟨map', names', hlater, hs', _, hextends, _, _⟩ := hs.encodeAll_run hw sha256 later
    refine ⟨map', names', hlater, fun e he => ⟨hs.decode (hnames e he), ?_⟩⟩
    exact hs'.decode (hextends _ _ (hnames e he))
  · intro preferred target
    exact allocateEncodedName_isSome sha256 map preferred target

end ToolNameMap

end MochiPort

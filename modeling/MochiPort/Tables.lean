import Mathlib.Data.List.AList

/-- A hash map: an association list whose keys are distinct, read through `AList.lookup`. -/
abbrev Table (K V : Type*) := AList fun _ : K => V

namespace Table

variable {K V : Type*} [DecidableEq K]

theorem lookup_insert_eq (m : Table K V) (k a : K) (v : V) :
    (m.insert k v).lookup a = if a = k then some v else m.lookup a := by
  split
  next h => subst a; exact m.lookup_insert
  next h => exact AList.lookup_insert_ne h

theorem lookup_erase_eq (m : Table K V) (k a : K) : (m.erase k).lookup a = if a = k then none else m.lookup a := by
  split
  next h => subst a; exact AList.lookup_erase k m
  next h => exact AList.lookup_erase_ne h

variable {m : Table K V}

theorem of_lookup_insert {k a : K} {v w : V} (h : (m.insert k v).lookup a = some w) :
    a = k ∧ w = v ∨ a ≠ k ∧ m.lookup a = some w := by
  rw [lookup_insert_eq] at h
  split at h
  next heq => exact .inl ⟨heq, (Option.some.inj h).symm⟩
  next hne => exact .inr ⟨hne, h⟩

/-- What holds of the new entry and of those that stay holds of all. -/
@[elab_as_elim]
theorem insert_cases {P : K → V → Prop} {k a : K} {v w : V} (h : (m.insert k v).lookup a = some w) (hnew : P k v)
    (hold : ∀ {a w}, a ≠ k → m.lookup a = some w → P a w) : P a w := by
  rcases of_lookup_insert h with ⟨rfl, rfl⟩ | ⟨hne, h⟩
  · exact hnew
  · exact hold hne h

theorem of_lookup_erase {k a : K} {v : V} (h : (m.erase k).lookup a = some v) : a ≠ k ∧ m.lookup a = some v := by
  rw [lookup_erase_eq] at h
  split at h
  next => cases h
  next hne => exact ⟨hne, h⟩

@[simp] theorem lookup_empty (a : K) : (∅ : Table K V).lookup a = none := rfl

theorem eq_empty_iff : m = ∅ ↔ ∀ k, m.lookup k = none := by
  constructor
  · intro h k
    rw [h]
    rfl
  · intro h
    refine AList.ext ?_
    cases hentries : m.entries with
    | nil => rfl
    | cons e es =>
      have hlookup : m.lookup e.1 = some e.2 := AList.mem_lookup_iff.mpr (by rw [hentries]; exact List.mem_cons_self)
      rw [h e.1] at hlookup
      cases hlookup

/-- Drops the entries on which `p` is false. -/
def retain (p : K → V → Bool) (m : Table K V) : Table K V :=
  ⟨m.entries.filter fun e => p e.1 e.2, m.nodupKeys.sublist List.filter_sublist⟩

theorem lookup_eq_some_iff {k : K} {v : V} : m.lookup k = some v ↔ (⟨k, v⟩ : Sigma fun _ : K => V) ∈ m.entries :=
  AList.mem_lookup_iff

theorem lookup_retain (p : K → V → Bool) (m : Table K V) (a : K) :
    (m.retain p).lookup a = (m.lookup a).filter (p a) := by
  ext v
  simp only [lookup_eq_some_iff, retain, List.mem_filter, Option.filter_eq_some_iff]

theorem of_lookup_retain {p : K → V → Bool} {a : K} {v : V} (h : (m.retain p).lookup a = some v) :
    m.lookup a = some v := by
  rw [lookup_retain] at h
  exact (Option.filter_eq_some_iff.mp h).1

/-- Whether some key has not the same value in both. -/
def differs [DecidableEq V] (m n : Table K V) : Bool :=
  (m.keys ++ n.keys).any fun k => m.lookup k ≠ n.lookup k

theorem differs_eq_false_iff [DecidableEq V] {m n : Table K V} :
    m.differs n = false ↔ ∀ k, m.lookup k = n.lookup k := by
  have hnone : ∀ {l : Table K V} {k : K}, k ∉ l.keys → l.lookup k = none := fun hk => AList.lookup_eq_none.mpr hk
  simp only [differs, List.any_eq_false, decide_eq_true_eq, not_not, List.mem_append]
  constructor
  · intro h k
    by_cases hk : k ∈ m.keys ∨ k ∈ n.keys
    · exact h k hk
    · obtain ⟨hm, hn⟩ := not_or.mp hk
      rw [hnone hm, hnone hn]
  · exact fun h k _ => h k

/-- The value of every entry changed by `f`. -/
def mapValues (f : K → V → V) (m : Table K V) : Table K V :=
  ⟨m.entries.map fun e => ⟨e.1, f e.1 e.2⟩, by
    have hkeys : (m.entries.map fun e => (⟨e.1, f e.1 e.2⟩ : Sigma fun _ : K => V)).keys = m.entries.keys := by
      simp [List.keys, Function.comp_def]
    rw [List.NodupKeys, hkeys]
    exact m.nodupKeys⟩

theorem lookup_mapValues (f : K → V → V) (m : Table K V) (a : K) :
    (m.mapValues f).lookup a = (m.lookup a).map (f a) := by
  ext v
  simp only [lookup_eq_some_iff, mapValues, List.mem_map, Option.map_eq_some_iff]
  constructor
  · rintro ⟨⟨k, w⟩, he, heq⟩
    cases heq
    exact ⟨w, he, rfl⟩
  · rintro ⟨w, he, rfl⟩
    exact ⟨⟨a, w⟩, he, rfl⟩

/-- A table with the same keys, whose values are read off the old ones. -/
def mapTo {W : Type*} (f : V → W) (m : Table K V) : Table K W :=
  ⟨m.entries.map fun e => ⟨e.1, f e.2⟩, by
    have hkeys : (m.entries.map fun e => (⟨e.1, f e.2⟩ : Sigma fun _ : K => W)).keys = m.entries.keys := by
      simp [List.keys, Function.comp_def]
    rw [List.NodupKeys, hkeys]
    exact m.nodupKeys⟩

theorem lookup_mapTo {W : Type*} (f : V → W) (m : Table K V) (a : K) : (m.mapTo f).lookup a = (m.lookup a).map f := by
  ext w
  simp only [lookup_eq_some_iff, mapTo, List.mem_map, Option.map_eq_some_iff]
  constructor
  · rintro ⟨⟨k, v⟩, he, heq⟩
    cases heq
    exact ⟨v, he, rfl⟩
  · rintro ⟨v, he, rfl⟩
    exact ⟨⟨a, v⟩, he, rfl⟩

/-- A loop over distinct keys whose body changes the entry of its key by `f` changes each of them once. -/
theorem lookup_foldl {body : Table K V → K → Table K V} {f : K → Option V → Option V}
    (hbody : ∀ m k a, (body m k).lookup a = if a = k then f k (m.lookup k) else m.lookup a)
    {keys : List K} (hkeys : keys.Nodup) (m : Table K V) (a : K) :
    (keys.foldl body m).lookup a = if a ∈ keys then f a (m.lookup a) else m.lookup a := by
  induction keys generalizing m with
  | nil => simp
  | cons k keys ih =>
    obtain ⟨hk, hkeys⟩ := List.nodup_cons.mp hkeys
    rw [List.foldl_cons, ih hkeys]
    by_cases hak : a = k
    · subst hak
      rw [if_neg hk, if_pos List.mem_cons_self, hbody, if_pos rfl]
    · have hmem : a ∈ k :: keys ↔ a ∈ keys := by simp [hak]
      rw [hbody, if_neg hak]
      simp only [hmem]

/-- Each entry is left or changed by `R`, and none is made or removed. -/
def Evolves (R : V → V → Prop) (m n : Table K V) : Prop :=
  ∀ k, n.lookup k = m.lookup k ∨ ∃ v w, m.lookup k = some v ∧ n.lookup k = some w ∧ R v w

section

variable {R : V → V → Prop}

theorem Evolves.refl (m : Table K V) : Evolves R m m := fun _ => .inl rfl

theorem Evolves.of_some {n : Table K V} (h : Evolves R m n) {k : K} {w : V} (hw : n.lookup k = some w) :
    ∃ v, m.lookup k = some v ∧ (v = w ∨ R v w) := by
  rcases h k with heq | ⟨v, later, hv, hlater, hR⟩
  · exact ⟨w, heq ▸ hw, .inl rfl⟩
  · rw [hlater] at hw
    cases hw
    exact ⟨v, hv, .inr hR⟩

theorem evolves_insert {k : K} {v w : V} (hv : m.lookup k = some v) (hR : R v w) : Evolves R m (m.insert k w) := by
  intro a
  rw [lookup_insert_eq]
  split
  next heq =>
    subst a
    exact .inr ⟨v, w, hv, rfl, hR⟩
  next => exact .inl rfl

theorem evolves_foldl {body : Table K V → K → Table K V} {f : K → Option V → Option V}
    (hbody : ∀ m k a, (body m k).lookup a = if a = k then f k (m.lookup k) else m.lookup a)
    {keys : List K} (hkeys : keys.Nodup) (hf : ∀ k ∈ keys, f k (m.lookup k) = m.lookup k ∨
      ∃ v w, m.lookup k = some v ∧ f k (m.lookup k) = some w ∧ R v w) : Evolves R m (keys.foldl body m) := by
  intro k
  rw [lookup_foldl hbody hkeys]
  split
  next hmem => exact hf k hmem
  next => exact .inl rfl

end

/-- The key of some entry whose value satisfies `p`, in the order of iteration. -/
def findKey? (p : V → Bool) (m : Table K V) : Option K :=
  (m.entries.find? fun e => p e.2).map Sigma.fst

theorem lookup_of_findKey? {p : V → Bool} {k : K} (h : m.findKey? p = some k) :
    ∃ v, m.lookup k = some v ∧ p v = true := by
  obtain ⟨⟨k', v⟩, he, rfl⟩ := Option.map_eq_some_iff.mp h
  exact ⟨v, lookup_eq_some_iff.mpr (List.mem_of_find?_eq_some he), by
    simpa using List.find?_some he⟩

theorem findKey?_isSome {p : V → Bool} : (m.findKey? p).isSome ↔ ∃ k v, m.lookup k = some v ∧ p v = true := by
  simp only [findKey?, Option.isSome_map, List.find?_isSome, lookup_eq_some_iff, Sigma.exists]

end Table

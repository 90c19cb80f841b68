import MochiPort.Tables

/-! A map of the keys that were recorded last, and their order. -/

structure BoundedHistory (K V : Type*) where
  values : Table K V
  /-- The oldest key comes first. -/
  order : List K

namespace BoundedHistory

open List

variable {K V : Type*} [DecidableEq K] {limit : Nat} {h : BoundedHistory K V} {key : K} {value : V} {others : List K}

def empty : BoundedHistory K V := ⟨∅, []⟩

/-- Forgets the oldest keys until `limit` of them are left. -/
def evict (limit : Nat) (values : Table K V) : List K → BoundedHistory K V
  | [] => ⟨values, []⟩
  | oldest :: rest =>
    if limit < (oldest :: rest).length then evict limit (values.erase oldest) rest else ⟨values, oldest :: rest⟩

def record (limit : Nat) (h : BoundedHistory K V) (key : K) (value : V) : BoundedHistory K V :=
  evict limit (h.values.insert key value) (h.order ++ [key])

def replace (h : BoundedHistory K V) (key : K) (value : V) : BoundedHistory K V :=
  { h with values := h.values.insert key value }

def forget (h : BoundedHistory K V) (key : K) : BoundedHistory K V :=
  if (h.values.lookup key).isNone then h else ⟨h.values.erase key, h.order.filter (· ≠ key)⟩

/-- The map and the order have the same keys, each of them once. -/
structure Keyed (limit : Nat) (h : BoundedHistory K V) : Prop where
  nodup : h.order.Nodup
  mem : ∀ key, key ∈ h.order ↔ (h.values.lookup key).isSome = true
  bounded : h.order.length ≤ limit

theorem evict_of_le {values : Table K V} {order : List K} (h : order.length ≤ limit) :
    evict limit values order = ⟨values, order⟩ := by
  cases order with
  | nil => rfl
  | cons oldest rest => rw [evict, if_neg (by omega)]

theorem keyed_empty : Keyed limit (empty : BoundedHistory K V) where
  nodup := nodup_nil
  mem := by simp [empty]
  bounded := Nat.zero_le limit

section

variable (hk : Keyed limit h)
include hk

/-- A new key comes last; if there is no room for it the oldest one goes. -/
theorem Keyed.record_cases (hlimit : 0 < limit) (hnew : h.values.lookup key = none) (value : V) :
    (h.order.length < limit ∧ h.record limit key value = ⟨h.values.insert key value, h.order ++ [key]⟩) ∨
      ∃ oldest rest, h.order = oldest :: rest ∧ (oldest :: rest).length = limit ∧ oldest ≠ key ∧
        h.record limit key value = ⟨(h.values.insert key value).erase oldest, rest ++ [key]⟩ := by
  have hfresh : key ∉ h.order := by simp [hk.mem, hnew]
  by_cases hroom : h.order.length < limit
  · refine .inl ⟨hroom, ?_⟩
    have hlength : (h.order ++ [key]).length ≤ limit := by
      rw [length_append, length_singleton]
      omega
    rw [record, evict_of_le hlength]
  · cases horder : h.order with
    | nil =>
      rw [horder] at hroom
      exact absurd hlimit hroom
    | cons oldest rest =>
      have hfull : (oldest :: rest).length = limit := by
        have hle := hk.bounded
        rw [horder] at hle hroom
        omega
      have hlength : (rest ++ [key]).length ≤ limit := by
        simp only [length_append, length_cons, length_nil] at hfull ⊢
        omega
      have hne : oldest ≠ key := by
        rintro rfl
        simp [horder] at hfresh
      refine .inr ⟨oldest, rest, rfl, hfull, hne, ?_⟩
      rw [record, horder, cons_append, evict, if_pos, evict_of_le hlength]
      simp only [length_cons, length_append, length_nil] at hfull ⊢
      omega

theorem Keyed.record (hlimit : 0 < limit) (hnew : h.values.lookup key = none) :
    Keyed limit (h.record limit key value) := by
  have hfresh : key ∉ h.order := by simp [hk.mem, hnew]
  have hnodup : (h.order ++ [key]).Nodup := by
    refine nodup_append.mpr ⟨hk.nodup, nodup_singleton key, ?_⟩
    rintro a ha b hb rfl
    exact hfresh (mem_singleton.mp hb ▸ ha)
  rcases hk.record_cases hlimit hnew value with ⟨hroom, hrecord⟩ | ⟨oldest, rest, horder, hfull, hne, hrecord⟩
  · rw [hrecord]
    refine ⟨hnodup, fun other => ?_, ?_⟩
    · rw [mem_append, mem_singleton, hk.mem, Table.lookup_insert_eq]
      by_cases hother : other = key <;> simp [hother]
    · rw [length_append, length_singleton]
      omega
  · rw [hrecord]
    rw [horder, cons_append] at hnodup
    obtain ⟨hgone, hrest⟩ := nodup_cons.mp hnodup
    refine ⟨hrest, fun other => ?_, by simp [← hfull]⟩
    rw [Table.lookup_erase_eq, Table.lookup_insert_eq]
    have hmem := hk.mem other
    rw [horder, mem_cons] at hmem
    by_cases hold : other = oldest
    · subst hold
      simpa using hgone
    · simp only [hold, false_or, if_false] at hmem ⊢
      rw [mem_append, mem_singleton, hmem]
      by_cases hother : other = key <;> simp [hother]

theorem Keyed.replace (hold : (h.values.lookup key).isSome = true) : Keyed limit (h.replace key value) where
  nodup := hk.nodup
  mem other := by
    change other ∈ h.order ↔ ((h.values.insert key value).lookup other).isSome = true
    rw [Table.lookup_insert_eq, hk.mem]
    by_cases hother : other = key
    · subst hother
      simp [hold]
    · simp [hother]
  bounded := hk.bounded

theorem Keyed.forget : Keyed limit (h.forget key) := by
  unfold BoundedHistory.forget
  split
  next => exact hk
  next =>
    refine ⟨hk.nodup.filter _, fun other => ?_, Nat.le_trans (List.length_filter_le _ _) hk.bounded⟩
    rw [mem_filter, hk.mem, Table.lookup_erase_eq]
    by_cases hother : other = key <;> simp [hother]

end

@[simp] theorem lookup_forget_self : (h.forget key).values.lookup key = none := by
  unfold BoundedHistory.forget
  split
  next hnone => exact Option.isNone_iff_eq_none.mp hnone
  next => rw [Table.lookup_erase_eq, if_pos rfl]

theorem lookup_forget_none {other : K} (hnone : h.values.lookup key = none) :
    (h.forget other).values.lookup key = none := by
  unfold BoundedHistory.forget
  split
  next => exact hnone
  next => rw [Table.lookup_erase_eq, hnone, ite_self]

/-- The key has the value, and only keys of the list came after it. -/
structure Recent (h : BoundedHistory K V) (key : K) (value : V) (others : List K) : Prop where
  value : h.values.lookup key = some value
  after : ∃ before after, h.order = before ++ key :: after ∧ after ⊆ others

section

variable (hr : Recent h key value others)
include hr

/-- A new key keeps the others, as long as fewer than `limit` came after them. -/
theorem Recent.record (hk : Keyed limit h) (hlimit : 0 < limit)
    {newer : K} {value' : V} (hnew : h.values.lookup newer = none) {others' : List K} (hothers : others ⊆ others')
    (hmem : newer ∈ others') (hkey : key ∉ others') (hfew : ∀ l : List K, l.Nodup → l ⊆ others' → l.length < limit) :
    Recent (h.record limit newer value') key value others' := by
  obtain ⟨before, after, horder, hafter⟩ := hr.after
  have hne : key ≠ newer := fun heq => hkey (heq ▸ hmem)
  have hlater : after ++ [newer] ⊆ others' := by
    intro other hother
    rcases mem_append.mp hother with hother | hother
    · exact hothers (hafter hother)
    · exact mem_singleton.mp hother ▸ hmem
  rcases hk.record_cases hlimit hnew value' with ⟨-, hrecord⟩ | ⟨oldest, rest, hcons, hfull, hold, hrecord⟩
  · rw [hrecord]
    refine ⟨?_, before, after ++ [newer], by simp [horder], hlater⟩
    rw [Table.lookup_insert_eq, if_neg hne]
    exact hr.value
  · rw [hrecord]
    cases before with
    | nil =>
      obtain ⟨rfl, rfl⟩ := List.cons.inj (hcons.symm.trans horder)
      have hnodup : (rest ++ [newer]).Nodup := by
        have hkeyed : (h.record limit newer value').order.Nodup := (hk.record hlimit hnew).nodup
        rw [hrecord] at hkeyed
        exact hkeyed
      have hlength := hfew _ hnodup hlater
      simp only [length_append, length_cons, length_nil] at hfull hlength
      omega
    | cons first before =>
      obtain ⟨rfl, rfl⟩ := List.cons.inj (hcons.symm.trans horder)
      have hkept : key ≠ oldest := by
        rintro rfl
        have hnodup := hk.nodup
        rw [hcons] at hnodup
        simp at hnodup
      refine ⟨?_, before, after ++ [newer], by simp, hlater⟩
      rw [Table.lookup_erase_eq, if_neg hkept, Table.lookup_insert_eq, if_neg hne]
      exact hr.value

omit hr in
theorem Keyed.lookup_record_none (hk : Keyed limit h) (hlimit : 0 < limit) {newer : K}
    (hnew : h.values.lookup newer = none) (hne : key ≠ newer) (hkey : h.values.lookup key = none) :
    (h.record limit newer value).values.lookup key = none := by
  have hinsert : (h.values.insert newer value).lookup key = none := by
    rw [Table.lookup_insert_eq, if_neg hne]
    exact hkey
  rcases hk.record_cases hlimit hnew value with ⟨-, hrecord⟩ | ⟨oldest, rest, -, -, -, hrecord⟩
  · rw [hrecord]
    exact hinsert
  · rw [hrecord, Table.lookup_erase_eq, hinsert, ite_self]

omit hr in
theorem Keyed.recent_record (hk : Keyed limit h) (hlimit : 0 < limit) (hnew : h.values.lookup key = none) :
    Recent (h.record limit key value) key value others := by
  rcases hk.record_cases hlimit hnew value with ⟨-, hrecord⟩ | ⟨oldest, rest, -, -, hne, hrecord⟩
  · rw [hrecord]
    refine ⟨?_, h.order, [], rfl, nil_subset others⟩
    rw [Table.lookup_insert_eq, if_pos rfl]
  · rw [hrecord]
    refine ⟨?_, rest, [], rfl, nil_subset others⟩
    rw [Table.lookup_erase_eq, if_neg (Ne.symm hne), Table.lookup_insert_eq, if_pos rfl]

theorem Recent.replace_self {value' : V} : Recent (h.replace key value') key value' others := by
  refine ⟨?_, hr.after⟩
  change (h.values.insert key value').lookup key = some value'
  rw [Table.lookup_insert_eq, if_pos rfl]

theorem Recent.replace {other : K} {value' : V} (hne : key ≠ other) :
    Recent (h.replace other value') key value others := by
  refine ⟨?_, hr.after⟩
  change (h.values.insert other value').lookup key = some value
  rw [Table.lookup_insert_eq, if_neg hne]
  exact hr.value

theorem Recent.forget {other : K} (hne : key ≠ other) : Recent (h.forget other) key value others := by
  obtain ⟨before, after, horder, hafter⟩ := hr.after
  unfold BoundedHistory.forget
  split
  next => exact hr
  next =>
    refine ⟨?_, before.filter (· ≠ other), after.filter (· ≠ other), ?_, ?_⟩
    · rw [Table.lookup_erase_eq, if_neg hne]
      exact hr.value
    · rw [horder, filter_append, filter_cons_of_pos (by simpa using hne)]
    · exact fun key hkey => hafter (mem_of_mem_filter hkey)

end

end BoundedHistory

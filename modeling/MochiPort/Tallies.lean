import Mathlib.Algebra.BigOperators.Group.List.Basic
import Mathlib.Algebra.GroupWithZero.Nat

/-! A list with one entry for each key, where entries of one key are merged and no more than so many keys are
listed. -/

namespace Tallies

open List

variable {ε κ : Type*} [DecidableEq κ]

section

variable (key : ε → κ) (merge : ε → ε → ε)

/-- The first entry of the key takes the new one in. -/
def mergeFirst (entry : ε) : List ε → Option (List ε)
  | [] => none
  | first :: rest =>
    if key first = key entry then some (merge first entry :: rest) else (mergeFirst entry rest).map (first :: ·)

def push (cap : Nat) (entries : List ε) (entry : ε) : List ε :=
  match mergeFirst key merge entry entries with
  | some entries => entries
  | none => if entries.length < cap then entries ++ [entry] else entries

end

variable {key : ε → κ} {merge : ε → ε → ε} {M : Type*} [AddMonoid M] {size : ε → M} {cap : Nat}
  {entry : ε} {entries merged : List ε}

theorem mergeFirst_eq_none_iff : mergeFirst key merge entry entries = none ↔ key entry ∉ entries.map key := by
  induction entries with
  | nil => exact ⟨fun _ => not_mem_nil, fun _ => rfl⟩
  | cons first rest ih =>
    rw [mergeFirst, map_cons, mem_cons]
    by_cases heq : key first = key entry
    · rw [if_pos heq]
      exact ⟨fun hnone => absurd hnone (Option.some_ne_none _), fun hnot => absurd (.inl heq.symm) hnot⟩
    · rw [if_neg heq, Option.map_eq_none_iff, ih]
      exact ⟨fun hrest hmem => hmem.elim (fun hfirst => heq hfirst.symm) hrest, fun hnot hrest => hnot (.inr hrest)⟩

theorem mergeFirst_keys (hkey : ∀ a b, key (merge a b) = key a)
    (h : mergeFirst key merge entry entries = some merged) : merged.map key = entries.map key := by
  induction entries generalizing merged with
  | nil => exact absurd h (Option.some_ne_none _).symm
  | cons first rest ih =>
    rw [mergeFirst] at h
    split at h
    next =>
      rw [← Option.some.inj h, map_cons, map_cons, hkey]
    next =>
      obtain ⟨others, hothers, rfl⟩ := Option.map_eq_some_iff.mp h
      rw [map_cons, map_cons, ih hothers]

theorem mem_mergeFirst (hkey : ∀ a b, key (merge a b) = key a) (hsize : ∀ a b, size (merge a b) = size a + size b)
    (hnodup : (entries.map key).Nodup) (h : mergeFirst key merge entry entries = some merged) {other : ε}
    (hother : other ∈ merged) :
    (key other = key entry ∧ ∃ before ∈ entries, key before = key other ∧ size other = size before + size entry) ∨
      (key other ≠ key entry ∧ other ∈ entries) := by
  induction entries generalizing merged with
  | nil => exact absurd h (Option.some_ne_none _).symm
  | cons first rest ih =>
    obtain ⟨hfirst, hrest⟩ := nodup_cons.mp hnodup
    rw [mergeFirst] at h
    split at h
    next heq =>
      rw [← Option.some.inj h] at hother
      rcases mem_cons.mp hother with rfl | hother
      · exact .inl ⟨(hkey _ _).trans heq, first, mem_cons_self, (hkey _ _).symm, hsize _ _⟩
      · refine .inr ⟨fun hsame => hfirst ?_, mem_cons_of_mem _ hother⟩
        rw [heq, ← hsame]
        exact mem_map_of_mem hother
    next hne =>
      obtain ⟨others, hothers, rfl⟩ := Option.map_eq_some_iff.mp h
      rcases mem_cons.mp hother with rfl | hother
      · exact .inr ⟨hne, mem_cons_self⟩
      · rcases ih hrest hothers hother with ⟨hsame, before, hbefore, hsizes⟩ | ⟨hne, hmem⟩
        · exact .inl ⟨hsame, before, mem_cons_of_mem _ hbefore, hsizes⟩
        · exact .inr ⟨hne, mem_cons_of_mem _ hmem⟩

structure Tallied (key : ε → κ) (size : ε → M) (cap : Nat) (items entries : List ε) : Prop where
  nodup : (entries.map key).Nodup
  total : ∀ entry ∈ entries, size entry = ((items.filter fun item => key item = key entry).map size).sum
  named : ∀ entry ∈ entries, key entry ∈ items.map key
  listed : ∀ item ∈ items, key item ∈ entries.map key ∨ cap ≤ entries.length
  capped : entries.length ≤ cap
  bounded : entries.length ≤ items.length

theorem tallied_nil : Tallied key size cap [] [] where
  nodup := nodup_nil
  total := fun _ hentry => absurd hentry not_mem_nil
  named := fun _ hentry => absurd hentry not_mem_nil
  listed := fun _ hitem => absurd hitem not_mem_nil
  capped := Nat.zero_le cap
  bounded := Nat.le_refl 0

variable {items : List ε}

theorem sum_filter_append_of_eq {item : ε} (h : key item = key entry) :
    (((items ++ [item]).filter fun item => key item = key entry).map size).sum =
      ((items.filter fun item => key item = key entry).map size).sum + size item := by
  rw [filter_append, filter_cons_of_pos (by simpa using h), filter_nil, map_append,
    sum_append, map_singleton, sum_singleton]

theorem sum_filter_append_of_ne {item : ε} (h : key item ≠ key entry) :
    (((items ++ [item]).filter fun item => key item = key entry).map size).sum =
      ((items.filter fun item => key item = key entry).map size).sum := by
  rw [filter_append, filter_cons_of_neg (by simpa using h), filter_nil, append_nil]

omit [DecidableEq κ] in
theorem key_mem_append (item : ε) {k : κ} (h : k ∈ items.map key) : k ∈ (items ++ [item]).map key := by
  rw [map_append]
  exact mem_append_left _ h

omit [DecidableEq κ] in
theorem key_mem_append_self (item : ε) : key item ∈ (items ++ [item]).map key :=
  mem_map_of_mem (mem_append_right _ mem_cons_self)

namespace Tallied

variable {items : List ε} {item : ε}

section

variable (h : Tallied key size cap items entries)
include h

theorem absorb (hkey : ∀ a b, key (merge a b) = key a)
    (hsize : ∀ a b, size (merge a b) = size a + size b) (hmerge : mergeFirst key merge item entries = some merged) :
    Tallied key size cap (items ++ [item]) merged := by
  have hkeys := mergeFirst_keys hkey hmerge
  have hlengths : merged.length = entries.length := by
    have hmap := congrArg List.length hkeys
    rwa [length_map, length_map] at hmap
  have hlisted : key item ∈ merged.map key := by
    by_contra hmissing
    have hnone := (mergeFirst_eq_none_iff.mpr (hkeys ▸ hmissing) : mergeFirst key merge item entries = none)
    exact absurd (hmerge.symm.trans hnone) (Option.some_ne_none _)
  refine ⟨hkeys ▸ h.nodup, fun entry hentry => ?_, fun entry hentry => ?_, fun other hother => ?_,
    hlengths ▸ h.capped, ?_⟩
  · rcases mem_mergeFirst hkey hsize h.nodup hmerge hentry with ⟨hsame, before, hbefore, hkeys, hsizes⟩ | ⟨hne, hmem⟩
    · rw [sum_filter_append_of_eq hsame.symm, hsizes, h.total before hbefore, hkeys]
    · rw [sum_filter_append_of_ne fun heq => hne heq.symm]
      exact h.total entry hmem
  · have hentries : key entry ∈ entries.map key := hkeys ▸ mem_map_of_mem hentry
    obtain ⟨before, hbefore, heq⟩ := mem_map.mp hentries
    rw [← heq]
    exact key_mem_append item (h.named before hbefore)
  · rcases mem_append.mp hother with hother | hother
    · rw [hkeys, hlengths]
      exact h.listed other hother
    · rw [mem_singleton.mp hother]
      exact .inl hlisted
  · rw [hlengths, length_append]
    exact Nat.le_add_right_of_le h.bounded

theorem append (hmissing : key item ∉ entries.map key)
    (hroom : entries.length < cap) : Tallied key size cap (items ++ [item]) (entries ++ [item]) := by
  have hone : ∀ l : List ε, (l ++ [item]).length = l.length + 1 := fun l => length_append
  refine ⟨?_, fun entry hentry => ?_, fun entry hentry => ?_, fun other hother => .inl ?_, ?_, ?_⟩
  · rw [map_append, map_singleton, nodup_append]
    refine ⟨h.nodup, pairwise_singleton _ _, fun a ha b hb heq => hmissing ?_⟩
    rw [← mem_singleton.mp hb, ← heq]
    exact ha
  · rcases mem_append.mp hentry with hentry | hentry
    · have hne : key item ≠ key entry := fun heq => hmissing (heq ▸ mem_map_of_mem hentry)
      rw [sum_filter_append_of_ne hne]
      exact h.total entry hentry
    · rw [mem_singleton.mp hentry, sum_filter_append_of_eq rfl]
      -- there was room, so no item of this key came before
      have hfirst : (items.filter fun other => key other = key item) = [] := by
        refine filter_eq_nil_iff.mpr fun other hother hsame => ?_
        rcases h.listed other hother with hlisted | hfull
        · rw [of_decide_eq_true hsame] at hlisted
          exact hmissing hlisted
        · omega
      rw [hfirst, map_nil, sum_nil, zero_add]
  · rcases mem_append.mp hentry with hentry | hentry
    · exact key_mem_append item (h.named entry hentry)
    · rw [mem_singleton.mp hentry]
      exact key_mem_append_self item
  · rcases mem_append.mp hother with hother | hother
    · rcases h.listed other hother with hlisted | hfull
      · exact key_mem_append item hlisted
      · omega
    · rw [mem_singleton.mp hother]
      exact key_mem_append_self item
  · rw [hone]
    exact hroom
  · rw [hone, hone]
    exact Nat.succ_le_succ h.bounded

theorem full (hmissing : key item ∉ entries.map key)
    (hfull : cap ≤ entries.length) : Tallied key size cap (items ++ [item]) entries := by
  refine ⟨h.nodup, fun entry hentry => ?_, fun entry hentry => key_mem_append item (h.named entry hentry),
    fun other hother => ?_, h.capped, ?_⟩
  · have hne : key item ≠ key entry := fun heq => hmissing (heq ▸ mem_map_of_mem hentry)
    rw [sum_filter_append_of_ne hne]
    exact h.total entry hentry
  · exact .inr hfull
  · rw [length_append]
    exact Nat.le_add_right_of_le h.bounded

end

theorem push (merge : ε → ε → ε) (h : Tallied key size cap items entries) (hkey : ∀ a b, key (merge a b) = key a)
    (hsize : ∀ a b, size (merge a b) = size a + size b) (item : ε) :
    Tallied key size cap (items ++ [item]) (Tallies.push key merge cap entries item) := by
  unfold Tallies.push
  cases hmerge : mergeFirst key merge item entries with
  | some merged => exact h.absorb hkey hsize hmerge
  | none =>
    have hmissing := mergeFirst_eq_none_iff.mp hmerge
    dsimp only
    split
    next hroom => exact h.append hmissing hroom
    next hfull => exact h.full hmissing (Nat.le_of_not_lt hfull)

theorem foldl (merge : ε → ε → ε) (hkey : ∀ a b, key (merge a b) = key a)
    (hsize : ∀ a b, size (merge a b) = size a + size b) {before : List ε}
    (h : Tallied key size cap before entries) (items : List ε) :
    Tallied key size cap (before ++ items) (items.foldl (Tallies.push key merge cap) entries) := by
  induction items generalizing before entries with
  | nil =>
    rw [append_nil]
    exact h
  | cons item items ih =>
    have hrest := ih (h.push merge hkey hsize item)
    rw [append_assoc] at hrest
    exact hrest

end Tallied

end Tallies

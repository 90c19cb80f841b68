import Mathlib.Data.List.Nodup
import Mathlib.Data.List.Perm.Subperm

/-! Lists of numbered entries that lose their oldest ones. -/

namespace Roster

open List

variable {K : Type*} {listed : List (K × Nat)} {gone : Nat} {seen : List K} {first later : K → Option Nat}

/-- The list accounts for every key that it has seen: an entry is listed once, under the number that its key got
first, or it is one of those that are gone. -/
structure Keeps (listed : List (K × Nat)) (gone : Nat) (seen : List K) (first : K → Option Nat) : Prop where
  count : listed.length + gone = seen.length
  seen_nodup : seen.Nodup
  listed_nodup : (listed.map Prod.fst).Nodup
  listed_seen : ∀ e ∈ listed, e.1 ∈ seen
  numbered : ∀ e ∈ listed, first e.1 = some e.2

theorem keeps_nil (first : K → Option Nat) : Keeps [] 0 [] first :=
  ⟨rfl, nodup_nil, nodup_nil, fun _ he => absurd he not_mem_nil, fun _ he => absurd he not_mem_nil⟩

section

variable (h : Keeps listed gone seen first)
include h

/-- A number that is given later leaves those that were given. -/
theorem Keeps.congr (hlater : ∀ k ∈ seen, later k = first k) : Keeps listed gone seen later := by
  refine { h with numbered := fun e he => ?_ }
  rw [hlater e.1 (h.listed_seen e he)]
  exact h.numbered e he

theorem Keeps.push {k : K} {n : Nat} (hk : k ∉ seen) (hn : first k = some n) :
    Keeps (listed ++ [(k, n)]) gone (k :: seen) first where
  count := by
    have hcount := h.count
    simp only [length_append, length_cons, length_nil]
    omega
  seen_nodup := nodup_cons.mpr ⟨hk, h.seen_nodup⟩
  listed_nodup := by
    have hfresh : k ∉ listed.map Prod.fst := by
      intro hm
      obtain ⟨e, he, rfl⟩ := mem_map.mp hm
      exact hk (h.listed_seen e he)
    rw [map_append, nodup_append]
    refine ⟨h.listed_nodup, nodup_singleton k, fun a ha b hb heq => ?_⟩
    have hbk : b = k := mem_singleton.mp hb
    rw [heq, hbk] at ha
    exact hfresh ha
  listed_seen := by
    intro e he
    rcases mem_append.mp he with he | he
    · exact mem_cons_of_mem k (h.listed_seen e he)
    · rw [mem_singleton.mp he]
      exact mem_cons_self
  numbered := by
    intro e he
    rcases mem_append.mp he with he | he
    · exact h.numbered e he
    · rw [mem_singleton.mp he]
      exact hn

theorem Keeps.sublist {kept : List (K × Nat)} (hkept : kept.Sublist listed) :
    Keeps kept (gone + (listed.length - kept.length)) seen first where
  count := by
    have hcount := h.count
    have hle := hkept.length_le
    omega
  seen_nodup := h.seen_nodup
  listed_nodup := h.listed_nodup.sublist (hkept.map Prod.fst)
  listed_seen := fun e he => h.listed_seen e (hkept.subset he)
  numbered := fun e he => h.numbered e (hkept.subset he)

end

/-- The keys have numbers from one on, each its own, below the next one. -/
structure Numbered (next : Nat) (first : K → Option Nat) : Prop where
  pos : ∀ k n, first k = some n → 0 < n
  lt : ∀ k n, first k = some n → n < next
  unique : ∀ k l n, first k = some n → first l = some n → k = l

theorem Numbered.length_lt {next : Nat} (h : Numbered next first) (hnext : 0 < next) (hseen : seen.Nodup)
    (hall : ∀ k ∈ seen, (first k).isSome) : seen.length < next := by
  have hnodup : (seen.filterMap first).Nodup := hseen.filterMap fun k l n hk hl => h.unique k l n hk hl
  have hlength : (seen.filterMap first).length = seen.length :=
    filterMap_length_eq_length.mpr hall
  have hsubset : ∀ n ∈ seen.filterMap first, n ∈ (List.range next).erase 0 := by
    intro n hn
    obtain ⟨k, -, hk⟩ := mem_filterMap.mp hn
    have hpos := h.pos k n hk
    exact (mem_erase_of_ne (by omega)).mpr (mem_range.mpr (h.lt k n hk))
  have hle := (hnodup.subperm hsubset).length_le
  rw [length_erase_of_mem (mem_range.mpr hnext), length_range] at hle
  omega

theorem Numbered.assign {next : Nat} (h : Numbered next first) (hnext : 0 < next) {k : K}
    (hk : later k = some next) (hothers : ∀ l, l ≠ k → later l = first l) : Numbered (next + 1) later where
  pos := by
    intro l n hl
    by_cases hlk : l = k
    · rw [hlk, hk] at hl
      cases hl
      exact hnext
    · rw [hothers l hlk] at hl
      exact h.pos l n hl
  lt := by
    intro l n hl
    by_cases hlk : l = k
    · rw [hlk, hk] at hl
      cases hl
      omega
    · rw [hothers l hlk] at hl
      have hlt := h.lt l n hl
      omega
  unique := by
    -- the number of every other key is an earlier one
    have hearlier : ∀ l n, l ≠ k → later l = some n → n < next := by
      intro l n hlk hl
      rw [hothers l hlk] at hl
      exact h.lt l n hl
    intro l m n hl hm
    by_cases hlk : l = k
    · by_cases hmk : m = k
      · rw [hlk, hmk]
      · rw [hlk, hk] at hl
        cases hl
        exact absurd (hearlier m _ hmk hm) (Nat.lt_irrefl _)
    · by_cases hmk : m = k
      · rw [hmk, hk] at hm
        cases hm
        exact absurd (hearlier l _ hlk hl) (Nat.lt_irrefl _)
      · rw [hothers l hlk] at hl
        rw [hothers m hmk] at hm
        exact h.unique l m n hl hm

theorem Numbered.mono {next further : Nat} (h : Numbered next first) (hle : next ≤ further) : Numbered further first :=
  { h with lt := fun k n hk => Nat.lt_of_lt_of_le (h.lt k n hk) hle }

theorem Numbered.comp {L : Type*} {next : Nat} (h : Numbered next first) {f : L → K} (hf : Function.Injective f) :
    Numbered next fun l => first (f l) where
  pos l n hl := h.pos (f l) n hl
  lt l n hl := h.lt (f l) n hl
  unique l m n hl hm := hf (h.unique (f l) (f m) n hl hm)

theorem lookup_of_mem [BEq K] [LawfulBEq K] (hnodup : (listed.map Prod.fst).Nodup) {k : K} {n : Nat}
    (h : (k, n) ∈ listed) : listed.lookup k = some n := by
  induction listed with
  | nil => exact absurd h not_mem_nil
  | cons e rest ih =>
    obtain ⟨hfresh, hrest⟩ := nodup_cons.mp hnodup
    rcases mem_cons.mp h with heq | hmem
    · rw [← heq]
      exact lookup_cons_self
    · have hne : k ≠ e.1 := by
        intro hke
        exact hfresh (hke ▸ mem_map_of_mem (f := Prod.fst) hmem)
      rw [lookup_cons, beq_eq_false_iff_ne.mpr hne]
      exact ih hrest hmem

end Roster

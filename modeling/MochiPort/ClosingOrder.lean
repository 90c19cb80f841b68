import Mathlib.Data.List.Range
import Mathlib.Data.List.Perm.Subperm
import Mathlib.Data.List.Sort

/-! Things that are numbered when they are opened and listed when they are closed. -/

namespace ClosingOrder

open List

/-- The numbers of the closed things, in the order in which they were closed, are those of their places. -/
def InTurn (closed : List Nat) : Prop := closed = List.range closed.length

/-- The numbers up to `next` are those of the closed things and of the open ones, which are kept in order. -/
structure Numbered (next : Nat) (closed opened : List Nat) : Prop where
  perm : (closed ++ opened).Perm (List.range next)
  increasing : opened.Pairwise (· < ·)

variable {next : Nat} {closed opened : List Nat}

theorem inTurn_nil : InTurn [] := rfl

theorem inTurn_iff_getElem : InTurn closed ↔ ∀ i n : Nat, closed[i]? = some n → n = i := by
  constructor
  · intro h i n hn
    rw [h, List.getElem?_range (by rw [h] at hn; simpa using (List.getElem?_eq_some_iff.mp hn).1)] at hn
    exact (Option.some.inj hn).symm
  · intro h
    refine ext_getElem (by simp) ?_
    intro i hi _
    rw [getElem_range]
    exact h i closed[i] (List.getElem?_eq_getElem hi)

theorem InTurn.prefix {closed' : List Nat} (h : InTurn closed') (hstarts : closed <+: closed') : InTurn closed := by
  rw [inTurn_iff_getElem] at h ⊢
  intro i n hn
  obtain ⟨rest, rfl⟩ := hstarts
  have hlt := (List.getElem?_eq_some_iff.mp hn).1
  exact h i n ((List.getElem?_append_left hlt).trans hn)

theorem numbered_start : Numbered 0 [] [] := ⟨.refl _, .nil⟩

section

variable (h : Numbered next closed opened)
include h

theorem Numbered.nodup : (closed ++ opened).Nodup :=
  h.perm.nodup_iff.mpr nodup_range

theorem Numbered.lt {n : Nat} (hn : n ∈ opened) : n < next :=
  mem_range.mp (h.perm.subset (mem_append_right closed hn))

theorem Numbered.eq_range (hturn : InTurn closed) : closed ++ opened = List.range next := by
  have hbelow : ∀ a ∈ closed, ∀ b ∈ opened, a < b := by
    intro a ha b hb
    have hdisjoint := disjoint_of_nodup_append h.nodup
    rw [hturn] at ha
    have hbound : closed.length ≤ b := by
      by_contra hlt
      have hmem : b ∈ closed := by
        rw [hturn]
        exact mem_range.mpr (by omega)
      exact hdisjoint hmem hb
    have hlt := mem_range.mp ha
    omega
  have hsorted : (closed ++ opened).Pairwise (· < ·) := by
    refine pairwise_append.mpr ⟨?_, h.increasing, hbelow⟩
    rw [hturn]
    exact pairwise_lt_range
  exact h.perm.eq_of_pairwise (fun a b _ _ hab hba => absurd hba (Nat.lt_asymm hab)) hsorted pairwise_lt_range

theorem Numbered.inTurn_append_iff {batch : List Nat} (hbatch : batch ⊆ opened) :
    InTurn (closed ++ batch) ↔ InTurn closed ∧ batch <+: opened := by
  constructor
  · intro hturn
    have hclosed := hturn.prefix (prefix_append closed batch)
    have hrange := h.eq_range hclosed
    refine ⟨hclosed, ?_⟩
    have hlength : (closed ++ batch).length ≤ next := by
      have hnodup : (closed ++ batch).Nodup := by
        rw [hturn]
        exact nodup_range
      have hsub : closed ++ batch ⊆ List.range next := by
        rw [← hrange]
        exact append_subset.mpr ⟨subset_append_left .., fun n hn => mem_append_right closed (hbatch hn)⟩
      have hle := List.Nodup.length_le_of_subset hnodup hsub
      rwa [length_range] at hle
    have hstarts : closed ++ batch <+: closed ++ opened := by
      rw [hturn, hrange, prefix_iff_eq_take, take_range, length_range, Nat.min_eq_left hlength]
    exact (prefix_append_right_inj closed).mp hstarts
  · intro hboth
    obtain ⟨hclosed, rest, hrest⟩ := hboth
    have hrange := h.eq_range hclosed
    rw [← hrest, ← append_assoc] at hrange
    have hall : InTurn (closed ++ batch ++ rest) := by
      rw [InTurn, hrange, length_range]
    exact hall.prefix (prefix_append _ rest)

theorem Numbered.open : Numbered (next + 1) closed (opened ++ [next]) := by
  refine ⟨?_, ?_⟩
  · rw [← append_assoc, range_succ]
    exact h.perm.append_right [next]
  · refine pairwise_append.mpr ⟨h.increasing, pairwise_singleton .., ?_⟩
    intro a ha b hb
    rw [mem_singleton.mp hb]
    exact h.lt ha

theorem Numbered.close {batch rest : List Nat} (hperm : opened.Perm (batch ++ rest)) (hrest : rest.Sublist opened) :
    Numbered next (closed ++ batch) rest := by
  refine ⟨?_, h.increasing.sublist hrest⟩
  rw [append_assoc]
  exact (hperm.symm.append_left closed).trans h.perm

end

/-- What is listed up to some point is all there is, each thing at the place of its number, if and only if all were
closed by then, and in turn. -/
theorem listed_iff {α : Type*} {listed closed : List (Nat × α)} (hstarts : listed <+: closed)
    (hnodup : (closed.map Prod.fst).Nodup) (hsnd : ∀ a ∈ closed, ∀ b ∈ closed, a.2 = b.2 → a.1 = b.1) :
    (∀ i x, (listed.map Prod.snd)[i]? = some x ↔ (i, x) ∈ closed) ↔
      listed.length = closed.length ∧ InTurn (closed.map Prod.fst) := by
  constructor
  · intro h
    have hplace : ∀ j n, (closed.map Prod.fst)[j]? = some n → n = j ∧ j < listed.length := by
      intro j n hn
      rw [List.getElem?_map, Option.map_eq_some_iff] at hn
      obtain ⟨⟨i, x⟩, hj, hi⟩ := hn
      subst hi
      have hmem := mem_of_getElem? hj
      have hlisted := (h i x).mpr hmem
      rw [List.getElem?_map, Option.map_eq_some_iff] at hlisted
      obtain ⟨⟨k, y⟩, hk, hy⟩ := hlisted
      subst hy
      have hlt := (List.getElem?_eq_some_iff.mp hk).1
      obtain ⟨rest, rfl⟩ := hstarts
      have hk' : (listed ++ rest)[i]? = some (k, y) := (List.getElem?_append_left hlt).trans hk
      have hsame := hsnd (k, y) (mem_of_getElem? hk') (i, y) hmem rfl
      have hki : k = i := hsame
      subst hki
      have hbound : j < ((listed ++ rest).map Prod.fst).length := by
        rw [length_map]
        exact (List.getElem?_eq_some_iff.mp hj).1
      have hfst : ((listed ++ rest).map Prod.fst)[j]? = ((listed ++ rest).map Prod.fst)[k]? := by
        rw [List.getElem?_map, List.getElem?_map, hj, hk']
      have hjk := (List.getElem?_inj hbound hnodup).mp hfst
      subst hjk
      exact ⟨rfl, hlt⟩
    have hturn : InTurn (closed.map Prod.fst) := inTurn_iff_getElem.mpr fun j n hn => (hplace j n hn).1
    refine ⟨?_, hturn⟩
    have hle := hstarts.length_le
    by_contra hne
    have hlt : listed.length < (closed.map Prod.fst).length := by
      rw [length_map]
      omega
    have hlast := (hplace listed.length _ (List.getElem?_eq_getElem hlt)).2
    omega
  · intro h i x
    obtain ⟨hlength, hturn⟩ := h
    have hsame : listed = closed := hstarts.eq_of_length hlength
    subst hsame
    constructor
    · intro hx
      rw [List.getElem?_map, Option.map_eq_some_iff] at hx
      obtain ⟨⟨n, y⟩, hi, hy⟩ := hx
      subst hy
      have hn := inTurn_iff_getElem.mp hturn i n (by rw [List.getElem?_map, hi]; rfl)
      subst hn
      exact mem_of_getElem? hi
    · intro hmem
      obtain ⟨j, hj⟩ := mem_iff_getElem?.mp hmem
      have hi := inTurn_iff_getElem.mp hturn j i (by rw [List.getElem?_map, hj]; rfl)
      subst hi
      rw [List.getElem?_map, hj]
      rfl

end ClosingOrder

import Mathlib.Data.List.Nodup

/-! Items that are kept at places, each place with its list. -/

namespace Whereabouts

open List

variable {P I : Type*} [DecidableEq P] {w : P → List I} {p q r : P} {known : I → Prop}

def put (w : P → List I) (p : P) (items : List I) : P → List I := Function.update w p (w p ++ items)

/-- The first items of a place go to the end of another one. -/
def move (w : P → List I) (p q : P) (n : Nat) : P → List I :=
  put (Function.update w p ((w p).drop n)) q ((w p).take n)

/-- Every known item is at one place, and there once. -/
structure Accounted (known : I → Prop) (w : P → List I) : Prop where
  nodup : ∀ p, (w p).Nodup
  unique : ∀ p q i, i ∈ w p → i ∈ w q → p = q
  known_iff : ∀ i, known i ↔ ∃ p, i ∈ w p

variable {i : I}

omit [DecidableEq P] in
theorem Accounted.existsUnique (h : Accounted known w) (hi : known i) : ∃! p, i ∈ w p := by
  obtain ⟨p, hp⟩ := (h.known_iff i).mp hi
  exact ⟨p, hp, fun q hq => h.unique q p i hq hp⟩

variable {w' : P → List I}

theorem eq_put {items : List I} (hp : w' p = w p ++ items) (hrest : ∀ r, r ≠ p → w' r = w r) : w' = put w p items := by
  funext r
  by_cases hr : r = p
  · rw [hr, put, Function.update_self, hp]
  · rw [put, Function.update_of_ne hr, hrest r hr]

variable {n : Nat}

theorem eq_move (hpq : p ≠ q) (hp : w' p = (w p).drop n) (hq : w' q = w q ++ (w p).take n)
    (hrest : ∀ r, r ≠ p → r ≠ q → w' r = w r) : w' = move w p q n := by
  refine eq_put ?_ fun r hrq => ?_
  · rw [Function.update_of_ne hpq.symm, hq]
  · by_cases hrp : r = p
    · rw [hrp, Function.update_self, hp]
    · rw [Function.update_of_ne hrp, hrest r hrp hrq]

theorem mem_put {items : List I} : i ∈ put w p items r ↔ i ∈ w r ∨ r = p ∧ i ∈ items := by
  by_cases hr : r = p
  · subst hr
    simp [put]
  · simp [put, hr]

theorem Accounted.put (h : Accounted known w) (p : P) (hnew : ¬known i) :
    Accounted (fun j => known j ∨ j = i) (Whereabouts.put w p [i]) := by
  have hnowhere : ∀ q, i ∉ w q := fun q hq => hnew ((h.known_iff i).mpr ⟨q, hq⟩)
  refine ⟨fun q => ?_, fun q r j hq hr => ?_, fun j => ?_⟩
  · by_cases hq : q = p
    · subst hq
      have happend : (w q ++ [i]).Nodup :=
        nodup_append.mpr ⟨h.nodup q, nodup_singleton i, fun a ha b hb heq =>
          hnowhere q (mem_singleton.mp hb ▸ heq ▸ ha)⟩
      rwa [Whereabouts.put, Function.update_self]
    · rw [Whereabouts.put, Function.update_of_ne hq]
      exact h.nodup q
  · rcases mem_put.mp hq with hold | ⟨hqp, hi⟩
    · rcases mem_put.mp hr with hold' | ⟨-, hi⟩
      · exact h.unique q r j hold hold'
      · exact absurd (mem_singleton.mp hi ▸ hold) (hnowhere q)
    · rcases mem_put.mp hr with hold | ⟨hrp, -⟩
      · exact absurd (mem_singleton.mp hi ▸ hold) (hnowhere r)
      · exact hqp.trans hrp.symm
  · constructor
    · rintro (hj | rfl)
      · obtain ⟨q, hq⟩ := (h.known_iff j).mp hj
        exact ⟨q, mem_put.mpr (Or.inl hq)⟩
      · exact ⟨p, mem_put.mpr (Or.inr ⟨rfl, mem_singleton_self j⟩)⟩
    · rintro ⟨q, hq⟩
      rcases mem_put.mp hq with hq | ⟨-, hi⟩
      · exact Or.inl ((h.known_iff j).mpr ⟨q, hq⟩)
      · exact Or.inr (mem_singleton.mp hi)

theorem mem_drop_or_take (items : List I) (n : Nat) (i : I) : i ∈ items ↔ i ∈ items.drop n ∨ i ∈ items.take n := by
  conv_lhs => rw [← take_append_drop n items]
  rw [mem_append, or_comm]

theorem mem_move : i ∈ move w p q n r ↔ (if r = p then i ∈ (w p).drop n else i ∈ w r) ∨ r = q ∧ i ∈ (w p).take n := by
  rw [move, mem_put]
  by_cases hr : r = p
  · subst hr
    rw [Function.update_self, if_pos rfl]
  · rw [Function.update_of_ne hr, if_neg hr]

theorem exists_mem_move : (∃ r, i ∈ move w p q n r) ↔ ∃ r, i ∈ w r := by
  constructor
  · rintro ⟨r, hr⟩
    rcases mem_move.mp hr with hr | ⟨-, hi⟩
    · split at hr
      next => exact ⟨p, mem_of_mem_drop hr⟩
      next => exact ⟨r, hr⟩
    · exact ⟨p, mem_of_mem_take hi⟩
  · rintro ⟨r, hr⟩
    by_cases hrp : r = p
    · subst hrp
      rcases (mem_drop_or_take (w r) n i).mp hr with hi | hi
      · exact ⟨r, mem_move.mpr (Or.inl (by rwa [if_pos rfl]))⟩
      · exact ⟨q, mem_move.mpr (Or.inr ⟨rfl, hi⟩)⟩
    · exact ⟨r, mem_move.mpr (Or.inl (by rwa [if_neg hrp]))⟩

theorem Accounted.move (h : Accounted known w) (p q : P) (n : Nat) : Accounted known (Whereabouts.move w p q n) := by
  have hsplit : ((w p).take n ++ (w p).drop n).Nodup := (take_append_drop n (w p)).symm ▸ h.nodup p
  have hapart : ∀ i, i ∈ (w p).take n → i ∉ (w p).drop n := fun i ht hd =>
    (nodup_append.mp hsplit).2.2 i ht i hd rfl
  have hleft : ∀ r i, i ∈ (w p).take n → i ∉ Function.update w p ((w p).drop n) r := by
    intro r i hi hr
    by_cases hrp : r = p
    · subst hrp
      rw [Function.update_self] at hr
      exact hapart i hi hr
    · rw [Function.update_of_ne hrp] at hr
      exact hrp (h.unique r p i hr (mem_of_mem_take hi))
  have hdropped : ∀ r i, i ∈ Function.update w p ((w p).drop n) r → i ∈ w r := by
    intro r i hr
    by_cases hrp : r = p
    · subst hrp
      rw [Function.update_self] at hr
      exact mem_of_mem_drop hr
    · rwa [Function.update_of_ne hrp] at hr
  have hnodup : ∀ r, (Function.update w p ((w p).drop n) r).Nodup := by
    intro r
    by_cases hrp : r = p
    · subst hrp
      rw [Function.update_self]
      exact (h.nodup r).sublist (drop_sublist n (w r))
    · rw [Function.update_of_ne hrp]
      exact h.nodup r
  refine ⟨fun r => ?_, fun r s i hr hs => ?_, fun i => (h.known_iff i).trans exists_mem_move.symm⟩
  · by_cases hrq : r = q
    · subst hrq
      have happend := nodup_append.mpr
        ⟨hnodup r, (h.nodup p).sublist (take_sublist n (w p)), fun a ha b hb heq => hleft r b hb (heq ▸ ha)⟩
      rwa [Whereabouts.move, Whereabouts.put, Function.update_self]
    · rw [Whereabouts.move, Whereabouts.put, Function.update_of_ne hrq]
      exact hnodup r
  · rcases mem_put.mp hr with hold | ⟨hrq, htaken⟩
    · rcases mem_put.mp hs with hold' | ⟨-, htaken⟩
      · exact h.unique r s i (hdropped r i hold) (hdropped s i hold')
      · exact absurd hold (hleft r i htaken)
    · rcases mem_put.mp hs with hold | ⟨hsq, -⟩
      · exact absurd hold (hleft s i htaken)
      · exact hrq.trans hsq.symm

theorem Accounted.of_move (h : Accounted known w) (hpq : p ≠ q) (hp : w' p = (w p).drop n)
    (hq : w' q = w q ++ (w p).take n) (hrest : ∀ r, r ≠ p → r ≠ q → w' r = w r) :
    Accounted known w' := eq_move hpq hp hq hrest ▸ h.move p q n

end Whereabouts

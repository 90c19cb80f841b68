import Mathlib.Order.WithBot
import Mathlib.Data.List.Pairwise

/-!
# High-water filters

A receiver that keeps an item only when its key is above every key kept before.
-/

namespace HighWater

variable {α σ κ : Type*} [LinearOrder κ] {key : α → κ}

/-- The items whose key is above the mark, where the mark follows the items kept. -/
def keep (key : α → κ) : WithBot κ → List α → List α
  | _, [] => []
  | mark, x :: xs => if mark < (key x : WithBot κ) then x :: keep key (key x) xs else keep key mark xs

/-- One arrival at a receiver that runs `f` on the items it keeps. -/
def filtered (key : α → κ) (f : σ → α → σ) (s : WithBot κ × σ) (x : α) : WithBot κ × σ :=
  if s.1 < (key x : WithBot κ) then (key x, f s.2 x) else s

theorem filtered_of_lt {f : σ → α → σ} {s : WithBot κ × σ} {x : α} (h : s.1 < (key x : WithBot κ)) :
    filtered key f s x = ((key x : WithBot κ), f s.2 x) :=
  if_pos h

theorem filtered_of_not_lt {f : σ → α → σ} {s : WithBot κ × σ} {x : α}
    (h : ¬s.1 < (key x : WithBot κ)) : filtered key f s x = s :=
  if_neg h

theorem foldl_filtered (f : σ → α → σ) (mark : WithBot κ) (s : σ) (xs : List α) :
    (xs.foldl (filtered key f) (mark, s)).2 = (keep key mark xs).foldl f s := by
  induction xs generalizing mark s with
  | nil => rfl
  | cons x xs ih =>
    simp only [List.foldl_cons, filtered, keep]
    split
    next => exact ih _ _
    next => exact ih _ _

/-- The arrivals are the items sent, in order, with copies of earlier arrivals put in anywhere. -/
inductive Resent : List α → List α → List α → Prop where
  | done {seen : List α} : Resent seen [] []
  | fresh {seen sent arrivals : List α} {x : α} (h : Resent (x :: seen) sent arrivals) :
      Resent seen (x :: sent) (x :: arrivals)
  | again {seen sent arrivals : List α} {x : α} (hx : x ∈ seen) (h : Resent seen sent arrivals) :
      Resent seen sent (x :: arrivals)

variable {mark : WithBot κ}

theorem keep_of_resent {seen sent arrivals : List α} (h : Resent seen sent arrivals)
    (hseen : ∀ x ∈ seen, (key x : WithBot κ) ≤ mark) (hmark : ∀ x ∈ sent, mark < (key x : WithBot κ))
    (hsent : sent.Pairwise fun x y => key x < key y) : keep key mark arrivals = sent := by
  induction h generalizing mark with
  | done => rfl
  | @fresh seen sent arrivals x _ ih =>
    obtain ⟨hx, hsent⟩ := List.pairwise_cons.mp hsent
    have hm := hmark x (List.mem_cons_self ..)
    have hrest : keep key (key x) arrivals = sent := by
      refine ih (fun y hy => ?_) (fun y hy => WithBot.coe_lt_coe.mpr (hx y hy)) hsent
      rcases List.mem_cons.mp hy with rfl | hy
      · exact le_rfl
      · exact (hseen y hy).trans hm.le
    simp only [keep, if_pos hm, hrest]
  | @again seen sent arrivals x hx _ ih =>
    have hm := (hseen x hx).not_gt
    simp only [keep, if_neg hm]
    exact ih hseen hmark hsent

variable {xs : List α}

theorem keep_above : ∀ x ∈ keep key mark xs, mark < (key x : WithBot κ) := by
  induction xs generalizing mark with
  | nil => simp [keep]
  | cons y ys ih =>
    intro x hx
    simp only [keep] at hx
    split at hx
    next hy =>
      rcases List.mem_cons.mp hx with rfl | hx
      · exact hy
      · exact hy.trans (ih x hx)
    next => exact ih x hx

theorem keep_increasing : (keep key mark xs).Pairwise fun x y => key x < key y := by
  induction xs generalizing mark with
  | nil => simp [keep]
  | cons y ys ih =>
    simp only [keep]
    split
    next =>
      exact List.pairwise_cons.mpr ⟨fun x hx => WithBot.coe_lt_coe.mp (keep_above x hx), ih⟩
    next => exact ih

theorem keep_bot_eq_self_iff : keep key ⊥ xs = xs ↔ xs.Pairwise fun x y => key x < key y := by
  constructor
  · intro h
    rw [← h]
    exact keep_increasing
  · intro h
    have hself : ∀ (seen ys : List α), Resent seen ys ys := fun seen ys => by
      induction ys generalizing seen with
      | nil => exact .done
      | cons y ys ih => exact .fresh (ih _)
    exact keep_of_resent (hself [] xs) (by simp) (fun x _ => WithBot.bot_lt_coe _) h

end HighWater

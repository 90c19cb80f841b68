import Mathlib.Algebra.Order.Group.Defs
import Mathlib.Data.List.Basic

/-! Attempts that are closed for a span of time after a limited number of failures. -/

namespace Throttles

variable {T : Type*} [AddCommGroup T] [LinearOrder T] {limit failures : Nat} {span now : T} {times : List T}
  {closed : Option T}

/-- The times of the failures, the last one first: a failure comes a span of time after the one `limit` places
earlier. -/
def Spaced (limit : Nat) (span : T) : List T → Prop
  | [] => True
  | time :: times => (∀ earlier ∈ (time :: times).drop limit, earlier + span ≤ time) ∧ Spaced limit span times

theorem Spaced.length_filter_le [IsOrderedAddMonoid T] (h : Spaced limit span times) (first : T) :
    (times.filter fun time => decide (first ≤ time ∧ time < first + span)).length ≤ limit := by
  induction times with
  | nil => exact Nat.zero_le _
  | cons time times ih =>
    by_cases hin : first ≤ time ∧ time < first + span
    · have hrest : ((time :: times).drop limit).filter
          (fun time => decide (first ≤ time ∧ time < first + span)) = [] := by
        refine List.filter_eq_nil_iff.mpr fun earlier hearlier hlate => ?_
        have hlt := (h.1 earlier hearlier).trans_lt hin.2
        exact absurd (of_decide_eq_true hlate).1 (not_le_of_gt (lt_of_add_lt_add_right hlt))
      rw [← List.take_append_drop limit (time :: times), List.filter_append, hrest, List.append_nil]
      exact (List.length_filter_le _ _).trans (List.length_take_le _ _)
    · rw [List.filter_cons_of_neg (by simpa using hin)]
      exact ih h.2

/-- Each failure that is not counted any more closed the attempts for a span of time. -/
structure Throttled (limit : Nat) (span : T) (times : List T) (failures : Nat) (closed : Option T) (now : T) : Prop where
  spaced : Spaced limit span times
  past : ∀ time ∈ times, time ≤ now
  few : failures < limit
  closing : ∀ time ∈ times.drop failures, ∃ opening, closed = some opening ∧ time + span ≤ opening

variable (h : Throttled limit span times failures closed now)
include h

theorem Throttled.later {later : T} (hle : now ≤ later) : Throttled limit span times failures closed later :=
  ⟨h.spaced, fun time hm => (h.past time hm).trans hle, h.few, h.closing⟩

variable (hopen : ∀ opening, closed = some opening → opening ≤ now)
include hopen

theorem Throttled.spaced_fail : Spaced limit span (now :: times) := by
  refine ⟨fun time hm => ?_, h.spaced⟩
  obtain ⟨rest, rfl⟩ := Nat.exists_eq_add_one_of_ne_zero (Nat.ne_of_gt ((Nat.zero_le _).trans_lt h.few))
  have hdrop : time ∈ times.drop failures := (List.drop_sublist_drop_left times (Nat.le_of_lt_succ h.few)).mem hm
  obtain ⟨opening, hclosed, hle⟩ := h.closing time hdrop
  exact hle.trans (hopen opening hclosed)

theorem Throttled.past_fail : ∀ time ∈ now :: times, time ≤ now := by
  intro time hm
  rcases List.mem_cons.mp hm with rfl | hm
  · exact le_rfl
  · exact h.past time hm

theorem Throttled.count (hmore : failures + 1 < limit) :
    Throttled limit span (now :: times) (failures + 1) closed now :=
  ⟨h.spaced_fail hopen, h.past_fail hopen, hmore, h.closing⟩

theorem Throttled.close [IsOrderedAddMonoid T] : Throttled limit span (now :: times) 0 (some (now + span)) now := by
  refine ⟨h.spaced_fail hopen, h.past_fail hopen, (Nat.zero_le _).trans_lt h.few, fun time hm => ⟨_, rfl, ?_⟩⟩
  exact add_le_add_left (h.past_fail hopen time hm) span

end Throttles

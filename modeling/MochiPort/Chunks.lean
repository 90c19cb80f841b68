import Mathlib.Algebra.Order.Floor.Div

namespace Chunks

open List

variable {α : Type*}

/-- Cuts a list into runs of `size` elements; the last run may be shorter. -/
def cut (size : Nat) : List α → List (List α)
  | [] => []
  | x :: xs => (x :: xs.take (size - 1)) :: cut size (xs.drop (size - 1))
termination_by xs => xs.length
decreasing_by simp only [length_drop, length_cons]; omega

theorem cut_flatten (size : Nat) (xs : List α) : (cut size xs).flatten = xs := by
  fun_induction cut size xs with
  | case1 => rfl
  | case2 x xs ih => rw [flatten_cons, ih, cons_append, take_append_drop]

theorem cut_ne_nil {size : Nat} {xs run : List α} (h : run ∈ cut size xs) : run ≠ [] := by
  fun_induction cut size xs with
  | case1 => cases h
  | case2 x xs ih =>
    rcases mem_cons.mp h with rfl | h
    · exact cons_ne_nil _ _
    · exact ih h

theorem length_le_of_mem_cut {size : Nat} (hs : 0 < size) {xs run : List α} (h : run ∈ cut size xs) :
    run.length ≤ size := by
  fun_induction cut size xs with
  | case1 => cases h
  | case2 x xs ih =>
    rcases mem_cons.mp h with rfl | h
    · rw [length_cons, length_take]
      omega
    · exact ih h

theorem ceilDiv_cons {size length : Nat} (hs : 0 < size) :
    (length + 1) ⌈/⌉ size = (length - (size - 1)) ⌈/⌉ size + 1 := by
  rw [Nat.ceilDiv_eq_add_pred_div, Nat.ceilDiv_eq_add_pred_div,
    show length + 1 + size - 1 = length + size by omega, Nat.add_div_right _ hs]
  congr 1
  by_cases hl : size - 1 ≤ length
  · rw [show length - (size - 1) + size - 1 = length by omega]
  · rw [Nat.div_eq_of_lt (by omega), Nat.div_eq_of_lt (by omega)]

theorem length_cut {size : Nat} (hs : 0 < size) (xs : List α) : (cut size xs).length = xs.length ⌈/⌉ size := by
  fun_induction cut size xs with
  | case1 =>
    rw [length_nil, length_nil, Nat.ceilDiv_eq_add_pred_div, Nat.div_eq_of_lt (by omega)]
  | case2 x xs ih => rw [length_cons, ih, length_drop, length_cons, ceilDiv_cons hs]

theorem ceilDiv_succ_ceilDiv_le {length size : Nat} (hs : 0 < size) : length ⌈/⌉ (length ⌈/⌉ size + 1) ≤ size := by
  rw [ceilDiv_le_iff_le_mul (Nat.succ_pos _)]
  have hle : length ≤ size * (length ⌈/⌉ size) := (ceilDiv_le_iff_le_mul hs).mp le_rfl
  calc length ≤ size * (length ⌈/⌉ size) := hle
    _ ≤ (length ⌈/⌉ size + 1) * size := by rw [Nat.mul_comm]; exact Nat.mul_le_mul_right _ (Nat.le_succ _)

theorem ceilDiv_self_le (length : Nat) : length ⌈/⌉ length ≤ 1 := by
  rcases Nat.eq_zero_or_pos length with rfl | hl
  · decide
  · rw [ceilDiv_le_iff_le_mul hl, Nat.mul_one]

theorem zipIdx_increasing (xs : List α) : xs.zipIdx.Pairwise fun a b => a.2 < b.2 := by
  have hrange : (xs.zipIdx.map Prod.snd).Pairwise (· < ·) := by
    rw [zipIdx_map_snd]
    exact pairwise_lt_range'
  exact pairwise_map.mp hrange

end Chunks

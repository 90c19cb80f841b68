import Mathlib.Logic.Basic

/-! The search for the largest budget whose result fits. -/

namespace BudgetSearch

variable {fits : Nat → Bool} {lower upper : Nat}

def loop (fits : Nat → Bool) : Nat → Nat → Nat → Nat
  | 0, lower, _ => lower
  | fuel + 1, lower, upper =>
    if lower < upper then
      let candidate := lower + (upper - lower + 1) / 2
      if fits candidate then loop fits fuel candidate upper else loop fits fuel lower (candidate - 1)
    else lower

/-- Each round makes the range smaller, so its width is fuel enough. -/
def search (fits : Nat → Bool) (lower upper : Nat) : Nat := loop fits (upper - lower) lower upper

theorem loop_of_le {fuel more : Nat} (h : upper - lower ≤ fuel) (hmore : fuel ≤ more) :
    loop fits more lower upper = loop fits fuel lower upper := by
  induction fuel generalizing lower upper more with
  | zero =>
    cases more with
    | zero => rfl
    | succ more =>
      have hend : ¬lower < upper := by omega
      exact if_neg hend
  | succ fuel ih =>
    obtain ⟨more, rfl⟩ : ∃ n, more = n + 1 := ⟨more - 1, by omega⟩
    rw [loop, loop]
    by_cases hlt : lower < upper
    · rw [if_pos hlt, if_pos hlt]
      dsimp only
      split
      next => exact ih (by omega) (by omega)
      next => exact ih (by omega) (by omega)
    · rw [if_neg hlt, if_neg hlt]

theorem search_eq (fits : Nat → Bool) (lower upper : Nat) :
    search fits lower upper =
      if lower < upper then
        if fits (lower + (upper - lower + 1) / 2) then search fits (lower + (upper - lower + 1) / 2) upper
        else search fits lower (lower + (upper - lower + 1) / 2 - 1)
      else lower := by
  unfold search
  by_cases hlt : lower < upper
  · obtain ⟨fuel, hfuel⟩ : ∃ n, upper - lower = n + 1 := ⟨upper - lower - 1, by omega⟩
    rw [hfuel, loop, if_pos hlt, if_pos hlt]
    dsimp only
    rw [hfuel]
    split
    next => exact loop_of_le (Nat.le_refl _) (by omega)
    next => exact loop_of_le (Nat.le_refl _) (by omega)
  · rw [if_neg hlt, Nat.sub_eq_zero_of_le (by omega)]
    rfl

theorem search_fits (h : fits lower = true) : fits (search fits lower upper) = true := by
  induction hn : upper - lower using Nat.strongRecOn generalizing lower upper with
  | ind n ih =>
    rw [search_eq]
    by_cases hlt : lower < upper
    · rw [if_pos hlt]
      split
      next hcandidate => exact ih _ (by omega) hcandidate rfl
      next => exact ih _ (by omega) h rfl
    · rw [if_neg hlt]
      exact h

end BudgetSearch

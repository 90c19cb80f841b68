import Mathlib.Order.Lattice
import Mathlib.Data.List.Basic

/-! The last maximum of a list by a comparison, which is what `Iterator::max_by` gives. -/

namespace LastMaximum

variable {α β : Type*} [LinearOrder β] {cmp : α → α → Ordering} {f : α → β} {xs : List α} {x best : α}

def better (cmp : α → α → Ordering) (best x : α) : α := if cmp best x = .gt then best else x

def lastMax (cmp : α → α → Ordering) : List α → Option α
  | [] => none
  | x :: xs => some (xs.foldl (better cmp) x)

/-- The comparison never contradicts `f`. -/
def Refines (cmp : α → α → Ordering) (f : α → β) : Prop :=
  ∀ x y, (f x < f y → cmp x y = .lt) ∧ (f y < f x → cmp x y = .gt)

theorem better_cases (cmp : α → α → Ordering) (best x : α) : better cmp best x = best ∨ better cmp best x = x := by
  unfold better
  split
  next => exact .inl rfl
  next => exact .inr rfl

theorem Refines.le_better (h : Refines cmp f) (best x : α) :
    f best ≤ f (better cmp best x) ∧ f x ≤ f (better cmp best x) := by
  obtain ⟨hlt, hgt⟩ := h best x
  unfold better
  split
  next hcmp =>
    refine ⟨le_rfl, ?_⟩
    by_contra hle
    rw [hlt (lt_of_not_ge hle)] at hcmp
    cases hcmp
  next hcmp =>
    refine ⟨?_, le_rfl⟩
    by_contra hle
    exact hcmp (hgt (lt_of_not_ge hle))

theorem foldl_better_mem (cmp : α → α → Ordering) (xs : List α) (best : α) :
    xs.foldl (better cmp) best ∈ best :: xs := by
  induction xs generalizing best with
  | nil => exact List.mem_cons_self
  | cons x xs ih =>
    rw [List.foldl_cons]
    rcases List.mem_cons.mp (ih (better cmp best x)) with heq | hmem
    · rw [heq]
      rcases better_cases cmp best x with h | h
      · rw [h]
        exact List.mem_cons_self
      · rw [h]
        exact List.mem_cons_of_mem best List.mem_cons_self
    · exact List.mem_cons_of_mem best (List.mem_cons_of_mem x hmem)

theorem Refines.le_foldl_better (h : Refines cmp f) (xs : List α) (best : α) :
    ∀ x ∈ best :: xs, f x ≤ f (xs.foldl (better cmp) best) := by
  induction xs generalizing best with
  | nil =>
    intro x hx
    rw [List.mem_singleton.mp hx]
    exact le_rfl
  | cons y xs ih =>
    intro x hx
    have hnext := ih (better cmp best y)
    have hfirst := hnext _ List.mem_cons_self
    rcases List.mem_cons.mp hx with rfl | hx
    · exact le_trans (h.le_better x y).1 hfirst
    · rcases List.mem_cons.mp hx with rfl | hx
      · exact le_trans (h.le_better best x).2 hfirst
      · exact hnext x (List.mem_cons_of_mem _ hx)

theorem lastMax_eq_none : lastMax cmp xs = none ↔ xs = [] := by
  cases xs with
  | nil => exact iff_of_true rfl rfl
  | cons x xs => exact iff_of_false (fun h => nomatch h) (fun h => nomatch h)

theorem mem_of_lastMax (h : lastMax cmp xs = some x) : x ∈ xs := by
  cases xs with
  | nil => cases h
  | cons y ys =>
    rw [← Option.some.inj h]
    exact foldl_better_mem cmp ys y

/-- The last maximum has the greatest value of what the comparison compares first. -/
theorem Refines.le_lastMax (hf : Refines cmp f) (h : lastMax cmp xs = some best) : ∀ x ∈ xs, f x ≤ f best := by
  cases xs with
  | nil => cases h
  | cons y ys =>
    rw [← Option.some.inj h]
    exact hf.le_foldl_better ys y

theorem refines_then (f : α → β) (rest : α → α → Ordering) :
    Refines (fun x y => (compare (f x) (f y)).then (rest x y)) f := by
  intro x y
  dsimp only
  constructor
  · intro hlt
    rw [compare_lt_iff_lt.mpr hlt]
    rfl
  · intro hgt
    rw [compare_gt_iff_gt.mpr hgt]
    rfl

/-- The comparison tells apart what `f` tells apart, so the maximum is the only greatest candidate. -/
theorem Refines.lastMax_eq_some (hf : Refines cmp f) (hinj : ∀ x ∈ xs, ∀ y ∈ xs, f x = f y → x = y) :
    lastMax cmp xs = some best ↔ best ∈ xs ∧ ∀ x ∈ xs, f x ≤ f best := by
  constructor
  · exact fun h => ⟨mem_of_lastMax h, hf.le_lastMax h⟩
  · rintro ⟨hmem, hbest⟩
    cases h : lastMax cmp xs with
    | none => exact absurd hmem (lastMax_eq_none.mp h ▸ List.not_mem_nil)
    | some x =>
      have hx := mem_of_lastMax h
      rw [hinj x hx best hmem (le_antisymm (hbest x hx) (hf.le_lastMax h best hmem))]

theorem Refines.lastMax_congr {ys : List α} (hf : Refines cmp f)
    (hinj : ∀ x ∈ xs, ∀ y ∈ xs, f x = f y → x = y) (hmem : ∀ x, x ∈ ys ↔ x ∈ xs) :
    lastMax cmp ys = lastMax cmp xs := by
  have hinj' : ∀ x ∈ ys, ∀ y ∈ ys, f x = f y → x = y := fun x hx y hy =>
    hinj x ((hmem x).mp hx) y ((hmem y).mp hy)
  refine Option.ext fun best => ?_
  rw [hf.lastMax_eq_some hinj, hf.lastMax_eq_some hinj']
  simp only [hmem]

theorem Refines.lastMax_of_cons {ys : List α} (hf : Refines cmp f)
    (hinj : ∀ x ∈ xs, ∀ y ∈ xs, f x = f y → x = y) (hmem : ∀ y, y ∈ xs ↔ y = x ∨ y ∈ ys)
    (hx : lastMax cmp xs ≠ some x) : lastMax cmp ys = lastMax cmp xs := by
  have hinj' : ∀ y ∈ ys, ∀ z ∈ ys, f y = f z → y = z := fun y hy z hz =>
    hinj y ((hmem y).mpr (.inr hy)) z ((hmem z).mpr (.inr hz))
  have hxs : x ∈ xs := (hmem x).mpr (.inl rfl)
  obtain ⟨best, hbest⟩ : ∃ best, lastMax cmp xs = some best := by
    cases h : lastMax cmp xs with
    | none => exact absurd hxs (lastMax_eq_none.mp h ▸ List.not_mem_nil)
    | some best => exact ⟨best, rfl⟩
  obtain ⟨hin, hgreatest⟩ := (hf.lastMax_eq_some hinj).mp hbest
  rw [hbest] at hx ⊢
  refine (hf.lastMax_eq_some hinj').mpr ⟨?_, fun y hy => hgreatest y ((hmem y).mpr (.inr hy))⟩
  exact ((hmem best).mp hin).resolve_left fun heq => hx (congrArg some heq)

end LastMaximum

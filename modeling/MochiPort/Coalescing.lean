import Mathlib.Logic.Relation

namespace Coalescing

variable {κ : Type*}

/-- A value that is shown to a reader by one delivery at a time. A change made while a delivery is in
flight only marks the value, so that the next delivery takes all such changes at once. -/
@[ext]
structure Slot (κ : Type*) where
  current : κ
  dirty : Bool
  inFlight : Option κ
  shown : κ

namespace Slot

def new (k : κ) : Slot κ := ⟨k, false, none, k⟩

def revise (s : Slot κ) (k : κ) : Slot κ := { s with current := k, dirty := true }

def claim (s : Slot κ) : Slot κ := { s with dirty := false, inFlight := some s.current }

def deliver (s : Slot κ) (k : κ) : Slot κ := { s with inFlight := none, shown := k }

def fail (s : Slot κ) : Slot κ := { s with inFlight := none, dirty := true }

/-- The delivery in flight is given up together with the changes made behind it. -/
def abandon (s : Slot κ) : Slot κ := { s with inFlight := none, dirty := false }

/-- What a clean value's reader has, or gets with the delivery in flight, is the value itself. -/
def Settled (s : Slot κ) : Prop := s.dirty = false → s.inFlight.getD s.shown = s.current

end Slot

/-- What can become of a value without a change being lost. -/
inductive Step : Slot κ → Slot κ → Prop
  | revise (s : Slot κ) (k : κ) : Step s (s.revise k)
  | claim (s : Slot κ) (h : s.inFlight = none) : Step s s.claim
  | deliver (s : Slot κ) {k : κ} (h : s.inFlight = some k) : Step s (s.deliver k)
  | fail (s : Slot κ) : Step s s.fail
  | restart (s : Slot κ) (k : κ) : Step s (.new k)

abbrev Steps : Slot κ → Slot κ → Prop := Relation.ReflTransGen Step

namespace Slot

theorem new_settled (k : κ) : (new k).Settled := fun _ => rfl

theorem Settled.step {s t : Slot κ} (hs : s.Settled) (h : Step s t) : t.Settled := by
  cases h with
  | revise k | fail =>
    intro hclean
    cases hclean
  | claim =>
    intro _
    rfl
  | deliver hk =>
    intro hclean
    have hcurrent := hs hclean
    rw [hk] at hcurrent
    exact hcurrent
  | restart k => exact new_settled k

theorem Settled.steps {s t : Slot κ} (hs : s.Settled) (h : Steps s t) : t.Settled := by
  induction h with
  | refl => exact hs
  | tail _ h ih => exact ih.step h

theorem Settled.shown_eq {s : Slot κ} (hs : s.Settled) (hclean : s.dirty = false)
    (hnone : s.inFlight = none) : s.shown = s.current := by
  have hcurrent := hs hclean
  rw [hnone] at hcurrent
  exact hcurrent

theorem abandon_settled_iff {s : Slot κ} : s.abandon.Settled ↔ s.shown = s.current := by
  constructor
  · intro h
    exact h rfl
  · intro h _
    exact h

end Slot

end Coalescing

import Mathlib.Data.List.Basic

namespace History

variable {ε : Type*} {allowed : List ε → ε → Prop} {log newer older : List ε} {earlier later : ε}
  {between : List ε}

/-- A log, its newest event first, each event of which is allowed after what had happened before. -/
def Lawful (allowed : List ε → ε → Prop) : List ε → Prop
  | [] => True
  | event :: log => allowed log event ∧ Lawful allowed log

/-- The two events of a log with those that happened between them. -/
def Between (log : List ε) (earlier later : ε) (between : List ε) : Prop :=
  ∃ newer older, log = newer ++ later :: (between ++ earlier :: older)

theorem Lawful.of_append (h : Lawful allowed (newer ++ older)) : Lawful allowed older := by
  induction newer with
  | nil => exact h
  | cons event newer ih => exact ih h.2

theorem Lawful.of_between (h : Lawful allowed log) (hb : Between log earlier later between) :
    ∃ older, allowed (between ++ earlier :: older) later ∧ Lawful allowed (between ++ earlier :: older) := by
  obtain ⟨newer, older, rfl⟩ := hb
  exact ⟨older, h.of_append⟩

end History

import Mathlib.Logic.Basic

namespace Attendance

variable {ι κ : Type*} {raised raised' excused excused' : κ → Prop} {attends attends' : ι → κ → Prop}

/-- Whatever is raised is excused or has an attendant. -/
def Attended (raised excused : κ → Prop) (attends : ι → κ → Prop) : Prop :=
  ∀ k, raised k → excused k ∨ ∃ i, attends i k

def Exclusive (attends : ι → κ → Prop) : Prop := ∀ i j k, attends i k → attends j k → i = j

/-- What is raised afterwards was raised before, maybe under another name, and keeps its excuse and its attendants,
unless it is excused then. -/
theorem Attended.transfer (h : Attended raised excused attends)
    (hback : ∀ k', raised' k' → excused' k' ∨ ∃ k, raised k ∧ (excused k → excused' k') ∧
      ∀ i, attends i k → excused' k' ∨ ∃ j, attends' j k') : Attended raised' excused' attends' := by
  intro k' hraised'
  rcases hback k' hraised' with hexcused' | ⟨k, hraised, hexcused, hattends⟩
  · exact .inl hexcused'
  · rcases h k hraised with hexcuse | ⟨i, hattendant⟩
    · exact .inl (hexcused hexcuse)
    · exact hattends i hattendant

theorem Attended.mono (h : Attended raised excused attends) (hraised : ∀ k, raised' k → raised k)
    (hexcused : ∀ k, excused k → excused' k) (hattends : ∀ i k, raised' k → attends i k → excused' k ∨ attends' i k) :
    Attended raised' excused' attends' := by
  refine h.transfer ?_
  intro k hraised'
  refine .inr ⟨k, hraised k hraised', hexcused k, ?_⟩
  intro i hattendant
  exact (hattends i k hraised' hattendant).imp_right fun hattendant' => ⟨i, hattendant'⟩

theorem Exclusive.transfer (h : Exclusive attends) (hback : ∀ k', ∃ k, ∀ i, attends' i k' → attends i k) :
    Exclusive attends' := by
  intro i j k' hi hj
  obtain ⟨k, hsame⟩ := hback k'
  exact h i j k (hsame i hi) (hsame j hj)

theorem Exclusive.hire (h : Exclusive attends) {new : ι} (hold : ∀ i k, i ≠ new → attends' i k → attends i k)
    (hfree : ∀ i k, attends' new k → ¬attends i k) : Exclusive attends' := by
  intro i j k hi hj
  by_cases hinew : i = new
  · by_cases hjnew : j = new
    · rw [hinew, hjnew]
    · rw [hinew] at hi
      exact absurd (hold j k hjnew hj) (hfree j k hi)
  · by_cases hjnew : j = new
    · rw [hjnew] at hj
      exact absurd (hold i k hinew hi) (hfree i k hj)
    · exact h i j k (hold i k hinew hi) (hold j k hjnew hj)

end Attendance

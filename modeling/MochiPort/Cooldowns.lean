import Mathlib.Order.Lattice

namespace Cooldowns

variable {K T : Type*} [DecidableEq K] [LinearOrder T] {m : K → Option T} {asked : List (K × T)} {k : K}
  {d observed now later : T}

/-- The key `k` is closed at `now` by the deadline that `m` has recorded for it. -/
def Closed (m : K → Option T) (k : K) (now : T) : Prop := ∃ d, m k = some d ∧ now < d

/-- Records a deadline that was asked for, unless a later one is recorded. -/
def extend (m : K → Option T) (k : K) (d : T) : K → Option T :=
  Function.update m k (some (max ((m k).getD d) d))

/-- Forgets the deadline of `k` when it is past and no later than the one that was observed. -/
def forget (m : K → Option T) (k : K) (observed now : T) : K → Option T :=
  if ((m k).any fun d => d ≤ observed && d ≤ now) then Function.update m k none else m

/-- From `now` on, the record closes a key exactly as long as one of the deadlines asked for it does. -/
def Faithful (m : K → Option T) (asked : List (K × T)) (now : T) : Prop :=
  ∀ k later, now ≤ later → (Closed m k later ↔ ∃ d, (k, d) ∈ asked ∧ later < d)

/-- No recorded deadline is moved to an earlier time or forgotten before it is past. -/
def NoEarlier (m m' : K → Option T) (now : T) : Prop :=
  ∀ k d, m k = some d → (∃ d', m' k = some d' ∧ d ≤ d') ∨ m' k = none ∧ d ≤ now

theorem extend_self : extend m k d k = some (max ((m k).getD d) d) := Function.update_self ..

theorem extend_of_ne {j : K} (h : j ≠ k) : extend m k d j = m j := Function.update_of_ne h ..

omit [DecidableEq K] in
theorem NoEarlier.refl (m : K → Option T) (now : T) : NoEarlier m m now := by
  intro j e he
  exact .inl ⟨e, he, le_rfl⟩

theorem extend_noEarlier (m : K → Option T) (k : K) (d now : T) : NoEarlier m (extend m k d) now := by
  intro j e he
  left
  by_cases hj : j = k
  · subst hj
    refine ⟨max e d, ?_, le_max_left e d⟩
    rw [extend_self, he]
    rfl
  · exact ⟨e, (extend_of_ne hj).trans he, le_rfl⟩

theorem forget_cases (m : K → Option T) (k : K) (observed now : T) :
    (∃ d, m k = some d ∧ d ≤ observed ∧ d ≤ now ∧ forget m k observed now = Function.update m k none) ∨
      forget m k observed now = m := by
  unfold forget
  split
  next h =>
    obtain ⟨d, hd, hle⟩ := (Option.any_eq_true _ _).mp h
    simp only [Bool.and_eq_true, decide_eq_true_eq] at hle
    exact .inl ⟨d, hd, hle.1, hle.2, rfl⟩
  next => exact .inr rfl

theorem forget_mem {j : K} (h : forget m k observed now j = some d) : m j = some d := by
  rcases forget_cases m k observed now with ⟨_, _, _, _, heq⟩ | heq
  · rw [heq] at h
    by_cases hj : j = k
    · subst hj
      rw [Function.update_self] at h
      cases h
    · exact (Function.update_of_ne hj none m).symm.trans h
  · rw [heq] at h
    exact h

theorem forget_noEarlier (m : K → Option T) (k : K) (observed now : T) : NoEarlier m (forget m k observed now) now := by
  rcases forget_cases m k observed now with ⟨d, hd, _, hnow, heq⟩ | heq
  · intro j e he
    by_cases hj : j = k
    · subst hj
      right
      rw [hd] at he
      cases he
      exact ⟨by rw [heq, Function.update_self], hnow⟩
    · left
      exact ⟨e, by rw [heq, Function.update_of_ne hj, he], le_rfl⟩
  · rw [heq]
    exact .refl m now

omit [DecidableEq K] in
theorem Faithful.empty (now : T) : Faithful (fun _ : K => none) [] now := by
  intro k later _
  simp [Closed]

omit [DecidableEq K] in
theorem Faithful.wait (h : Faithful m asked now) (hlater : now ≤ later) : Faithful m asked later := by
  intro k moment hmoment
  exact h k moment (hlater.trans hmoment)

theorem Faithful.extend (h : Faithful m asked now) (k : K) (d : T) :
    Faithful (Cooldowns.extend m k d) ((k, d) :: asked) now := by
  intro j later hlater
  have hold := h j later hlater
  by_cases hj : j = k
  · subst hj
    have hclosed : Closed (Cooldowns.extend m j d) j later ↔ Closed m j later ∨ later < d := by
      unfold Closed
      rw [extend_self]
      cases hm : m j with
      | none | some e => simp
    rw [hclosed, hold]
    constructor
    · rintro (⟨e, he, hlt⟩ | hlt)
      · exact ⟨e, List.mem_cons_of_mem _ he, hlt⟩
      · exact ⟨d, List.mem_cons_self, hlt⟩
    · rintro ⟨e, he, hlt⟩
      rcases List.mem_cons.mp he with heq | he
      · cases heq
        exact .inr hlt
      · exact .inl ⟨e, he, hlt⟩
  · have hclosed : Closed (Cooldowns.extend m k d) j later ↔ Closed m j later := by
      unfold Closed
      rw [extend_of_ne hj]
    rw [hclosed, hold]
    constructor
    · rintro ⟨e, he, hlt⟩
      exact ⟨e, List.mem_cons_of_mem _ he, hlt⟩
    · rintro ⟨e, he, hlt⟩
      rcases List.mem_cons.mp he with heq | he
      · cases heq
        exact absurd rfl hj
      · exact ⟨e, he, hlt⟩

theorem Faithful.forget (h : Faithful m asked now) (k : K) (observed : T) :
    Faithful (Cooldowns.forget m k observed now) asked now := by
  rcases forget_cases m k observed now with ⟨d, hd, _, hnow, heq⟩ | heq
  · rw [heq]
    intro j later hlater
    rw [← h j later hlater]
    by_cases hj : j = k
    · subst hj
      have hpast : ¬Closed m j later := by
        rintro ⟨e, he, hlt⟩
        rw [hd] at he
        cases he
        exact absurd hlt (not_lt.mpr (hnow.trans hlater))
      have hforgotten : ¬Closed (Function.update m j none) j later := by
        rintro ⟨e, he, _⟩
        rw [Function.update_self] at he
        cases he
      exact iff_of_false hforgotten hpast
    · unfold Closed
      rw [Function.update_of_ne hj]
  · rw [heq]
    exact h

omit [DecidableEq K] in
theorem Faithful.asked_le (h : Faithful m asked now) (hopen : ¬Closed m k now) (hd : (k, d) ∈ asked) : d ≤ now := by
  apply not_lt.mp
  intro hlt
  exact hopen ((h k now le_rfl).mpr ⟨d, hd, hlt⟩)

end Cooldowns

import Mathlib.Logic.Basic

namespace Runs

variable {σ α : Type*} {step : σ → α → Option σ} {guard : σ → α → Prop}

/-- Takes a list of actions one after the other; an action that is not enabled ends the attempt. -/
def run (step : σ → α → Option σ) : σ → List α → Option σ
  | s, [] => some s
  | s, a :: as => (step s a).bind fun t => run step t as

/-- Every action of the list is taken in a state where `guard` allows it. -/
def Meets (step : σ → α → Option σ) (guard : σ → α → Prop) : σ → List α → Prop
  | _, [] => True
  | s, a :: as => guard s a ∧ ∀ t, step s a = some t → Meets step guard t as

variable {s : σ}

@[simp] theorem run_nil : run step s [] = some s := rfl

variable {as : List α}

@[simp] theorem run_cons_eq_some {s u : σ} {a : α} :
    run step s (a :: as) = some u ↔ ∃ t, step s a = some t ∧ run step t as = some u := by
  simp [run, Option.bind_eq_some_iff]

theorem run_append_eq_some {s u : σ} {as bs : List α} :
    run step s (as ++ bs) = some u ↔ ∃ t, run step s as = some t ∧ run step t bs = some u := by
  induction as generalizing s with
  | nil => simp
  | cons a as ih =>
    simp only [List.cons_append, run_cons_eq_some, ih]
    constructor
    · rintro ⟨t, ht, v, hv, hu⟩
      exact ⟨v, ⟨t, ht, hv⟩, hu⟩
    · rintro ⟨v, ⟨t, ht, hv⟩, hu⟩
      exact ⟨t, ht, v, hv, hu⟩

@[simp] theorem meets_nil : Meets step guard s [] := trivial

@[simp] theorem meets_cons {a : α} :
    Meets step guard s (a :: as) ↔ guard s a ∧ ∀ t, step s a = some t → Meets step guard t as :=
  Iff.rfl

theorem meets_and {other : σ → α → Prop} :
    Meets step (fun s a => guard s a ∧ other s a) s as ↔ Meets step guard s as ∧ Meets step other s as := by
  induction as generalizing s with
  | nil => simp
  | cons a as ih =>
    simp only [meets_cons, ih]
    constructor
    · rintro ⟨⟨hg, ho⟩, h⟩
      exact ⟨⟨hg, fun t ht => (h t ht).1⟩, ⟨ho, fun t ht => (h t ht).2⟩⟩
    · rintro ⟨⟨hg, h⟩, ⟨ho, h'⟩⟩
      exact ⟨⟨hg, ho⟩, fun t ht => ⟨h t ht, h' t ht⟩⟩

theorem meets_of_append {done rest : List α} (h : Meets step guard s (done ++ rest)) : Meets step guard s done := by
  induction done generalizing s with
  | nil => exact meets_nil
  | cons a done ih => exact ⟨h.1, fun t ht => ih (h.2 t ht)⟩

instance decidableMeets [∀ s a, Decidable (guard s a)] : ∀ (as : List α) (s : σ), Decidable (Meets step guard s as)
  | [], _ => .isTrue trivial
  | a :: as, s =>
    match h : step s a with
    | none => decidable_of_iff (guard s a) (by simp [h])
    | some t =>
      have := decidableMeets as t
      decidable_of_iff (guard s a ∧ Meets step guard t as) (by simp [h])

section

variable (inv : σ → Prop)

theorem run_invariant_of_meets (preserved : ∀ s a t, inv s → guard s a → step s a = some t → inv t)
    {s t : σ} (hs : inv s) (hm : Meets step guard s as) (h : run step s as = some t) : inv t := by
  induction as generalizing s with
  | nil =>
    cases Option.some.inj h
    exact hs
  | cons a as ih =>
    obtain ⟨u, hu, h⟩ := run_cons_eq_some.mp h
    exact ih (preserved s a u hs hm.1 hu) (hm.2 u hu) h

theorem meets_of_forall (h : ∀ a ∈ as, ∀ s, guard s a) : Meets step guard s as := by
  induction as generalizing s with
  | nil => trivial
  | cons a as ih =>
    exact ⟨h a (by simp) s, fun t _ => ih fun b hb => h b (List.mem_cons_of_mem a hb)⟩

theorem run_invariant (preserved : ∀ s a t, inv s → step s a = some t → inv t) {s t : σ} (hs : inv s)
    (h : run step s as = some t) : inv t :=
  have hm : Meets step (fun _ _ => True) s as := meets_of_forall fun _ _ _ => trivial
  run_invariant_of_meets inv (fun s a t hi _ => preserved s a t hi) hs hm h

/-- Two guards that agree on the enabled steps of an invariant's states are met by the same runs. -/
theorem meets_iff {other : σ → α → Prop} (preserved : ∀ s a t, inv s → step s a = some t → inv t)
    (agree : ∀ s a t, inv s → step s a = some t → (guard s a ↔ other s a)) {s t : σ} (hs : inv s)
    (h : run step s as = some t) : Meets step guard s as ↔ Meets step other s as := by
  induction as generalizing s with
  | nil => exact Iff.rfl
  | cons a as ih =>
    obtain ⟨u, hu, h⟩ := run_cons_eq_some.mp h
    have hrest := ih (preserved s a u hs hu) h
    rw [meets_cons, meets_cons, agree s a u hs hu]
    constructor
    · rintro ⟨hg, hm⟩
      exact ⟨hg, fun v hv => Option.some.inj (hu.symm.trans hv) ▸ hrest.mp (hm u hu)⟩
    · rintro ⟨hg, hm⟩
      exact ⟨hg, fun v hv => Option.some.inj (hu.symm.trans hv) ▸ hrest.mpr (hm u hu)⟩

/-- If a step from a state of the invariant goes well exactly when the guard allows it, a run goes well throughout
exactly when all its steps meet the guard. -/
theorem forall_prefix_iff_meets {good : σ → Prop} (hgood : ∀ s, inv s → good s)
    (preserved : ∀ s a t, inv s → guard s a → step s a = some t → inv t)
    (needed : ∀ s a t, inv s → step s a = some t → good t → guard s a) {s t : σ} (hs : inv s)
    (h : run step s as = some t) :
    (∀ done rest u, as = done ++ rest → run step s done = some u → good u) ↔ Meets step guard s as := by
  constructor
  · intro hall
    induction as generalizing s with
    | nil => exact meets_nil
    | cons a as ih =>
      obtain ⟨u, hu, h⟩ := run_cons_eq_some.mp h
      have hg : guard s a := needed s a u hs hu (hall [a] as u rfl (run_cons_eq_some.mpr ⟨u, hu, rfl⟩))
      refine ⟨hg, fun v hv => ?_⟩
      have huv : u = v := Option.some.inj (hu.symm.trans hv)
      rw [← huv]
      refine ih (preserved s a u hs hg hu) h ?_
      intro done rest w has hw
      exact hall (a :: done) rest w (by rw [has, List.cons_append]) (run_cons_eq_some.mpr ⟨u, hu, hw⟩)
  · intro hm done rest u has hu
    refine hgood u (run_invariant_of_meets inv preserved hs (meets_of_append (?_ : Meets step guard s (done ++ rest))) hu)
    rw [← has]
    exact hm

end

end Runs

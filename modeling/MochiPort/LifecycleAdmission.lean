import Mathlib.Algebra.BigOperators.Ring.Finset
import MochiPort.Runs

namespace MochiPort

open Finset Runs

inductive LifecycleAdmissionState where
  | active
  | draining
  | shutdownCommitted
  deriving DecidableEq, Repr

/-- How far a party has come in `try_admit`: `counted` lies between the increment and the second
read of the state, `refused` between that read and the release. -/
inductive AdmissionStage where
  | idle
  | entered
  | counted
  | refused
  | permit
  deriving DecidableEq, Repr

/-- The gate's two atomic cells, and the place of every party in its own call of `try_admit`. -/
structure LifecycleAdmission (ι : Type*) where
  state : LifecycleAdmissionState
  -- an in-flight call or a live permit stands behind every unit, so the `usize` never wraps
  activePermits : Nat
  stage : ι → AdmissionStage

namespace LifecycleAdmission

variable {ι : Type*}

def new : LifecycleAdmission ι := ⟨.active, 0, fun _ => .idle⟩

def compareExchange (s : LifecycleAdmission ι) (expected next : LifecycleAdmissionState) :
    LifecycleAdmission ι × Bool :=
  if s.state = expected then ({ s with state := next }, true) else (s, false)

def beginDraining (s : LifecycleAdmission ι) : LifecycleAdmission ι × Bool :=
  s.compareExchange .active .draining

def commitShutdown (s : LifecycleAdmission ι) : LifecycleAdmission ι × Bool :=
  s.compareExchange .draining .shutdownCommitted

def cancelDraining (s : LifecycleAdmission ι) : LifecycleAdmission ι × Bool :=
  s.compareExchange .draining .active

def releasePermit (s : LifecycleAdmission ι) : LifecycleAdmission ι :=
  { s with activePermits := s.activePermits - 1 }

variable [DecidableEq ι]

def moveTo (s : LifecycleAdmission ι) (i : ι) (next : AdmissionStage) : LifecycleAdmission ι :=
  { s with stage := Function.update s.stage i next }

/-- The atomic operations of the gate, each executed by one party. -/
inductive Step (ι : Type*) where
  | firstRead (i : ι)
  | increment (i : ι)
  | secondRead (i : ι)
  | release (i : ι)
  | dropPermit (i : ι)
  | beginDraining
  | readCount
  | cancelDraining
  | commitShutdown
  deriving DecidableEq

def step (s : LifecycleAdmission ι) : Step ι → Option (LifecycleAdmission ι)
  | .firstRead i =>
    if s.stage i = .idle then
      if s.state ≠ .active then some s else some (s.moveTo i .entered)
    else none
  | .increment i =>
    if s.stage i = .entered then
      some ({ s with activePermits := s.activePermits + 1 }.moveTo i .counted)
    else none
  | .secondRead i =>
    if s.stage i = .counted then
      if s.state ≠ .active then some (s.moveTo i .refused) else some (s.moveTo i .permit)
    else none
  | .release i => if s.stage i = .refused then some (s.releasePermit.moveTo i .idle) else none
  | .dropPermit i => if s.stage i = .permit then some (s.releasePermit.moveTo i .idle) else none
  | .beginDraining => some s.beginDraining.1
  | .readCount => some s
  | .cancelDraining => some s.cancelDraining.1
  | .commitShutdown => some s.commitShutdown.1

section

variable (s : LifecycleAdmission ι)

@[simp] theorem moveTo_state (i : ι) (a : AdmissionStage) : (s.moveTo i a).state = s.state := rfl

@[simp] theorem moveTo_activePermits (i : ι) (a : AdmissionStage) :
    (s.moveTo i a).activePermits = s.activePermits := rfl

@[simp] theorem moveTo_stage (i : ι) (a : AdmissionStage) : (s.moveTo i a).stage = Function.update s.stage i a := rfl

end

omit [DecidableEq ι] in
theorem compareExchange_cases (s : LifecycleAdmission ι) (expected next : LifecycleAdmissionState) :
    (s.state = expected ∧ s.compareExchange expected next = ({ s with state := next }, true)) ∨
      s.compareExchange expected next = (s, false) := by
  unfold compareExchange
  split
  next h => exact .inl ⟨h, rfl⟩
  next => exact .inr rfl

variable {a : Step ι} {s t : LifecycleAdmission ι}

/-- Everything an atomic operation can do: one party moves between two stages, with the counter
following, or the state alone changes. -/
theorem step_cases (h : s.step a = some t) :
    (∃ i old next, s.stage i = old ∧ t.stage = Function.update s.stage i next ∧ t.state = s.state ∧
      ((old = .idle ∧ next = .entered ∧ t.activePermits = s.activePermits) ∨
       (old = .entered ∧ next = .counted ∧ t.activePermits = s.activePermits + 1) ∨
       (old = .counted ∧ next = .refused ∧ t.activePermits = s.activePermits) ∨
       (old = .counted ∧ next = .permit ∧ s.state = .active ∧ t.activePermits = s.activePermits) ∨
       ((old = .refused ∨ old = .permit) ∧ next = .idle ∧
         t.activePermits = s.activePermits - 1))) ∨
    (t.stage = s.stage ∧ t.activePermits = s.activePermits ∧
      (t.state = s.state ∨
       (a = .beginDraining ∧ s.state = .active ∧ t.state = .draining) ∨
       (a = .cancelDraining ∧ s.state = .draining ∧ t.state = .active) ∨
       (a = .commitShutdown ∧ s.state = .draining ∧ t.state = .shutdownCommitted))) := by
  cases a with
  | firstRead i =>
    simp only [step] at h
    split at h
    next hi =>
      split at h
      next => cases h; exact .inr ⟨rfl, rfl, .inl rfl⟩
      next => cases h; exact .inl ⟨i, _, _, hi, rfl, rfl, .inl ⟨rfl, rfl, rfl⟩⟩
    next => cases h
  | increment i =>
    simp only [step] at h
    split at h
    next hi => cases h; exact .inl ⟨i, _, _, hi, rfl, rfl, .inr (.inl ⟨rfl, rfl, rfl⟩)⟩
    next => cases h
  | secondRead i =>
    simp only [step] at h
    split at h
    next hi =>
      split at h
      next => cases h; exact .inl ⟨i, _, _, hi, rfl, rfl, .inr (.inr (.inl ⟨rfl, rfl, rfl⟩))⟩
      next ha =>
        cases h
        exact .inl ⟨i, _, _, hi, rfl, rfl,
          .inr (.inr (.inr (.inl ⟨rfl, rfl, not_not.mp ha, rfl⟩)))⟩
    next => cases h
  | release i =>
    simp only [step] at h
    split at h
    next hi =>
      cases h
      exact .inl ⟨i, _, _, hi, rfl, rfl, .inr (.inr (.inr (.inr ⟨.inl rfl, rfl, rfl⟩)))⟩
    next => cases h
  | dropPermit i =>
    simp only [step] at h
    split at h
    next hi =>
      cases h
      exact .inl ⟨i, _, _, hi, rfl, rfl, .inr (.inr (.inr (.inr ⟨.inr rfl, rfl, rfl⟩)))⟩
    next => cases h
  | beginDraining =>
    cases h
    rcases s.compareExchange_cases .active .draining with ⟨hs, he⟩ | he
    · simp [beginDraining, he, hs]
    · simp [beginDraining, he]
  | readCount => cases h; exact .inr ⟨rfl, rfl, .inl rfl⟩
  | cancelDraining =>
    cases h
    rcases s.compareExchange_cases .draining .active with ⟨hs, he⟩ | he
    · simp [cancelDraining, he, hs]
    · simp [cancelDraining, he]
  | commitShutdown =>
    cases h
    rcases s.compareExchange_cases .draining .shutdownCommitted with ⟨hs, he⟩ | he
    · simp [commitShutdown, he, hs]
    · simp [commitShutdown, he]

variable [Fintype ι]

def livePermits (s : LifecycleAdmission ι) : Finset ι := univ.filter fun i => s.stage i = .permit

/-- The admissions that stand between the increment and the release or the permit. -/
def unsettled (s : LifecycleAdmission ι) : Finset ι :=
  univ.filter fun i => s.stage i = .counted ∨ s.stage i = .refused

/-- What a party at this stage contributes to the counter. -/
def weight : AdmissionStage → Nat
  | .idle => 0
  | .entered => 0
  | .counted => 1
  | .refused => 1
  | .permit => 1

@[simp] theorem weight_idle : weight .idle = 0 := rfl
@[simp] theorem weight_entered : weight .entered = 0 := rfl
@[simp] theorem weight_counted : weight .counted = 1 := rfl
@[simp] theorem weight_refused : weight .refused = 1 := rfl
@[simp] theorem weight_permit : weight .permit = 1 := rfl

omit [DecidableEq ι] in
theorem sum_weight_eq (s : LifecycleAdmission ι) : ∑ i, weight (s.stage i) = s.livePermits.card + s.unsettled.card := by
  simp only [livePermits, unsettled, card_filter, ← sum_add_distrib]
  refine sum_congr rfl fun i _ => ?_
  cases s.stage i <;> rfl

theorem sum_weight_update (stage : ι → AdmissionStage) (i : ι) (next : AdmissionStage) :
    ∑ j, weight (Function.update stage i next j) + weight (stage i) =
      ∑ j, weight (stage j) + weight next := by
  have hrest : ∑ j ∈ univ.erase i, weight (Function.update stage i next j) = ∑ j ∈ univ.erase i, weight (stage j) :=
    sum_congr rfl fun j hj => by rw [Function.update_of_ne (ne_of_mem_erase hj)]
  rw [← add_sum_erase univ _ (mem_univ i), ← add_sum_erase univ (fun j => weight (stage j)) (mem_univ i),
    hrest, Function.update_self]
  omega

theorem step_keeps_count (hs : s.activePermits = ∑ i, weight (s.stage i)) (h : s.step a = some t) :
    t.activePermits = ∑ i, weight (t.stage i) := by
  rcases step_cases h with ⟨i, old, next, hi, hstage, _, hcases⟩ | ⟨hstage, hcount, _⟩
  · have hsum := sum_weight_update s.stage i next
    rw [hi, ← hstage, ← hs] at hsum
    rcases hcases with ⟨rfl, rfl, hc⟩ | ⟨rfl, rfl, hc⟩ | ⟨rfl, rfl, hc⟩ | ⟨rfl, rfl, _, hc⟩ |
      ⟨rfl | rfl, rfl, hc⟩ <;> simp at hsum <;> omega
  · rw [hcount, hs, hstage]

variable {as : List (Step ι)}

theorem run_keeps_count {s : LifecycleAdmission ι} (h : run step new as = some s) :
    s.activePermits = s.livePermits.card + s.unsettled.card := by
  rw [← sum_weight_eq]
  exact run_invariant (fun s => s.activePermits = ∑ i, weight (s.stage i))
    (fun _ _ _ hs h => step_keeps_count hs h) (by simp [new, weight]) h

omit [Fintype ι] in
theorem step_keeps_inactive (hs : s.state ≠ .active) (ha : a ≠ .cancelDraining ∨ s.state = .shutdownCommitted)
    (h : s.step a = some t) : t.state ≠ .active := by
  rcases step_cases h with ⟨_, _, _, _, _, hstate, _⟩ | ⟨_, _, hcases⟩
  · rwa [hstate]
  · rcases hcases with ht | ⟨_, hd, _⟩ | ⟨rfl, hd, _⟩ | ⟨_, _, ht⟩
    · rwa [ht]
    · exact absurd hd hs
    · rcases ha with ha | ha
      · exact absurd rfl ha
      · simp [hd] at ha
    · simp [ht]

theorem step_grants_nothing (hs : s.state ≠ .active) (h : s.step a = some t) : t.livePermits ⊆ s.livePermits := by
  intro j hj
  simp only [livePermits, mem_filter, mem_univ, true_and] at hj ⊢
  rcases step_cases h with ⟨i, old, next, hi, hstage, _, hcases⟩ | ⟨hstage, _⟩
  · rw [hstage] at hj
    by_cases he : j = i
    · subst j
      rw [Function.update_self] at hj
      subst next
      rcases hcases with ⟨_, hn, _⟩ | ⟨_, hn, _⟩ | ⟨_, hn, _⟩ | ⟨_, _, ha, _⟩ | ⟨_, hn, _⟩
      · cases hn
      · cases hn
      · cases hn
      · exact absurd ha hs
      · cases hn
    · rwa [Function.update_of_ne he] at hj
  · rwa [hstage] at hj

theorem run_keeps_inactive (hs : s.state ≠ .active) (hn : .cancelDraining ∉ as) (h : run step s as = some t) :
    t.state ≠ .active ∧ t.livePermits ⊆ s.livePermits := by
  have hm : Runs.Meets step (fun _ a => a ≠ .cancelDraining) s as :=
    meets_of_forall fun a ha _ => ne_of_mem_of_not_mem ha hn
  refine run_invariant_of_meets
    (fun u => u.state ≠ .active ∧ u.livePermits ⊆ s.livePermits) ?_ ⟨hs, Subset.refl _⟩ hm h
  intro u a v ⟨hu, hsub⟩ ha huv
  exact ⟨step_keeps_inactive hu (.inl ha) huv, (step_grants_nothing hu huv).trans hsub⟩

omit [Fintype ι] in
theorem step_keeps_committed (hs : s.state = .shutdownCommitted) (h : s.step a = some t) :
    t.state = .shutdownCommitted := by
  rcases step_cases h with ⟨_, _, _, _, _, hstate, _⟩ | ⟨_, _, hcases⟩
  · rwa [hstate]
  · rcases hcases with ht | ⟨_, hd, _⟩ | ⟨_, hd, _⟩ | ⟨_, hd, _⟩
    · rwa [ht]
    · simp [hs] at hd
    · simp [hs] at hd
    · simp [hs] at hd

theorem run_keeps_committed (hs : s.state = .shutdownCommitted) (h : run step s as = some t) :
    t.state = .shutdownCommitted ∧ t.livePermits ⊆ s.livePermits := by
  refine run_invariant
    (fun u => u.state = .shutdownCommitted ∧ u.livePermits ⊆ s.livePermits) ?_
    ⟨hs, Subset.refl _⟩ h
  intro u a v ⟨hu, hsub⟩ huv
  exact ⟨step_keeps_committed hu huv, (step_grants_nothing (by simp [hu]) huv).trans hsub⟩

omit [DecidableEq ι] [Fintype ι] in
theorem compareExchange_succeeds {s : LifecycleAdmission ι} {expected next : LifecycleAdmissionState}
    (h : (s.compareExchange expected next).2 = true) :
    s.state = expected ∧ (s.compareExchange expected next).1 = { s with state := next } := by
  rcases s.compareExchange_cases expected next with ⟨hs, he⟩ | he
  · exact ⟨hs, by rw [he]⟩
  · rw [he] at h
    cases h

theorem livePermits_eq_empty_of_count {s : LifecycleAdmission ι} (h : run step new as = some s)
    (hz : s.activePermits = 0) : s.livePermits = ∅ := by
  have hcount := run_keeps_count h
  exact card_eq_zero.mp (by omega)

/-- A drain that read a zero count after it began, and commits without having been cancelled,
commits with no permit live and with none to come; the counter is exact throughout, and the
shutdown is committed at most once. -/
theorem lifecycle_drain_safety (ι : Type*) [Fintype ι] [DecidableEq ι] :
    (∀ (as bs cs : List (Step ι)) (s₁ s₂ s₃ : LifecycleAdmission ι),
      run step new as = some s₁ → s₁.beginDraining.2 = true →
      run step s₁.beginDraining.1 bs = some s₂ → s₂.activePermits = 0 →
      run step s₂ cs = some s₃ → s₃.commitShutdown.2 = true →
      .cancelDraining ∉ bs ++ cs →
      s₃.livePermits = ∅ ∧
        ∀ ds u, run step s₃.commitShutdown.1 ds = some u → u.livePermits = ∅) ∧
    (∀ (as : List (Step ι)) (s : LifecycleAdmission ι), run step new as = some s →
      s.activePermits = s.livePermits.card + s.unsettled.card) ∧
    (∀ (as bs : List (Step ι)) (s t : LifecycleAdmission ι),
      run step new as = some s → s.commitShutdown.2 = true →
      run step s.commitShutdown.1 bs = some t → t.commitShutdown.2 = false) := by
  refine ⟨?_, fun as s h => run_keeps_count h, ?_⟩
  · intro as bs cs s₁ s₂ s₃ h₁ hb h₂ hz h₃ hc hn
    have hd : s₁.beginDraining.1.state ≠ .active := by
      rw [beginDraining, (compareExchange_succeeds hb).2]
      simp
    have hread := run_keeps_inactive hd (fun h => hn (List.mem_append_left cs h)) h₂
    have hrun : run step new (as ++ .beginDraining :: bs) = some s₂ :=
      run_append_eq_some.mpr ⟨s₁, h₁, run_cons_eq_some.mpr ⟨_, rfl, h₂⟩⟩
    have hzero := livePermits_eq_empty_of_count hrun hz
    have hcommit := run_keeps_inactive hread.1 (fun h => hn (List.mem_append_right bs h)) h₃
    rw [hzero, subset_empty] at hcommit
    refine ⟨hcommit.2, fun ds u hu => ?_⟩
    have he := (compareExchange_succeeds hc).2
    rw [commitShutdown, he] at hu
    have hlive := (run_keeps_committed rfl hu).2
    exact subset_empty.mp (hcommit.2 ▸ hlive)
  · intro as bs s t _ hc ht
    have he := (compareExchange_succeeds hc).2
    rw [commitShutdown, he] at ht
    have hs := (run_keeps_committed rfl ht).1
    simp [commitShutdown, compareExchange, hs]

/-- Party 0 passes the first read before the drain begins, is refused at the second, and the
drain reads the count only after its release. -/
theorem lifecycle_drain_safety_refused :
    ∃ s : LifecycleAdmission (Fin 2),
      run step new [.firstRead 0, .beginDraining, .increment 0, .secondRead 0, .release 0,
        .readCount, .firstRead 1] = some s ∧ s.livePermits = ∅ :=
  ⟨_, rfl, ((lifecycle_drain_safety (Fin 2)).1 [.firstRead 0]
    [.increment 0, .secondRead 0, .release 0] [.readCount, .firstRead 1] _ _ _
    rfl rfl rfl rfl rfl rfl (by decide)).1⟩

end LifecycleAdmission

end MochiPort

import MochiPort.Runs
import MochiPort.TopicMutations

namespace MochiPort

open Cooldowns MutationStage RetryDeadlines

namespace RetryDeadlines

def recorded (deadlines : RetryDeadlines) : String → Option Nat := fun account => deadlines.lookup account

theorem recorded_extend (deadlines : RetryDeadlines) (accountId : String) (requested : Nat) :
    (deadlines.extendTelegramTopicCleanupRetryDeadline accountId requested).recorded =
      Cooldowns.extend deadlines.recorded (normalizedTelegramAccountId accountId) requested := by
  funext account
  by_cases haccount : account = normalizedTelegramAccountId accountId
  · rw [haccount, extend_self]
    simp only [recorded, extendTelegramTopicCleanupRetryDeadline]
    split
    next h => simp [h]
    next deadline h =>
      rw [h]
      split
      next hlt =>
        rw [AList.lookup_insert, Option.getD_some, max_eq_right hlt.le]
      next hge =>
        rw [h, Option.getD_some, max_eq_left (Nat.le_of_not_lt hge)]
  · rw [extend_of_ne haccount]
    simp only [recorded, extendTelegramTopicCleanupRetryDeadline]
    split
    · exact AList.lookup_insert_ne haccount
    · split
      · exact AList.lookup_insert_ne haccount
      · rfl

theorem recorded_clear (deadlines : RetryDeadlines) (accountId : String) (observedDeadline now : Nat) :
    (deadlines.clearTelegramTopicCleanupRetryDeadlineIfElapsed accountId observedDeadline now).recorded =
      Cooldowns.forget deadlines.recorded (normalizedTelegramAccountId accountId) observedDeadline now := by
  simp only [clearTelegramTopicCleanupRetryDeadlineIfElapsed, Cooldowns.forget]
  by_cases h : (deadlines.lookup (normalizedTelegramAccountId accountId)).any fun deadline =>
      deadline ≤ observedDeadline && deadline ≤ now
  · have hrecorded : (deadlines.recorded (normalizedTelegramAccountId accountId)).any fun deadline =>
        deadline ≤ observedDeadline && deadline ≤ now := h
    rw [if_pos h, if_pos hrecorded]
    funext account
    by_cases haccount : account = normalizedTelegramAccountId accountId
    · rw [haccount, Function.update_self]
      exact AList.lookup_erase _ deadlines
    · rw [Function.update_of_ne haccount]
      exact AList.lookup_erase_ne haccount
  · have hrecorded : ¬(deadlines.recorded (normalizedTelegramAccountId accountId)).any fun deadline =>
        deadline ≤ observedDeadline && deadline ≤ now := h
    rw [if_neg h, if_neg hrecorded]

end RetryDeadlines

namespace MutationStage

/-- The instant up to which a caller with the gate has made sure that the deadline lies. -/
def bound (now : Nat) : MutationStage → Option Nat
  | .gatedRead deadline => some deadline
  | .gatedElapsed _ => some now
  | .lastCheck => some now
  | .ready => some now
  | _ => none

/-- The mutation of a caller in this stage has not been started. -/
def beforeStart : MutationStage → Bool
  | .mutating => false
  | .extending _ => false
  | .releasing => false
  | .finished => false
  | .cancelled => false
  | _ => true

theorem holdsGate_of_bound {stage : MutationStage} {now b : Nat} (h : stage.bound now = some b) :
    stage.holdsGate = true := by
  cases stage with
  | gatedRead | gatedElapsed | lastCheck | ready => rfl
  | _ => cases h

theorem bound_later {stage : MutationStage} {now later b : Nat} (hlater : now ≤ later)
    (h : stage.bound later = some b) : ∃ b', stage.bound now = some b' ∧ b' ≤ b := by
  cases stage with
  | gatedRead deadline => exact ⟨b, h, le_rfl⟩
  | gatedElapsed | lastCheck | ready =>
    cases h
    exact ⟨now, rfl, hlater⟩
  | _ => cases h

end MutationStage

def GateEffect.Fits (before after : Bool) : GateEffect → Prop
  | .nothing => after = before
  | .lock => before = false ∧ after = true
  | .unlock => before = true ∧ after = false
  | .clear _ => after = before
  | .extend _ => before = true ∧ after = true

namespace GateEffect

def onGates (account : String) (n : Nat) (gates : Table String GateHolder) : GateEffect → Table String GateHolder
  | .lock => gates.insert account (.caller n)
  | .unlock => gates.erase account
  | _ => gates

def onDeadlines (account : String) (now : Nat) (recorded : String → Option Nat) : GateEffect → String → Option Nat
  | .clear observedDeadline => Cooldowns.forget recorded account observedDeadline now
  | .extend requested => Cooldowns.extend recorded account requested
  | _ => recorded

def onAsked (account : String) (asked : List (String × Nat)) : GateEffect → List (String × Nat)
  | .extend requested => (account, requested) :: asked
  | _ => asked

end GateEffect

namespace MutationCaller

variable {c next : MutationCaller} {recorded : Option Nat} {now : Nat} {event : MutationEvent}
  {effect : GateEffect}

def account (c : MutationCaller) : String := normalizedTelegramAccountId c.accountId

/-- The mutation has been started at most once, and only after a check that said to continue. -/
structure Sound (c : MutationCaller) : Prop where
  once : c.executions ≤ 1
  fresh : c.stage.beforeStart = true → c.executions = 0
  allowed : c.stage = .ready → c.lastAnswer = some true

theorem Sound.approach (hc : c.Sound) (hstart : c.stage.beforeStart = true) {stage : MutationStage}
    (hstage : stage ≠ .ready) : (c.moveTo stage).Sound :=
  ⟨hc.once, fun _ => hc.fresh hstart, fun hready => absurd hready hstage⟩

theorem Sound.leave (hc : c.Sound) (stage : MutationStage) (hstage : stage.beforeStart = false) :
    (c.moveTo stage).Sound := by
  refine ⟨hc.once, ?_, ?_⟩
  · intro hstart
    cases hstart.symm.trans hstage
  · intro hready
    rw [show stage = .ready from hready] at hstage
    cases hstage

/-- What a step of a caller does, by the parts of its loop. -/
inductive Advances (c : MutationCaller) (recorded : Option Nat) (now : Nat) : MutationCaller → GateEffect → Prop
  | check {answer : Bool} {stage : MutationStage}
      (h : c.stage = .entry ∧ stage = .unread ∨ c.stage = .recheck ∧ stage = .queued) :
      Advances c recorded now (c.check answer stage) .nothing
  | proceed (h : c.stage = .lastCheck) : Advances c recorded now (c.check true .ready) .nothing
  | refuse (h : c.stage = .lastCheck) : Advances c recorded now (c.check false .ready) .unlock
  | wait {stage : MutationStage} (hbefore : c.stage.holdsGate = false) (hstart : c.stage.beforeStart = true)
      (hafter : stage.holdsGate = false) (hstill : stage.beforeStart = true) :
      Advances c recorded now (c.moveTo stage) .nothing
  | clear {deadline : Nat} (h : c.stage = .elapsed deadline) :
      Advances c recorded now (c.moveTo .recheck) (.clear deadline)
  | lock (h : c.stage = .queued) : Advances c recorded now (c.moveTo .gated) .lock
  | readNone (h : c.stage = .gated) (hnone : recorded = none) : Advances c recorded now (c.moveTo .lastCheck) .nothing
  | readSome {deadline : Nat} (h : c.stage = .gated) (hsome : recorded = some deadline) :
      Advances c recorded now (c.moveTo (.gatedRead deadline)) .nothing
  | giveUp {deadline : Nat} (h : c.stage = .gatedRead deadline) : Advances c recorded now (c.moveTo .entry) .unlock
  | pass {deadline : Nat} (h : c.stage = .gatedRead deadline) (hpast : deadline ≤ now) :
      Advances c recorded now (c.moveTo (.gatedElapsed deadline)) .nothing
  | forget {deadline : Nat} (h : c.stage = .gatedElapsed deadline) :
      Advances c recorded now (c.moveTo .lastCheck) (.clear deadline)
  | start (h : c.stage = .ready) :
      Advances c recorded now { c with stage := .mutating, executions := c.executions + 1 } .nothing
  | answered {stage : MutationStage} (h : c.stage = .mutating)
      (hstage : stage = .releasing ∨ ∃ requested, stage = .extending requested) :
      Advances c recorded now (c.moveTo stage) .nothing
  | extend {requested : Nat} (h : c.stage = .extending requested) :
      Advances c recorded now (c.moveTo .releasing) (.extend requested)
  | release (h : c.stage = .releasing) : Advances c recorded now (c.moveTo .finished) .unlock
  | cancel (h : c.stage.holdsGate = false) : Advances c recorded now (c.moveTo .cancelled) .nothing
  | cancelHeld (h : c.stage.holdsGate = true) : Advances c recorded now (c.moveTo .cancelled) .unlock

theorem advances_of_advance (h : c.advance recorded now event = some (next, effect)) :
    c.Advances recorded now next effect := by
  cases event with
  | checked answer =>
    simp only [advance] at h
    split at h
    next hstage =>
      cases h
      exact .check (.inl ⟨hstage, rfl⟩)
    next hstage =>
      cases h
      exact .check (.inr ⟨hstage, rfl⟩)
    next hstage =>
      cases h
      cases answer with
      | true => exact .proceed hstage
      | false => exact .refuse hstage
    next => cases h
  | readDeadline =>
    simp only [advance] at h
    split at h
    next hstage =>
      cases h
      cases recorded with
      | none => refine .wait ?_ ?_ ?_ ?_ <;> simp [hstage, holdsGate, beforeStart]
      | some deadline =>
        refine .wait ?_ ?_ ?_ ?_ <;> simp [hstage, holdsGate, beforeStart]
    next hstage =>
      cases h
      cases hrecorded : recorded with
      | none => exact .readNone hstage rfl
      | some deadline => exact .readSome hstage rfl
    next => cases h
  | compareDeadline =>
    simp only [advance] at h
    split at h
    next hstage =>
      cases h
      split <;> refine .wait ?_ ?_ ?_ ?_ <;>
        simp [hstage, holdsGate, beforeStart]
    next hstage =>
      split at h
      next =>
        cases h
        exact .giveUp hstage
      next hpast =>
        cases h
        exact .pass hstage (Nat.le_of_not_lt hpast)
    next => cases h
  | slept =>
    simp only [advance] at h
    split at h
    next hstage =>
      split at h
      · cases h
        refine .wait ?_ ?_ ?_ ?_ <;> simp [hstage, holdsGate, beforeStart]
      · cases h
    next => cases h
  | notified =>
    simp only [advance] at h
    split at h
    · split at h
      next hstage =>
        cases h
        refine .wait ?_ ?_ ?_ ?_ <;> simp [hstage, holdsGate, beforeStart]
      next hstage =>
        cases h
        refine .wait ?_ ?_ ?_ ?_ <;> simp [hstage, holdsGate, beforeStart]
      next => cases h
    · cases h
  | clearElapsed =>
    simp only [advance] at h
    split at h
    next hstage =>
      cases h
      exact .clear hstage
    next hstage =>
      cases h
      exact .forget hstage
    next => cases h
  | lockGate =>
    simp only [advance] at h
    split at h
    next hstage =>
      cases h
      exact .lock hstage
    next => cases h
  | start =>
    simp only [advance] at h
    split at h
    next hstage =>
      cases h
      exact .start hstage
    next => cases h
  | answered result =>
    simp only [advance] at h
    split at h
    next hstage =>
      cases h
      apply Advances.answered hstage
      cases telegramTopicMutationCooldown result with
      | none => exact .inl rfl
      | some delay => exact .inr ⟨_, rfl⟩
    next => cases h
  | extendDeadline =>
    simp only [advance] at h
    split at h
    next hstage =>
      cases h
      exact .extend hstage
    next => cases h
  | unlockGate =>
    simp only [advance] at h
    split at h
    next hstage =>
      cases h
      exact .release hstage
    next => cases h
  | cancel =>
    simp only [advance] at h
    split at h
    next => cases h
    next => cases h
    next =>
      cases h
      cases hgate : c.stage.holdsGate with
      | false => exact .cancel hgate
      | true => exact .cancelHeld hgate

namespace Advances

section

variable (h : c.Advances recorded now next effect)
include h

theorem account : next.account = c.account := by
  cases h <;> rfl

theorem fits : effect.Fits c.stage.holdsGate next.stage.holdsGate := by
  cases h with
  | @check answer stage h =>
    rcases h with ⟨hstage, rfl⟩ | ⟨hstage, rfl⟩ <;> rw [hstage] <;> cases answer <;> rfl
  | proceed h | clear h | readNone h _ | readSome h _ | pass h _ | forget h | start h => rw [h]; rfl
  | refuse h | lock h | giveUp h | extend h | release h => rw [h]; exact ⟨rfl, rfl⟩
  | wait hbefore _ hafter _ => exact hafter.trans hbefore.symm
  | answered h hstage => rw [h]; rcases hstage with rfl | ⟨_, rfl⟩ <;> rfl
  | cancel h => exact h.symm
  | cancelHeld h => exact ⟨h, rfl⟩

theorem sound (hc : c.Sound) : next.Sound := by
  cases h with
  | @check answer stage h =>
    have hfresh : c.executions = 0 := by
      apply hc.fresh
      rcases h with ⟨hstage, _⟩ | ⟨hstage, _⟩ <;> rw [hstage] <;> rfl
    refine ⟨hc.once, fun _ => hfresh, ?_⟩
    intro hready
    rcases h with ⟨_, rfl⟩ | ⟨_, rfl⟩ <;> cases answer <;> cases hready
  | proceed h =>
    have hfresh : c.executions = 0 := hc.fresh (by rw [h]; rfl)
    exact ⟨hc.once, fun _ => hfresh, fun _ => rfl⟩
  | refuse _ =>
    have hmoved := hc.leave .finished rfl
    refine ⟨hmoved.once, hmoved.fresh, ?_⟩
    intro hready
    cases hready
  | wait _ hstart hafter _ =>
    apply hc.approach hstart
    rintro rfl
    cases hafter
  | clear h | lock h | readNone h _ | readSome h _ | giveUp h
  | pass h _ | forget h => exact hc.approach (by rw [h]; rfl) (by simp)
  | start h =>
    have hfresh : c.executions = 0 := hc.fresh (by rw [h]; rfl)
    exact ⟨by simp [hfresh], by simp [beforeStart], by simp⟩
  | answered _ hstage =>
    apply hc.leave
    rcases hstage with rfl | ⟨_, rfl⟩ <;> rfl
  | extend _ => exact hc.leave .releasing rfl
  | release _ => exact hc.leave .finished rfl
  | cancel _ | cancelHeld _ => exact hc.leave .cancelled rfl

theorem bound {b : Nat} (hb : next.stage.bound now = some b) :
    (∀ requested, effect ≠ .extend requested) ∧
      ((∃ b', c.stage.bound now = some b' ∧ b' ≤ b) ∨ ∀ d, recorded = some d → d ≤ b) := by
  cases h with
  | @check answer stage h => rcases h with ⟨_, rfl⟩ | ⟨_, rfl⟩ <;> cases answer <;> cases hb
  | proceed h | forget h =>
    cases hb
    exact ⟨by simp, .inl ⟨now, by rw [h]; rfl, le_rfl⟩⟩
  | refuse _ | clear _ | lock _ | giveUp _ | start _ | extend _ | release _ | cancel _ | cancelHeld _ => cases hb
  | wait _ _ hafter _ =>
    have hgate := holdsGate_of_bound hb
    rw [show (c.moveTo _).stage.holdsGate = false from hafter] at hgate
    cases hgate
  | readNone _ hnone =>
    refine ⟨by simp, .inr ?_⟩
    intro d hd
    rw [hnone] at hd
    cases hd
  | readSome _ hsome =>
    cases hb
    refine ⟨by simp, .inr ?_⟩
    intro d hd
    rw [hsome] at hd
    cases hd
    exact le_rfl
  | @pass deadline h hpast =>
    cases hb
    exact ⟨by simp, .inl ⟨deadline, by rw [h]; rfl, hpast⟩⟩
  | answered _ hstage => rcases hstage with rfl | ⟨_, rfl⟩ <;> cases hb

theorem mutating (hnext : next.stage = .mutating) : c.stage = .ready ∧ next.lastAnswer = c.lastAnswer := by
  cases h with
  | @check answer stage h => rcases h with ⟨_, rfl⟩ | ⟨_, rfl⟩ <;> cases answer <;> cases hnext
  | start h => exact ⟨h, rfl⟩
  | @wait stage _ _ hafter _ =>
    cases (show stage = .mutating from hnext)
    cases hafter
  | answered _ hstage => rcases hstage with rfl | ⟨_, rfl⟩ <;> cases hnext
  | _ => cases hnext

end

end Advances

end MutationCaller

namespace GateSystem

variable {s t : GateSystem} {n : Nat} {c next : MutationCaller} {effect : GateEffect}

/-- The callers between their locking and unlocking are the holders of the gates. -/
structure Locked (s : GateSystem) : Prop where
  numbered : ∀ {n c}, s.callers.lookup n = some c → n < s.calls
  held : ∀ {n c}, s.callers.lookup n = some c → c.stage.holdsGate = true →
    s.gates.lookup c.account = some (.caller n)
  holder : ∀ {account n}, s.gates.lookup account = some (.caller n) →
    ∃ c, s.callers.lookup n = some c ∧ c.account = account ∧ c.stage.holdsGate = true

/-- A caller that has read the deadline under the gate knows until when it may lie. -/
def Bounded (s : GateSystem) : Prop :=
  ∀ n c b, s.callers.lookup n = some c → c.stage.bound s.now = some b →
    ∀ d, s.deadlines.recorded c.account = some d → d ≤ b

structure Sound (s : GateSystem) : Prop where
  locked : s.Locked
  bounded : s.Bounded
  callers : ∀ n c, s.callers.lookup n = some c → c.Sound
  faithful : Cooldowns.Faithful s.deadlines.recorded s.asked s.now

theorem start_sound : start.Sound where
  locked := by
    constructor <;> intro _ _ h <;> cases h
  bounded := by
    intro n c b h
    cases h
  callers := by
    intro n c h
    cases h
  faithful := Cooldowns.Faithful.empty 0

theorem lookup_putCaller (s : GateSystem) (n m : Nat) (c : MutationCaller) :
    (s.putCaller n c).callers.lookup m = if m = n then some c else s.callers.lookup m :=
  Table.lookup_insert_eq s.callers n m c

/-- What the effect of a step leaves in the gates, the deadlines and the record of what was asked. -/
structure Applied (s t : GateSystem) (n : Nat) (next : MutationCaller) (effect : GateEffect) : Prop where
  callers : t.callers = (s.putCaller n next).callers
  calls : t.calls = s.calls
  now : t.now = s.now
  gates : t.gates = effect.onGates next.account n s.gates
  free : effect = .lock → s.gates.lookup next.account = none
  deadlines : t.deadlines.recorded = effect.onDeadlines next.account s.now s.deadlines.recorded
  asked : t.asked = effect.onAsked next.account s.asked

theorem applied_of_applyEffect (h : s.applyEffect n next effect = some t) : s.Applied t n next effect := by
  cases effect with
  | nothing | unlock =>
    cases h
    exact ⟨rfl, rfl, rfl, rfl, by simp, rfl, rfl⟩
  | lock =>
    simp only [applyEffect] at h
    split at h
    next => cases h
    next hfree =>
      cases h
      exact ⟨rfl, rfl, rfl, rfl, fun _ => hfree, rfl, rfl⟩
  | clear observedDeadline =>
    cases h
    exact ⟨rfl, rfl, rfl, rfl, by simp, recorded_clear .., rfl⟩
  | extend requested =>
    cases h
    exact ⟨rfl, rfl, rfl, rfl, by simp, recorded_extend .., rfl⟩

theorem step_act {event : MutationEvent} (h : s.step (.act n event) = some t) :
    ∃ c next effect, s.callers.lookup n = some c ∧
      c.Advances (s.deadlines.recorded c.account) s.now next effect ∧ s.Applied t n next effect := by
  simp only [step, Option.bind_eq_some_iff] at h
  obtain ⟨c, hn, ⟨next, effect⟩, hadvance, happly⟩ := h
  exact ⟨c, next, effect, hn, MutationCaller.advances_of_advance hadvance, applied_of_applyEffect happly⟩

theorem Applied.lookup (h : s.Applied t n next effect) (m : Nat) :
    t.callers.lookup m = if m = n then some next else s.callers.lookup m := by
  rw [h.callers]
  exact lookup_putCaller s n m next

namespace Locked

section

variable (hs : s.Locked)
include hs

theorem start (accountId : String) (notifier : Bool) :
    Locked { s.putCaller s.calls ⟨accountId, notifier, .entry, none, 0⟩ with calls := s.calls + 1 } := by
  constructor
  · intro m found hfound
    have hlookup := (lookup_putCaller s s.calls m _).symm.trans hfound
    split at hlookup
    next heq => exact Nat.lt_succ_of_le heq.le
    next => exact Nat.lt_succ_of_lt (hs.numbered hlookup)
  · intro m found hfound hgate
    have hlookup := (lookup_putCaller s s.calls m _).symm.trans hfound
    split at hlookup
    next =>
      have hfoundEq := Option.some.inj hlookup
      subst found
      cases hgate
    next => exact hs.held hlookup hgate
  · intro account m hgate
    obtain ⟨found, hfound, haccount, hholds⟩ := hs.holder hgate
    refine ⟨found, ?_, haccount, hholds⟩
    have hne : m ≠ s.calls := Nat.ne_of_lt (hs.numbered hfound)
    exact (lookup_putCaller s s.calls m _).trans ((if_neg hne).trans hfound)

section

variable (hn : s.callers.lookup n = some c)
include hn

theorem keep (haccount : next.account = c.account)
    (hgate : next.stage.holdsGate = c.stage.holdsGate) (h : s.Applied t n next effect)
    (hgates : t.gates = s.gates) : t.Locked := by
  constructor
  · intro m found hfound
    rw [h.lookup] at hfound
    rw [h.calls]
    split at hfound
    next heq =>
      subst m
      exact hs.numbered hn
    next => exact hs.numbered hfound
  · intro m found hfound hholds
    rw [h.lookup] at hfound
    rw [hgates]
    split at hfound
    next heq =>
      have hfoundEq := Option.some.inj hfound
      subst found
      subst m
      rw [haccount]
      exact hs.held hn (hgate.symm.trans hholds)
    next => exact hs.held hfound hholds
  · intro account m hheld
    rw [hgates] at hheld
    obtain ⟨found, hfound, hfoundAccount, hholds⟩ := hs.holder hheld
    rw [h.lookup]
    split
    next heq =>
      subst m
      rw [hn] at hfound
      have hfoundEq := Option.some.inj hfound
      subst found
      exact ⟨next, rfl, haccount.trans hfoundAccount, hgate.trans hholds⟩
    next => exact ⟨found, hfound, hfoundAccount, hholds⟩

theorem lock (hbefore : c.stage.holdsGate = false)
    (hafter : next.stage.holdsGate = true) (h : s.Applied t n next .lock) : t.Locked := by
  have hfree := h.free rfl
  have hgates : t.gates = s.gates.insert next.account (.caller n) := h.gates
  constructor
  · intro m found hfound
    rw [h.lookup] at hfound
    rw [h.calls]
    split at hfound
    next heq =>
      subst m
      exact hs.numbered hn
    next => exact hs.numbered hfound
  · intro m found hfound hholds
    rw [h.lookup] at hfound
    rw [hgates, Table.lookup_insert_eq]
    split at hfound
    next heq =>
      have hfoundEq := Option.some.inj hfound
      subst found
      subst m
      exact if_pos rfl
    next =>
      have hheld := hs.held hfound hholds
      rw [if_neg]
      · exact hheld
      · intro heq
        rw [heq, hfree] at hheld
        cases hheld
  · intro account m hheld
    rw [hgates, Table.lookup_insert_eq] at hheld
    split at hheld
    next heq =>
      cases hheld
      exact ⟨next, (h.lookup n).trans (if_pos rfl), heq.symm, hafter⟩
    next =>
      obtain ⟨found, hfound, haccount, hholds⟩ := hs.holder hheld
      refine ⟨found, ?_, haccount, hholds⟩
      have hne : m ≠ n := by
        intro heq
        rw [heq, hn] at hfound
        have hfoundEq := Option.some.inj hfound
        subst found
        rw [hbefore] at hholds
        cases hholds
      exact (h.lookup m).trans ((if_neg hne).trans hfound)

theorem unlock (haccount : next.account = c.account)
    (hbefore : c.stage.holdsGate = true) (hafter : next.stage.holdsGate = false)
    (h : s.Applied t n next .unlock) : t.Locked := by
  have hown := hs.held hn hbefore
  have hgates : t.gates = s.gates.erase next.account := h.gates
  constructor
  · intro m found hfound
    rw [h.lookup] at hfound
    rw [h.calls]
    split at hfound
    next heq =>
      subst m
      exact hs.numbered hn
    next => exact hs.numbered hfound
  · intro m found hfound hholds
    rw [h.lookup] at hfound
    rw [hgates, Table.lookup_erase_eq]
    split at hfound
    next =>
      have hfoundEq := Option.some.inj hfound
      subst found
      rw [hafter] at hholds
      cases hholds
    next hne =>
      have hheld := hs.held hfound hholds
      rw [if_neg]
      · exact hheld
      · intro heq
        rw [heq, haccount, hown] at hheld
        cases hheld
        exact hne rfl
  · intro account m hheld
    rw [hgates, Table.lookup_erase_eq] at hheld
    split at hheld
    next => cases hheld
    next hother =>
      obtain ⟨found, hfound, hfoundAccount, hholds⟩ := hs.holder hheld
      refine ⟨found, ?_, hfoundAccount, hholds⟩
      have hne : m ≠ n := by
        intro heq
        rw [heq, hn] at hfound
        have hfoundEq := Option.some.inj hfound
        subst found
        exact hother (hfoundAccount.symm.trans haccount.symm)
      exact (h.lookup m).trans ((if_neg hne).trans hfound)

theorem act {recorded : Option Nat} (hadvance : c.Advances recorded s.now next effect) (h : s.Applied t n next effect) : t.Locked := by
  have haccount := hadvance.account
  have hfits := hadvance.fits
  cases effect with
  | nothing | clear => exact hs.keep hn haccount hfits h h.gates
  | lock => exact hs.lock hn hfits.1 hfits.2 h
  | unlock => exact hs.unlock hn haccount hfits.1 hfits.2 h
  | extend => exact hs.keep hn haccount (hfits.2.trans hfits.1.symm) h h.gates

omit hn in
theorem others (hcallers : t.callers = s.callers) (hcalls : t.calls = s.calls)
    (hgates : ∀ account n, t.gates.lookup account = some (.caller n) ↔
      s.gates.lookup account = some (.caller n)) : t.Locked := by
  constructor
  · intro n c hn
    rw [hcallers] at hn
    rw [hcalls]
    exact hs.numbered hn
  · intro n c hn hholds
    rw [hcallers] at hn
    exact (hgates c.account n).mpr (hs.held hn hholds)
  · intro account n hheld
    rw [hcallers]
    exact hs.holder ((hgates account n).mp hheld)

theorem alone {m : Nat} {other : MutationCaller} (hm : s.callers.lookup m = some other) (hholds : c.stage.holdsGate = true)
    (hotherHolds : other.stage.holdsGate = true) (haccount : c.account = other.account) : n = m := by
  have hheld := hs.held hn hholds
  rw [haccount, hs.held hm hotherHolds] at hheld
  cases hheld
  rfl

end

end

end Locked

theorem Applied.recorded_mem (h : s.Applied t n next effect) {account : String} {d : Nat}
    (hother : ∀ requested, effect = .extend requested → account ≠ next.account)
    (hd : t.deadlines.recorded account = some d) : s.deadlines.recorded account = some d := by
  rw [h.deadlines] at hd
  cases effect with
  | clear observedDeadline => exact forget_mem hd
  | extend requested => exact (extend_of_ne (hother requested rfl)).symm.trans hd
  | nothing | lock | unlock => exact hd

theorem Bounded.act (hb : s.Bounded) (hs : s.Locked) (hn : s.callers.lookup n = some c)
    (hadvance : c.Advances (s.deadlines.recorded c.account) s.now next effect)
    (h : s.Applied t n next effect) : t.Bounded := by
  intro m found b hfound hbound d hd
  rw [h.now] at hbound
  rw [h.lookup] at hfound
  split at hfound
  next =>
    have hfoundEq := Option.some.inj hfound
    subst found
    obtain ⟨hextend, hold⟩ := hadvance.bound hbound
    have hrecorded : s.deadlines.recorded c.account = some d := by
      rw [← hadvance.account]
      exact h.recorded_mem (fun requested heq => absurd heq (hextend requested)) hd
    rcases hold with ⟨b', hb', hle⟩ | hread
    · exact (hb n c b' hn hb' d hrecorded).trans hle
    · exact hread d hrecorded
  next hne =>
    have hholds := holdsGate_of_bound hbound
    -- the deadline of an account is extended only with its gate, which this caller has
    have hother : ∀ requested, effect = .extend requested → found.account ≠ next.account := by
      intro requested heq haccount
      have hfits := hadvance.fits
      rw [heq] at hfits
      exact hne (hs.alone hfound hn hholds hfits.1 (haccount.trans hadvance.account))
    exact hb m found b hfound hbound d (h.recorded_mem hother hd)

theorem Bounded.keep (hb : s.Bounded) (hcallers : t.callers = s.callers) (hnow : s.now ≤ t.now)
    (hdeadlines : ∀ account d, t.deadlines.recorded account = some d → s.deadlines.recorded account = some d) :
    t.Bounded := by
  intro n c b hn hbound d hd
  rw [hcallers] at hn
  obtain ⟨b', hb', hle⟩ := bound_later hnow hbound
  exact (hb n c b' hn hb' d (hdeadlines c.account d hd)).trans hle

theorem faithful_act (hs : s.Sound) (h : s.Applied t n next effect) :
    Cooldowns.Faithful t.deadlines.recorded t.asked t.now := by
  rw [h.deadlines, h.asked, h.now]
  cases effect with
  | clear observedDeadline => exact hs.faithful.forget next.account observedDeadline
  | extend requested => exact hs.faithful.extend next.account requested
  | nothing | lock | unlock => exact hs.faithful

theorem lookup_gates_insert_other (s : GateSystem) {accountId account : String} {n : Nat}
    (hfree : s.gates.lookup accountId = none) :
    (s.gates.insert accountId .other).lookup account = some (.caller n) ↔
      s.gates.lookup account = some (.caller n) := by
  rw [Table.lookup_insert_eq]
  split
  next heq =>
    subst account
    simp [hfree]
  next => exact Iff.rfl

theorem lookup_gates_erase_other (s : GateSystem) {accountId account : String} {n : Nat}
    (hother : s.gates.lookup accountId = some .other) :
    (s.gates.erase accountId).lookup account = some (.caller n) ↔
      s.gates.lookup account = some (.caller n) := by
  rw [Table.lookup_erase_eq]
  split
  next heq =>
    subst account
    simp [hother]
  next => exact Iff.rfl

variable {a : GateStep}

theorem step_sound (hs : s.Sound) (h : s.step a = some t) : t.Sound := by
  cases a with
  | call accountId notifier =>
    cases h
    refine ⟨hs.locked.start accountId notifier, ?_, ?_, hs.faithful⟩
    · intro m found b hfound hbound
      have hlookup := (lookup_putCaller s s.calls m _).symm.trans hfound
      split at hlookup
      next =>
        have hfoundEq := Option.some.inj hlookup
        subst found
        cases hbound
      next => exact hs.bounded m found b hlookup hbound
    · intro m found hfound
      have hlookup := (lookup_putCaller s s.calls m _).symm.trans hfound
      split at hlookup
      next =>
        have hfoundEq := Option.some.inj hlookup
        subst found
        exact ⟨Nat.zero_le 1, fun _ => rfl, fun hready => by cases hready⟩
      next => exact hs.callers m found hlookup
  | act n event =>
    obtain ⟨c, next, effect, hn, hadvance, happlied⟩ := step_act h
    refine ⟨hs.locked.act hn hadvance happlied, hs.bounded.act hs.locked hn hadvance happlied, ?_,
      faithful_act hs happlied⟩
    intro m found hfound
    rw [happlied.lookup] at hfound
    split at hfound
    next =>
      have hfoundEq := Option.some.inj hfound
      subst found
      exact hadvance.sound (hs.callers n c hn)
    next => exact hs.callers m found hfound
  | borrowGate accountId =>
    simp only [step] at h
    split at h
    next => cases h
    next hfree =>
      cases h
      exact ⟨hs.locked.others rfl rfl fun _ _ => lookup_gates_insert_other s hfree,
        hs.bounded.keep rfl le_rfl fun _ _ hd => hd, hs.callers, hs.faithful⟩
  | returnGate accountId =>
    simp only [step] at h
    split at h
    next hother =>
      cases h
      exact ⟨hs.locked.others rfl rfl fun _ _ => lookup_gates_erase_other s hother,
        hs.bounded.keep rfl le_rfl fun _ _ hd => hd, hs.callers, hs.faithful⟩
    next => cases h
  | clearElapsed accountId observedDeadline =>
    cases h
    refine ⟨hs.locked.others rfl rfl fun _ _ => Iff.rfl, hs.bounded.keep rfl le_rfl ?_, hs.callers, ?_⟩
    · intro account d hd
      rw [recorded_clear] at hd
      exact forget_mem hd
    · have hforget := hs.faithful.forget (normalizedTelegramAccountId accountId) observedDeadline
      rw [← recorded_clear] at hforget
      exact hforget
  | elapse nanoseconds =>
    cases h
    have hlater : s.now ≤ s.now + nanoseconds := Nat.le_add_right s.now nanoseconds
    exact ⟨hs.locked.others rfl rfl fun _ _ => Iff.rfl, hs.bounded.keep rfl hlater fun _ _ hd => hd,
      hs.callers, hs.faithful.wait hlater⟩

theorem run_sound {steps : List GateStep} (hs : s.Sound) (h : Runs.run step s steps = some t) : t.Sound :=
  Runs.run_invariant Sound (fun _ _ _ hs h => step_sound hs h) hs h

theorem step_noEarlier (h : s.step a = some t) :
    Cooldowns.NoEarlier s.deadlines.recorded t.deadlines.recorded s.now := by
  cases a with
  | act n event =>
    obtain ⟨c, next, effect, hn, hadvance, happlied⟩ := step_act h
    rw [happlied.deadlines]
    cases effect with
    | clear observedDeadline => exact forget_noEarlier _ _ _ _
    | extend requested => exact extend_noEarlier _ _ _ _
    | nothing | lock | unlock => exact .refl _ _
  | clearElapsed accountId observedDeadline =>
    cases h
    rw [recorded_clear]
    exact forget_noEarlier _ _ _ _
  | call accountId notifier | elapse nanoseconds =>
    cases h
    exact .refl _ _
  | borrowGate accountId =>
    simp only [step] at h
    split at h
    · cases h
    · cases h
      exact .refl _ _
  | returnGate accountId =>
    simp only [step] at h
    split at h
    · cases h
      exact .refl _ _
    · cases h

/-- At most one mutation runs for an account, and each call runs its mutation at most once. -/
structure Guarded (s : GateSystem) : Prop where
  alone : ∀ n m c other, s.Mutating n c → s.Mutating m other → c.account = other.account → n = m
  once : ∀ n c, s.callers.lookup n = some c → c.executions ≤ 1

/-- A mutation that a step starts was let through by the caller's last check, and neither the deadline that is
recorded for its account nor any that was ever asked for is still to come. -/
def StartsGuarded (s t : GateSystem) : Prop :=
  ∀ n c, t.Mutating n c → (∀ old, ¬s.Mutating n old) →
    c.lastAnswer = some true ∧ (∀ d, s.deadlines.recorded c.account = some d → d ≤ s.now) ∧
      ∀ d, (c.account, d) ∈ s.asked → d ≤ s.now

theorem Sound.guarded (hs : s.Sound) : s.Guarded where
  alone := by
    rintro n m c other ⟨hn, hstage⟩ ⟨hm, hotherStage⟩ haccount
    exact hs.locked.alone hn hm (by rw [hstage]; rfl) (by rw [hotherStage]; rfl) haccount
  once := fun n c hn => (hs.callers n c hn).once

theorem Sound.startsGuarded (hs : s.Sound) (h : s.step a = some t) : s.StartsGuarded t := by
  rintro n c ⟨hn, hstage⟩ hnew
  -- a step that leaves the caller's record as it was starts nothing
  have hsame : s.callers.lookup n ≠ some c := fun hold => hnew c ⟨hold, hstage⟩
  cases a with
  | call accountId notifier =>
    cases h
    have hlookup := (lookup_putCaller s s.calls n _).symm.trans hn
    split at hlookup
    · have hfoundEq := Option.some.inj hlookup
      subst c
      cases hstage
    · exact absurd hlookup hsame
  | act m event =>
    obtain ⟨old, next, effect, hm, hadvance, happlied⟩ := step_act h
    rw [happlied.lookup] at hn
    split at hn
    next heq =>
      have hfoundEq := Option.some.inj hn
      subst c
      obtain ⟨hready, hanswer⟩ := hadvance.mutating hstage
      have hdeadline : ∀ d, s.deadlines.recorded next.account = some d → d ≤ s.now := by
        intro d hd
        rw [hadvance.account] at hd
        exact hs.bounded m old s.now hm (by rw [hready]; rfl) d hd
      refine ⟨hanswer.trans ((hs.callers m old hm).allowed hready), hdeadline, ?_⟩
      intro d hasked
      apply hs.faithful.asked_le _ hasked
      rintro ⟨recorded, hrecorded, hlt⟩
      exact absurd hlt (Nat.not_lt.mpr (hdeadline recorded hrecorded))
    next => exact absurd hn hsame
  | borrowGate accountId =>
    simp only [step] at h
    split at h
    · cases h
    · cases h
      exact absurd hn hsame
  | returnGate accountId =>
    simp only [step] at h
    split at h
    · cases h
      exact absurd hn hsame
    · cases h
  | clearElapsed accountId observedDeadline | elapse nanoseconds =>
    cases h
    exact absurd hn hsame

/-- However the callers and their waits, checks, answers and cancellations interleave. -/
theorem topic_mutations_guarded {steps : List GateStep} (h : Runs.run step start steps = some s) :
    s.Guarded ∧ ∀ a t, s.step a = some t → s.StartsGuarded t ∧
      Cooldowns.NoEarlier s.deadlines.recorded t.deadlines.recorded s.now := by
  have hs : s.Sound := run_sound start_sound h
  exact ⟨hs.guarded, fun a t hstep => ⟨hs.startsGuarded hstep, step_noEarlier hstep⟩⟩

/-- The second caller queues for the gate, finds the deadline that the first was given and waits for it. -/
def rateLimited : List GateStep :=
  [.call "bot" false, .call " bot " true, .act 0 (.checked true), .act 0 .readDeadline, .act 0 (.checked true),
    .act 0 .lockGate, .act 0 .readDeadline, .act 0 (.checked true), .act 0 .start, .act 1 (.checked true),
    .act 1 .readDeadline, .act 1 (.checked true), .act 0 (.answered (.apiError ⟨429, some 429, some 1⟩)),
    .act 0 .extendDeadline, .act 0 .unlockGate, .act 1 .lockGate, .act 1 .readDeadline, .act 1 .compareDeadline,
    .act 1 (.checked true), .act 1 .readDeadline, .act 1 .compareDeadline, .elapse (fromSecs 1), .act 1 .slept,
    .act 1 .clearElapsed, .act 1 (.checked true), .act 1 .lockGate, .act 1 .readDeadline, .act 1 (.checked true),
    .act 1 .start]

theorem topic_mutations_guarded_rateLimited :
    ∃ s, Runs.run step start rateLimited = some s ∧
      (s.callers.lookup 1).map (fun c => (c.stage, c.executions)) = some (.mutating, 1) ∧ s.Guarded ∧
      ∀ a t, s.step a = some t → s.StartsGuarded t ∧
        Cooldowns.NoEarlier s.deadlines.recorded t.deadlines.recorded s.now := by
  have hrun : (Runs.run step start rateLimited).map (fun s =>
      (s.callers.lookup 1).map fun c => (c.stage, c.executions)) = some (some (.mutating, 1)) := by
    decide +kernel
  obtain ⟨s, hs, hcaller⟩ := Option.map_eq_some_iff.mp hrun
  exact ⟨s, hs, hcaller, topic_mutations_guarded hs⟩

end GateSystem

end MochiPort

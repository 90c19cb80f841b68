import MochiPort.TypingDrivers

namespace MochiPort

open Option TelegramTyping

namespace TypingStep

def driver : TypingStep → Option Nat
  | .decide n | .notified n | .renewalDue n | .takeSnapshot n | .report n _ | .restart n => some n
  | _ => none

end TypingStep

namespace TypingSystem

variable {s t : TypingSystem}

/-- The key of the item that a step tries to start. -/
def startedKey (s : TypingSystem) : TypingStep → Option String
  | .start threadId itemId => some (telegramTypingKey threadId itemId)
  | .restart n => (s.drivers.lookup n).map TypingDriver.key
  | _ => none

structure OneDriver (s : TypingSystem) : Prop where
  sendingIff : ∀ key typing, s.typing.byItem.lookup key = some typing →
    (typing.sending = true ↔ ∃ n, s.Live n key typing.generation)
  alone : ∀ n m key generation, s.Live n key generation → s.Live m key generation → m = n

/-- A driver whose generation is not that of an item changes nothing. -/
def StaleIdle (s : TypingSystem) (a : TypingStep) (t : TypingSystem) : Prop :=
  ∀ n d, a.driver = some n → s.drivers.lookup n = some d →
    (∀ typing, s.typing.byItem.lookup d.key = some typing → typing.generation ≠ d.generation) → t.typing = s.typing

/-- A key that was ever recorded as completed is not started. -/
def CompletedStays (s : TypingSystem) (a : TypingStep) (t : TypingSystem) : Prop :=
  ∀ key, s.startedKey a = some key → key ∈ s.typing.recorded →
    t.typing = s.typing ∧ ∀ n k generation, t.Live n k generation → s.Live n k generation

theorem Driven.oneDriver (hs : s.Driven) : s.OneDriver where
  sendingIff key typing hlookup := by
    constructor
    · exact hs.driven key typing hlookup
    · rintro ⟨n, d, hd, rfl, hsame, hlive⟩
      exact (hs.serving n d typing hd hlive hlookup hsame.symm).1
  alone := hs.alone

theorem stopWith_typing (threadId : String) (stopped : TelegramTyping × List (String × Int × Bool)) :
    (s.stopWith threadId stopped).typing = stopped.1 := by
  rw [stopWith, spawnFinishing_withTyping]
  rfl

variable {a : TypingStep}

theorem step_recorded (hs : s.typing.Recorded) (h : step s a = some t) : t.typing.Recorded := by
  cases a with
  | start threadId itemId =>
    cases Option.some.inj h
    have hstarted := hs.startTelegramTyping threadId itemId
    split <;> exact hstarted
  | finish threadId currentTurn =>
    cases Option.some.inj h
    rw [stopWith_typing]
    exact hs.stop threadId true none currentTurn
  | suspend threadId terminal turnId currentTurn =>
    cases Option.some.inj h
    rw [stopWith_typing]
    have hsuspended : TelegramTyping.Recorded { s.typing with
        suspendedThreads := s.typing.suspendedThreads.insert threadId } := hs
    exact hsuspended.stop threadId terminal turnId currentTurn
  | resume threadId | wake threadId =>
    cases Option.some.inj h
    exact hs
  | cancel threadId itemId generation =>
    cases Option.some.inj h
    unfold cancelTelegramTypingGeneration
    split
    next => exact hs.rememberCompleted _
    next => exact hs
  | clearThread threadId =>
    cases Option.some.inj h
    exact hs.clearKeys _
  | bridgeGeneration =>
    cases Option.some.inj h
    have hresumed : TelegramTyping.Recorded { s.typing with suspendedThreads := [] } := hs
    exact hresumed.clearKeys _
  | decide n =>
    obtain ⟨d, _, rfl⟩ := map_eq_some_iff.mp h
    split
    next => exact hs
    next => split <;> exact hs
  | notified n =>
    obtain ⟨d, _, rfl⟩ := map_eq_some_iff.mp h
    exact hs
  | renewalDue n =>
    obtain ⟨d, _, rfl⟩ := map_eq_some_iff.mp h
    unfold markTelegramTypingRenewalDue
    split
    next => exact hs
    next => split <;> exact hs
  | takeSnapshot n =>
    obtain ⟨d, _, rfl⟩ := map_eq_some_iff.mp h
    unfold takeTelegramTypingSnapshot
    split
    next => exact hs
    next =>
      split
      next => exact hs
      next => split <;> exact hs
  | report n succeeded =>
    simp only [step] at h
    split at h
    next => cases h
    next d _ =>
      split at h
      next finished revision _ =>
        obtain ⟨_, h⟩ := ite_none_left_eq_some.mp h
        cases Option.some.inj h
        unfold completeTelegramTypingSend
        split
        next => exact hs
        next =>
          repeat' split
          all_goals exact hs
      next => cases h
  | restart n =>
    obtain ⟨d, _, rfl⟩ := map_eq_some_iff.mp h
    exact hs.startTelegramTyping d.threadId d.itemId

section Stale

variable {r : TelegramTyping} {key : String} {generation : Int}

section

variable (h : ∀ typing, r.byItem.lookup key = some typing → typing.generation ≠ generation)
include h

theorem renewal_stale : (r.markTelegramTypingRenewalDue key generation).1 = r := by
  unfold markTelegramTypingRenewalDue
  split
  next => rfl
  next typing hlookup => rw [if_pos (by simp [h typing hlookup])]

theorem snapshot_stale : (r.takeTelegramTypingSnapshot key generation).1 = r := by
  unfold takeTelegramTypingSnapshot
  split
  next => rfl
  next typing hlookup => rw [if_pos (h typing hlookup)]

theorem report_stale {revision : Nat} {succeeded : Bool} :
    (r.completeTelegramTypingSend key generation revision succeeded).1 = r := by
  unfold completeTelegramTypingSend
  split
  next => rfl
  next typing hlookup => rw [if_pos (h typing hlookup)]

end

end Stale

theorem step_staleIdle (hg : s.Regular a) (h : step s a = some t) : StaleIdle s a t := by
  intro n d hn hd hstale
  cases a with
  | decide m =>
    obtain ⟨d', _, rfl⟩ := map_eq_some_iff.mp h
    split
    next => rfl
    next => split <;> rfl
  | notified m =>
    obtain ⟨d', _, rfl⟩ := map_eq_some_iff.mp h
    rfl
  | renewalDue m =>
    cases Option.some.inj hn
    obtain ⟨d', hd', rfl⟩ := map_eq_some_iff.mp h
    cases Option.some.inj (hd.symm.trans (driverAt_eq_some.mp hd').1)
    exact renewal_stale hstale
  | takeSnapshot m =>
    cases Option.some.inj hn
    obtain ⟨d', hd', rfl⟩ := map_eq_some_iff.mp h
    cases Option.some.inj (hd.symm.trans (driverAt_eq_some.mp hd').1)
    exact snapshot_stale hstale
  | report m succeeded =>
    cases Option.some.inj hn
    simp only [step, hd] at h
    split at h
    next finished revision _ =>
      obtain ⟨_, h⟩ := ite_none_left_eq_some.mp h
      cases Option.some.inj h
      exact report_stale hstale
    next => cases h
  | restart m =>
    cases Option.some.inj hn
    obtain ⟨d', hd', rfl⟩ := map_eq_some_iff.mp h
    cases Option.some.inj (hd.symm.trans (driverAt_eq_some.mp hd').1)
    obtain ⟨_, _, hrefuses | ⟨typing, hlookup, hsame⟩⟩ := hg d hd
    · exact congrArg Prod.fst (startTelegramTyping_of_refuses hrefuses)
    · exact absurd hsame (hstale typing hlookup)
  | start threadId itemId | finish threadId currentTurn | suspend threadId terminal turnId currentTurn
  | resume threadId | wake threadId | cancel threadId itemId generation | clearThread threadId
  | bridgeGeneration => cases hn

theorem step_completedStays (hs : s.typing.Recorded) (hg : s.Regular a) (h : step s a = some t) :
    CompletedStays s a t := by
  intro key hkey hrecorded
  cases a with
  | start threadId itemId =>
    cases Option.some.inj hkey
    cases Option.some.inj h
    rw [startTelegramTyping_of_refuses (hs.refusesStart (hg.2 hrecorded))]
    exact ⟨rfl, fun _ _ _ => id⟩
  | restart n =>
    obtain ⟨d, hd, rfl⟩ := map_eq_some_iff.mp hkey
    obtain ⟨d', hd', rfl⟩ := map_eq_some_iff.mp h
    cases Option.some.inj (hd.symm.trans (driverAt_eq_some.mp hd').1)
    rw [startTelegramTyping_of_refuses (hs.refusesStart ((hg d hd).2.1 hrecorded))]
    refine ⟨rfl, fun m k generation hm => ?_⟩
    have hm := (live_insert (s := s)).mp hm
    split at hm
    next => cases hm.2.2
    next => exact hm
  | finish threadId currentTurn | suspend threadId terminal turnId currentTurn | resume threadId
  | wake threadId | cancel threadId itemId generation | clearThread threadId | bridgeGeneration
  | decide n | notified n | renewalDue n | takeSnapshot n | report n succeeded => cases hkey

/-- In every run whose starts are regular each item has one driver while it is sending and none otherwise. -/
theorem one_typing_driver {steps : List TypingStep} (hm : Runs.Meets step Regular start steps)
    (h : Runs.run step start steps = some s) :
    s.OneDriver ∧ ∀ a t, s.Regular a → step s a = some t → StaleIdle s a t ∧ CompletedStays s a t := by
  obtain ⟨hs, hrecorded⟩ := Runs.run_invariant_of_meets (fun s => s.Driven ∧ s.typing.Recorded)
    (fun s a t hi hg ht => ⟨step_driven hi.1 hg ht, step_recorded hi.2 ht⟩)
    ⟨start_driven, RecentKeys.Follows.empty⟩ hm h
  exact ⟨hs.oneDriver, fun a t hg ht => ⟨step_staleIdle hg ht, step_completedStays hrecorded hg ht⟩⟩

instance (a : TypingStep) : Decidable (s.Regular a) :=
  match a with
  | .start _ _ => inferInstanceAs (Decidable (_ ∧ (_ → _)))
  | .restart n => inferInstanceAs (Decidable (∀ d ∈ s.drivers.lookup n, _ ∧ (_ → _) ∧ (_ ∨ ∃ typing ∈ _, _)))
  | .finish _ _ | .suspend _ _ _ _ | .resume _ | .wake _ | .cancel _ _ _ | .clearThread _ | .bridgeGeneration
  | .decide _ | .notified _ | .renewalDue _ | .takeSnapshot _ | .report _ _ => .isTrue trivial

/-- A send fails and is tried again; the turn's end finishes the item. -/
def retriedTyping : List TypingStep :=
  [.start "thread" "turn:1", .decide 0, .takeSnapshot 0, .report 0 false, .restart 0, .decide 0,
    .finish "thread" (some "1"), .takeSnapshot 0, .report 0 true, .start "thread" "turn:1"]

theorem one_typing_driver_retried :
    ∃ s, Runs.run step start retriedTyping = some s ∧ s.typing.recorded = ["thread\x1fturn:1"] ∧ s.OneDriver ∧
      ∀ a t, s.Regular a → step s a = some t → StaleIdle s a t ∧ CompletedStays s a t := by
  have hrun : (Runs.run step start retriedTyping).map (·.typing.recorded) = some ["thread\x1fturn:1"] := by
    decide +kernel
  obtain ⟨s, hs, hrecorded⟩ := map_eq_some_iff.mp hrun
  exact ⟨s, hs, hrecorded, one_typing_driver (by decide +kernel) hs⟩

/-- A failed driver waits while the item is taken away without being recorded; when it starts the item again it
gets another generation and leaves it sending without a driver. -/
theorem restarted_item_undriven :
    ¬ ∀ (steps : List TypingStep) (s : TypingSystem), Runs.run step start steps = some s → s.OneDriver := by
  intro hall
  have hrun : (Runs.run step start [.start "thread" "turn:1", .decide 0, .takeSnapshot 0,
      .suspend "thread" false none none, .report 0 false, .resume "thread", .restart 0]).map (fun s =>
        (s.typing.byItem.lookup "thread\x1fturn:1", s.drivers.entries.all fun e => !e.2.stage.live)) =
      some (some ⟨2, true, true, false, 1⟩, true) := by decide +kernel
  obtain ⟨s, hs, hview⟩ := map_eq_some_iff.mp hrun
  obtain ⟨hitem, hdrivers⟩ := Prod.mk.inj hview
  obtain ⟨n, d, hd, _, _, hlive⟩ := ((hall _ s hs).sendingIff _ _ hitem).mp rfl
  have hidle := List.all_eq_true.mp hdrivers _ (Table.lookup_eq_some_iff.mp hd)
  rw [hlive] at hidle
  cases hidle

end TypingSystem

end MochiPort

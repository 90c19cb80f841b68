import MochiPort.CleanupSteps

namespace MochiPort

open CleanupStage Option

instance (unregistered pending : Prop) [Decidable unregistered] [Decidable pending] :
    ∀ stage : BindStage, Decidable (stage.Admitted unregistered pending)
  | .started => inferInstanceAs (Decidable True)
  | .registrationsRead true => inferInstanceAs (Decidable True)
  | .registrationsRead false => inferInstanceAs (Decidable (unregistered ∨ pending))
  | .checked => inferInstanceAs (Decidable (unregistered ∧ ¬pending))

namespace CleanupSystem

/-- The conversation has not been bound anew since the checks of the call: it is unbound or has a binding of the
same thread at no older revision. And no bind of it under way has passed over its registrations and will come
to the commit. -/
structure Fits (s : CleanupSystem) (cleanup : Cleanup) : Prop where
  thread : ∀ threadId ∈ s.imThreadBindings.lookup cleanup.conversationKey, threadId = cleanup.threadId
  revision : ∀ found ∈ s.topicStates.lookup cleanup.conversationKey,
    cleanup.lifecycleRevision ≤ found.lifecycleRevision
  binds : ∀ operation ∈ s.binding, operation.conversationKey = cleanup.conversationKey →
    operation.stage.Admitted False (s.cleanupStatePending operation.conversationKey = true)

/-- What a step has to meet: no lifecycle revision is at its maximum when it is to be raised, and no token is
when a worker is registered, for a conversation that its cleanup still fits. -/
def Regular (s : CleanupSystem) : CleanupStep → Prop
  | .mark .. | .unarchive .. | .reconcile .. => ∀ entry ∈ s.topicStates.entries, entry.2.lifecycleRevision < u64Max
  | .register n =>
    s.nextToken + 1 < UInt64.size ∧ ∀ request ∈ s.requests.lookup n, s.Fits request.cleanup
  | _ => True

instance (s : CleanupSystem) (cleanup : Cleanup) : Decidable (s.Fits cleanup) :=
  decidable_of_iff
    ((∀ threadId ∈ s.imThreadBindings.lookup cleanup.conversationKey, threadId = cleanup.threadId) ∧
      (∀ found ∈ s.topicStates.lookup cleanup.conversationKey,
        cleanup.lifecycleRevision ≤ found.lifecycleRevision) ∧
      ∀ operation ∈ s.binding, operation.conversationKey = cleanup.conversationKey →
        operation.stage.Admitted False (s.cleanupStatePending operation.conversationKey = true))
    ⟨fun ⟨hthread, hrevision, hbinds⟩ => ⟨hthread, hrevision, hbinds⟩,
      fun h => ⟨h.thread, h.revision, h.binds⟩⟩

instance (s : CleanupSystem) : ∀ a, Decidable (s.Regular a)
  | .mark .. | .unarchive .. | .reconcile .. =>
    inferInstanceAs (Decidable (∀ entry ∈ s.topicStates.entries, entry.2.lifecycleRevision < u64Max))
  | .register n => inferInstanceAs (Decidable (s.nextToken + 1 < UInt64.size ∧
      ∀ request ∈ s.requests.lookup n, s.Fits request.cleanup))
  | .nextGeneration | .forget _ | .bind .. | .bindRegistrations | .bindStates | .bindCommit | .request _
  | .lockGate _ | .readGeneration _ | .readRequired _ | .abandon _ | .borrowGate _ | .returnGate _
  | .workerReadsGeneration _ | .workerReadsRequired _ _ | .topicDeleted _ | .deletionEnded _ | .clearBinding _
  | .finish _ => inferInstanceAs (Decidable True)

variable {s t : CleanupSystem} {a : CleanupStep} {n : Nat} {cleanup : Cleanup} {request : CleanupRequest}
  {worker : CleanupWorker} {registration : TelegramTopicCleanupRegistration}

theorem unsaturated_of_entries (h : ∀ entry ∈ s.topicStates.entries, entry.2.lifecycleRevision < u64Max) :
    Unsaturated s.topicStates :=
  fun _ _ hfound => h _ (Table.lookup_eq_some_iff.mp hfound)

theorem unlocked_eq_some {next : CleanupSystem} (h : s.unlocked next = some t) : s.binding = none ∧ t = next := by
  unfold unlocked at h
  split at h
  next hfree => exact ⟨hfree, (Option.some.inj h).symm⟩
  next => cases h

theorem requestAt_eq_some {stage : ScheduleStage} (h : s.requestAt n stage = some request) :
    s.requests.lookup n = some request ∧ request.stage = stage := by
  obtain ⟨hn, hstage⟩ := filter_eq_some_iff.mp h
  exact ⟨hn, of_decide_eq_true hstage⟩

theorem workerAt_eq_some {stage : CleanupStage} (h : s.workerAt n stage = some worker) :
    s.workers.lookup n = some worker ∧ worker.stage = stage := by
  obtain ⟨hn, hstage⟩ := filter_eq_some_iff.mp h
  exact ⟨hn, of_decide_eq_true hstage⟩

theorem registerCleanup_cases (s : CleanupSystem) (cleanup : Cleanup) :
    (s.registerCleanup cleanup = s.spawnCleanup cleanup ∧
      ∀ registration, s.registrations.lookup cleanup.conversationKey = some registration →
        registration.lifecycleGeneration < cleanup.lifecycleGeneration) ∨
    ∃ registration, s.registrations.lookup cleanup.conversationKey = some registration ∧
      (cleanup.lifecycleGeneration = registration.lifecycleGeneration ∧
          registration.lifecycleRevision < cleanup.lifecycleRevision ∧
          s.registerCleanup cleanup = { s with
            registrations := s.registrations.insert cleanup.conversationKey
              { registration with lifecycleRevision := cleanup.lifecycleRevision } } ∨
        (cleanup.lifecycleGeneration < registration.lifecycleGeneration ∨
          cleanup.lifecycleGeneration = registration.lifecycleGeneration ∧
            cleanup.lifecycleRevision ≤ registration.lifecycleRevision) ∧ s.registerCleanup cleanup = s) := by
  unfold registerCleanup
  cases hregistration : s.registrations.lookup cleanup.conversationKey with
  | none => exact .inl ⟨rfl, fun _ h => nomatch h⟩
  | some registration =>
    simp only
    split
    next hlt => exact .inr ⟨registration, rfl, .inr ⟨.inl hlt, rfl⟩⟩
    next hle =>
      split
      next hlt =>
        refine .inl ⟨rfl, ?_⟩
        intro found hfound
        cases hfound
        exact hlt
      next hge =>
        have hsame : cleanup.lifecycleGeneration = registration.lifecycleGeneration := by omega
        split
        next hlt => exact .inr ⟨registration, rfl, .inl ⟨hsame, hlt, rfl⟩⟩
        next hrevision => exact .inr ⟨registration, rfl, .inr ⟨.inr ⟨hsame, by omega⟩, rfl⟩⟩

theorem nextLifecycle_eq_some {found : TelegramTopicBindingState}
    (h : s.nextLifecycle registration cleanup = some found) :
    s.topicStates.lookup cleanup.conversationKey = some found ∧
      found.lifecycleGeneration = cleanup.lifecycleGeneration := by
  unfold nextLifecycle at h
  split at h
  next =>
    obtain ⟨hfound, hnext⟩ := filter_eq_some_iff.mp h
    simp only [Bool.and_eq_true, decide_eq_true_eq] at hnext
    exact ⟨hfound, hnext.1.1.2⟩
  next => cases h

theorem le_of_nextLifecycle_eq_none (h : s.nextLifecycle registration worker.cleanup = none)
    (hcontinue : s.canContinue cleanup = true) (hkey : worker.cleanup.conversationKey = cleanup.conversationKey)
    (hthread : worker.cleanup.threadId = cleanup.threadId)
    (hgeneration : worker.cleanup.lifecycleGeneration = cleanup.lifecycleGeneration)
    (hregistration : registration.lifecycleGeneration = cleanup.lifecycleGeneration) :
    cleanup.lifecycleRevision ≤ worker.cleanup.lifecycleRevision := by
  obtain ⟨hcurrent, hbound, found, hfound, hfoundGeneration, hrevision, hpending⟩ :=
    (canContinue_iff s cleanup).mp hcontinue
  by_contra hlt
  unfold nextLifecycle at h
  rw [if_pos (by rw [hkey, hthread]; exact hbound)] at h
  have hfound' : s.topicStates.lookup worker.cleanup.conversationKey = some found := by
    rw [hkey]
    exact hfound
  rw [hfound', filter_eq_none_iff] at h
  apply h found rfl
  simp only [Bool.and_eq_true, decide_eq_true_eq]
  exact ⟨⟨⟨⟨by omega, by omega⟩, by omega⟩, by omega⟩, hpending⟩

theorem finishWorkerIteration_cases (s : CleanupSystem) (n : Nat) (worker : CleanupWorker) :
    (¬Registered s.registrations worker ∧
      s.finishWorkerIteration n worker = s.setWorker n { worker with stage := .exited }) ∨
    ∃ registration, s.registrations.lookup worker.cleanup.conversationKey = some registration ∧
      registration.token = worker.token ∧
      ((∃ found, s.nextLifecycle registration worker.cleanup = some found ∧
          s.finishWorkerIteration n worker = { s with
            workers := s.workers.insert n (worker.advance found.lifecycleRevision .waiting)
            registrations := s.registrations.insert worker.cleanup.conversationKey { registration with
              lifecycleRevision := max registration.lifecycleRevision found.lifecycleRevision } }) ∨
        s.nextLifecycle registration worker.cleanup = none ∧
          s.finishWorkerIteration n worker = { s.setWorker n { worker with stage := .exited } with
            registrations := s.registrations.erase worker.cleanup.conversationKey }) := by
  unfold finishWorkerIteration
  cases hregistration : s.registrations.lookup worker.cleanup.conversationKey with
  | none =>
    refine .inl ⟨?_, rfl⟩
    rintro ⟨found, hfound, _⟩
    rw [hregistration] at hfound
    cases hfound
  | some registration =>
    simp only
    split
    next htoken =>
      refine .inl ⟨?_, rfl⟩
      rintro ⟨found, hfound, hfoundToken⟩
      rw [hregistration] at hfound
      cases hfound
      exact htoken hfoundToken
    next htoken =>
      refine .inr ⟨registration, rfl, not_not.mp htoken, ?_⟩
      cases hnext : s.nextLifecycle registration worker.cleanup with
      | none => exact .inr ⟨rfl, rfl⟩
      | some found =>
        have hgeneration := (nextLifecycle_eq_some hnext).2
        refine .inl ⟨found, rfl, ?_⟩
        simp only [setWorker, CleanupWorker.advance, hgeneration]

namespace Sound

section

variable (hs : s.Sound)
include hs

theorem rewritten (hfree : s.binding = none) {next : TopicStates}
    (hnext : Rewritten s.topicStates next) : Sound { s with topicStates := next } := by
  have hf := hs.fitting
  rw [hfree] at hf
  refine ⟨hs.staffed, hs.gated, ?_, hs.settled.rewritten hnext, hs.bounded⟩
  simp only [hfree]
  exact hf.rewritten hnext

theorem forgetBinding (hfree : s.binding = none) (key : String) : (s.forgetBinding key).Sound := by
  have hf := hs.fitting
  rw [hfree] at hf
  unfold CleanupSystem.forgetBinding
  split
  · refine ⟨hs.staffed, hs.gated, ?_, hs.settled.forget key, hs.bounded⟩
    simp only [hfree]
    exact hf.forget key
  · exact hs

theorem setBinding {next : Option BindOperation}
    (hnext : ∀ operation, next = some operation → isTelegramTopicKey operation.conversationKey = true →
      operation.stage.Admitted (s.registrations.lookup operation.conversationKey = none)
        (s.cleanupStatePending operation.conversationKey = true)) : Sound { s with binding := next } :=
  ⟨hs.staffed, hs.gated, hs.fitting.setBinding hnext, hs.settled, hs.bounded⟩

theorem endBinding : Sound { s with binding := none } :=
  hs.setBinding fun _ h => nomatch h

theorem commitBinding {operation : BindOperation} (hoperation : s.binding = some operation)
    (hstage : operation.stage = .checked) : Sound { s.commitBinding operation with binding := none } := by
  have hf := hs.fitting
  rw [hoperation] at hf
  unfold CleanupSystem.commitBinding
  split
  next =>
    have hfree : s.registrations.lookup operation.conversationKey = none := by
      cases hregistration : s.registrations.lookup operation.conversationKey with
      | none => rfl
      | some registration => exact absurd rfl (hf.ne_of_checked hstage hregistration)
    exact ⟨hs.staffed, hs.gated, hf.commit hstage rfl,
      (hs.settled.unbind operation.threadId).bind hfree operation.threadId _, hs.bounded⟩
  next =>
    exact ⟨hs.staffed, hs.gated, hf.unbind operation.threadId, hs.settled.unbind operation.threadId, hs.bounded⟩

theorem newRequest (htopic : isTelegramTopicKey cleanup.conversationKey = true) :
    Sound { s with requests := s.requests.insert s.calls ⟨cleanup, .queued⟩, calls := s.calls + 1 } :=
  ⟨hs.staffed, hs.gated.newRequest htopic, hs.fitting, hs.settled, hs.bounded⟩

theorem endRequest (hn : s.requests.lookup n = some request)
    (hholds : request.stage.holdsGate = true) : (s.endRequest n request).Sound :=
  ⟨hs.staffed, hs.gated.endRequest hn hholds, hs.fitting, hs.settled, hs.bounded⟩

theorem register (hn : s.requests.lookup n = some request) (hstage : request.stage = .required)
    (hroom : s.nextToken + 1 < UInt64.size) (hfits : s.Fits request.cleanup) :
    Sound { (s.registerCleanup request.cleanup).endRequest n request with
      requested := request.cleanup :: s.requested } := by
  have hpassed : request.stage.passedGeneration = true := by rw [hstage]; rfl
  have hholds := ScheduleStage.holdsGate_of_passed hpassed
  have hcurrent := hs.gated.current hn hpassed
  have hended := hs.gated.endRequest hn hholds
  have hstate : ∀ found, s.topicStates.lookup request.cleanup.conversationKey = some found →
      found.threadId = request.cleanup.threadId ∧
        request.cleanup.lifecycleRevision ≤ found.lifecycleRevision := by
    intro found hfound
    refine ⟨?_, hfits.revision found hfound⟩
    apply hfits.thread found.threadId
    have hpaired := hs.fitting.paired request.cleanup.conversationKey
    rw [hpaired, hfound]
    rfl
  rcases registerCleanup_cases s request.cleanup with ⟨heq, hold⟩ |
    ⟨registration, hregistration, ⟨hgeneration, hlt, heq⟩ | ⟨hreject, heq⟩⟩
  · rw [heq]
    have hspawned := hs.staffed.spawn hcurrent hold (fun hm => hs.gated.registered hn hpassed hm)
    rw [← Nat.mod_eq_of_lt hroom] at hspawned
    exact ⟨hspawned, hended.spawn hs.staffed (hs.gated.quiet hn hholds),
      hs.fitting.spawn hs.staffed (hs.gated.topic hn) hstate hfits.binds,
      hs.settled.spawn hs.staffed hcurrent hold fun found hfound => (hstate found hfound).2, hs.bounded⟩
  · rw [heq]
    have hstaffed := hs.staffed.raise hregistration hlt.le
    have hfitting := hs.fitting.raise hregistration fun found hfound => (hstate found hfound).2
    have hsettled := hs.settled.raise hregistration request.cleanup.lifecycleRevision
    exact ⟨hstaffed, hended.raise hregistration _, hfitting,
      hsettled.ask hstaffed hfitting hcurrent (AList.lookup_insert s.registrations) (.inr ⟨hgeneration, le_rfl⟩)
        fun found hfound => (hstate found hfound).2, hs.bounded⟩
  · rw [heq]
    exact ⟨hs.staffed, hended, hs.fitting, hs.settled.ask hs.staffed hs.fitting hcurrent hregistration hreject
      fun found hfound => (hstate found hfound).2, hs.bounded⟩

section

variable (hn : s.workers.lookup n = some worker)
include hn

theorem restage (hlive : worker.stage ≠ .exited)
    {stage : CleanupStage} (hstage : stage ≠ .exited) (hnot : stage ≠ .finishing) :
    (s.setWorker n { worker with stage := stage }).Sound where
  staffed := by
    apply hs.staffed.advance hn hlive hstage
    intro registration hregistration htoken
    exact (hs.staffed.worker_of_token hregistration hn htoken).2.2.2
  gated := hs.gated.advance hn hlive worker.cleanup.lifecycleRevision stage
  fitting := hs.fitting.advance hn hlive worker.cleanup.lifecycleRevision stage
  settled := hs.settled.restage hn hstage hnot
  bounded := hs.bounded

theorem settle (hlive : worker.stage ≠ .exited) : (s.settle n worker).Sound where
  staffed := by
    apply hs.staffed.advance hn hlive noConfusion
    intro registration hregistration htoken
    exact (hs.staffed.worker_of_token hregistration hn htoken).2.2.2
  gated := hs.gated.advance hn hlive worker.cleanup.lifecycleRevision .finishing
  fitting := hs.fitting.advance hn hlive worker.cleanup.lifecycleRevision .finishing
  settled := hs.settled.settle hn
  bounded := hs.bounded

theorem idle (hregistration : s.registrations.lookup worker.cleanup.conversationKey = some registration)
    (htoken : registration.token = worker.token) (hnext : s.nextLifecycle registration worker.cleanup = none)
    (hcontinue : s.canContinue cleanup = true) (hkey : worker.cleanup.conversationKey = cleanup.conversationKey)
    (hgeneration : worker.cleanup.lifecycleGeneration = cleanup.lifecycleGeneration) :
    cleanup.lifecycleRevision ≤ worker.cleanup.lifecycleRevision := by
  obtain ⟨_, _, hregistered, _⟩ := hs.staffed.worker_of_token hregistration hn htoken.symm
  obtain ⟨_, hbound, found, hfound, _⟩ := (canContinue_iff s cleanup).mp hcontinue
  have hregistration' : s.registrations.lookup cleanup.conversationKey = some registration :=
    hkey ▸ hregistration
  have hthread := hs.fitting.thread hregistration' hfound hn htoken.symm
  have hpaired := hs.fitting.paired cleanup.conversationKey
  rw [hbound, hfound] at hpaired
  have hfoundThread : cleanup.threadId = found.threadId := Option.some.inj hpaired
  exact le_of_nextLifecycle_eq_none hnext hcontinue hkey (hthread.symm.trans hfoundThread.symm) hgeneration
    (hregistered.symm.trans hgeneration)

end

theorem finish (hfree : s.binding = none) (hn : s.workers.lookup n = some worker)
    (hdone : worker.stage = .finishing) : (s.finishWorkerIteration n worker).Sound := by
  have hlive : worker.stage ≠ .exited := by
    rw [hdone]
    exact noConfusion
  have hf := hs.fitting
  rw [hfree] at hf
  rcases finishWorkerIteration_cases s n worker with ⟨hlost, heq⟩ | ⟨registration, hregistration, htoken,
    ⟨found, hnext, heq⟩ | ⟨hnext, heq⟩⟩
  · have hreleased := Released.lost hlost
    rw [heq]
    refine ⟨hs.staffed.exit hn hreleased, hs.gated.exit hs.staffed hn hreleased, ?_,
      hs.settled.exit hs.staffed hn hreleased fun hregistered => absurd hregistered hlost, hs.bounded⟩
    simp only [setWorker, hfree]
    exact hf.exit hn hreleased
  · have hfound := (nextLifecycle_eq_some hnext).1
    have hle := hs.fitting.revision hregistration hfound
    have hraised := hs.staffed.raise hregistration (Nat.le_max_left _ found.lifecycleRevision)
    rw [heq]
    refine ⟨?_, ?_, ?_, ?_, hs.bounded⟩
    · apply hraised.advance hn hlive noConfusion
      intro later hlater _
      have hlater := Option.some.inj ((AList.lookup_insert s.registrations).symm.trans hlater)
      subst later
      exact Nat.le_max_right ..
    · exact (hs.gated.raise hregistration _).advance hn hlive _ _
    · refine (hs.fitting.raise hregistration ?_).advance hn hlive _ _
      intro later hlater
      rw [hfound] at hlater
      cases hlater
      exact Nat.max_le.mpr ⟨hle, le_rfl⟩
    · exact (hs.settled.raise hregistration _).iterate hn hfound
  · have hreleased := Released.erase hregistration htoken
    rw [heq]
    refine ⟨hs.staffed.exit hn hreleased, hs.gated.exit hs.staffed hn hreleased, ?_, ?_, hs.bounded⟩
    · simp only [setWorker, hfree]
      exact hf.exit hn hreleased
    · refine hs.settled.exit hs.staffed hn hreleased ?_
      intro _ cleanup hout hkey _ hgeneration hcome
      have hle := hs.idle hn hregistration htoken hnext ((canContinue_iff s cleanup).mpr hout) hkey hgeneration
      rcases hcome with hlt | ⟨_, hnot⟩
      · omega
      · exact hnot hdone

theorem lifecycle {outdated : Prop} [Decidable outdated] {next : TopicStates} (hnext : Rewritten s.topicStates next)
    (h : s.unlocked (if outdated then s else { s with topicStates := next }) = some t) : t.Sound := by
  obtain ⟨hfree, rfl⟩ := unlocked_eq_some h
  split
  · exact hs
  · exact hs.rewritten hfree hnext

theorem bind {key threadId : String} {expectedGeneration : Option Nat} {allowed : Bool}
    (h : s.step (.bind key threadId expectedGeneration allowed) = some t) : t.Sound := by
  obtain ⟨hfree, rfl⟩ := unlocked_eq_some h
  split
  · exact hs
  · split
    · split
      · apply hs.setBinding
        rintro operation ⟨⟩ _
        trivial
      · exact hs
    next hplain =>
      apply hs.setBinding
      rintro operation ⟨⟩ htopic
      exact absurd htopic hplain

theorem bindRegistrations (h : s.step .bindRegistrations = some t) : t.Sound := by
  simp only [step] at h
  split at h
  next key threadId expectedGeneration lifecycleGeneration hbinding =>
    cases Option.some.inj h
    apply hs.setBinding
    rintro operation ⟨⟩ _
    cases hregistration : s.registrations.lookup key with
    | none => exact .inl rfl
    | some registration => trivial
  next => cases h

theorem bindStates (h : s.step .bindStates = some t) : t.Sound := by
  simp only [step] at h
  split at h
  next key threadId expectedGeneration lifecycleGeneration cleanupWorkerPending hbinding =>
    split at h
    next =>
      cases Option.some.inj h
      exact hs.endBinding
    next hclear =>
      cases Option.some.inj h
      apply hs.setBinding
      rintro operation ⟨⟩ htopic
      simp only [Bool.or_eq_true, not_or] at hclear
      obtain ⟨hunregistered, hunpending⟩ := hclear
      have hadmitted := hs.fitting.admitted hbinding htopic
      rw [Bool.eq_false_of_not_eq_true hunregistered] at hadmitted
      exact ⟨hadmitted.resolve_right hunpending, hunpending⟩
  next => cases h

theorem bindCommit (h : s.step .bindCommit = some t) : t.Sound := by
  simp only [step] at h
  split at h
  next key threadId expectedGeneration lifecycleGeneration hbinding =>
    split at h
    next =>
      cases Option.some.inj h
      exact hs.endBinding
    next =>
      cases Option.some.inj h
      exact hs.commitBinding hbinding rfl
  next => cases h

theorem calls (h : s.step (.readGeneration n) = some t ∨ s.step (.readRequired n) = some t) : t.Sound := by
  rcases h with h | h
  · obtain ⟨request, hrequest, rfl⟩ := map_eq_some_iff.mp h
    obtain ⟨hn, hstage⟩ := requestAt_eq_some hrequest
    have hholds : request.stage.holdsGate = true := by rw [hstage]; rfl
    split
    next hcurrent =>
      exact ⟨hs.staffed, hs.gated.readGeneration hs.staffed hn hholds hcurrent, hs.fitting, hs.settled, hs.bounded⟩
    next => exact hs.endRequest hn hholds
  · obtain ⟨request, hrequest, rfl⟩ := map_eq_some_iff.mp h
    obtain ⟨hn, hstage⟩ := requestAt_eq_some hrequest
    have hpassed : request.stage.passedGeneration = true := by rw [hstage]; rfl
    split
    next => exact ⟨hs.staffed, hs.gated.readRequired hn hpassed, hs.fitting, hs.settled, hs.bounded⟩
    next => exact hs.endRequest hn (ScheduleStage.holdsGate_of_passed hpassed)

theorem gates {accountId : String}
    (h : s.step (.borrowGate accountId) = some t ∨ s.step (.returnGate accountId) = some t) : t.Sound := by
  rcases h with h | h
  · simp only [step] at h
    split at h
    next => cases h
    next hfree =>
      cases Option.some.inj h
      refine ⟨hs.staffed, ?_, hs.fitting, hs.settled, hs.bounded⟩
      refine hs.gated.setGates (normalizedTelegramAccountId accountId) ?_ ?_
      · intro m hheld
        rw [hfree] at hheld
        cases hheld
      · intro other hother
        exact AList.lookup_insert_ne hother
  · simp only [step] at h
    split at h
    next hother =>
      cases Option.some.inj h
      refine ⟨hs.staffed, ?_, hs.fitting, hs.settled, hs.bounded⟩
      refine hs.gated.setGates (normalizedTelegramAccountId accountId) ?_ ?_
      · intro m hheld
        rw [hother] at hheld
        cases hheld
      · intro other hne
        exact AList.lookup_erase_ne hne
    next => cases h

theorem move {stage : CleanupStage} (hlive : stage ≠ .exited) {goesOn : Prop} [Decidable goesOn]
    {next : CleanupStage} (hnext : next ≠ .exited) (hnot : next ≠ .finishing) {worker : CleanupWorker}
    (hworker : s.workerAt n stage = some worker) :
    (if goesOn then s.setWorker n { worker with stage := next } else s.settle n worker).Sound := by
  obtain ⟨hn, hstage⟩ := workerAt_eq_some hworker
  have hlive : worker.stage ≠ .exited := by rwa [hstage]
  split
  · exact hs.restage hn hlive hnext hnot
  · exact hs.settle hn hlive

theorem clearBinding (h : s.step (.clearBinding n) = some t) : t.Sound := by
  obtain ⟨worker, hworker, h⟩ := bind_eq_some_iff.mp h
  obtain ⟨hn, hstage⟩ := workerAt_eq_some hworker
  have hlive : worker.stage ≠ .exited := by
    rw [hstage]
    exact noConfusion
  obtain ⟨hfree, rfl⟩ := unlocked_eq_some h
  split
  · have hforgotten := hs.forgetBinding hfree worker.cleanup.conversationKey
    have hsame : (s.forgetBinding worker.cleanup.conversationKey).workers.lookup n = some worker := by
      unfold CleanupSystem.forgetBinding
      split <;> exact hn
    exact hforgotten.settle hsame hlive
  · exact hs.settle hn hlive

end

end Sound

theorem start_sound (restored : TopicStates) : (start restored).Sound where
  staffed := by
    refine ⟨?_, ?_, ?_, ?_, ?_, ?_, ?_⟩
    · intro n worker hn
      cases hn
    · intro n worker hn
      cases hn
    · intro n m worker other hn
      cases hn
    · intro key registration hregistration
      cases hregistration
    · intro n worker hn
      cases hn
    · intro n worker hn
      cases hn
    · intro n m worker other hn
      cases hn
  gated := by
    refine ⟨?_, ?_, ?_, ?_, ?_⟩
    · intro n request hn
      cases hn
    · intro n request hn
      cases hn
    · intro n request hn
      cases hn
    · intro n request hn
      cases hn
    · intro n request m worker hn
      cases hn
  fitting := by
    refine ⟨Table.lookup_mapTo TelegramTopicBindingState.threadId restored, ?_, ?_, ?_, ?_⟩
    · intro key registration hregistration
      cases hregistration
    · intro key registration found hregistration
      cases hregistration
    · intro key registration found n worker hregistration
      cases hregistration
    · intro operation hoperation
      cases hoperation
  settled := by
    refine ⟨?_, ?_, ?_, ?_⟩
    · intro cleanup hmem
      cases hmem
    · intro cleanup hmem
      cases hmem
    · intro cleanup hmem
      cases hmem
    · intro n worker hn
      cases hn
  bounded := Nat.zero_le u64Max

theorem step_sound (hs : s.Sound) (hregular : s.Regular a) (h : s.step a = some t) : t.Sound := by
  cases a with
  | nextGeneration =>
    cases Option.some.inj h
    have hlater : s.bridgeGeneration ≤ saturatingAdd s.bridgeGeneration 1 :=
      Nat.le_min.mpr ⟨Nat.le_succ _, hs.bounded⟩
    exact ⟨hs.staffed.nextGeneration hlater, hs.gated.nextGeneration hlater, hs.fitting,
      hs.settled.nextGeneration hlater, Nat.min_le_right ..⟩
  | mark threadId lifecycle generation now =>
    have hroom := unsaturated_of_entries hregular
    exact hs.lifecycle (mark_rewritten hroom hs.fitting.paired threadId lifecycle generation now) h
  | unarchive threadId generation now observed =>
    have hroom := unsaturated_of_entries hregular
    exact hs.lifecycle (unarchive_rewritten hroom threadId generation now) h
  | reconcile key threadId expected othersMatch lifecycle generation now observed =>
    have hroom := unsaturated_of_entries hregular
    exact hs.lifecycle (persist_rewritten hs.fitting.paired hroom key threadId expected othersMatch observed
      lifecycle generation now now) h
  | forget key =>
    obtain ⟨hfree, rfl⟩ := unlocked_eq_some h
    exact hs.forgetBinding hfree key
  | bind key threadId expectedGeneration allowed => exact hs.bind h
  | bindRegistrations => exact hs.bindRegistrations h
  | bindStates => exact hs.bindStates h
  | bindCommit => exact hs.bindCommit h
  | request cleanup =>
    simp only [step] at h
    split at h
    next htopic =>
      cases Option.some.inj h
      exact hs.newRequest htopic
    next => cases h
  | lockGate n =>
    obtain ⟨request, hrequest, h⟩ := bind_eq_some_iff.mp h
    have hn := (requestAt_eq_some hrequest).1
    split at h
    next => cases h
    next hfree =>
      cases Option.some.inj h
      exact ⟨hs.staffed, hs.gated.lockGate hn hfree, hs.fitting, hs.settled, hs.bounded⟩
  | readGeneration n => exact hs.calls (.inl h)
  | readRequired n => exact hs.calls (.inr h)
  | register n =>
    obtain ⟨request, hrequest, rfl⟩ := map_eq_some_iff.mp h
    obtain ⟨hn, hstage⟩ := requestAt_eq_some hrequest
    exact hs.register hn hstage hregular.1 (hregular.2 request hn)
  | abandon n =>
    obtain ⟨request, hrequest, rfl⟩ := map_eq_some_iff.mp h
    obtain ⟨hn, hholds⟩ := filter_eq_some_iff.mp hrequest
    exact hs.endRequest hn hholds
  | borrowGate accountId => exact hs.gates (.inl h)
  | returnGate accountId => exact hs.gates (.inr h)
  | workerReadsGeneration n =>
    obtain ⟨worker, hworker, rfl⟩ := map_eq_some_iff.mp h
    exact hs.move noConfusion noConfusion noConfusion hworker
  | workerReadsRequired n cooling =>
    obtain ⟨worker, hworker, rfl⟩ := map_eq_some_iff.mp h
    cases cooling with
    | true | false => exact hs.move noConfusion noConfusion noConfusion hworker
  | topicDeleted n =>
    obtain ⟨worker, hworker, rfl⟩ := map_eq_some_iff.mp h
    obtain ⟨hn, hstage⟩ := workerAt_eq_some hworker
    apply hs.restage hn _ noConfusion noConfusion
    rw [hstage]
    exact noConfusion
  | deletionEnded n =>
    obtain ⟨worker, hworker, rfl⟩ := map_eq_some_iff.mp h
    obtain ⟨hn, hstage⟩ := workerAt_eq_some hworker
    apply hs.settle hn
    rw [hstage]
    exact noConfusion
  | clearBinding n => exact hs.clearBinding h
  | finish n =>
    obtain ⟨worker, hworker, h⟩ := bind_eq_some_iff.mp h
    obtain ⟨hn, hstage⟩ := workerAt_eq_some hworker
    obtain ⟨hfree, rfl⟩ := unlocked_eq_some h
    exact hs.finish hfree hn hstage

theorem run_sound {steps : List CleanupStep} (hs : s.Sound) (hm : Runs.Meets step Regular s steps)
    (h : Runs.run step s steps = some t) : t.Sound :=
  Runs.run_invariant_of_meets Sound (fun _ _ _ => step_sound) hs hm h

/-- One live worker for each conversation and generation, no cleanup that was asked for lost, and no bind past
its checks while a registration or a pending cleanup state exists. -/
structure Kept (s : CleanupSystem) : Prop where
  alone : ∀ {n m worker other}, s.workers.lookup n = some worker → s.workers.lookup m = some other →
    worker.stage ≠ .exited → other.stage ≠ .exited →
    worker.cleanup.conversationKey = other.cleanup.conversationKey →
    worker.cleanup.lifecycleGeneration = other.cleanup.lifecycleGeneration → n = m
  noneLost : ∀ cleanup ∈ s.requested, s.canContinue cleanup = true →
    cleanup ∈ s.processed ∨ Attended s.registrations s.workers cleanup
  bindsClear : ∀ {operation}, s.binding = some operation → operation.stage = .checked →
    isTelegramTopicKey operation.conversationKey = true →
    s.registrations.lookup operation.conversationKey = none ∧
      s.cleanupStatePending operation.conversationKey = false

/-- A registration goes only by its own worker, at the end of an iteration after which nothing newer that the
worker could go through can continue, and nothing that was asked for is left. -/
def RemovalsSettled (s : CleanupSystem) (a : CleanupStep) (t : CleanupSystem) : Prop :=
  ∀ {key registration}, s.registrations.lookup key = some registration → t.registrations.lookup key = none →
    ∃ n worker, a = .finish n ∧ s.workers.lookup n = some worker ∧ worker.stage = .finishing ∧
      worker.token = registration.token ∧ worker.cleanup.conversationKey = key ∧
      (∀ cleanup : Cleanup, cleanup.conversationKey = key →
        cleanup.lifecycleGeneration = worker.cleanup.lifecycleGeneration → s.canContinue cleanup = true →
        cleanup.lifecycleRevision ≤ worker.cleanup.lifecycleRevision) ∧
      ∀ cleanup ∈ s.requested, cleanup.conversationKey = key → s.canContinue cleanup = true →
        cleanup ∈ s.processed

theorem Sound.kept (hs : s.Sound) : s.Kept where
  alone := hs.staffed.single
  noneLost cleanup hmem hcontinue := hs.settled.kept cleanup hmem ((canContinue_iff s cleanup).mp hcontinue)
  bindsClear hbinding hstage htopic := by
    have hadmitted := hs.fitting.admitted hbinding htopic
    rw [hstage] at hadmitted
    exact ⟨hadmitted.1, Bool.eq_false_of_not_eq_true hadmitted.2⟩

theorem forgetBinding_registrations (s : CleanupSystem) (key : String) :
    (s.forgetBinding key).registrations = s.registrations := by
  unfold forgetBinding
  split <;> rfl

theorem registerCleanup_kept {key : String} (hregistration : s.registrations.lookup key = some registration)
    (cleanup : Cleanup) : (s.registerCleanup cleanup).registrations.lookup key ≠ none := by
  have hinsert : ∀ later : TelegramTopicCleanupRegistration,
      (s.registrations.insert cleanup.conversationKey later).lookup key ≠ none := by
    intro later hgone
    rw [Table.lookup_insert_eq] at hgone
    split at hgone
    · cases hgone
    · rw [hregistration] at hgone
      cases hgone
  rcases registerCleanup_cases s cleanup with ⟨heq, _⟩ | ⟨found, _, ⟨_, _, heq⟩ | ⟨_, heq⟩⟩
  · rw [heq]
    exact hinsert _
  · rw [heq]
    exact hinsert _
  · rw [heq, hregistration]
    exact some_ne_none registration

theorem registrations_kept {key : String} (hregistration : s.registrations.lookup key = some registration)
    (h : s.step a = some t) (hgone : t.registrations.lookup key = none) :
    ∃ n worker, a = .finish n ∧ s.workerAt n .finishing = some worker ∧
      t = s.finishWorkerIteration n worker := by
  have hkept : t.registrations ≠ s.registrations := by
    intro hsame
    rw [hsame, hregistration] at hgone
    cases hgone
  cases a with
  | register n =>
    obtain ⟨request, _, rfl⟩ := map_eq_some_iff.mp h
    exact absurd hgone (registerCleanup_kept hregistration request.cleanup)
  | finish n =>
    obtain ⟨worker, hworker, h⟩ := bind_eq_some_iff.mp h
    obtain ⟨_, rfl⟩ := unlocked_eq_some h
    exact ⟨n, worker, rfl, hworker, rfl⟩
  | nextGeneration =>
    cases Option.some.inj h
    exact absurd rfl hkept
  | mark | unarchive | reconcile =>
    obtain ⟨_, rfl⟩ := unlocked_eq_some h
    refine absurd ?_ hkept
    split <;> rfl
  | forget key =>
    obtain ⟨_, rfl⟩ := unlocked_eq_some h
    exact absurd (forgetBinding_registrations s key) hkept
  | bind =>
    obtain ⟨_, rfl⟩ := unlocked_eq_some h
    refine absurd ?_ hkept
    split
    · rfl
    · split
      · split <;> rfl
      · rfl
  | bindRegistrations | request cleanup | returnGate accountId =>
    simp only [step] at h
    split at h
    · cases Option.some.inj h
      exact absurd rfl hkept
    · cases h
  | bindStates =>
    simp only [step] at h
    split at h
    · split at h
      · cases Option.some.inj h
        exact absurd rfl hkept
      · cases Option.some.inj h
        exact absurd rfl hkept
    · cases h
  | bindCommit =>
    simp only [step] at h
    split at h
    · split at h
      · cases Option.some.inj h
        exact absurd rfl hkept
      · cases Option.some.inj h
        refine absurd ?_ hkept
        simp only [commitBinding]
        split <;> rfl
    · cases h
  | lockGate n =>
    obtain ⟨request, _, h⟩ := bind_eq_some_iff.mp h
    split at h
    · cases h
    · cases Option.some.inj h
      exact absurd rfl hkept
  | borrowGate accountId =>
    simp only [step] at h
    split at h
    · cases h
    · cases Option.some.inj h
      exact absurd rfl hkept
  | readGeneration n | readRequired n | workerReadsGeneration n | workerReadsRequired n =>
    obtain ⟨_, _, rfl⟩ := map_eq_some_iff.mp h
    refine absurd ?_ hkept
    split <;> rfl
  | abandon n | topicDeleted n | deletionEnded n =>
    obtain ⟨_, _, rfl⟩ := map_eq_some_iff.mp h
    exact absurd rfl hkept
  | clearBinding n =>
    obtain ⟨worker, _, h⟩ := bind_eq_some_iff.mp h
    obtain ⟨_, rfl⟩ := unlocked_eq_some h
    refine absurd ?_ hkept
    split
    · exact forgetBinding_registrations s worker.cleanup.conversationKey
    · rfl

theorem Sound.removalsSettled (hs : s.Sound) (h : s.step a = some t) : s.RemovalsSettled a t := by
  intro key registration hregistration hgone
  obtain ⟨n, worker, rfl, hworker, rfl⟩ := registrations_kept hregistration h hgone
  obtain ⟨hn, hstage⟩ := workerAt_eq_some hworker
  rcases finishWorkerIteration_cases s n worker with ⟨hlost, heq⟩ | ⟨found, hfound, htoken,
    ⟨later, _, heq⟩ | ⟨hnext, heq⟩⟩
  · rw [heq] at hgone
    have hgone : s.registrations.lookup key = none := hgone
    rw [hregistration] at hgone
    cases hgone
  · rw [heq] at hgone
    simp only [Table.lookup_insert_eq] at hgone
    split at hgone
    · cases hgone
    · rw [hregistration] at hgone
      cases hgone
  · rw [heq] at hgone
    simp only [Table.lookup_erase_eq] at hgone
    split at hgone
    next hkey =>
      subst key
      rw [hregistration] at hfound
      cases hfound
      have hnewest : ∀ cleanup : Cleanup, cleanup.conversationKey = worker.cleanup.conversationKey →
          cleanup.lifecycleGeneration = worker.cleanup.lifecycleGeneration → s.canContinue cleanup = true →
          cleanup.lifecycleRevision ≤ worker.cleanup.lifecycleRevision := by
        intro cleanup hkey hgeneration hcontinue
        exact hs.idle hn hregistration htoken hnext hcontinue hkey.symm hgeneration.symm
      refine ⟨n, worker, rfl, hn, hstage, htoken.symm, rfl, hnewest, ?_⟩
      intro cleanup hmem hkey hcontinue
      refine (hs.kept.noneLost cleanup hmem hcontinue).resolve_right ?_
      rintro ⟨m, other, hm, _, ⟨registration', hregistration', hother⟩, hotherKey, _, hgeneration, hcome⟩
      -- the worker that attends to it would be this one
      have hsameKey : other.cleanup.conversationKey = worker.cleanup.conversationKey := hotherKey.trans hkey
      rw [hsameKey, hregistration] at hregistration'
      cases hregistration'
      have hsame : m = n := hs.staffed.unique hm hn (hother.symm.trans htoken)
      subst m
      rw [hn] at hm
      cases hm
      have hle := hnewest cleanup hkey hgeneration.symm hcontinue
      rcases hcome with hlt | ⟨_, hnot⟩
      · omega
      · exact hnot hstage
    next =>
      rw [hregistration] at hgone
      cases hgone

theorem cleanups_settled {restored : TopicStates} {steps : List CleanupStep}
    (hm : Runs.Meets step Regular (start restored) steps) (h : Runs.run step (start restored) steps = some s) :
    s.Kept ∧ ∀ {a t}, s.step a = some t → s.RemovalsSettled a t := by
  have hs := run_sound (start_sound restored) hm h
  exact ⟨hs.kept, hs.removalsSettled⟩

def archivedTopic : String := "telegram:bot:-100|topic=7"

def restoredTopic : TopicStates :=
  (∅ : TopicStates).insert archivedTopic ⟨"A", "active", none, none, 0, 0, 0⟩

/-- A thread is archived, restored and archived again while the worker of its Topic deletes it. -/
def archivedAgain : List CleanupStep :=
  [.nextGeneration, .mark "A" .archived 1 0, .request ⟨archivedTopic, "A", 1, 1⟩, .lockGate 0, .readGeneration 0,
    .readRequired 0, .register 0, .workerReadsGeneration 0, .workerReadsRequired 0 false, .unarchive "A" 1 0 true,
    .mark "A" .archived 1 0, .request ⟨archivedTopic, "A", 1, 3⟩, .lockGate 1, .readGeneration 1, .readRequired 1,
    .register 1, .deletionEnded 0, .finish 0, .workerReadsGeneration 0, .workerReadsRequired 0 false,
    .topicDeleted 0, .clearBinding 0, .finish 0]

theorem cleanups_settled_archivedAgain :
    ∃ s, Runs.run step (start restoredTopic) archivedAgain = some s ∧
      s.processed.map Cleanup.lifecycleRevision = [3, 1] ∧ s.registrations.lookup archivedTopic = none ∧
      s.Kept ∧ ∀ {a t}, s.step a = some t → s.RemovalsSettled a t := by
  have hrun : (Runs.run step (start restoredTopic) archivedAgain).map (fun s =>
      (s.processed.map Cleanup.lifecycleRevision, (s.registrations.lookup archivedTopic).isNone)) =
      some ([3, 1], true) := by decide +kernel
  obtain ⟨s, hs, h⟩ := map_eq_some_iff.mp hrun
  obtain ⟨hrevisions, hgone⟩ := Prod.mk.inj h
  have hm : Runs.Meets step Regular (start restoredTopic) archivedAgain := by decide +kernel
  obtain ⟨hkept, hremovals⟩ := cleanups_settled hm hs
  exact ⟨s, hs, hrevisions, isNone_iff_eq_none.mp hgone, hkept, hremovals⟩

/-- A call for thread A registers its cleanup after the conversation was bound to thread B; a later call for B
raises the revision of that registration, which A's worker then removes. -/
def boundAnew : List CleanupStep :=
  [.nextGeneration, .mark "A" .archived 1 0, .request ⟨archivedTopic, "A", 1, 1⟩, .lockGate 0, .readGeneration 0,
    .readRequired 0, .unarchive "A" 1 0 true, .bind archivedTopic "B" none true, .bindRegistrations, .bindStates,
    .bindCommit, .register 0, .mark "B" .archived 1 0, .unarchive "B" 1 0 true, .mark "B" .archived 1 0,
    .request ⟨archivedTopic, "B", 1, 3⟩, .lockGate 1, .readGeneration 1, .readRequired 1, .register 1,
    .workerReadsGeneration 0, .workerReadsRequired 0 false, .finish 0]

theorem later_cleanup_lost : ¬∀ {restored : TopicStates} {steps : List CleanupStep} {s : CleanupSystem},
    Runs.run step (start restored) steps = some s →
      s.Kept ∧ ∀ {a t}, s.step a = some t → s.RemovalsSettled a t := by
  intro hall
  have hrun : (Runs.run step (start restoredTopic) boundAnew).map (fun s =>
      (s.canContinue ⟨archivedTopic, "B", 1, 3⟩, (s.registrations.lookup archivedTopic).isNone,
        decide (⟨archivedTopic, "B", 1, 3⟩ ∈ s.requested), decide (⟨archivedTopic, "B", 1, 3⟩ ∈ s.processed))) =
      some (true, true, true, false) := by decide +kernel
  obtain ⟨s, hs, h⟩ := map_eq_some_iff.mp hrun
  simp only [Prod.mk.injEq, decide_eq_true_eq, decide_eq_false_iff_not] at h
  obtain ⟨hcontinue, hgone, hrequested, hunprocessed⟩ := h
  rcases (hall hs).1.noneLost _ hrequested hcontinue with hprocessed | hattended
  · exact hunprocessed hprocessed
  · obtain ⟨n, worker, _, _, ⟨registration, hregistration, _⟩, hkey, _⟩ := hattended
    rw [hkey, isNone_iff_eq_none.mp hgone] at hregistration
    cases hregistration

end CleanupSystem

end MochiPort

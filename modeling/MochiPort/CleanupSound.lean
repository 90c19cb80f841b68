import MochiPort.TopicCleanup

namespace MochiPort

def ScheduleStage.passedGeneration : ScheduleStage → Bool
  | .generationCurrent | .required => true
  | .queued | .gated | .ended => false

theorem ScheduleStage.holdsGate_of_passed {stage : ScheduleStage} (h : stage.passedGeneration = true) :
    stage.holdsGate = true := by
  cases stage with
  | generationCurrent | required => rfl
  | _ => cases h

abbrev CleanupRegistrations := Table String TelegramTopicCleanupRegistration

/-- The registration of the worker's conversation is the worker's. -/
def Registered (registrations : CleanupRegistrations) (worker : CleanupWorker) : Prop :=
  ∃ registration, registrations.lookup worker.cleanup.conversationKey = some registration ∧
    registration.token = worker.token

/-- The registered worker goes through this cleanup or is yet to come to it. -/
def Attended (registrations : CleanupRegistrations) (workers : Table Nat CleanupWorker) (cleanup : Cleanup) : Prop :=
  ∃ n worker, workers.lookup n = some worker ∧ worker.stage ≠ .exited ∧ Registered registrations worker ∧
    worker.cleanup.conversationKey = cleanup.conversationKey ∧ worker.cleanup.threadId = cleanup.threadId ∧
    worker.cleanup.lifecycleGeneration = cleanup.lifecycleGeneration ∧
    (worker.cleanup.lifecycleRevision < cleanup.lifecycleRevision ∨
      worker.cleanup = cleanup ∧ worker.stage ≠ .finishing)

/-- `telegram_topic_cleanup_can_continue`, on the maps that it reads. -/
def Outstanding (generation : Nat) (bindings : Table String String) (states : TopicStates) (cleanup : Cleanup) : Prop :=
  generation = cleanup.lifecycleGeneration ∧ bindings.lookup cleanup.conversationKey = some cleanup.threadId ∧
    ∃ binding, states.lookup cleanup.conversationKey = some binding ∧
      binding.lifecycleGeneration = cleanup.lifecycleGeneration ∧
      binding.lifecycleRevision = cleanup.lifecycleRevision ∧ binding.cleanupPending = true

/-- Each registration has its worker, and each worker that has lost its registration is of an older generation. -/
structure Staffed (generation : Nat) (registrations : CleanupRegistrations) (nextToken : Nat)
    (workers : Table Nat CleanupWorker) (spawned : Nat) : Prop where
  numbered : ∀ {n worker}, workers.lookup n = some worker → n < spawned
  issued : ∀ {n worker}, workers.lookup n = some worker → worker.token < nextToken
  unique : ∀ {n m worker other}, workers.lookup n = some worker → workers.lookup m = some other →
    worker.token = other.token → n = m
  staffed : ∀ {key registration}, registrations.lookup key = some registration →
    ∃ n worker, workers.lookup n = some worker ∧ worker.stage ≠ .exited ∧ worker.token = registration.token ∧
      worker.cleanup.conversationKey = key ∧
      worker.cleanup.lifecycleGeneration = registration.lifecycleGeneration ∧
      worker.cleanup.lifecycleRevision ≤ registration.lifecycleRevision
  current : ∀ {n worker}, workers.lookup n = some worker → worker.cleanup.lifecycleGeneration ≤ generation
  replaced : ∀ {n worker}, workers.lookup n = some worker → worker.stage ≠ .exited →
    ¬Registered registrations worker → worker.cleanup.lifecycleGeneration < generation
  single : ∀ {n m worker other}, workers.lookup n = some worker → workers.lookup m = some other →
    worker.stage ≠ .exited → other.stage ≠ .exited →
    worker.cleanup.conversationKey = other.cleanup.conversationKey →
    worker.cleanup.lifecycleGeneration = other.cleanup.lifecycleGeneration → n = m

/-- A call that has read the generation under the gate meets only registered workers of that generation. -/
structure Gated (generation : Nat) (registrations : CleanupRegistrations) (workers : Table Nat CleanupWorker)
    (gates : Table String GateHolder) (requests : Table Nat CleanupRequest) (calls : Nat) : Prop where
  numbered : ∀ {n request}, requests.lookup n = some request → n < calls
  held : ∀ {n request}, requests.lookup n = some request → request.stage.holdsGate = true →
    gates.lookup (gateAccount request.cleanup.conversationKey) = some (.caller n)
  topic : ∀ {n request}, requests.lookup n = some request →
    isTelegramTopicKey request.cleanup.conversationKey = true
  current : ∀ {n request}, requests.lookup n = some request → request.stage.passedGeneration = true →
    request.cleanup.lifecycleGeneration ≤ generation
  registered : ∀ {n request m worker}, requests.lookup n = some request →
    request.stage.passedGeneration = true → workers.lookup m = some worker → worker.stage ≠ .exited →
    worker.cleanup.conversationKey = request.cleanup.conversationKey →
    worker.cleanup.lifecycleGeneration = request.cleanup.lifecycleGeneration → Registered registrations worker

/-- What a bind has made sure of when it has come to this stage. -/
def BindStage.Admitted (unregistered pending : Prop) : BindStage → Prop
  | .started => True
  | .registrationsRead true => True
  | .registrationsRead false => unregistered ∨ pending
  | .checked => unregistered ∧ ¬pending

/-- A registration belongs to the binding of its conversation, and no bind under way overlooks it. -/
structure Fitting (bindings : Table String String) (states : TopicStates) (registrations : CleanupRegistrations)
    (workers : Table Nat CleanupWorker) (binding : Option BindOperation) : Prop where
  paired : Paired bindings states
  topic : ∀ {key registration}, registrations.lookup key = some registration → isTelegramTopicKey key = true
  revision : ∀ {key registration found}, registrations.lookup key = some registration →
    states.lookup key = some found → registration.lifecycleRevision ≤ found.lifecycleRevision
  thread : ∀ {key registration found n worker}, registrations.lookup key = some registration →
    states.lookup key = some found → workers.lookup n = some worker → worker.token = registration.token →
    found.threadId = worker.cleanup.threadId
  admitted : ∀ {operation}, binding = some operation → isTelegramTopicKey operation.conversationKey = true →
    operation.stage.Admitted (registrations.lookup operation.conversationKey = none)
      ((states.lookup operation.conversationKey).any TelegramTopicBindingState.cleanupPending = true)

/-- No cleanup that was asked for is lost. -/
structure Settled (generation : Nat) (bindings : Table String String) (states : TopicStates)
    (registrations : CleanupRegistrations) (workers : Table Nat CleanupWorker)
    (requested processed : List Cleanup) : Prop where
  current : ∀ cleanup ∈ requested, cleanup.lifecycleGeneration ≤ generation
  revision : ∀ cleanup ∈ requested, ∀ found, states.lookup cleanup.conversationKey = some found →
    cleanup.lifecycleRevision ≤ found.lifecycleRevision
  kept : ∀ cleanup ∈ requested, Outstanding generation bindings states cleanup →
    cleanup ∈ processed ∨ Attended registrations workers cleanup
  finishing : ∀ {n worker}, workers.lookup n = some worker → worker.stage = .finishing →
    Registered registrations worker → worker.cleanup ∈ processed

namespace CleanupSystem

structure Sound (s : CleanupSystem) : Prop where
  staffed : Staffed s.bridgeGeneration s.registrations s.nextToken s.workers s.spawned
  gated : Gated s.bridgeGeneration s.registrations s.workers s.gates s.requests s.calls
  fitting : Fitting s.imThreadBindings s.topicStates s.registrations s.workers s.binding
  settled : Settled s.bridgeGeneration s.imThreadBindings s.topicStates s.registrations s.workers s.requested
    s.processed
  bounded : s.bridgeGeneration ≤ u64Max

theorem canContinue_iff (s : CleanupSystem) (cleanup : Cleanup) :
    s.canContinue cleanup = true ↔ Outstanding s.bridgeGeneration s.imThreadBindings s.topicStates cleanup := by
  simp only [canContinue, isRequired, Outstanding, Bool.and_eq_true, decide_eq_true_eq, Option.any_eq_true,
    and_assoc]

end CleanupSystem

section

variable {generation nextToken spawned calls : Nat} {bindings : Table String String} {states : TopicStates}
  {registrations : CleanupRegistrations} {workers : Table Nat CleanupWorker} {gates : Table String GateHolder}
  {requests : Table Nat CleanupRequest} {requested processed : List Cleanup}
  {registration : TelegramTopicCleanupRegistration} {n : Nat} {worker : CleanupWorker} {key : String}

section

variable (hs : Staffed generation registrations nextToken workers spawned)
include hs

theorem Staffed.worker_of_token (hregistration : registrations.lookup key = some registration)
    (hn : workers.lookup n = some worker) (htoken : worker.token = registration.token) :
    worker.stage ≠ .exited ∧ worker.cleanup.conversationKey = key ∧
      worker.cleanup.lifecycleGeneration = registration.lifecycleGeneration ∧
      worker.cleanup.lifecycleRevision ≤ registration.lifecycleRevision := by
  obtain ⟨m, found, hfound, hlive, hfoundToken, hkey, hgeneration, hrevision⟩ := hs.staffed hregistration
  have hsame : n = m := hs.unique hn hfound (htoken.trans hfoundToken.symm)
  subst m
  rw [hn] at hfound
  cases hfound
  exact ⟨hlive, hkey, hgeneration, hrevision⟩

theorem Staffed.registration_le (hregistration : registrations.lookup key = some registration) :
    registration.lifecycleGeneration ≤ generation := by
  obtain ⟨n, worker, hn, _, _, _, hgeneration, _⟩ := hs.staffed hregistration
  have hcurrent := hs.current hn
  omega

end

theorem Gated.alone (hg : Gated generation registrations workers gates requests calls) {m : Nat}
    {request other : CleanupRequest} (hn : requests.lookup n = some request)
    (hm : requests.lookup m = some other) (hholds : request.stage.holdsGate = true)
    (hotherHolds : other.stage.holdsGate = true)
    (hkey : gateAccount request.cleanup.conversationKey = gateAccount other.cleanup.conversationKey) : n = m := by
  have hheld := hg.held hn hholds
  rw [hkey, hg.held hm hotherHolds] at hheld
  cases hheld
  rfl

end

end MochiPort

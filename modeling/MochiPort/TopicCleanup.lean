import MochiPort.Runs
import MochiPort.TopicBindings
import MochiPort.TopicMutations

namespace MochiPort

open TelegramTopicBindingState

/-- A lifecycle revision of a binding whose Topic is to be deleted. -/
structure Cleanup where
  conversationKey : String
  threadId : String
  lifecycleGeneration : Nat
  lifecycleRevision : Nat
  deriving DecidableEq

structure TelegramTopicCleanupRegistration where
  token : Nat
  lifecycleGeneration : Nat
  lifecycleRevision : Nat
  deriving DecidableEq

/-- Where a call of `schedule_telegram_topic_cleanup` is: before the mutation gate, and with it before the two
reads of `telegram_topic_cleanup_can_continue` and the lock of the registrations. -/
inductive ScheduleStage where
  | queued
  | gated
  | generationCurrent
  | required
  | ended
  deriving DecidableEq

def ScheduleStage.holdsGate : ScheduleStage → Bool
  | .gated | .generationCurrent | .required => true
  | .queued | .ended => false

structure CleanupRequest where
  cleanup : Cleanup
  stage : ScheduleStage
  deriving DecidableEq

/-- Where a worker is: in the two reads before its wait for the deadline ends, in the deletion, before it
clears the binding of the deleted Topic, before the end of its iteration, and after its last. -/
inductive CleanupStage where
  | waiting
  | generationCurrent
  | running
  | clearing
  | finishing
  | exited
  deriving DecidableEq

structure CleanupWorker where
  token : Nat
  cleanup : Cleanup
  stage : CleanupStage
  deriving DecidableEq

/-- Where the holder of the lock on binding operations is in `bind_thread_to_route`. -/
inductive BindStage where
  | started
  | registrationsRead (cleanupWorkerPending : Bool)
  | checked
  deriving DecidableEq

structure BindOperation where
  conversationKey : String
  threadId : String
  expectedGeneration : Option Nat
  lifecycleGeneration : Nat
  stage : BindStage
  deriving DecidableEq

/-- The state of the cleanups. The last two fields record, for the statements only, the cleanups that were
asked for at the registrations and those that a worker has gone through, each since the last bind of its
conversation. -/
structure CleanupSystem where
  bridgeGeneration : Nat
  imThreadBindings : Table String String
  topicStates : TopicStates
  registrations : Table String TelegramTopicCleanupRegistration
  nextToken : Nat
  gates : Table String GateHolder
  binding : Option BindOperation
  requests : Table Nat CleanupRequest
  calls : Nat
  workers : Table Nat CleanupWorker
  spawned : Nat
  requested : List Cleanup
  processed : List Cleanup

inductive CleanupStep where
  | nextGeneration
  | mark (threadId : String) (lifecycle : TelegramTopicLifecycle) (generation now : Nat)
  | unarchive (threadId : String) (generation now : Nat) (observed : Bool)
  | reconcile (conversationKey threadId : String) (expected : Option TelegramTopicBindingState)
      (othersMatch : Bool) (lifecycle : TelegramTopicLifecycle) (generation now : Nat) (observed : Bool)
  | forget (conversationKey : String)
  | bind (conversationKey threadId : String) (expectedGeneration : Option Nat) (allowed : Bool)
  | bindRegistrations
  | bindStates
  | bindCommit
  | request (cleanup : Cleanup)
  | lockGate (n : Nat)
  | readGeneration (n : Nat)
  | readRequired (n : Nat)
  | register (n : Nat)
  | abandon (n : Nat)
  | borrowGate (accountId : String)
  | returnGate (accountId : String)
  | workerReadsGeneration (n : Nat)
  | workerReadsRequired (n : Nat) (cooling : Bool)
  | topicDeleted (n : Nat)
  | deletionEnded (n : Nat)
  | clearBinding (n : Nat)
  | finish (n : Nat)
  deriving DecidableEq

/-- The account of a conversation, under which its mutation gate is kept. -/
def gateAccount (conversationKey : String) : String :=
  normalizedTelegramAccountId (((splitConversationKey conversationKey).map fun parts => parts.2.1).getD "")

namespace CleanupSystem

def start (restored : TopicStates) : CleanupSystem :=
  ⟨0, restored.mapTo TelegramTopicBindingState.threadId, restored, ∅, 1, ∅, none, ∅, 0, ∅, 0, [], []⟩

/-- `telegram_topic_cleanup_is_required` -/
def isRequired (s : CleanupSystem) (cleanup : Cleanup) : Bool :=
  s.imThreadBindings.lookup cleanup.conversationKey = some cleanup.threadId &&
    (s.topicStates.lookup cleanup.conversationKey).any fun binding =>
      binding.lifecycleGeneration = cleanup.lifecycleGeneration &&
        binding.lifecycleRevision = cleanup.lifecycleRevision && binding.cleanupPending

/-- `telegram_topic_cleanup_can_continue` -/
def canContinue (s : CleanupSystem) (cleanup : Cleanup) : Bool :=
  s.bridgeGeneration = cleanup.lifecycleGeneration && s.isRequired cleanup

def cleanupStatePending (s : CleanupSystem) (conversationKey : String) : Bool :=
  (s.topicStates.lookup conversationKey).any cleanupPending

def setRequest (s : CleanupSystem) (n : Nat) (request : CleanupRequest) (stage : ScheduleStage) : CleanupSystem :=
  { s with requests := s.requests.insert n { request with stage := stage } }

/-- The call has returned and released the gate. -/
def endRequest (s : CleanupSystem) (n : Nat) (request : CleanupRequest) : CleanupSystem :=
  { s.setRequest n request .ended with gates := s.gates.erase (gateAccount request.cleanup.conversationKey) }

def setWorker (s : CleanupSystem) (n : Nat) (worker : CleanupWorker) : CleanupSystem :=
  { s with workers := s.workers.insert n worker }

/-- The worker has done what it could for its revision. -/
def settle (s : CleanupSystem) (n : Nat) (worker : CleanupWorker) : CleanupSystem :=
  { s.setWorker n { worker with stage := .finishing } with processed := worker.cleanup :: s.processed }

def forgetBinding (s : CleanupSystem) (conversationKey : String) : CleanupSystem :=
  if isTelegramKey conversationKey then
    { s with
      imThreadBindings := s.imThreadBindings.erase conversationKey
      topicStates := s.topicStates.erase conversationKey }
  else s

/-- A new registration and the worker that is spawned for it. -/
def spawnCleanup (s : CleanupSystem) (cleanup : Cleanup) : CleanupSystem :=
  { s with
    registrations := s.registrations.insert cleanup.conversationKey
      ⟨s.nextToken, cleanup.lifecycleGeneration, cleanup.lifecycleRevision⟩
    nextToken := (s.nextToken + 1) % UInt64.size
    workers := s.workers.insert s.spawned ⟨s.nextToken, cleanup, .waiting⟩
    spawned := s.spawned + 1 }

/-- What `schedule_telegram_topic_cleanup` does under the lock of the registrations. -/
def registerCleanup (s : CleanupSystem) (cleanup : Cleanup) : CleanupSystem :=
  match s.registrations.lookup cleanup.conversationKey with
  | none => s.spawnCleanup cleanup
  | some registration =>
    if cleanup.lifecycleGeneration < registration.lifecycleGeneration then s
    else if cleanup.lifecycleGeneration > registration.lifecycleGeneration then s.spawnCleanup cleanup
    else if cleanup.lifecycleRevision > registration.lifecycleRevision then
      { s with
        registrations := s.registrations.insert cleanup.conversationKey
          { registration with lifecycleRevision := cleanup.lifecycleRevision } }
    else s

/-- The newer revision that a worker of the registration takes up next. -/
def nextLifecycle (s : CleanupSystem) (registration : TelegramTopicCleanupRegistration) (cleanup : Cleanup) :
    Option TelegramTopicBindingState :=
  if s.imThreadBindings.lookup cleanup.conversationKey = some cleanup.threadId then
    (s.topicStates.lookup cleanup.conversationKey).filter fun binding =>
      binding.lifecycleGeneration = s.bridgeGeneration &&
        binding.lifecycleGeneration = registration.lifecycleGeneration &&
        binding.lifecycleGeneration = cleanup.lifecycleGeneration &&
        binding.lifecycleRevision > cleanup.lifecycleRevision && binding.cleanupPending
  else none

/-- `finish_telegram_topic_cleanup_worker_iteration` -/
def finishWorkerIteration (s : CleanupSystem) (n : Nat) (worker : CleanupWorker) : CleanupSystem :=
  let exited := s.setWorker n { worker with stage := .exited }
  match s.registrations.lookup worker.cleanup.conversationKey with
  | none => exited
  | some registration =>
    if registration.token ≠ worker.token then exited
    else
      match s.nextLifecycle registration worker.cleanup with
      | some binding =>
        { s.setWorker n { worker with
            cleanup := { worker.cleanup with
              lifecycleGeneration := binding.lifecycleGeneration
              lifecycleRevision := binding.lifecycleRevision }
            stage := .waiting } with
          registrations := s.registrations.insert worker.cleanup.conversationKey
            { registration with
              lifecycleRevision := max registration.lifecycleRevision binding.lifecycleRevision } }
      | none => { exited with registrations := s.registrations.erase worker.cleanup.conversationKey }

/-- The critical section of a bind that passed its checks, on the persisted maps. -/
def commitBinding (s : CleanupSystem) (operation : BindOperation) : CleanupSystem :=
  let bindings := s.imThreadBindings.retain fun _ boundThreadId => boundThreadId ≠ operation.threadId
  let states := s.topicStates.retain fun _ binding => binding.threadId ≠ operation.threadId
  if isTelegramKey operation.conversationKey then
    { s with
      imThreadBindings := bindings.insert operation.conversationKey operation.threadId
      topicStates := states.insert operation.conversationKey { default with
        threadId := operation.threadId
        lifecycleGeneration := s.bridgeGeneration }
      requested := s.requested.filter fun cleanup => cleanup.conversationKey ≠ operation.conversationKey
      processed := s.processed.filter fun cleanup => cleanup.conversationKey ≠ operation.conversationKey }
  else { s with imThreadBindings := bindings, topicStates := states }

def requestAt (s : CleanupSystem) (n : Nat) (stage : ScheduleStage) : Option CleanupRequest :=
  (s.requests.lookup n).filter fun request => request.stage = stage

def workerAt (s : CleanupSystem) (n : Nat) (stage : CleanupStage) : Option CleanupWorker :=
  (s.workers.lookup n).filter fun worker => worker.stage = stage

/-- A step that needs the lock on binding operations. -/
def unlocked (s : CleanupSystem) (next : CleanupSystem) : Option CleanupSystem :=
  if s.binding = none then some next else none

def step (s : CleanupSystem) : CleanupStep → Option CleanupSystem
  | .nextGeneration => some { s with bridgeGeneration := saturatingAdd s.bridgeGeneration 1 }
  | .mark threadId lifecycle generation now =>
    s.unlocked (if s.bridgeGeneration ≠ generation then s
      else { s with
        topicStates := markTelegramTopicBindingsForCleanup s.imThreadBindings s.topicStates threadId lifecycle
          generation now })
  | .unarchive threadId generation now observed =>
    s.unlocked (if s.bridgeGeneration ≠ generation ∨ observed = false then s
      else { s with
        topicStates := unarchiveTelegramTopicForCodexThread s.imThreadBindings s.topicStates threadId generation
          now })
  | .reconcile conversationKey threadId expected othersMatch lifecycle generation now observed =>
    let binding := { expected.getD default with threadId := threadId }
    s.unlocked (if s.bridgeGeneration ≠ generation then s
      else { s with
        topicStates := persistTelegramTopicBindingState s.imThreadBindings s.topicStates conversationKey threadId
          expected othersMatch (binding.updateTelegramTopicLifecycle lifecycle generation now) observed now })
  | .forget conversationKey => s.unlocked (s.forgetBinding conversationKey)
  | .bind conversationKey threadId expectedGeneration allowed =>
    s.unlocked (if expectedGeneration.any (· ≠ s.bridgeGeneration) then s
      else if isTelegramTopicKey conversationKey then
        if allowed then { s with
          binding := some ⟨conversationKey, threadId, expectedGeneration, s.bridgeGeneration, .started⟩ }
        else s
      else { s with
        binding := some ⟨conversationKey, threadId, expectedGeneration, s.bridgeGeneration, .checked⟩ })
  | .bindRegistrations =>
    match s.binding with
    | some ⟨conversationKey, threadId, expectedGeneration, lifecycleGeneration, .started⟩ =>
      some { s with
        binding := some ⟨conversationKey, threadId, expectedGeneration, lifecycleGeneration,
          .registrationsRead (s.registrations.lookup conversationKey).isSome⟩ }
    | _ => none
  | .bindStates =>
    match s.binding with
    | some ⟨conversationKey, threadId, expectedGeneration, lifecycleGeneration,
        .registrationsRead cleanupWorkerPending⟩ =>
      if cleanupWorkerPending || s.cleanupStatePending conversationKey then some { s with binding := none }
      else some { s with
        binding := some ⟨conversationKey, threadId, expectedGeneration, lifecycleGeneration, .checked⟩ }
    | _ => none
  | .bindCommit =>
    match s.binding with
    | some ⟨conversationKey, threadId, expectedGeneration, lifecycleGeneration, .checked⟩ =>
      if expectedGeneration.any (· ≠ s.bridgeGeneration) ||
          (isTelegramTopicKey conversationKey && s.bridgeGeneration ≠ lifecycleGeneration) then
        some { s with binding := none }
      else some { s.commitBinding
          ⟨conversationKey, threadId, expectedGeneration, lifecycleGeneration, .checked⟩ with binding := none }
    | _ => none
  | .request cleanup =>
    if isTelegramTopicKey cleanup.conversationKey then
      some { s with requests := s.requests.insert s.calls ⟨cleanup, .queued⟩, calls := s.calls + 1 }
    else none
  | .lockGate n =>
    (s.requestAt n .queued).bind fun request =>
      match s.gates.lookup (gateAccount request.cleanup.conversationKey) with
      | some _ => none
      | none => some { s.setRequest n request .gated with
          gates := s.gates.insert (gateAccount request.cleanup.conversationKey) (.caller n) }
  | .readGeneration n =>
    (s.requestAt n .gated).map fun request =>
      if s.bridgeGeneration = request.cleanup.lifecycleGeneration then s.setRequest n request .generationCurrent
      else s.endRequest n request
  | .readRequired n =>
    (s.requestAt n .generationCurrent).map fun request =>
      if s.isRequired request.cleanup then s.setRequest n request .required else s.endRequest n request
  | .register n =>
    (s.requestAt n .required).map fun request =>
      { (s.registerCleanup request.cleanup).endRequest n request with
        requested := request.cleanup :: s.requested }
  | .abandon n =>
    ((s.requests.lookup n).filter fun request => request.stage.holdsGate).map (s.endRequest n)
  | .borrowGate accountId =>
    match s.gates.lookup (normalizedTelegramAccountId accountId) with
    | some _ => none
    | none => some { s with gates := s.gates.insert (normalizedTelegramAccountId accountId) .other }
  | .returnGate accountId =>
    match s.gates.lookup (normalizedTelegramAccountId accountId) with
    | some .other => some { s with gates := s.gates.erase (normalizedTelegramAccountId accountId) }
    | _ => none
  | .workerReadsGeneration n =>
    (s.workerAt n .waiting).map fun worker =>
      if s.bridgeGeneration = worker.cleanup.lifecycleGeneration then
        s.setWorker n { worker with stage := .generationCurrent }
      else s.settle n worker
  | .workerReadsRequired n cooling =>
    (s.workerAt n .generationCurrent).map fun worker =>
      if s.isRequired worker.cleanup then
        s.setWorker n { worker with stage := if cooling then .waiting else .running }
      else s.settle n worker
  | .topicDeleted n => (s.workerAt n .running).map fun worker => s.setWorker n { worker with stage := .clearing }
  | .deletionEnded n => (s.workerAt n .running).map (s.settle n)
  | .clearBinding n =>
    (s.workerAt n .clearing).bind fun worker =>
      s.unlocked (if s.imThreadBindings.lookup worker.cleanup.conversationKey = some worker.cleanup.threadId then
        (s.forgetBinding worker.cleanup.conversationKey).settle n worker
      else s.settle n worker)
  | .finish n => (s.workerAt n .finishing).bind fun worker => s.unlocked (s.finishWorkerIteration n worker)

end CleanupSystem

end MochiPort

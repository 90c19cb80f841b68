import MochiPort.Runs
import MochiPort.TopicBindings

namespace MochiPort

open TelegramTopicBindingState

/-- The names of a persisted binding, which its lifecycle leaves out, and the state of its Topic. -/
structure TelegramTopicNames where
  codexTitle : String
  topicName : String
  lastSyncedCodexTitle : String
  lastSyncedTopicName : String
  telegramState : String
  deriving DecidableEq

def TelegramTopicNames.default : TelegramTopicNames := ⟨"", "", "", "", "open"⟩

def truncateTelegramTopicName (title : String) : String :=
  let title := RustText.trim title
  String.ofList ((if title = "" then "未命名会话" else title).toList.take 64)

/-- What a reconciliation has read of one binding before it asks for the sessions. -/
structure Reconcile where
  conversationKey : String
  threadId : String
  expectedState : Option TelegramTopicBindingState
  expectedNames : TelegramTopicNames
  generation : Nat
  lifecycleRevision : Nat
  deriving DecidableEq

/-- The intents of the threads. All calls on them hold the lock on binding operations, but those that report a start:
`starting` has the ones that have seen the latest generation, and whether they have brought it. -/
structure ThreadIntents where
  latestGeneration : Nat
  nextRevision : Nat
  intents : LifecycleIntents
  starting : List (String × Nat × Bool)

namespace ThreadIntents

/-- `telegram_thread_lifecycle_revision` -/
def revision (l : ThreadIntents) (threadId : String) (generation : Nat) : Option Nat :=
  if generation < l.latestGeneration then none else telegramThreadLifecycleRevision l.intents threadId generation

/-- `observe_telegram_thread_lifecycle_inner`, and whether it takes effect. -/
def observe (l : ThreadIntents) (threadId : String) (generation : Nat) (expectedRevision : Option Nat)
    (nextState : TelegramThreadLifecycleState) : ThreadIntents × Bool :=
  if generation < l.latestGeneration then (l, false)
  else
    let retained := retainGenerations l.intents generation (l.latestGeneration < generation)
    match observeTelegramThreadLifecycleInner retained threadId generation expectedRevision nextState
        l.nextRevision with
    | none => ({ l with latestGeneration := generation, intents := retained }, false)
    | some intents =>
      ({ l with
        latestGeneration := generation
        nextRevision := (l.nextRevision + 1) % UInt64.size
        intents := intents }, true)

/-- A commit without an intent observes nothing. -/
def observeIntent (l : ThreadIntents) (threadId : String) (generation expectedRevision : Nat) :
    Option TelegramThreadLifecycleState → ThreadIntents × Bool
  | none => (l, true)
  | some state => l.observe threadId generation (some expectedRevision) state

def beginStarted (l : ThreadIntents) (threadId : String) (generation : Nat) : ThreadIntents :=
  if generation < l.latestGeneration then l
  else
    { l with
      latestGeneration := generation
      starting := l.starting ++ [(threadId, generation, decide (l.latestGeneration < generation))] }

def endStarted (l : ThreadIntents) (position : Nat) : Option ThreadIntents :=
  (l.starting[position]?).map fun (threadId, generation, newer) =>
    let retained := retainGenerations l.intents generation newer
    { l with
      intents := (observeTelegramThreadStarted retained threadId generation).1
      starting := l.starting.eraseIdx position }

/-- An observation takes effect only if it expects the revision that was next before, or is a deletion. -/
def Supersedes (l before : ThreadIntents) (threadId : String) (generation : Nat) : Prop :=
  ∀ expectedRevision nextState, (l.observe threadId generation (some expectedRevision) nextState).2 = true →
    expectedRevision = before.nextRevision ∨ nextState = .deleted

end ThreadIntents

/-- The persisted bindings and what works on them. A binding without an entry in `topicNames` has the default
names. -/
structure TopicRecords where
  bridgeGeneration : Nat
  lifecycles : ThreadIntents
  imThreadBindings : Table String String
  topicStates : TopicStates
  topicNames : Table String TelegramTopicNames
  nameUpdateOps : Table String Nat
  nameUpdateNextToken : Nat
  reconciles : Table Nat Reconcile
  started : Nat

inductive RecordStep where
  | nextGeneration
  | bind (conversationKey threadId : String)
  | forget (conversationKey : String)
  | mark (threadId : String) (lifecycle : TelegramTopicLifecycle) (generation now : Nat)
  | unarchive (threadId : String) (generation now : Nat)
  | beginStarted (threadId : String) (generation : Nat)
  | endStarted (position : Nat)
  | snapshot (conversationKey : String)
  | persist (n : Nat) (activeIds archivedIds : List String) (now nowMs : Nat) (names : TelegramTopicNames)
  | beginNameUpdate (conversationKey : String)
  | finishNameUpdate (conversationKey : String) (token : Nat)
  | persistServiceState (conversationKey topicState : String) (now : Nat)
  | recordTopicName (conversationKey topicState topicName : String) (token now : Nat)
  | commitNameToCodex (conversationKey threadId topicName : String) (token now : Nat)
  | commitName (conversationKey threadId codexTitle topicName : String) (token now : Nat)
  | persistTitle (conversationKey threadId title : String) (token now : Nat)
  | persistName (conversationKey topicName : String) (now : Nat)
  | persistAutoName (conversationKey threadId codexTitle topicName : String) (now : Nat)
  | persistManualName (conversationKey threadId : String) (expectedState : Option TelegramTopicBindingState)
      (expectedNames : TelegramTopicNames) (topicName : String) (now : Nat)

namespace TelegramTopicBindingState

/-- What the lists of sessions show of the thread, and since when it is missing. -/
def shownLifecycle (binding : TelegramTopicBindingState) (threadId : String) (activeIds archivedIds : List String)
    (now : Nat) : TelegramTopicLifecycle :=
  if activeIds.contains threadId then .active
  else if archivedIds.contains threadId then .archived
  else if now - binding.missingAtMs.getD now ≥ telegramTopicStateGraceMs then .missingDelete
  else .missingGrace

/-- The lifecycle that a reconciliation makes of what it has read of a binding. -/
def reconciled (expected : Option TelegramTopicBindingState) (threadId : String) (activeIds archivedIds : List String)
    (generation now : Nat) : TelegramTopicBindingState :=
  let binding := { expected.getD default with threadId := threadId }
  binding.updateTelegramTopicLifecycle (binding.shownLifecycle threadId activeIds archivedIds now) generation now

end TelegramTopicBindingState

namespace TopicRecords

/-- The program starts with the bindings that it restores, in no bridge generation. -/
def start (restored : TopicStates) (names : Table String TelegramTopicNames) : TopicRecords :=
  ⟨0, ⟨0, 1, ∅, []⟩, restored.mapTo threadId,
    restored.mapTo fun binding => { binding with lifecycleGeneration := 0 }, names, ∅, 1, ∅, 0⟩

def namesOf (s : TopicRecords) (conversationKey : String) : TelegramTopicNames :=
  (s.topicNames.lookup conversationKey).getD .default

def writeNames (s : TopicRecords) (conversationKey : String) (now : Nat)
    (write : TelegramTopicNames → TelegramTopicNames) : TopicRecords :=
  match s.topicStates.lookup conversationKey with
  | none => s
  | some binding =>
    { s with
      topicStates := s.topicStates.insert conversationKey { binding with lastCheckedAtMs := now }
      topicNames := s.topicNames.insert conversationKey (write (s.namesOf conversationKey)) }

/-- `telegram_topic_name_update_is_current` -/
def nameUpdateIsCurrent (s : TopicRecords) (conversationKey : String) (token : Nat) : Bool :=
  s.nameUpdateOps.lookup conversationKey = some token

def boundTo (s : TopicRecords) (conversationKey threadId : String) : Bool :=
  s.imThreadBindings.lookup conversationKey = some threadId

def recordOf (s : TopicRecords) (conversationKey threadId : String) : Bool :=
  (s.topicStates.lookup conversationKey).any fun binding => binding.threadId = threadId

def persistTelegramTopicServiceState (s : TopicRecords) (conversationKey topicState : String) (now : Nat) :
    TopicRecords :=
  s.writeNames conversationKey now fun names => { names with telegramState := topicState }

def recordTelegramTopicNameForCodexSync (s : TopicRecords) (conversationKey topicState topicName : String)
    (token now : Nat) : TopicRecords :=
  if s.nameUpdateIsCurrent conversationKey token &&
      (s.imThreadBindings.lookup conversationKey).any fun threadId =>
        !isBlank threadId && s.recordOf conversationKey threadId then
    s.writeNames conversationKey now fun names =>
      { names with telegramState := topicState, topicName := topicName }
  else s

def commitTelegramTopicNameToCodexIfCurrent (s : TopicRecords) (conversationKey threadId topicName : String)
    (token now : Nat) : TopicRecords :=
  if s.nameUpdateIsCurrent conversationKey token && s.boundTo conversationKey threadId &&
      s.recordOf conversationKey threadId && (s.namesOf conversationKey).topicName = topicName then
    s.writeNames conversationKey now fun names =>
      { names with
        codexTitle := topicName
        lastSyncedCodexTitle := topicName
        lastSyncedTopicName := topicName }
  else s

def syncedNames (codexTitle topicName : String) (names : TelegramTopicNames) : TelegramTopicNames :=
  { names with
    codexTitle := codexTitle
    topicName := topicName
    lastSyncedCodexTitle := codexTitle
    lastSyncedTopicName := topicName }

def commitTelegramTopicNameIfCurrent (s : TopicRecords) (conversationKey threadId codexTitle topicName : String)
    (token now : Nat) : TopicRecords :=
  if s.nameUpdateIsCurrent conversationKey token && s.boundTo conversationKey threadId &&
      s.recordOf conversationKey threadId then
    s.writeNames conversationKey now (syncedNames codexTitle topicName)
  else s

def persistCodexTitleOnly (s : TopicRecords) (conversationKey threadId title : String) (token now : Nat) :
    TopicRecords :=
  if s.nameUpdateIsCurrent conversationKey token && s.boundTo conversationKey threadId &&
      s.recordOf conversationKey threadId then
    s.writeNames conversationKey now fun names => { names with codexTitle := title }
  else s

def filledNames (topicName : String) (names : TelegramTopicNames) : TelegramTopicNames :=
  let codexTitle := if isBlank names.codexTitle then topicName else names.codexTitle
  { names with
    topicName := topicName
    codexTitle := codexTitle
    lastSyncedCodexTitle := if isBlank names.lastSyncedCodexTitle then codexTitle else names.lastSyncedCodexTitle
    lastSyncedTopicName := if isBlank names.lastSyncedTopicName then topicName else names.lastSyncedTopicName }

def persistTelegramTopicName (s : TopicRecords) (conversationKey topicName : String) (now : Nat) : TopicRecords :=
  s.writeNames conversationKey now (filledNames topicName)

def persistAutoTopicName (s : TopicRecords) (conversationKey threadId codexTitle topicName : String) (now : Nat) :
    TopicRecords :=
  if s.recordOf conversationKey threadId then
    s.writeNames conversationKey now (syncedNames codexTitle topicName)
  else s

def manualTelegramTopicTitleMatches (expectedState : Option TelegramTopicBindingState)
    (expectedNames : TelegramTopicNames) (topicName : String) : Bool :=
  expectedState.all fun _ =>
    isBlank expectedNames.codexTitle || truncateTelegramTopicName (RustText.trim expectedNames.codexTitle) = topicName

def persistManualTelegramTopicNameIfCurrent (s : TopicRecords) (conversationKey threadId : String)
    (expectedState : Option TelegramTopicBindingState) (expectedNames : TelegramTopicNames) (topicName : String)
    (now : Nat) : TopicRecords :=
  if (s.nameUpdateOps.lookup conversationKey).isNone &&
      manualTelegramTopicTitleMatches expectedState expectedNames topicName && s.boundTo conversationKey threadId &&
      s.topicStates.lookup conversationKey = expectedState && s.namesOf conversationKey = expectedNames then
    s.writeNames conversationKey now (filledNames topicName)
  else s

/-- The binding and its record are as the reconciliation has read them. -/
def exactlyMatches (s : TopicRecords) (reconcile : Reconcile) : Bool :=
  s.boundTo reconcile.conversationKey reconcile.threadId &&
    s.topicStates.lookup reconcile.conversationKey = reconcile.expectedState &&
    s.namesOf reconcile.conversationKey = reconcile.expectedNames

/-- `persist_telegram_topic_binding_state`, with `binding` and `names` as the reconciliation wants them. -/
def persistReconciled (s : TopicRecords) (reconcile : Reconcile) (binding : TelegramTopicBindingState)
    (names : TelegramTopicNames) (nowMs : Nat) : TopicRecords :=
  let intent := binding.lifecycleIntent nowMs
  if s.bridgeGeneration ≠ reconcile.generation then s
  else
    match commitTarget s.imThreadBindings s.topicStates reconcile.conversationKey reconcile.threadId
      (s.exactlyMatches reconcile) intent.isSome binding with
    | none => s
    | some target =>
      let (lifecycles, observed) :=
        s.lifecycles.observeIntent reconcile.threadId reconcile.generation reconcile.lifecycleRevision intent
      match target, observed with
      | some target, true =>
        { s with
          lifecycles := lifecycles
          topicStates := s.topicStates.insert target.1 (s.topicStates.committed binding target)
          topicNames := if target.2 then s.topicNames.insert target.1 names else s.topicNames }
      | _, _ => { s with lifecycles := lifecycles }

/-- The critical section of `bind_thread_to_route`, on the persisted maps. -/
def bindThread (s : TopicRecords) (conversationKey threadId : String) : TopicRecords :=
  let bindings := s.imThreadBindings.retain fun _ boundThreadId => boundThreadId ≠ threadId
  let states := s.topicStates.retain fun _ binding => binding.threadId ≠ threadId
  let names := s.topicNames.retain fun key _ => !s.recordOf key threadId
  if isTelegramKey conversationKey then
    { s with
      imThreadBindings := bindings.insert conversationKey threadId
      topicStates := states.insert conversationKey { default with
        threadId := threadId
        lifecycleGeneration := s.bridgeGeneration }
      topicNames := names.erase conversationKey }
  else { s with imThreadBindings := bindings, topicStates := states, topicNames := names }

def forgetBinding (s : TopicRecords) (conversationKey : String) : TopicRecords :=
  if isTelegramKey conversationKey then
    { s with
      imThreadBindings := s.imThreadBindings.erase conversationKey
      topicStates := s.topicStates.erase conversationKey
      topicNames := s.topicNames.erase conversationKey }
  else s

def step (s : TopicRecords) : RecordStep → Option TopicRecords
  | .nextGeneration => some { s with bridgeGeneration := saturatingAdd s.bridgeGeneration 1 }
  | .bind conversationKey threadId => some (s.bindThread conversationKey threadId)
  | .forget conversationKey => some (s.forgetBinding conversationKey)
  | .mark threadId lifecycle generation now =>
    some (if s.bridgeGeneration ≠ generation then s
      else { s with
        lifecycles := (s.lifecycles.observe threadId generation none
          (if lifecycle = .deleted then .deleted else .archived)).1
        topicStates := markTelegramTopicBindingsForCleanup s.imThreadBindings s.topicStates threadId lifecycle
          generation now })
  | .unarchive threadId generation now =>
    some (if s.bridgeGeneration ≠ generation then s
      else
        let (lifecycles, observed) := s.lifecycles.observe threadId generation none .active
        { s with
          lifecycles := lifecycles
          topicStates :=
            if observed then
              unarchiveTelegramTopicForCodexThread s.imThreadBindings s.topicStates threadId generation now
            else s.topicStates })
  | .beginStarted threadId generation => some { s with lifecycles := s.lifecycles.beginStarted threadId generation }
  | .endStarted position =>
    (s.lifecycles.endStarted position).map fun lifecycles => { s with lifecycles := lifecycles }
  | .snapshot conversationKey =>
    match s.imThreadBindings.lookup conversationKey with
    | none => none
    | some threadId =>
      (s.lifecycles.revision threadId s.bridgeGeneration).map fun lifecycleRevision =>
        { s with
          reconciles := s.reconciles.insert s.started ⟨conversationKey, threadId,
            s.topicStates.lookup conversationKey, s.namesOf conversationKey, s.bridgeGeneration, lifecycleRevision⟩
          started := s.started + 1 }
  | .persist n activeIds archivedIds now nowMs names =>
    (s.reconciles.lookup n).map fun reconcile =>
      { s.persistReconciled reconcile (reconciled reconcile.expectedState
          reconcile.threadId activeIds archivedIds reconcile.generation now) names nowMs with
        reconciles := s.reconciles.erase n }
  | .beginNameUpdate conversationKey =>
    some { s with
      nameUpdateOps := s.nameUpdateOps.insert conversationKey s.nameUpdateNextToken
      nameUpdateNextToken := (s.nameUpdateNextToken + 1) % UInt64.size }
  | .finishNameUpdate conversationKey token =>
    some (if s.nameUpdateIsCurrent conversationKey token then
      { s with nameUpdateOps := s.nameUpdateOps.erase conversationKey } else s)
  | .persistServiceState conversationKey topicState now =>
    some (s.persistTelegramTopicServiceState conversationKey topicState now)
  | .recordTopicName conversationKey topicState topicName token now =>
    some (s.recordTelegramTopicNameForCodexSync conversationKey topicState topicName token now)
  | .commitNameToCodex conversationKey threadId topicName token now =>
    some (s.commitTelegramTopicNameToCodexIfCurrent conversationKey threadId topicName token now)
  | .commitName conversationKey threadId codexTitle topicName token now =>
    some (s.commitTelegramTopicNameIfCurrent conversationKey threadId codexTitle topicName token now)
  | .persistTitle conversationKey threadId title token now =>
    some (s.persistCodexTitleOnly conversationKey threadId title token now)
  | .persistName conversationKey topicName now => some (s.persistTelegramTopicName conversationKey topicName now)
  | .persistAutoName conversationKey threadId codexTitle topicName now =>
    some (s.persistAutoTopicName conversationKey threadId codexTitle topicName now)
  | .persistManualName conversationKey threadId expectedState expectedNames topicName now =>
    some (s.persistManualTelegramTopicNameIfCurrent conversationKey threadId expectedState expectedNames topicName
      now)

end TopicRecords

namespace ThreadIntents

variable {l : ThreadIntents} {threadId : String} {generation : Nat}

theorem observe_expected {expectedRevision : Nat} {nextState : TelegramThreadLifecycleState}
    (h : (l.observe threadId generation (some expectedRevision) nextState).2 = true) :
    l.revision threadId generation = some expectedRevision := by
  unfold observe at h
  split at h
  next => cases h
  next hlatest =>
    dsimp only at h
    split at h
    next => cases h
    next intents hinner =>
      rw [revision, if_neg hlatest, telegramThreadLifecycleRevision]
      simp only [observeTelegramThreadLifecycleInner, lookup_retainGenerations] at hinner
      cases hlookup : l.intents.lookup threadId with
      | none =>
        rw [hlookup] at hinner
        grind
      | some intent =>
        rw [hlookup] at hinner
        by_cases hlt : intent.generation < generation
        · grind
        · grind

theorem deleted_of_refused {intents : LifecycleIntents} {revision revision' expectedRevision : Nat}
    {nextState later : TelegramThreadLifecycleState}
    (h : observeTelegramThreadLifecycleInner intents threadId generation none nextState revision = none)
    (hlater : (observeTelegramThreadLifecycleInner intents threadId generation (some expectedRevision) later
      revision').isSome = true) : later = .deleted := by
  simp only [observeTelegramThreadLifecycleInner, Option.any_none] at h hlater
  generalize intents.lookup threadId = current at h hlater
  cases current with
  | none => simp at h
  | some intent =>
    simp only [Option.any_some, Bool.false_eq_true, if_false] at h hlater
    grind

theorem supersedes_observe (l : ThreadIntents) (threadId : String) (generation : Nat)
    (nextState : TelegramThreadLifecycleState) :
    (l.observe threadId generation none nextState).1.Supersedes l threadId generation := by
  intro expectedRevision later h
  have hexpected := observe_expected h
  by_cases hlatest : generation < l.latestGeneration
  · simp [observe, revision, hlatest] at hexpected
  · cases hinner : observeTelegramThreadLifecycleInner
        (retainGenerations l.intents generation (l.latestGeneration < generation)) threadId generation none nextState
        l.nextRevision with
    | none =>
      right
      simp only [observe, hlatest, hinner, if_false, Nat.lt_irrefl, decide_false] at h
      split at h
      next => cases h
      next hlater => exact deleted_of_refused hinner (Option.isSome_of_eq_some hlater)
    | some intents =>
      left
      have hnew : intents.lookup threadId = some ⟨generation, l.nextRevision, nextState⟩ := by
        simp only [observeTelegramThreadLifecycleInner] at hinner
        split at hinner
        next => cases hinner
        simp only [Option.any_none, Bool.false_eq_true, if_false] at hinner
        split at hinner
        next => cases hinner
        cases hinner
        exact AList.lookup_insert _
      simp only [observe, hlatest, hinner, if_false] at hexpected
      simp only [revision, Nat.lt_irrefl, if_false, telegramThreadLifecycleRevision, hnew, if_true] at hexpected
      exact (Option.some.inj hexpected).symm

end ThreadIntents

end MochiPort

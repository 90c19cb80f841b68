import MochiPort.RemoteClients

namespace MochiPort

inductive TelegramCommandProgressStatus where
  | running | interrupted | succeeded | failed
  deriving DecidableEq

inductive TelegramCommandProgressEntryKind where
  | command | mcpTool
  deriving DecidableEq

structure TelegramCommandProgressEntry where
  itemId : String
  kind : TelegramCommandProgressEntryKind
  command : String
  status : TelegramCommandProgressStatus
  exitCode : Option Int
  durationMs : Option Nat
  failureOutput : Option String
  sequence : Nat
  deriving DecidableEq

/-- The rich blocks of a search are compared and rendered as the text of their JSON. -/
structure TelegramWebSearchProgressEntry where
  itemId : String
  summary : String
  blocks : List String
  fallbackMarkdown : String
  deriving DecidableEq

structure TelegramCommentaryEntry where
  itemId : String
  text : String
  sequence : Nat
  deriving DecidableEq

inductive TelegramPlanStepStatus where
  | pending | inProgress | completed
  deriving DecidableEq

structure TelegramPlanStep where
  step : String
  status : TelegramPlanStepStatus
  deriving DecidableEq

structure TelegramDiffFileSummary where
  path : String
  additions : Nat
  deletions : Nat
  deriving DecidableEq

structure TelegramDiffSummary where
  fileCount : Nat
  additions : Nat
  deletions : Nat
  files : List TelegramDiffFileSummary
  paths : List String
  omittedPaths : Nat
  deriving DecidableEq

inductive TelegramCollabProgressStatus where
  | running | responded | succeeded | failed | interrupted
  deriving DecidableEq

structure TelegramCollabProgressUpdate where
  agentId : String
  name : Option String
  status : Option TelegramCollabProgressStatus
  detail : Option String
  occurredAtMs : Nat
  createIfMissing : Bool
  restart : Bool

structure TelegramCollabProgressEntry where
  agentId : String
  name : String
  status : TelegramCollabProgressStatus
  detail : Option String
  startedAtMs : Nat
  updatedAtMs : Nat
  deriving DecidableEq

structure TelegramCollabProgressSnapshot where
  entries : List TelegramCollabProgressEntry
  droppedEntries : Nat
  completed : Bool
  deriving DecidableEq

structure TelegramCommandProgressSnapshot where
  turnId : String
  revision : Nat
  messageId : Option String
  entries : List TelegramCommandProgressEntry
  droppedEntries : Nat
  retryCount : Nat
  retryError : Option String
  reasoningSummary : Option String
  planExplanation : Option String
  plan : List TelegramPlanStep
  diffSummary : Option TelegramDiffSummary
  webSearches : List TelegramWebSearchProgressEntry
  droppedWebSearches : Nat
  commentary : List TelegramCommentaryEntry
  commentaryDroppedEntries : Nat
  collab : Option TelegramCollabProgressSnapshot
  finalReply : Option String
  elapsedMs : Option Nat
  completed : Bool
  failed : Bool
  deriving DecidableEq

structure TelegramCommandProgressState where
  turnId : String
  revision : Nat
  messageId : Option String
  entries : List TelegramCommandProgressEntry
  droppedEntries : Nat
  retryCount : Nat
  retryError : Option String
  reasoningItemId : Option String
  reasoningSummaryIndex : Option Int
  reasoningSummary : String
  reasoningCompleted : Bool
  planExplanation : Option String
  plan : List TelegramPlanStep
  diffSummary : Option TelegramDiffSummary
  webSearches : List TelegramWebSearchProgressEntry
  droppedWebSearches : Nat
  commentaryEntries : List TelegramCommentaryEntry
  commentaryDroppedEntries : Nat
  nextSequence : Nat
  reservedCommentarySequences : Table String Nat
  collabEntries : List TelegramCollabProgressEntry
  collabDroppedEntries : Nat
  finalReply : Option String
  elapsedMs : Option Nat
  completed : Bool
  failed : Bool
  dirty : Bool
  sending : Bool
  inFlightRevision : Option Nat
  cleanupAfterDelivery : Bool

def telegramCommandProgressMaxEntries : Nat := 128
def telegramWebSearchMaxEntries : Nat := 16
def telegramCommentaryMaxEntries : Nat := 64
def telegramCollabProgressMaxAgents : Nat := 64
def telegramReasoningMaxChars : Nat := 12000
def telegramPlanMaxSteps : Nat := 64
def telegramDiffMaxPaths : Nat := 128

def saturatingAdd (a b : Nat) : Nat := min (a + b) u64Max

theorem saturatingAdd_one {a : Nat} (h : a < u64Max) : saturatingAdd a 1 = a + 1 := Nat.min_eq_left h

def isBlank (s : String) : Bool := RustText.trim s = ""

def notBlank (s : String) : Bool := !isBlank s

/-- A list cut to its last `limit` entries, with the number of those cut off added up. -/
def keepNewest {α : Type} (limit : Nat) (entries : List α) (dropped : Nat) : List α × Nat :=
  if limit < entries.length then
    (entries.drop (entries.length - limit), saturatingAdd dropped (entries.length - limit))
  else (entries, dropped)

def appendBoundedText (target delta : String) (maxChars : Nat) : String :=
  let text := target ++ delta
  String.ofList (text.toList.drop (text.toList.length - maxChars))

def limitTelegramDiffSummary (summary : TelegramDiffSummary) : TelegramDiffSummary :=
  let files := summary.files.take telegramDiffMaxPaths
  let paths := summary.paths.take telegramDiffMaxPaths
  let visibleFiles := max files.length paths.length
  { summary with
    files := files
    paths := paths
    omittedPaths := max summary.omittedPaths (summary.fileCount - visibleFiles) }

namespace TelegramCommandProgressState

variable (progress : TelegramCommandProgressState)

/-- `telegram_command_progress_state`. -/
def new (turnId : String) : TelegramCommandProgressState where
  turnId := turnId
  revision := 0
  messageId := none
  entries := []
  droppedEntries := 0
  retryCount := 0
  retryError := none
  reasoningItemId := none
  reasoningSummaryIndex := none
  reasoningSummary := ""
  reasoningCompleted := false
  planExplanation := none
  plan := []
  diffSummary := none
  webSearches := []
  droppedWebSearches := 0
  commentaryEntries := []
  commentaryDroppedEntries := 0
  nextSequence := 1
  reservedCommentarySequences := ∅
  collabEntries := []
  collabDroppedEntries := 0
  finalReply := none
  elapsedMs := none
  completed := false
  failed := false
  dirty := false
  sending := false
  inFlightRevision := none
  cleanupAfterDelivery := false

/-- `telegram_command_progress_snapshot`. -/
def snapshot : TelegramCommandProgressSnapshot where
  turnId := progress.turnId
  revision := progress.revision
  messageId := progress.messageId
  entries := progress.entries
  droppedEntries := progress.droppedEntries
  retryCount := progress.retryCount
  retryError := progress.retryError
  reasoningSummary := (if progress.reasoningCompleted then some progress.reasoningSummary else none).filter notBlank
  planExplanation := progress.planExplanation
  plan := progress.plan
  diffSummary := progress.diffSummary
  webSearches := progress.webSearches
  droppedWebSearches := progress.droppedWebSearches
  commentary := progress.commentaryEntries
  commentaryDroppedEntries := progress.commentaryDroppedEntries
  collab := if progress.collabEntries.isEmpty then none
    else some ⟨progress.collabEntries, progress.collabDroppedEntries, progress.completed⟩
  finalReply := progress.finalReply.filter notBlank
  elapsedMs := progress.elapsedMs
  completed := progress.completed
  failed := progress.failed

/-- `telegram_command_progress_has_content`. -/
def hasContent : Bool :=
  !progress.entries.isEmpty || progress.retryCount > 0
    || (progress.reasoningCompleted && notBlank progress.reasoningSummary)
    || progress.planExplanation.isSome || !progress.plan.isEmpty || progress.diffSummary.isSome
    || !progress.webSearches.isEmpty || !progress.commentaryEntries.isEmpty
    || progress.finalReply.any notBlank || !progress.collabEntries.isEmpty

def markChanged : TelegramCommandProgressState :=
  { progress with revision := saturatingAdd progress.revision 1, dirty := true }

def allocateSequence : TelegramCommandProgressState × Nat :=
  ({ progress with nextSequence := saturatingAdd progress.nextSequence 1 }, progress.nextSequence)

/-- `claim_next_telegram_command_progress_snapshot`. -/
def claimNextSnapshot : TelegramCommandProgressState × Option TelegramCommandProgressSnapshot :=
  if !progress.sending || progress.inFlightRevision.isSome || !progress.dirty then (progress, none)
  else
    let claimed := { progress with dirty := false, inFlightRevision := some progress.revision }
    (claimed, some claimed.snapshot)

end TelegramCommandProgressState

/-- Whether a reported status replaces the one that an agent has. -/
def collabStatusChanges (restart : Bool) (status : TelegramCollabProgressStatus) : TelegramCollabProgressStatus → Bool
  | current =>
    if current = status then false
    else if restart && status = .running then true
    else match current with
      | .running => true
      | .responded => status = .succeeded || status = .failed
      | .succeeded | .interrupted => status = .failed
      | .failed => false

namespace TelegramCollabProgressEntry

def withName (entry : TelegramCollabProgressEntry) (name : Option String) : TelegramCollabProgressEntry × Bool :=
  match name.filter notBlank with
  | none => (entry, false)
  | some name => if entry.name = name then (entry, false) else ({ entry with name := name }, true)

def withStatus (entry : TelegramCollabProgressEntry) (status : Option TelegramCollabProgressStatus)
    (restart : Bool) (timestamp : Nat) : TelegramCollabProgressEntry × Bool :=
  match status with
  | none => (entry, false)
  | some status =>
    if collabStatusChanges restart status entry.status then
      ({ entry with
        status := status
        startedAtMs := if status = .running then timestamp else entry.startedAtMs }, true)
    else (entry, false)

/-- Whether the detail shown so far belongs to a phase of the agent that has ended. -/
def clearsStaleDetail (entry : TelegramCollabProgressEntry) (status : Option TelegramCollabProgressStatus)
    (restart : Bool) : Bool :=
  status.any fun status =>
    (entry.status = status || collabStatusChanges restart status entry.status) &&
      (status = .succeeded || (restart && status = .running))

def withDetail (entry : TelegramCollabProgressEntry) (detail : Option String) (clearStaleDetail : Bool) :
    TelegramCollabProgressEntry × Bool :=
  match detail.filter notBlank with
  | some detail =>
    if entry.detail = some detail then (entry, false) else ({ entry with detail := some detail }, true)
  | none =>
    if clearStaleDetail && entry.detail.isSome then ({ entry with detail := none }, true) else (entry, false)

def update (entry : TelegramCollabProgressEntry) (update : TelegramCollabProgressUpdate) (timestamp : Nat) :
    TelegramCollabProgressEntry × Bool :=
  if timestamp < entry.updatedAtMs then (entry, false)
  else
    let named := entry.withName update.name
    let staged := named.1.withStatus update.status update.restart timestamp
    let clearStaleDetail := named.1.clearsStaleDetail update.status update.restart
    let detailed := staged.1.withDetail update.detail clearStaleDetail
    if named.2 || staged.2 || detailed.2 then
      ({ detailed.1 with
        updatedAtMs := max (max detailed.1.updatedAtMs timestamp) detailed.1.startedAtMs }, true)
    else (detailed.1, false)

end TelegramCollabProgressEntry

/-- `merge_telegram_collab_progress_updates`, with the number of the agents dropped and whether anything
changed. -/
def mergeTelegramCollabProgressUpdates (entries : List TelegramCollabProgressEntry) (dropped : Nat) :
    List TelegramCollabProgressUpdate → List TelegramCollabProgressEntry × Nat × Bool
  | [] => (entries, dropped, false)
  | update :: rest =>
    let timestamp := max update.occurredAtMs 1
    match entries.find? (·.agentId = update.agentId) with
    | some entry =>
      let updated := entry.update update timestamp
      let merged := mergeTelegramCollabProgressUpdates
        (entries.modify (entries.findIdx (·.agentId = update.agentId)) fun _ => updated.1) dropped rest
      (merged.1, merged.2.1, updated.2 || merged.2.2)
    | none =>
      if !update.createIfMissing then mergeTelegramCollabProgressUpdates entries dropped rest
      else match update.name.filter notBlank with
        | none => mergeTelegramCollabProgressUpdates entries dropped rest
        | some name =>
          let added : TelegramCollabProgressEntry :=
            ⟨update.agentId, name, update.status.getD .running, update.detail.filter notBlank, timestamp, timestamp⟩
          let kept := keepNewest telegramCollabProgressMaxAgents (entries ++ [added]) dropped
          let merged := mergeTelegramCollabProgressUpdates kept.1 kept.2 rest
          (merged.1, merged.2.1, true)

/-- The rows that one thread has in the maps of running turns and of progress messages. -/
structure ThreadProgress where
  currentTurn : Option String
  progress : Option TelegramCommandProgressState

namespace ThreadProgress

variable (r : ThreadProgress) (turnId : String)

def store (progress : TelegramCommandProgressState) : ThreadProgress := { r with progress := some progress }

def entry : TelegramCommandProgressState := r.progress.getD (.new turnId)

/-- The thread's entry, made anew where it has none or one of another turn. -/
def entryOfTurn : TelegramCommandProgressState :=
  if (r.entry turnId).turnId = turnId then r.entry turnId else .new turnId

def storeChanged (progress : TelegramCommandProgressState) (deliver : Bool) :
    ThreadProgress × Option TelegramCommandProgressSnapshot :=
  (r.store progress.markChanged, if deliver then some progress.markChanged.snapshot else none)

def upsertTelegramCommandProgress (entry : TelegramCommandProgressEntry) (deliverUpdate : Bool) :
    ThreadProgress × Option TelegramCommandProgressSnapshot :=
  let progress := r.entryOfTurn turnId
  if progress.completed then (r.store progress, none)
  else match progress.entries.find? (·.itemId = entry.itemId) with
    | some current =>
      let entry := { entry with sequence := current.sequence }
      if current = entry then (r.store progress, none)
      else r.storeChanged
        { progress with
          entries := progress.entries.modify (progress.entries.findIdx (·.itemId = entry.itemId)) fun _ => entry }
        (deliverUpdate || progress.messageId.isNone)
    | none =>
      let allocated := progress.allocateSequence
      let entry := { entry with sequence := allocated.2 }
      let kept := keepNewest telegramCommandProgressMaxEntries (progress.entries ++ [entry]) progress.droppedEntries
      r.storeChanged { allocated.1 with entries := kept.1, droppedEntries := kept.2 } true

def upsertTelegramWebSearchProgress (entry : TelegramWebSearchProgressEntry) :
    ThreadProgress × Option TelegramCommandProgressSnapshot :=
  if r.currentTurn ≠ some turnId then (r, none)
  else
    let progress := r.entryOfTurn turnId
    if progress.completed then (r.store progress, none)
    else match progress.webSearches.find? (·.itemId = entry.itemId) with
      | some current =>
        if current = entry then (r.store progress, none)
        else r.storeChanged
          { progress with
            webSearches :=
              progress.webSearches.modify (progress.webSearches.findIdx (·.itemId = entry.itemId)) fun _ => entry }
          true
      | none =>
        let kept := keepNewest telegramWebSearchMaxEntries (progress.webSearches ++ [entry]) progress.droppedWebSearches
        r.storeChanged { progress with webSearches := kept.1, droppedWebSearches := kept.2 } true

def recordTelegramRetry (error : Option String) : ThreadProgress × Option TelegramCommandProgressSnapshot :=
  if r.currentTurn ≠ some turnId then (r, none)
  else
    let progress := r.entryOfTurn turnId
    if progress.completed then (r.store progress, none)
    else r.storeChanged
      { progress with
        retryCount := saturatingAdd progress.retryCount 1
        retryError := (error.filter notBlank).or progress.retryError }
      true

def appendTelegramReasoningDelta (itemId : String) (summaryIndex : Int) (delta : String) : ThreadProgress :=
  if delta = "" || r.currentTurn ≠ some turnId then r
  else
    let progress := r.entry turnId
    if progress.turnId ≠ turnId || progress.completed then r.store progress
    else if progress.reasoningItemId ≠ some itemId then
      (r.storeChanged
        { progress with
          reasoningItemId := some itemId
          reasoningSummaryIndex := some summaryIndex
          reasoningSummary := appendBoundedText "" delta telegramReasoningMaxChars
          reasoningCompleted := false }
        false).1
    else if progress.reasoningSummaryIndex.any (summaryIndex < ·) then r.store progress
    else
      let summary :=
        if progress.reasoningSummaryIndex ≠ some summaryIndex then "" else progress.reasoningSummary
      (r.storeChanged
        { progress with
          reasoningSummaryIndex := some summaryIndex
          reasoningSummary := appendBoundedText summary delta telegramReasoningMaxChars }
        false).1

def completeTelegramReasoning (itemId : String) (summary : Option String) :
    ThreadProgress × Option TelegramCommandProgressSnapshot :=
  if r.currentTurn ≠ some turnId then (r, none)
  else match r.progress with
    | none => (r, none)
    | some progress =>
      if progress.turnId ≠ turnId || progress.completed then (r, none)
      else match summary.filter notBlank with
        | some summary =>
          let contentChanged := progress.reasoningItemId ≠ some itemId || progress.reasoningSummary ≠ summary
          let progress := { progress with
            reasoningItemId := some itemId, reasoningSummaryIndex := none, reasoningSummary := summary }
          if !contentChanged && progress.reasoningCompleted then (r.store progress, none)
          else r.storeChanged { progress with reasoningCompleted := true } true
        | none =>
          if progress.reasoningItemId ≠ some itemId || isBlank progress.reasoningSummary
              || progress.reasoningCompleted then (r, none)
          else r.storeChanged { progress with reasoningCompleted := true } true

def updateTelegramPlan (explanation : Option String) (plan : List TelegramPlanStep) (deliverUpdate : Bool) :
    ThreadProgress × Option TelegramCommandProgressSnapshot :=
  if r.currentTurn ≠ some turnId then (r, none)
  else
    let progress := r.entry turnId
    if progress.turnId ≠ turnId || progress.completed then (r.store progress, none)
    else
      let explanation := explanation.filter notBlank
      let plan := plan.take telegramPlanMaxSteps
      if progress.planExplanation = explanation && progress.plan = plan then (r.store progress, none)
      else
        let progress := { progress with planExplanation := explanation, plan := plan }
        if progress.messageId.isNone && !progress.hasContent then (r.store { progress with dirty := false }, none)
        else r.storeChanged progress deliverUpdate

def updateTelegramDiff (diffSummary : Option TelegramDiffSummary) (deliverUpdate : Bool) :
    ThreadProgress × Option TelegramCommandProgressSnapshot :=
  if r.currentTurn ≠ some turnId then (r, none)
  else
    let progress := r.entry turnId
    if progress.turnId ≠ turnId || progress.completed then (r.store progress, none)
    else
      let diffSummary := diffSummary.map limitTelegramDiffSummary
      if progress.diffSummary = diffSummary then (r.store progress, none)
      else r.storeChanged { progress with diffSummary := diffSummary } deliverUpdate

def completeTelegramFileChange (fallback : Option TelegramDiffSummary) :
    ThreadProgress × Option TelegramCommandProgressSnapshot :=
  if r.currentTurn ≠ some turnId then (r, none)
  else
    let progress := r.entry turnId
    if progress.turnId ≠ turnId || progress.completed then (r.store progress, none)
    else
      let progress := match progress.diffSummary, fallback with
        | none, some fallback => { progress with diffSummary := some (limitTelegramDiffSummary fallback) }.markChanged
        | _, _ => progress
      (r.store progress, if progress.dirty then some progress.snapshot else none)

def reserveCommentarySequence (itemId : String) : ThreadProgress × Nat :=
  let progress := r.entryOfTurn turnId
  match progress.commentaryEntries.find? (·.itemId = itemId) with
  | some existing => (r.store progress, existing.sequence)
  | none =>
    match progress.reservedCommentarySequences.lookup itemId with
    | some reserved => (r.store progress, reserved)
    | none =>
      let allocated := progress.allocateSequence
      (r.store { allocated.1 with
        reservedCommentarySequences := progress.reservedCommentarySequences.insert itemId allocated.2 }, allocated.2)

def upsertTelegramCommentaryProgress (itemId text : String) : ThreadProgress × Option TelegramCommandProgressSnapshot :=
  if r.currentTurn ≠ some turnId then (r, none)
  else
    let progress := r.entryOfTurn turnId
    if progress.completed then (r.store progress, none)
    else match progress.commentaryEntries.find? (·.itemId = itemId) with
      | some existing =>
        if existing.text = text then (r.store progress, none)
        else
          let entries := progress.commentaryEntries.modify
            (progress.commentaryEntries.findIdx (·.itemId = itemId)) fun entry => { entry with text := text }
          let kept := keepNewest telegramCommentaryMaxEntries entries progress.commentaryDroppedEntries
          r.storeChanged { progress with commentaryEntries := kept.1, commentaryDroppedEntries := kept.2 } true
      | none =>
        -- the sequence reserved when the item began to speak, or the next one
        let numbered := match progress.reservedCommentarySequences.lookup itemId with
          | some reserved =>
            ({ progress with reservedCommentarySequences := progress.reservedCommentarySequences.erase itemId }, reserved)
          | none => progress.allocateSequence
        let entries := progress.commentaryEntries ++ [⟨itemId, text, numbered.2⟩]
        let kept := keepNewest telegramCommentaryMaxEntries entries progress.commentaryDroppedEntries
        r.storeChanged { numbered.1 with commentaryEntries := kept.1, commentaryDroppedEntries := kept.2 } true

/-- The commentary entries of the turn that `keep` holds back are all that stay. -/
def retainCommentary (keep : TelegramCommentaryEntry → Bool) :
    ThreadProgress × Option TelegramCommandProgressSnapshot :=
  match r.progress with
  | none => (r, none)
  | some progress =>
    if progress.turnId ≠ turnId then (r, none)
    else
      let retained := progress.commentaryEntries.filter keep
      if retained.length = progress.commentaryEntries.length then (r, none)
      else r.storeChanged { progress with commentaryEntries := retained } true

def removeTelegramCommentaryProgress (itemId : String) : ThreadProgress × Option TelegramCommandProgressSnapshot :=
  r.retainCommentary turnId (·.itemId ≠ itemId)

def removeCommentaryMatchingText (text : String) : ThreadProgress × Option TelegramCommandProgressSnapshot :=
  r.retainCommentary turnId (RustText.trim ·.text ≠ RustText.trim text)

def upsertTelegramCollabTaskProgress (updates : List TelegramCollabProgressUpdate) :
    ThreadProgress × Option TelegramCommandProgressSnapshot :=
  if updates.isEmpty || r.currentTurn ≠ some turnId then (r, none)
  else
    let progress := r.entryOfTurn turnId
    if progress.completed then (r.store progress, none)
    else
      let merged := mergeTelegramCollabProgressUpdates progress.collabEntries progress.collabDroppedEntries updates
      let progress := { progress with collabEntries := merged.1, collabDroppedEntries := merged.2.1 }
      if !merged.2.2 then (r.store progress, none) else r.storeChanged progress true

def setTelegramCommandProgressFinalReply (text : String) (elapsedMs : Option Nat) : ThreadProgress × Bool :=
  match r.progress with
  | none => (r, false)
  | some progress =>
    if progress.turnId ≠ turnId then (r, false)
    else ((r.storeChanged { progress with finalReply := some text, elapsedMs := elapsedMs } false).1, true)

def finishTelegramCommandProgressWithOutcome (failed : Bool) (nowMs : Nat) :
    ThreadProgress × Option TelegramCommandProgressSnapshot :=
  match r.progress with
  | none => (r, none)
  | some progress =>
    if progress.turnId ≠ turnId || !progress.hasContent then (r, none)
    else
      let interrupted := progress.entries.any (·.status = .running)
      let interruptedCollab := progress.collabEntries.any (·.status = .running)
      let ended := { progress with
        entries := progress.entries.map fun entry =>
          if entry.status = .running then { entry with status := .interrupted } else entry
        collabEntries := progress.collabEntries.map fun entry =>
          if entry.status = .running then
            { entry with
              status := .interrupted
              updatedAtMs := max (max entry.updatedAtMs nowMs) entry.startedAtMs }
          else entry
        failed := progress.failed || failed }
      let ended := if !progress.completed || interrupted || interruptedCollab || failed
        then { ended with completed := true }.markChanged else ended
      (r.store ended, if ended.dirty then some ended.snapshot else none)

/-- The rows of the thread after `mark_turn_started`. -/
def markTurnStarted : ThreadProgress where
  currentTurn := some turnId
  progress := if r.progress.any (·.turnId ≠ turnId) then none else r.progress

/-- The rows of the thread after `mark_turn_completed`. -/
def markTurnCompleted (turnId : Option String) : ThreadProgress × Bool :=
  if turnId.isSome && r.currentTurn ≠ turnId then (r, false)
  else
    ({ currentTurn := none
       progress := r.progress.bind fun progress =>
        if progress.completed && progress.sending then some { progress with cleanupAfterDelivery := true }
        else none }, true)

def claimTelegramCommandProgressDelivery : ThreadProgress × Option TelegramCommandProgressSnapshot :=
  match r.progress with
  | none => (r, none)
  | some progress =>
    if progress.turnId ≠ turnId || progress.sending || !progress.dirty
        || (r.currentTurn ≠ some turnId && !progress.cleanupAfterDelivery) then (r, none)
    else
      let claimed := { progress with sending := true }.claimNextSnapshot
      (r.store claimed.1, claimed.2)

def telegramCommandProgressDeliveryIsCurrent (revision : Nat) : Bool :=
  r.progress.any fun progress =>
    progress.turnId = turnId && progress.sending && progress.inFlightRevision = some revision
      && (r.currentTurn = some turnId || progress.cleanupAfterDelivery)

def completeTelegramCommandProgressDelivery (revision : Nat) (messageId : String) :
    ThreadProgress × Option TelegramCommandProgressSnapshot :=
  match r.progress with
  | none => (r, none)
  | some progress =>
    if progress.turnId ≠ turnId || !progress.sending || progress.inFlightRevision ≠ some revision then (r, none)
    else
      let progress := { progress with messageId := some messageId, inFlightRevision := none }
      if progress.dirty then
        let claimed := progress.claimNextSnapshot
        (r.store claimed.1, claimed.2)
      else if progress.completed && progress.cleanupAfterDelivery then ({ r with progress := none }, none)
      else (r.store { progress with sending := false }, none)

def failTelegramCommandProgressDelivery (revision : Nat) : ThreadProgress × Bool :=
  match r.progress with
  | none => (r, false)
  | some progress =>
    if progress.turnId ≠ turnId || !progress.sending || progress.inFlightRevision ≠ some revision then (r, false)
    else
      let progress := { progress with inFlightRevision := none, dirty := true }
      if progress.completed then (r.store progress, true) else (r.store { progress with sending := false }, false)

def retryTelegramCommandProgressDelivery : ThreadProgress × Option TelegramCommandProgressSnapshot :=
  match r.progress with
  | none => (r, none)
  | some progress =>
    if progress.turnId ≠ turnId || !progress.sending || progress.inFlightRevision.isSome || !progress.dirty then
      (r, none)
    else
      let claimed := progress.claimNextSnapshot
      (r.store claimed.1, claimed.2)

end ThreadProgress

end MochiPort

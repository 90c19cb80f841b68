import MochiPort.CustomToolInput
import MochiPort.ResponseEvents
import MochiPort.ToolNames
import Mathlib.Data.List.Sort

namespace MochiPort

/-- What the converters take from elsewhere: a JSON parser and printer, and the ids that are generated one after
the other. -/
structure Externals where
  codec : JsonCodec
  itemId : Nat → String

structure ToolCallState where
  id : String
  target : ToolCallTarget
  arguments : String
  customEmittedInput : String
  itemId : String
  outputIndex : Nat
  deriving DecidableEq

/-- The state of a stream, with the ids generated and the events emitted so far. -/
structure ResponsesStreamState where
  hasStarted : Bool
  responseCreated : Bool
  messageItemStarted : Bool
  reasoningItemStarted : Bool
  reasoningSummaryPart : Bool
  contentPartStarted : Bool
  finished : Bool
  responseCompleted : Bool
  responseId : String
  model : String
  createdAt : Int
  outputIndex : Nat
  contentIndex : Nat
  sequenceNumber : Nat
  messageItemId : String
  messageOutputIndex : Nat
  reasoningItemId : String
  reasoningOutputIndex : Nat
  accumulatedText : String
  accumulatedReasoning : String
  completedOutput : List ResponseItem
  toolCalls : Table Nat ToolCallState
  usage : Option Usage
  finishReason : Option String
  toolNameMap : ToolNameMap
  generated : Nat
  emitted : List StreamEvent

def firstI64 (value : JsonValue) (keys : List String) : Option Int :=
  keys.findSome? fun key => (value.get key).bind JsonValue.asI64

def hasUsageTokenFields (usage : JsonValue) : Bool :=
  (firstI64 usage ["prompt_tokens", "completion_tokens", "total_tokens"]).isSome

def convertUsageValue (usage : JsonValue) : Option Usage :=
  if usage.asObject.isNone then none
  else if !hasUsageTokenFields usage then none
  else
    let input := (firstI64 usage ["prompt_tokens"]).getD 0
    let output := (firstI64 usage ["completion_tokens"]).getD 0
    let total := (firstI64 usage ["total_tokens"]).getD (i64Add input output)
    let cached := ((((usage.get "prompt_tokens_details").bind (·.get "cached_tokens")).bind JsonValue.asI64).or
      (firstI64 usage ["cached_tokens", "prompt_cache_hit_tokens"])).getD 0
    let reasoning :=
      (((usage.get "completion_tokens_details").bind (·.get "reasoning_tokens")).bind JsonValue.asI64).getD 0
    some {
      inputTokens := input
      outputTokens := output
      totalTokens := total
      inputTokensDetails := some { cachedTokens := cached }
      outputTokensDetails := some { reasoningTokens := reasoning } }

def inProgressToolItem (itemId callId : String) (target : ToolCallTarget) : ResponseItem :=
  match target.kind with
  | .toolSearch =>
    { itemType := .toolSearchCall, id := some itemId, callId := some callId, execution := some "client",
      arguments := some (.value (.object [])), status := some "in_progress" }
  | .custom =>
    { itemType := .customToolCall, id := some itemId, callId := some callId, name := some target.name,
      input := some "" }
  | .function =>
    { itemType := .functionCall, id := some itemId, callId := some callId, name := some target.name,
      arguments := some (.string ""), status := some "in_progress", nameSpace := target.nameSpace }

def completedToolItem (codec : JsonCodec) (itemId callId : String) (target : ToolCallTarget)
    (arguments : String) : ResponseItem :=
  match target.kind with
  | .toolSearch =>
    { itemType := .toolSearchCall, id := some itemId, callId := some callId, execution := some "client",
      arguments := some (.value ((codec.parse arguments).getD (.object []))), status := some "completed" }
  | .custom =>
    { itemType := .customToolCall, id := some itemId, callId := some callId, name := some target.name,
      input := some (completedCustomToolInput codec arguments) }
  | .function =>
    { itemType := .functionCall, id := some itemId, callId := some callId, name := some target.name,
      arguments := some (.string arguments), status := some "completed", nameSpace := target.nameSpace }

/-- The event for a fragment that the arguments already hold, and the call after it. -/
def toolDeltaEvent (codec : JsonCodec) (tc : ToolCallState) (rawDelta : String) :
    ToolCallState × Option ResponseEvent :=
  match tc.target.kind with
  | .custom =>
    let fullInput :=
      match partialCustomToolInput codec tc.arguments with
      | some input => some input
      | none => if (trimStartList tc.arguments.toList).head? ≠ some '\x7b' then some tc.arguments else none
    match fullInput with
    | none => (tc, none)
    | some input =>
      let delta :=
        if tc.customEmittedInput.toList <+: input.toList then
          String.ofList (input.toList.drop tc.customEmittedInput.toList.length)
        else input
      if delta = "" then (tc, none)
      else
        ({ tc with customEmittedInput := input },
          some (.customToolCallInputDelta tc.itemId tc.outputIndex delta))
  | .function => (tc, some (.functionCallArgumentsDelta tc.itemId tc.outputIndex rawDelta))
  | .toolSearch => (tc, none)

namespace ResponsesStreamState

/-- A new stream; `responseId` and `createdAt` are generated. -/
def new (responseId model : String) (createdAt : Int) (toolNameMap : ToolNameMap) : ResponsesStreamState where
  hasStarted := false
  responseCreated := false
  messageItemStarted := false
  reasoningItemStarted := false
  reasoningSummaryPart := false
  contentPartStarted := false
  finished := false
  responseCompleted := false
  responseId := responseId
  model := model
  createdAt := createdAt
  outputIndex := 0
  contentIndex := 0
  sequenceNumber := 0
  messageItemId := ""
  messageOutputIndex := 0
  reasoningItemId := ""
  reasoningOutputIndex := 0
  accumulatedText := ""
  accumulatedReasoning := ""
  completedOutput := []
  toolCalls := ∅
  usage := none
  finishReason := none
  toolNameMap := toolNameMap
  generated := 0
  emitted := []

def emit (s : ResponsesStreamState) (event : ResponseEvent) : ResponsesStreamState :=
  { s with sequenceNumber := s.sequenceNumber + 1, emitted := s.emitted ++ [⟨s.sequenceNumber, event⟩] }

def responseObject (s : ResponsesStreamState) (status : String) : ResponseObject where
  id := s.responseId
  objectType := "response"
  model := s.model
  createdAt := s.createdAt
  status := status
  output := s.completedOutput
  usage := s.usage
  error := none
  incompleteDetails :=
    if status = "incomplete" ∧ s.finishReason = some "length" then
      some (.object [("reason", .string "max_output_tokens")])
    else some .null

def emitResponseCreated (s : ResponsesStreamState) : ResponsesStreamState :=
  { s.emit (.created (s.responseObject "in_progress")) with responseCreated := true }

def emitResponseInProgress (s : ResponsesStreamState) : ResponsesStreamState :=
  s.emit (.inProgress (s.responseObject "in_progress"))

def emitResponseCompleted (s : ResponsesStreamState) : ResponsesStreamState :=
  let event :=
    if s.finishReason = some "length" then ResponseEvent.incomplete (s.responseObject "incomplete")
    else .completed (s.responseObject "completed")
  { s.emit event with responseCompleted := true }

def emitResponseFailed (s : ResponsesStreamState) (message : String) : ResponsesStreamState :=
  let error := JsonValue.object [("code", .string "upstream_stream_incomplete"), ("message", .string message)]
  { s.emit (.failed { s.responseObject "failed" with error := some error }) with responseCompleted := true }

def closeReasoningItem (s : ResponsesStreamState) : ResponsesStreamState :=
  if !s.reasoningItemStarted then s
  else
    let item : ResponseItem :=
      { itemType := .reasoning, id := some s.reasoningItemId, status := some "completed",
        summary := some [⟨"summary_text", s.accumulatedReasoning⟩] }
    let s := s.emit (.reasoningSummaryTextDone s.reasoningItemId s.reasoningOutputIndex s.accumulatedReasoning)
    let s := s.emit (.reasoningSummaryPartDone s.reasoningItemId s.reasoningOutputIndex s.accumulatedReasoning)
    let s := s.emit (.outputItemDone s.reasoningOutputIndex item)
    { s with
      completedOutput := s.completedOutput ++ [item]
      reasoningItemStarted := false
      reasoningSummaryPart := false
      reasoningItemId := ""
      reasoningOutputIndex := 0
      accumulatedReasoning := "" }

def closeContentPart (s : ResponsesStreamState) : ResponsesStreamState :=
  if !s.contentPartStarted then s
  else
    let s := s.emit (.outputTextDone s.messageItemId s.messageOutputIndex s.contentIndex s.accumulatedText)
    let s := s.emit (.contentPartDone s.messageItemId s.messageOutputIndex s.contentIndex
      (.outputText s.accumulatedText))
    { s with contentPartStarted := false }

def closeMessageItem (s : ResponsesStreamState) : ResponsesStreamState :=
  if !s.messageItemStarted then s
  else
    let s := s.closeContentPart
    let item : ResponseItem :=
      { itemType := .message, id := some s.messageItemId, role := some "assistant", status := some "completed",
        content := some (.parts [.outputText s.accumulatedText]) }
    let s := s.emit (.outputItemDone s.messageOutputIndex item)
    { s with
      completedOutput := s.completedOutput ++ [item]
      messageItemStarted := false
      messageItemId := ""
      messageOutputIndex := 0
      accumulatedText := "" }

def startReasoningItem (ext : Externals) (s : ResponsesStreamState) : ResponsesStreamState :=
  if s.reasoningItemStarted then s
  else
    let s := { s with
      reasoningItemId := ext.itemId s.generated
      generated := s.generated + 1
      reasoningOutputIndex := s.outputIndex }
    let s := s.emit (.outputItemAdded s.reasoningOutputIndex
      { itemType := .reasoning, id := some s.reasoningItemId, status := some "in_progress", summary := some [] })
    { s with reasoningItemStarted := true, outputIndex := s.outputIndex + 1 }

def startSummaryPart (s : ResponsesStreamState) : ResponsesStreamState :=
  if s.reasoningSummaryPart then s
  else
    { s.emit (.reasoningSummaryPartAdded s.reasoningItemId s.reasoningOutputIndex) with
      reasoningSummaryPart := true }

def handleReasoningDelta (ext : Externals) (s : ResponsesStreamState) (text : String) : ResponsesStreamState :=
  let s := ((s.closeMessageItem).startReasoningItem ext).startSummaryPart
  let s := { s with accumulatedReasoning := s.accumulatedReasoning ++ text }
  s.emit (.reasoningSummaryTextDelta s.reasoningItemId s.reasoningOutputIndex text)

def startMessageItem (ext : Externals) (s : ResponsesStreamState) : ResponsesStreamState :=
  if s.messageItemStarted then s
  else
    let s := { s with
      messageItemId := ext.itemId s.generated
      generated := s.generated + 1
      messageOutputIndex := s.outputIndex }
    let s := s.emit (.outputItemAdded s.messageOutputIndex
      { itemType := .message, id := some s.messageItemId, role := some "assistant",
        status := some "in_progress", content := some (.parts []) })
    { s with messageItemStarted := true, outputIndex := s.outputIndex + 1 }

def startContentPart (s : ResponsesStreamState) : ResponsesStreamState :=
  if s.contentPartStarted then s
  else
    { s.emit (.contentPartAdded s.messageItemId s.messageOutputIndex s.contentIndex) with
      contentPartStarted := true }

def handleContentDelta (ext : Externals) (s : ResponsesStreamState) (text : String) : ResponsesStreamState :=
  let s := ((s.closeReasoningItem).startMessageItem ext).startContentPart
  let s := { s with accumulatedText := s.accumulatedText ++ text }
  s.emit (.outputTextDelta s.messageItemId s.messageOutputIndex s.contentIndex text)

/-- The fields of a tool call entry that the stream reads. -/
def toolCallIndex (tc : JsonValue) : Nat := ((tc.get "index").bind JsonValue.asU64).getD 0

def toolCallFunction (tc : JsonValue) : JsonValue := (tc.get "function").getD .null

def toolCallId (tc : JsonValue) : String := ((tc.get "id").bind JsonValue.asStr).getD ""

def toolCallName (tc : JsonValue) : String := (((toolCallFunction tc).get "name").bind JsonValue.asStr).getD ""

def toolCallArguments (tc : JsonValue) : Option String :=
  (((toolCallFunction tc).get "arguments").bind JsonValue.asStr).filter (· ≠ "")

/-- Adds an item for the index of the entry, unless the index is open. -/
def startToolCall (ext : Externals) (s : ResponsesStreamState) (tc : JsonValue) : ResponsesStreamState :=
  if (s.toolCalls.lookup (toolCallIndex tc)).isSome then s
  else
    let s := (s.closeMessageItem).closeReasoningItem
    let target := s.toolNameMap.decode (toolCallName tc)
    let call : ToolCallState :=
      { id := toolCallId tc, target := target, arguments := "", customEmittedInput := "",
        itemId := ext.itemId s.generated, outputIndex := s.outputIndex }
    let s := { s with generated := s.generated + 1 }
    let s := s.emit (.outputItemAdded s.outputIndex (inProgressToolItem call.itemId call.id target))
    { s with toolCalls := s.toolCalls.insert (toolCallIndex tc) call, outputIndex := s.outputIndex + 1 }

def extendToolCall (codec : JsonCodec) (s : ResponsesStreamState) (index : Nat) (arguments : String) :
    ResponsesStreamState :=
  match s.toolCalls.lookup index with
  | none => s
  | some call =>
    let (call, event) := toolDeltaEvent codec { call with arguments := call.arguments ++ arguments } arguments
    let s := { s with toolCalls := s.toolCalls.insert index call }
    match event with
    | some event => s.emit event
    | none => s

def handleToolCallDelta (ext : Externals) (s : ResponsesStreamState) (tc : JsonValue) : ResponsesStreamState :=
  let s := s.startToolCall ext tc
  match toolCallArguments tc with
  | some arguments => s.extendToolCall ext.codec (toolCallIndex tc) arguments
  | none => s

def closeToolCall (codec : JsonCodec) (s : ResponsesStreamState) (index : Nat) : ResponsesStreamState :=
  match s.toolCalls.lookup index with
  | none => s
  | some tc =>
    let item := completedToolItem codec tc.itemId tc.id tc.target tc.arguments
    let s := { s with toolCalls := s.toolCalls.erase index }
    let s :=
      match tc.target.kind with
      | .custom => s.emit (.customToolCallInputDone tc.itemId tc.outputIndex (item.input.getD ""))
      | .function => s.emit (.functionCallArgumentsDone tc.itemId tc.outputIndex tc.target.name tc.arguments)
      | .toolSearch => s
    let s := s.emit (.outputItemDone tc.outputIndex item)
    { s with completedOutput := s.completedOutput ++ [item] }

def closeToolCalls (codec : JsonCodec) (s : ResponsesStreamState) : ResponsesStreamState :=
  (s.toolCalls.keys.insertionSort (· ≤ ·)).foldl (closeToolCall codec) s

def finishOpenItems (codec : JsonCodec) (s : ResponsesStreamState) : ResponsesStreamState :=
  { ((s.closeReasoningItem).closeMessageItem).closeToolCalls codec with finished := true }

def handleFinish (codec : JsonCodec) (s : ResponsesStreamState) : ResponsesStreamState :=
  let s := s.finishOpenItems codec
  if s.usage.isSome then s.emitResponseCompleted else s

/-- The first chunk names the response and announces it. -/
def handleStart (s : ResponsesStreamState) (chunk : JsonValue) : ResponsesStreamState :=
  if s.hasStarted then s
  else
    let s := { s with
      hasStarted := true
      responseId := ((chunk.get "id").bind JsonValue.asStr).getD s.responseId
      model := ((chunk.get "model").bind JsonValue.asStr).getD s.model
      createdAt := ((chunk.get "created").bind JsonValue.asI64).getD s.createdAt }
    (s.emitResponseCreated).emitResponseInProgress

def chunkChoice (chunk : JsonValue) : Option JsonValue :=
  ((chunk.get "choices").bind JsonValue.asArray).bind List.head?

def chunkUsage (chunk : JsonValue) : Option Usage := (chunk.get "usage").bind convertUsageValue

def choiceDelta (choice : JsonValue) : JsonValue := (choice.get "delta").getD .null

def deltaReasoning (delta : JsonValue) : Option String :=
  ((delta.get "reasoning_content").bind JsonValue.asStr).filter (· ≠ "")

def deltaContent (delta : JsonValue) : Option String :=
  ((delta.get "content").bind JsonValue.asStr).filter (· ≠ "")

def deltaToolCalls (delta : JsonValue) : List JsonValue :=
  ((delta.get "tool_calls").bind JsonValue.asArray).getD []

def choiceFinishReason (choice : JsonValue) : Option String :=
  (((choice.get "finish_reason").bind JsonValue.asStr).map RustText.trim).filter (· ≠ "")

def handleUsage (s : ResponsesStreamState) (usage : Option Usage) : ResponsesStreamState :=
  match usage with
  | none => s
  | some usage =>
    let s := { s with usage := some usage }
    if s.finished && !s.responseCompleted then s.emitResponseCompleted else s

def handleDelta (ext : Externals) (s : ResponsesStreamState) (delta : JsonValue) : ResponsesStreamState :=
  let s :=
    match deltaReasoning delta with
    | some reasoning => s.handleReasoningDelta ext reasoning
    | none => s
  let s :=
    match deltaContent delta with
    | some content => s.handleContentDelta ext content
    | none => s
  (deltaToolCalls delta).foldl (handleToolCallDelta ext) s

def handleFinishReason (codec : JsonCodec) (s : ResponsesStreamState) (reason : Option String) :
    ResponsesStreamState :=
  match reason with
  | some reason => { s with finishReason := some reason }.handleFinish codec
  | none => s

def processChunk (ext : Externals) (s : ResponsesStreamState) (chunk : JsonValue) : ResponsesStreamState :=
  let s := s.handleStart chunk
  match chunkChoice chunk with
  | none => s.handleUsage (chunkUsage chunk)
  | some choice =>
    let s := s.handleDelta ext (choiceDelta choice)
    let s := s.handleFinishReason ext.codec (choiceFinishReason choice)
    s.handleUsage (chunkUsage chunk)

/-- The upstream sent `[DONE]`. -/
def handleDone (codec : JsonCodec) (s : ResponsesStreamState) : ResponsesStreamState :=
  if !s.hasStarted then s
  else
    let s := if !s.finished then s.handleFinish codec else s
    if !s.responseCompleted then s.emitResponseCompleted else s

/-- The upstream body ended without `[DONE]`: without a `finish_reason` the answer was cut short. -/
def handleStreamEnded (codec : JsonCodec) (s : ResponsesStreamState) : ResponsesStreamState :=
  if !s.hasStarted then s
  else if s.finishReason.isNone && !s.responseCompleted then
    (s.finishOpenItems codec).emitResponseFailed "upstream stream ended before the response completed"
  else s.handleDone codec

end ResponsesStreamState

inductive StreamEnd where
  | done
  | ended
  deriving DecidableEq

def ResponsesStreamState.handleEnd (codec : JsonCodec) (s : ResponsesStreamState) : StreamEnd → ResponsesStreamState
  | .done => s.handleDone codec
  | .ended => s.handleStreamEnded codec

end MochiPort

import MochiPort.AnthropicResponses
import MochiPort.EncryptedContent

namespace MochiPort

structure StreamAnnotation where
  value : JsonValue
  pendingEndIndex : Bool
  deriving DecidableEq

structure StreamMessageItem where
  itemId : String
  outputIndex : Nat
  text : String
  contentPartStarted : Bool
  annotations : List StreamAnnotation
  deriving DecidableEq

structure StreamReasoningItem where
  itemId : String
  outputIndex : Nat
  text : String
  summaryPartStarted : Bool
  encryptedContent : Option String
  kind : AnthropicEncryptedContentKind
  deriving DecidableEq

structure AnthropicWebSearchBlockState where
  itemId : String
  outputIndex : Option Nat
  callId : String
  input : JsonValue
  arguments : String
  result : Option JsonValue
  closeOnBlockStop : Bool
  deriving DecidableEq

/-- The state of a stream, with the ids generated and the events emitted so far. -/
structure AnthropicStreamState where
  hasStarted : Bool
  responseCompleted : Bool
  responseId : String
  model : String
  createdAt : Int
  sequenceNumber : Nat
  outputIndex : Nat
  messageItem : Option StreamMessageItem
  reasoningItem : Option StreamReasoningItem
  contentBlocks : Table Nat ToolCallState
  webSearchBlocks : Table Nat AnthropicWebSearchBlockState
  completedOutput : List ResponseItem
  usage : Option Usage
  stopReason : Option String
  toolNameMap : ToolNameMap
  profile : AnthropicProviderProfile
  glmPendingText : Option String
  generated : Nat
  emitted : List StreamEvent

/-- The item of a search; what is searched for is told when the search has ended. -/
def webSearchItem (itemId callId status : String) (input : JsonValue) : ResponseItem where
  itemType := .webSearchCall
  id := some itemId
  callId := some callId
  status := some status
  action := if status ≠ "in_progress" then some (webSearchAction (webSearchInputQuery input)) else none

def convertAnthropicStreamUsage (usage : JsonValue) : Option Usage :=
  if usage.asObject.isNone then none else some (convertAnthropicUsageValue usage)

/-- A difference of `i64` values, cut off at the bounds. -/
def i64SaturatingSub (a b : Int) : Int := max (-0x8000000000000000) (min (a - b) 0x7fffffffffffffff)

def inputDetail (usage : Usage) (field : InputTokensDetails → Int) : Int :=
  (usage.inputTokensDetails.map field).getD 0

def uncachedInputTokens (usage : Usage) : Int :=
  i64SaturatingSub (i64SaturatingSub usage.inputTokens (inputDetail usage (·.cachedTokens)))
    (inputDetail usage (·.cacheCreationTokens))

def mergeCount (current value : Int) : Int := if value ≠ 0 then value else current

def mergeInputDetails (existing usage : Option InputTokensDetails) : Option InputTokensDetails :=
  match existing, usage with
  | some e, some u => some
    { cachedTokens := mergeCount e.cachedTokens u.cachedTokens
      cacheCreationTokens := mergeCount e.cacheCreationTokens u.cacheCreationTokens
      cacheCreation5mTokens := mergeCount e.cacheCreation5mTokens u.cacheCreation5mTokens
      cacheCreation1hTokens := mergeCount e.cacheCreation1hTokens u.cacheCreation1hTokens }
  | none, u => u
  | e, none => e

def mergeOutputDetails (existing usage : Option OutputTokensDetails) : Option OutputTokensDetails :=
  match existing, usage with
  | some e, some u => some ⟨mergeCount e.reasoningTokens u.reasoningTokens⟩
  | none, u => u
  | e, none => e

/-- The input tokens that were not cached and the parts of the cache are merged independently. -/
def mergeAnthropicUsage (existing usage : Usage) : Usage :=
  let existingUncached := uncachedInputTokens existing
  let incomingUncached := uncachedInputTokens usage
  let details := mergeInputDetails existing.inputTokensDetails usage.inputTokensDetails
  let uncached := if incomingUncached ≠ 0 || existingUncached = 0 then incomingUncached else existingUncached
  let input := i64Add (i64Add uncached ((details.map (·.cachedTokens)).getD 0))
    ((details.map (·.cacheCreationTokens)).getD 0)
  let output := mergeCount existing.outputTokens usage.outputTokens
  { inputTokens := input
    outputTokens := output
    totalTokens := i64Add input output
    inputTokensDetails := details
    outputTokensDetails := mergeOutputDetails existing.outputTokensDetails usage.outputTokensDetails }

namespace AnthropicStreamState

/-- A new stream; `responseId` and `createdAt` are generated. -/
def new (responseId model : String) (createdAt : Int) (toolNameMap : ToolNameMap)
    (profile : AnthropicProviderProfile) : AnthropicStreamState where
  hasStarted := false
  responseCompleted := false
  responseId := responseId
  model := model
  createdAt := createdAt
  sequenceNumber := 0
  outputIndex := 0
  messageItem := none
  reasoningItem := none
  contentBlocks := ∅
  webSearchBlocks := ∅
  completedOutput := []
  usage := none
  stopReason := none
  toolNameMap := toolNameMap
  profile := profile
  glmPendingText := none
  generated := 0
  emitted := []

/-- Takes a sequence number without an event. -/
def skipSeq (s : AnthropicStreamState) : AnthropicStreamState :=
  { s with sequenceNumber := s.sequenceNumber + 1 }

def emit (s : AnthropicStreamState) (event : ResponseEvent) : AnthropicStreamState :=
  { s with sequenceNumber := s.sequenceNumber + 1, emitted := s.emitted ++ [⟨s.sequenceNumber, event⟩] }

/-- An event of a part whose first event comes before it; without it, its number stays unused. -/
def emitInPart (s : AnthropicStreamState) (started : Bool) (opening event : ResponseEvent) : AnthropicStreamState :=
  (if started then s.skipSeq else s.emit opening).emit event

def responseObject (s : AnthropicStreamState) (status : String) : ResponseObject where
  id := s.responseId
  objectType := "response"
  model := s.model
  createdAt := s.createdAt
  status := status
  output := s.completedOutput
  usage := s.usage
  error := none
  incompleteDetails :=
    if status = "incomplete" then (incompleteDetailsForStopReason s.stopReason).or (some .null) else some .null

def emitResponseCreated (s : AnthropicStreamState) : AnthropicStreamState :=
  s.emit (.created (s.responseObject "in_progress"))

def emitResponseInProgress (s : AnthropicStreamState) : AnthropicStreamState :=
  s.emit (.inProgress (s.responseObject "in_progress"))

def emitResponseCompleted (s : AnthropicStreamState) : AnthropicStreamState :=
  let event :=
    if s.stopReason = some "max_tokens" then ResponseEvent.incomplete (s.responseObject "incomplete")
    else .completed (s.responseObject "completed")
  { s.emit event with responseCompleted := true }

def mergeUsage (s : AnthropicStreamState) (usage : Option Usage) : AnthropicStreamState :=
  match usage with
  | none => s
  | some usage =>
    match s.usage with
    | none => { s with usage := some usage }
    | some existing => { s with usage := some (mergeAnthropicUsage existing usage) }

def ensureStarted (s : AnthropicStreamState) : AnthropicStreamState :=
  if s.hasStarted then s
  else
    let s := { s with hasStarted := true }
    (s.emitResponseCreated).emitResponseInProgress

def handleMessageStart (s : AnthropicStreamState) (event : JsonValue) : AnthropicStreamState :=
  if s.hasStarted then s
  else
    let message := (event.get "message").getD event
    let s := { s with
      hasStarted := true
      responseId := (stringMember message "id").getD s.responseId
      model := (stringMember message "model").getD s.model }
    let s := s.mergeUsage ((message.get "usage").bind convertAnthropicStreamUsage)
    (s.emitResponseCreated).emitResponseInProgress

def handleMessageDelta (s : AnthropicStreamState) (event : JsonValue) : AnthropicStreamState :=
  let s := { s with stopReason := ((event.get "delta").bind (stringMember · "stop_reason")).or s.stopReason }
  s.mergeUsage ((event.get "usage").bind convertAnthropicStreamUsage)

def addItem (ext : Externals) (s : AnthropicStreamState) (item : ResponseItem) : AnthropicStreamState :=
  let s := s.emit (.outputItemAdded s.outputIndex { item with id := some (ext.itemId s.generated) })
  { s with outputIndex := s.outputIndex + 1, generated := s.generated + 1 }

def finishItem (s : AnthropicStreamState) (outputIndex : Nat) (item : ResponseItem) : AnthropicStreamState :=
  let s := s.emit (.outputItemDone outputIndex item)
  { s with completedOutput := s.completedOutput ++ [item] }

def closeReasoningItem (s : AnthropicStreamState) : AnthropicStreamState :=
  match s.reasoningItem with
  | none => s
  | some item =>
    let s := { s with reasoningItem := none }
    let s :=
      if item.kind = .thinking && item.summaryPartStarted then
        (s.emit (.reasoningSummaryTextDone item.itemId item.outputIndex item.text)).emit
          (.reasoningSummaryPartDone item.itemId item.outputIndex item.text)
      else s
    s.finishItem item.outputIndex
      { itemType := .reasoning, id := some item.itemId, status := some "completed",
        summary := if item.kind = .thinking then
          some (if item.text = "" then [] else [⟨"summary_text", item.text⟩]) else none
        encryptedContent := item.encryptedContent }

def ensureReasoningItem (ext : Externals) (s : AnthropicStreamState) (kind : AnthropicEncryptedContentKind) :
    AnthropicStreamState :=
  if s.reasoningItem.isSome then s
  else
    let item : StreamReasoningItem :=
      { itemId := ext.itemId s.generated, outputIndex := s.outputIndex, text := "", summaryPartStarted := false,
        encryptedContent := none, kind := kind }
    let s := s.addItem ext
      { itemType := .reasoning, status := some "in_progress",
        summary := if kind = .thinking then some [] else none }
    { s with reasoningItem := some item }

def handleThinkingDelta (ext : Externals) (s : AnthropicStreamState) (text : String) : AnthropicStreamState :=
  if text = "" then s
  else
    let s := s.ensureReasoningItem ext .thinking
    match s.reasoningItem with
    | none => s.skipSeq.skipSeq
    | some item =>
      let s := { s with reasoningItem := some { item with summaryPartStarted := true, text := item.text ++ text } }
      s.emitInPart item.summaryPartStarted (.reasoningSummaryPartAdded item.itemId item.outputIndex)
        (.reasoningSummaryTextDelta item.itemId item.outputIndex text)

/-- The state of a block is kept with the item that is open, or with a new one of its kind. -/
def keepReasoningState (ext : Externals) (s : AnthropicStreamState) (kind : AnthropicEncryptedContentKind)
    (content : String) : AnthropicStreamState :=
  if content = "" then s
  else
    let s := s.ensureReasoningItem ext kind
    { s with reasoningItem := s.reasoningItem.map fun item => { item with encryptedContent := some content } }

def handleThinkingSignature (ext : Externals) (s : AnthropicStreamState) (signature : String) : AnthropicStreamState :=
  s.keepReasoningState ext .thinking signature

def handleRedactedThinking (ext : Externals) (s : AnthropicStreamState) (data : Option String) : AnthropicStreamState :=
  s.keepReasoningState ext .redactedThinking (data.getD "")

def ensureMessageItem (ext : Externals) (s : AnthropicStreamState) : AnthropicStreamState :=
  if s.messageItem.isSome then s
  else
    let item : StreamMessageItem :=
      { itemId := ext.itemId s.generated, outputIndex := s.outputIndex, text := "", contentPartStarted := false,
        annotations := [] }
    let s := s.addItem ext
      { itemType := .message, role := some "assistant", status := some "in_progress",
        content := some (.parts []) }
    { s with messageItem := some item }

def StreamAnnotation.endAt (endIndex : Nat) (noted : StreamAnnotation) : StreamAnnotation :=
  if noted.pendingEndIndex then
    { noted with
      value := match noted.value with
        | .object fields => .object (insertField "end_index" (.number (.int endIndex)) fields)
        | value => value }
  else noted

def emitMessageText (ext : Externals) (s : AnthropicStreamState) (text : String) : AnthropicStreamState :=
  let s := s.ensureMessageItem ext
  match s.messageItem with
  | none => s.skipSeq.skipSeq
  | some item =>
    let grown := { item with
      contentPartStarted := true
      text := item.text ++ text
      annotations := item.annotations.map fun noted => StreamAnnotation.endAt (item.text ++ text).length noted }
    let s := { s with messageItem := some grown }
    s.emitInPart item.contentPartStarted (.contentPartAdded item.itemId item.outputIndex 0)
      (.outputTextDelta item.itemId item.outputIndex 0 text)

def handleTextDelta (ext : AnthropicConverters) (s : AnthropicStreamState) (text : String) : AnthropicStreamState :=
  if text = "" then s
  else if s.profile = .glmAnthropic then
    let (emit, keep) := ext.splitStreamable (s.glmPendingText.getD "" ++ text)
    let s := { s with glmPendingText := some keep }
    if emit ≠ "" then s.emitMessageText ext.toExternals emit else s
  else s.emitMessageText ext.toExternals text

def handleCitationDelta (ext : Externals) (s : AnthropicStreamState) (citation : JsonValue) : AnthropicStreamState :=
  let startIndex := (s.messageItem.map fun item => item.text.length).getD 0
  match convertAnthropicCitationAt citation startIndex startIndex with
  | none => s
  | some value =>
    let s := s.ensureMessageItem ext
    match s.messageItem with
    | none => s.skipSeq.skipSeq
    | some item =>
      let noted := { item with
        contentPartStarted := true
        annotations := item.annotations ++ [⟨value, true⟩] }
      let s := { s with messageItem := some noted }
      s.emitInPart item.contentPartStarted (.contentPartAdded item.itemId item.outputIndex 0)
        (.outputTextAnnotationAdded item.itemId item.outputIndex item.annotations.length value)

def closeMessageItem (s : AnthropicStreamState) : AnthropicStreamState :=
  match s.messageItem with
  | none => s
  | some item =>
    let part : ContentPart :=
      { ContentPart.outputText item.text with annotations := some (item.annotations.map StreamAnnotation.value) }
    let s := { s with messageItem := none }
    let s :=
      if item.contentPartStarted then
        (s.emit (.outputTextDone item.itemId item.outputIndex 0 item.text)).emit
          (.contentPartDone item.itemId item.outputIndex 0 part)
      else s
    s.finishItem item.outputIndex
      { itemType := .message, id := some item.itemId, role := some "assistant", status := some "completed",
        content := some (.parts [part]) }

def flushGlmPendingText (ext : AnthropicConverters) (s : AnthropicStreamState) : AnthropicStreamState :=
  match s.glmPendingText with
  | none => s
  | some text =>
    let s := { s with glmPendingText := none }
    let s :=
      match ext.cleanPrivateWebSearchText text with
      | some cleaned => s.emitMessageText ext.toExternals cleaned
      | none => s
    s.closeMessageItem

def blockInput (codec : JsonCodec) (input : JsonValue) : String :=
  if input = .null ∨ input = .object [] then "" else codec.print input

def startToolBlock (ext : Externals) (s : AnthropicStreamState) (index : Nat) (block : JsonValue) :
    AnthropicStreamState :=
  let s := s.closeReasoningItem.closeMessageItem
  if (s.contentBlocks.lookup index).isSome then s
  else
    let callId := (stringMember block "id").getD ""
    let target := s.toolNameMap.decode ((stringMember block "name").getD "")
    let state : ToolCallState :=
      { id := callId, target := target, arguments := ((block.get "input").map (blockInput ext.codec)).getD "",
        customEmittedInput := "", itemId := ext.itemId s.generated, outputIndex := s.outputIndex }
    let s := s.addItem ext (inProgressToolItem state.itemId callId target)
    { s with contentBlocks := s.contentBlocks.insert index state }

/-- The call of an index with a fragment of its arguments. -/
def handleToolDelta (codec : JsonCodec) (s : AnthropicStreamState) (index : Nat) (partialJson : String) :
    AnthropicStreamState :=
  if partialJson = "" then s
  else
    match s.contentBlocks.lookup index with
    | none => s
    | some state =>
      let (state, event) :=
        toolDeltaEvent codec { state with arguments := state.arguments ++ partialJson } partialJson
      let s := { s with contentBlocks := s.contentBlocks.insert index state }
      match event with
      | some event => s.emit event
      | none => s

def closeToolBlock (codec : JsonCodec) (s : AnthropicStreamState) (index : Nat) : AnthropicStreamState :=
  match s.contentBlocks.lookup index with
  | none => s
  | some state =>
    let item := completedToolItem codec state.itemId state.id state.target state.arguments
    let s := { s with contentBlocks := s.contentBlocks.erase index }
    let s :=
      match state.target.kind with
      | .custom => s.emit (.customToolCallInputDone state.itemId state.outputIndex (item.input.getD ""))
      | .function =>
        s.emit (.functionCallArgumentsDone state.itemId state.outputIndex state.target.name state.arguments)
      | .toolSearch => s
    s.finishItem state.outputIndex item

/-- A search with a query is announced; its index is the next one. -/
def emitWebSearchAddedIfReady (s : AnthropicStreamState) (itemId callId : String) (input : JsonValue) :
    AnthropicStreamState × Option Nat :=
  if webSearchInputQuery input = "" then (s, none)
  else
    let outputIndex := s.outputIndex
    let s := { s with outputIndex := s.outputIndex + 1 }
    let s := s.emit (.outputItemAdded outputIndex (webSearchItem itemId callId "in_progress" input))
    let s := s.emit (.webSearchCallInProgress itemId outputIndex)
    (s.emit (.webSearchCallSearching itemId outputIndex), some outputIndex)

def isUnmappedWebSearchToolUse (s : AnthropicStreamState) (block : JsonValue) : Bool :=
  let name := (stringMember block "name").getD ""
  name = "WebSearch" || MochiPort.isUnmappedWebSearchToolUse name s.toolNameMap s.profile

def startServerToolBlock (ext : Externals) (s : AnthropicStreamState) (index : Nat) (block : JsonValue) :
    AnthropicStreamState :=
  let s := s.closeReasoningItem.closeMessageItem
  let name := (stringMember block "name").getD ""
  if (s.webSearchBlocks.lookup index).isSome then s
  else if name ≠ "WebSearch" ∧ s.profile.isWebSearchServerTool name = false then s
  else
    let input := (block.get "input").getD (.object [])
    let callId := (stringMember block "id").getD ""
    let (itemId, generated) :=
      if callId = "" then (ext.itemId s.generated, s.generated + 1) else (callId, s.generated)
    let (s, outputIndex) := { s with generated := generated }.emitWebSearchAddedIfReady itemId callId input
    let state : AnthropicWebSearchBlockState :=
      { itemId := itemId, outputIndex := outputIndex, callId := callId, input := input,
        arguments := blockInput ext.codec input, result := none,
        closeOnBlockStop := stringMember block "type" = some "tool_use" }
    { s with webSearchBlocks := s.webSearchBlocks.insert index state }

def handleWebSearchDelta (codec : JsonCodec) (s : AnthropicStreamState) (index : Nat) (partialJson : String) :
    AnthropicStreamState :=
  if partialJson = "" then s
  else
    match s.webSearchBlocks.lookup index with
    | none => s
    | some state =>
      let arguments := state.arguments ++ partialJson
      let state := { state with arguments := arguments, input := (codec.parse arguments).getD state.input }
      let (s, outputIndex) :=
        if state.outputIndex.isNone then s.emitWebSearchAddedIfReady state.itemId state.callId state.input
        else (s, state.outputIndex)
      { s with webSearchBlocks := s.webSearchBlocks.insert index { state with outputIndex := outputIndex } }

/-- The search is done, unless it has no query. -/
def closeWebSearchBlock (codec : JsonCodec) (s : AnthropicStreamState) (index : Nat) : AnthropicStreamState :=
  match s.webSearchBlocks.lookup index with
  | none => s
  | some state =>
    let s := { s with webSearchBlocks := s.webSearchBlocks.erase index }
    let failed := ((state.result.bind (·.get "is_error")).bind JsonValue.asBool).getD false
    let input :=
      if state.input = .object [] ∧ state.arguments ≠ "" then (codec.parse state.arguments).getD state.input
      else state.input
    let (s, outputIndex) :=
      if state.outputIndex.isNone then s.emitWebSearchAddedIfReady state.itemId state.callId input
      else (s, state.outputIndex)
    match outputIndex with
    | none => s
    | some outputIndex =>
      let s := if failed then s else s.emit (.webSearchCallCompleted state.itemId outputIndex)
      s.finishItem outputIndex
        (webSearchItem state.itemId state.callId (if failed then "failed" else "completed") input)

/-- The search that a result belongs to: that of the block's index, or one with the id. -/
def webSearchOfResult (s : AnthropicStreamState) (index : Nat) (toolUseId : Option String) : Option Nat :=
  if (s.webSearchBlocks.lookup index).isSome then some index
  else
    toolUseId.bind fun toolUseId =>
      (s.webSearchBlocks.entries.find? fun entry => entry.2.callId = toolUseId).map Sigma.fst

def attachWebSearchResult (codec : JsonCodec) (s : AnthropicStreamState) (index : Nat) (block : JsonValue) :
    AnthropicStreamState :=
  let result := JsonValue.object
    [("type", .string "web_search_tool_result"), ("tool_use_id", (block.get "tool_use_id").getD .null),
      ("content", (block.get "content").getD .null), ("is_error", (block.get "is_error").getD (.bool false))]
  match s.webSearchOfResult index (stringMember block "tool_use_id") with
  | none => s
  | some index =>
    match s.webSearchBlocks.lookup index with
    | none => s
    | some state =>
      { s with webSearchBlocks := s.webSearchBlocks.insert index { state with result := some result } }
        |>.closeWebSearchBlock codec index

def closeWebSearchToolUseBlock (codec : JsonCodec) (s : AnthropicStreamState) (index : Nat) : AnthropicStreamState :=
  if ((s.webSearchBlocks.lookup index).map (·.closeOnBlockStop)).getD false then s.closeWebSearchBlock codec index
  else s

/-- Closes what is open, each kind in the order of the block indices. -/
def closeOpenItems (ext : AnthropicConverters) (s : AnthropicStreamState) : AnthropicStreamState :=
  let s := ((s.closeReasoningItem).flushGlmPendingText ext).closeMessageItem
  let s := (s.contentBlocks.keys.insertionSort (· ≤ ·)).foldl (closeToolBlock ext.codec) s
  (s.webSearchBlocks.keys.insertionSort (· ≤ ·)).foldl (closeWebSearchBlock ext.codec) s

def handleDone (ext : AnthropicConverters) (s : AnthropicStreamState) : AnthropicStreamState :=
  if !s.hasStarted then s
  else
    let s := s.closeOpenItems ext
    if !s.responseCompleted then s.emitResponseCompleted else s

def blockIndex (event : JsonValue) : Nat := ((event.get "index").bind JsonValue.asU64).getD 0

def startTextBlock (ext : AnthropicConverters) (s : AnthropicStreamState) (block : JsonValue) : AnthropicStreamState :=
  let s := s.closeReasoningItem
  let s :=
    if s.profile = .glmAnthropic then { s with glmPendingText := some (s.glmPendingText.getD "") }
    else s.ensureMessageItem ext.toExternals
  let s := (((block.get "citations").bind JsonValue.asArray).getD []).foldl
    (handleCitationDelta ext.toExternals) s
  s.handleTextDelta ext ((stringMember block "text").getD "")

def handleContentBlockStart (ext : AnthropicConverters) (s : AnthropicStreamState) (event : JsonValue) :
    AnthropicStreamState :=
  let s := s.ensureStarted
  let index := blockIndex event
  let block := (event.get "content_block").getD .null
  match stringMember block "type" with
  | some "text" => s.startTextBlock ext block
  | some "tool_use" =>
    if s.isUnmappedWebSearchToolUse block then s.startServerToolBlock ext.toExternals index block
    else s.startToolBlock ext.toExternals index block
  | some "server_tool_use" => s.startServerToolBlock ext.toExternals index block
  | some "thinking" =>
    s.closeReasoningItem.handleThinkingDelta ext.toExternals ((stringMember block "thinking").getD "")
  | some "redacted_thinking" =>
    s.closeReasoningItem.handleRedactedThinking ext.toExternals (stringMember block "data")
  | some "web_search_tool_result" => s.attachWebSearchResult ext.codec index block
  | some "tool_result" =>
    if s.profile = .glmAnthropic then s.attachWebSearchResult ext.codec index block else s
  | _ => s

/-- A fragment of an input goes to the search or to the call of its index. -/
def handleInputDelta (codec : JsonCodec) (s : AnthropicStreamState) (index : Nat) (partialJson : String) :
    AnthropicStreamState :=
  if (s.webSearchBlocks.lookup index).isSome then s.handleWebSearchDelta codec index partialJson
  else s.handleToolDelta codec index partialJson

def handleContentBlockDelta (ext : AnthropicConverters) (s : AnthropicStreamState) (event : JsonValue) :
    AnthropicStreamState :=
  let s := s.ensureStarted
  let delta := (event.get "delta").getD .null
  match stringMember delta "type" with
  | some "text_delta" => s.closeReasoningItem.handleTextDelta ext ((stringMember delta "text").getD "")
  | some "citations_delta" =>
    let s := s.closeReasoningItem
    match delta.get "citation" with
    | some citation => s.handleCitationDelta ext.toExternals citation
    | none => s
  | some "thinking_delta" => s.handleThinkingDelta ext.toExternals ((stringMember delta "thinking").getD "")
  | some "signature_delta" => s.handleThinkingSignature ext.toExternals ((stringMember delta "signature").getD "")
  | some "input_json_delta" =>
    s.closeReasoningItem.handleInputDelta ext.codec (blockIndex event) ((stringMember delta "partial_json").getD "")
  | _ => s

def handleContentBlockStop (ext : AnthropicConverters) (s : AnthropicStreamState) (event : JsonValue) :
    AnthropicStreamState :=
  let index := blockIndex event
  ((s.flushGlmPendingText ext).closeToolBlock ext.codec index).closeWebSearchToolUseBlock ext.codec index

def processEvent (ext : AnthropicConverters) (s : AnthropicStreamState) (event : JsonValue) : AnthropicStreamState :=
  match stringMember event "type" with
  | some "message_start" => s.handleMessageStart event
  | some "content_block_start" => s.handleContentBlockStart ext event
  | some "content_block_delta" => s.handleContentBlockDelta ext event
  | some "content_block_stop" => s.handleContentBlockStop ext event
  | some "message_delta" => s.handleMessageDelta event
  | some "message_stop" => s.handleDone ext
  | _ => s

end AnthropicStreamState

end MochiPort

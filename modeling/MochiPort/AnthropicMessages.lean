import MochiPort.ChatRequests
import MochiPort.EncryptedContent
import MochiPort.RemoteClients

namespace MochiPort

inductive AnthropicRole where
  | user
  | assistant
  deriving DecidableEq

/-- The content of a tool result: a text, or a list of text blocks. -/
inductive ToolResultContent where
  | text (text : String)
  | texts (texts : List String)
  deriving DecidableEq

inductive AnthropicBlock where
  | text (text : String)
  | image (mediaType data : String)
  | thinking (thinking signature : String)
  | redactedThinking (data : String)
  | toolUse (id name : String) (input : JsonValue)
  | toolResult (toolUseId : String) (content : ToolResultContent)
  deriving DecidableEq

structure AnthropicMessage where
  role : AnthropicRole
  content : List AnthropicBlock
  deriving DecidableEq

inductive MergeMode where
  | none
  | assistantContent
  | toolUse
  | toolResult
  deriving DecidableEq

/-- A request to append content, at the end of the last message where the mode allows that. -/
structure AnthropicPush where
  role : AnthropicRole
  content : List AnthropicBlock
  mergeMode : MergeMode

/-- What the conversion of the input takes from elsewhere: the JSON library, the hash function of the tool names,
and the scope of the provider. -/
structure AnthropicExternals where
  codec : JsonCodec
  sha256 : List UInt8 → Vector UInt8 32
  encryptedContentScope : Option EncryptedContentScope

namespace AnthropicBlock

def isToolResultBlock : AnthropicBlock → Bool
  | toolResult _ _ => true
  | _ => false

def isImage : AnthropicBlock → Bool
  | image _ _ => true
  | _ => false

def resultId : AnthropicBlock → Option String
  | toolResult id _ => some id
  | _ => none

end AnthropicBlock

def combineToolResultContent : ToolResultContent → ToolResultContent → ToolResultContent
  | .text current, .text next =>
    if current = "" then .text next else if next = "" then .text current else .text (current ++ "\n\n" ++ next)
  | .texts current, .texts next => .texts (current ++ next)
  | .texts current, .text next => if next ≠ "" then .texts (current ++ [next]) else .texts current
  | .text current, .texts next => if current = "" then .texts next else .texts (current :: next)

/-- Appends the content of a result to the first block for the same call, or puts the block behind the leading
results. -/
def appendToolResultBlock (target : List AnthropicBlock) (toolUseId : String) (content : ToolResultContent) :
    List AnthropicBlock :=
  match target.findIdx? fun existing => existing.resultId = some toolUseId with
  | some i => target.modify i fun existing =>
      match existing with
      | .toolResult id current => .toolResult id (combineToolResultContent current content)
      | other => other
  | none =>
    let results := target.takeWhile AnthropicBlock.isToolResultBlock
    results ++ .toolResult toolUseId content :: target.drop results.length

def appendIfToolResult (target : List AnthropicBlock) (block : AnthropicBlock) : List AnthropicBlock :=
  match block with
  | .toolResult toolUseId content => appendToolResultBlock target toolUseId content
  | _ => target

/-- The results of the content go in one after the other, and what comes with them goes last. -/
def appendContentBlocks (target content : List AnthropicBlock) (mergeMode : MergeMode) : List AnthropicBlock :=
  match mergeMode with
  | .toolResult =>
    content.foldl appendIfToolResult target ++ content.filter fun block => !block.isToolResultBlock
  | _ => target ++ content

def shouldMergeWithMessage (last : AnthropicMessage) (role : AnthropicRole) (mergeMode : MergeMode) : Bool :=
  last.role = role &&
    match mergeMode with
    | .none => false
    | .assistantContent => role = .assistant
    | .toolUse => role = .assistant
    | .toolResult =>
      last.content.any AnthropicBlock.isToolResultBlock &&
        last.content.all fun block => block.isToolResultBlock || block.isImage

def pushAnthropicMessage (messages : List AnthropicMessage) (push : AnthropicPush) : List AnthropicMessage :=
  if push.content = [] then messages
  else
    match messages.getLast? with
    | some last =>
      if shouldMergeWithMessage last push.role push.mergeMode then
        messages.dropLast ++ [{ last with content := appendContentBlocks last.content push.content push.mergeMode }]
      else messages ++ [⟨push.role, push.content⟩]
    | none => messages ++ [⟨push.role, push.content⟩]

def anthropicRole (item : ResponseItem) : AnthropicRole :=
  match item.role, item.itemType with
  | some "assistant", _ => .assistant
  | none, .outputText => .assistant
  | _, _ => .user

def textBlock (text : String) : Option AnthropicBlock := if text = "" then none else some (.text text)

/-- An image is sent if it is a base64 data URL. -/
def imageBlock (imageUrl : String) : Option AnthropicBlock :=
  (stripStart imageUrl "data:").bind fun dataUrl =>
    (RustText.splitOnce dataUrl ";base64,").map fun parts => .image parts.1 parts.2

def isTextType (partType : String) : Bool :=
  partType = "input_text" || partType = "output_text" || partType = "text"

def isImageType (partType : String) : Bool := partType = "input_image" || partType = "image_url"

def contentPartToAnthropic (part : ContentPart) : Option AnthropicBlock :=
  if isTextType part.partType then textBlock (part.text.getD "")
  else if isImageType part.partType then imageBlock (part.imageUrl.getD "")
  else none

def anthropicContentBlocks (item : ResponseItem) : List AnthropicBlock :=
  match item.content with
  | some (.text text) => (textBlock text).toList
  | some (.parts parts) => parts.filterMap contentPartToAnthropic
  | none =>
    match item.text with
    | some text => (textBlock text).toList
    | none => (item.imageUrl.bind imageBlock).toList

def anthropicReasoningBlock (scope : Option EncryptedContentScope) (item : ResponseItem) : Option AnthropicBlock :=
  scope.bind fun scope =>
    item.encryptedContent.bind fun encryptedContent =>
      match scope.decodeAnthropic encryptedContent with
      | none => none
      | some (kind, rawContent) =>
        if rawContent = "" then none
        else
          match kind with
          | .thinking =>
            item.summary.map fun parts => .thinking (String.join (parts.map fun part => part.text)) rawContent
          | .redactedThinking => some (.redactedThinking rawContent)

def toolResultImagePlaceholder : String := "Image output attached below."

def functionCallOutputToAnthropicContent (output : FunctionCallOutput) : ToolResultContent × List AnthropicBlock :=
  match output with
  | .text text => (.text text, [])
  | .contentItems items =>
    if items.all fun item => isTextType item.itemType then (.text output.toChatToolContent, [])
    else
      let texts := items.filterMap fun item =>
        if isTextType item.itemType then some (item.text.getD "") |>.filter (· ≠ "") else none
      let images := items.filterMap fun item =>
        if isImageType item.itemType then imageBlock (item.imageUrl.getD "") else none
      let content :=
        if texts = [] && images ≠ [] then ToolResultContent.text toolResultImagePlaceholder
        else if texts = [] then .text output.toChatToolContent
        else .texts texts
      (content, images)

def toolSearchOutputToAnthropicContent (codec : JsonCodec) (item : ResponseItem) : String :=
  codec.print (.object [("status", .string (item.status.getD "completed")),
    ("execution", .string (item.execution.getD "client")), ("tools", .array (item.tools.getD []))])

def isValidToolUseId (id : String) : Bool := id ≠ "" && id.toList.all isProviderSafe

def invalidAnthropicRequest (message : String) : GatewayError where
  status := 400
  errorType := "invalid_request_error"
  code := "invalid_request"
  message := message

def validateToolUseId (id : String) : Except GatewayError Unit :=
  if isValidToolUseId id then .ok ()
  else .error (invalidAnthropicRequest "anthropic_messages tool_use id must match ^[a-zA-Z0-9_-]+$")

def JsonString.toValue (codec : JsonCodec) : JsonString → JsonValue
  | .string s => (codec.parse s).getD (.string s)
  | .value v => v

def toolUseId (item : ResponseItem) : String := (item.callId.or item.id).getD ""

/-- The call of a target as a block, and the map that knows its name. -/
def toolUseBlock (ext : AnthropicExternals) (item : ResponseItem) (toolNameMap : ToolNameMap)
    (target : ToolCallTarget) (input : JsonValue) : Except GatewayError (ToolNameMap × Option AnthropicBlock) :=
  let (toolNameMap, name) := toolNameMap.encodeName ext.sha256 target
  if RustText.trim name = "" then .ok (toolNameMap, none)
  else if toolUseId item = "" then .error (invalidAnthropicRequest "anthropic_messages requires tool call_id")
  else (validateToolUseId (toolUseId item)).map fun _ => (toolNameMap, some (.toolUse (toolUseId item) name input))

def responseToolCallToAnthropic (ext : AnthropicExternals) (item : ResponseItem) (toolNameMap : ToolNameMap) :
    Except GatewayError (ToolNameMap × Option AnthropicBlock) :=
  let arguments := (item.arguments.map (JsonString.toValue ext.codec)).getD (.object [])
  match item.itemType with
  | .functionCall =>
    toolUseBlock ext item toolNameMap (.ofFunction item.nameSpace (item.name.getD "")) arguments
  | .toolSearchCall => toolUseBlock ext item toolNameMap .toolSearch arguments
  | .customToolCall =>
    toolUseBlock ext item toolNameMap (.custom (item.name.getD ""))
      (.object [("input", .string (item.input.getD ""))])
  | _ => .ok (toolNameMap, none)

def pushUniqueNonEmpty (values : List String) (value : String) : List String :=
  let value := RustText.trim value
  if value = "" || values.contains value then values else values ++ [value]

def webSearchHistoryQueries (item : ResponseItem) : List String :=
  match item.action with
  | none => []
  | some action =>
    let single := ["query", "search_query"].filterMap fun key => (action.get key).bind JsonValue.asStr
    let several := (((action.get "queries").bind JsonValue.asArray).getD []).filterMap JsonValue.asStr
    (single ++ several).foldl pushUniqueNonEmpty []

def stableWebSearchHistoryHash (input : String) : UInt64 :=
  input.toUTF8.toList.foldl (fun (hash : UInt64) byte => (hash ^^^ byte.toUInt64) * 0x100000001b3)
    0xcbf29ce484222325

def webSearchHistoryToolUseId (item : ResponseItem) (query : String) (itemIndex queryIndex : Nat) : String :=
  let base := (item.callId.or item.id).getD ""
  if (stripStart base "tooluse_").isSome && isValidToolUseId base then
    if queryIndex = 0 then base else base ++ "_" ++ toString queryIndex
  else
    "tooluse_ws_" ++ toString itemIndex ++ "_" ++ toString queryIndex ++ "_" ++
      RustText.hex16 (stableWebSearchHistoryHash query)

def webSearchHistoryToolResultContent (codec : JsonCodec) (item : ResponseItem) (query : String) : String :=
  let result :=
    match item.action.bind (·.get "result") with
    | some result => "Result: " ++ codec.print result
    | none => "Detailed search result blocks were not included in the Responses web_search_call item."
  "\n".intercalate ["Web search history item status: " ++ item.status.getD "completed" ++ ".",
    "Query: " ++ query, result]

def webSearchCallHistoryToAnthropic (codec : JsonCodec) (item : ResponseItem) (itemIndex : Nat) :
    Option (List AnthropicBlock × List AnthropicBlock) :=
  let queries := webSearchHistoryQueries item
  if queries = [] then none
  else some
    (queries.zipIdx.map fun query =>
        .toolUse (webSearchHistoryToolUseId item query.1 itemIndex query.2) "WebSearch"
          (.object [("query", .string query.1)]),
      queries.zipIdx.map fun query =>
        .toolResult (webSearchHistoryToolUseId item query.1 itemIndex query.2)
          (.text (webSearchHistoryToolResultContent codec item query.1)))

inductive AnthropicItemKind where
  | message
  | reasoning
  | output
  | call
  | search
  | ignored
  deriving DecidableEq

def ItemType.anthropicKind : ItemType → AnthropicItemKind
  | .message | .inputText | .inputImage | .outputText => .message
  | .reasoning => .reasoning
  | .functionCallOutput | .toolSearchOutput | .customToolCallOutput => .output
  | .functionCall | .toolSearchCall | .customToolCall => .call
  | .webSearchCall => .search
  | .imageGenerationCall | .unknown => .ignored

def messagePush (item : ResponseItem) : AnthropicPush :=
  let role := anthropicRole item
  ⟨role, anthropicContentBlocks item, if role = .assistant then .assistantContent else .none⟩

/-- The content of the result of an item, and the images that come with it. -/
def toolOutputContent (codec : JsonCodec) (item : ResponseItem) : ToolResultContent × List AnthropicBlock :=
  if item.itemType = .toolSearchOutput then (.text (toolSearchOutputToAnthropicContent codec item), [])
  else (item.output.map functionCallOutputToAnthropicContent).getD (.text "", [])

def outputPush (codec : JsonCodec) (item : ResponseItem) : AnthropicPush :=
  let content := toolOutputContent codec item
  ⟨.user, .toolResult (item.callId.getD "") content.1 :: content.2, .toolResult⟩

def searchPushes (codec : JsonCodec) (itemIndex : Nat) (item : ResponseItem) : List AnthropicPush :=
  match webSearchCallHistoryToAnthropic codec item itemIndex with
  | some (assistantContent, toolResults) =>
    [⟨.assistant, assistantContent, .assistantContent⟩, ⟨.user, toolResults, .none⟩]
  | none => []

/-- What an item of the input appends, and the map that knows its name. -/
def itemPushes (ext : AnthropicExternals) (itemIndex : Nat) (toolNameMap : ToolNameMap) (item : ResponseItem) :
    Except GatewayError (ToolNameMap × List AnthropicPush) :=
  match item.itemType.anthropicKind with
  | .message => .ok (toolNameMap, [messagePush item])
  | .reasoning =>
    .ok (toolNameMap, (anthropicReasoningBlock ext.encryptedContentScope item).toList.map fun block =>
      ⟨.assistant, [block], .assistantContent⟩)
  | .output =>
    if item.callId.getD "" = "" then
      .error (invalidAnthropicRequest "anthropic_messages requires tool output call_id")
    else (validateToolUseId (item.callId.getD "")).map fun _ => (toolNameMap, [outputPush ext.codec item])
  | .call =>
    (responseToolCallToAnthropic ext item toolNameMap).map fun called =>
      (called.1, called.2.toList.map fun block => ⟨.assistant, [block], .toolUse⟩)
  | .search => .ok (toolNameMap, searchPushes ext.codec itemIndex item)
  | .ignored => .ok (toolNameMap, [])

def pushItems (ext : AnthropicExternals) :
    Nat → ToolNameMap → List AnthropicMessage → List ResponseItem →
      Except GatewayError (ToolNameMap × List AnthropicMessage)
  | _, toolNameMap, messages, [] => .ok (toolNameMap, messages)
  | itemIndex, toolNameMap, messages, item :: items =>
    match itemPushes ext itemIndex toolNameMap item with
    | .error e => .error e
    | .ok (toolNameMap, pushes) =>
      pushItems ext (itemIndex + 1) toolNameMap (pushes.foldl pushAnthropicMessage messages) items

def buildAnthropicMessages (ext : AnthropicExternals) (input : List ResponseItem) (toolNameMap : ToolNameMap) :
    Except GatewayError (ToolNameMap × List AnthropicMessage) :=
  match pushItems ext 0 toolNameMap [] input with
  | .error e => .error e
  | .ok (toolNameMap, messages) =>
    if messages = [] then
      .error (invalidAnthropicRequest "anthropic_messages requires at least one user or assistant message")
    else .ok (toolNameMap, messages)

theorem appendToolResultBlock_new {target : List AnthropicBlock} {id : String} (content : ToolResultContent)
    (h : (target.findIdx? fun existing => existing.resultId = some id) = none) :
    appendToolResultBlock target id content =
      target.takeWhile AnthropicBlock.isToolResultBlock ++
        .toolResult id content :: target.dropWhile AnthropicBlock.isToolResultBlock := by
  have hdrop : target.drop (target.takeWhile AnthropicBlock.isToolResultBlock).length =
      target.dropWhile AnthropicBlock.isToolResultBlock := by
    calc target.drop (target.takeWhile AnthropicBlock.isToolResultBlock).length
        = (target.takeWhile AnthropicBlock.isToolResultBlock ++
            target.dropWhile AnthropicBlock.isToolResultBlock).drop
              (target.takeWhile AnthropicBlock.isToolResultBlock).length := by rw [List.takeWhile_append_dropWhile]
      _ = target.dropWhile AnthropicBlock.isToolResultBlock := List.drop_left
  rw [appendToolResultBlock, h]
  dsimp only
  rw [hdrop]

theorem map_eq_ok {ε α β : Type} {f : α → β} {x : Except ε α} {b : β} (h : x.map f = .ok b) :
    ∃ a, x = .ok a ∧ f a = b := by
  cases x with
  | error e => cases h
  | ok a => exact ⟨a, rfl, Except.ok.inj h⟩

theorem validateToolUseId_ok {id : String} {u : Unit} (h : validateToolUseId id = .ok u) :
    isValidToolUseId id = true := by
  unfold validateToolUseId at h
  split at h
  next hvalid => exact hvalid
  next => cases h

theorem responseToolCall_some {ext : AnthropicExternals} {item : ResponseItem} {map next : ToolNameMap}
    {block : AnthropicBlock} (h : responseToolCallToAnthropic ext item map = .ok (next, some block)) :
    isValidToolUseId (toolUseId item) = true ∧ ∃ name input, block = .toolUse (toolUseId item) name input := by
  have hcall : ∀ {target input}, toolUseBlock ext item map target input = .ok (next, some block) →
      isValidToolUseId (toolUseId item) = true ∧ ∃ name input, block = .toolUse (toolUseId item) name input := by
    intro target input h
    unfold toolUseBlock at h
    dsimp only at h
    split at h
    next => cases h
    next =>
      split at h
      next => cases h
      next =>
        obtain ⟨u, hvalid, heq⟩ := map_eq_ok h
        exact ⟨validateToolUseId_ok hvalid, _, _, (Option.some.inj (congrArg Prod.snd heq)).symm⟩
  unfold responseToolCallToAnthropic at h
  split at h
  next => exact hcall h
  next => exact hcall h
  next => exact hcall h
  next => cases h

end MochiPort

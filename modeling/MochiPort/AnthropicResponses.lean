import MochiPort.ChatStream

namespace MochiPort

inductive AnthropicProviderProfile where
  | anthropic
  | glmAnthropic
  deriving DecidableEq

def AnthropicProviderProfile.isWebSearchServerTool (profile : AnthropicProviderProfile) (name : String) : Bool :=
  name = "web_search" || profile = .glmAnthropic && name = "web_search_prime"

/-- What the converters of Anthropic messages take from elsewhere: besides the JSON library and the generated ids,
how the private search texts of the GLM profile are taken out of a text. -/
structure AnthropicConverters extends Externals where
  cleanPrivateWebSearchText : String → Option String
  splitStreamable : String → String × String

/-- For runs on fixed messages: no JSON text is read, and every text is public. -/
def plainConverters : AnthropicConverters where
  codec := ⟨fun _ => none, fun _ => ""⟩
  itemId n := toString n
  cleanPrivateWebSearchText := some
  splitStreamable text := (text, "")

def JsonValue.asBool : JsonValue → Option Bool
  | .bool value => some value
  | _ => none

def stringMember (value : JsonValue) (key : String) : Option String := (value.get key).bind JsonValue.asStr

def intMember (value : JsonValue) (key : String) : Option Int := (value.get key).bind JsonValue.asI64

def convertAnthropicCitationAt (citation : JsonValue) (startIndex endIndex : Nat) : Option JsonValue :=
  (stringMember citation "type").bind fun citationType =>
    if citationType = "web_search_result_location" ∨ citationType = "web_search_result" then
      let url := (stringMember citation "url").getD ""
      if url = "" then none
      else some (.object [("type", .string "url_citation"), ("start_index", .number (.int startIndex)),
        ("end_index", .number (.int endIndex)), ("url", .string url),
        ("title", .string ((stringMember citation "title").getD ""))])
    else none

def convertAnthropicCitations (citations : List JsonValue) (startIndex endIndex : Nat) : List JsonValue :=
  citations.filterMap fun citation => convertAnthropicCitationAt citation startIndex endIndex

/-- Only a response that ran out of tokens is incomplete. -/
def incompleteDetailsForStopReason (stopReason : Option String) : Option JsonValue :=
  if stopReason = some "max_tokens" then some (.object [("reason", .string "max_output_tokens")]) else none

/-- The query of a search: a `query` that is no string hides a `search_query`. -/
def webSearchInputQuery (input : JsonValue) : String :=
  (((input.get "query").or (input.get "search_query")).bind JsonValue.asStr).getD ""

def webSearchQuery (item : JsonValue) : String := ((item.get "input").map webSearchInputQuery).getD ""

def webSearchAction (query : String) : JsonValue :=
  .object [("type", .string "search"), ("query", .string query), ("queries", .array [.string query])]

def serverToolAction (item : JsonValue) : JsonValue := webSearchAction (webSearchQuery item)

def webSearchResponseItem (generatedId : String) (item : JsonValue) : ResponseItem where
  itemType := .webSearchCall
  id := (stringMember item "id").or (some generatedId)
  callId := stringMember item "id"
  status := some "completed"
  action := some (serverToolAction item)

def extractCustomToolInputValue (codec : JsonCodec) (input : JsonValue) : String :=
  (stringInput input).getD <|
    match input with
    | .string text => text
    | _ => codec.print input

def isUnmappedWebSearchToolUse (rawName : String) (toolNameMap : ToolNameMap) (profile : AnthropicProviderProfile) :
    Bool :=
  profile.isWebSearchServerTool rawName && !toolNameMap.hasEncoded rawName

def anthropicToolItem (codec : JsonCodec) (generatedId : String) (callId : Option String) (target : ToolCallTarget)
    (input : JsonValue) : ResponseItem :=
  match target.kind with
  | .toolSearch =>
    { itemType := .toolSearchCall, id := some generatedId, callId := callId, arguments := some (.value input),
      status := some "completed", execution := some "client" }
  | .custom =>
    { itemType := .customToolCall, id := some generatedId, name := some target.name, callId := callId,
      input := some (extractCustomToolInputValue codec input), status := some "completed" }
  | .function =>
    { itemType := .functionCall, id := some generatedId, name := some target.name, nameSpace := target.nameSpace,
      callId := callId, arguments := some (.string (codec.print input)), status := some "completed" }

/-- The item of a content block; the id is used unless the block has one of its own. -/
def anthropicContentToResponseItem (ext : AnthropicConverters) (generatedId : String) (toolNameMap : ToolNameMap)
    (profile : AnthropicProviderProfile) (item : JsonValue) : Option ResponseItem :=
  match stringMember item "type" with
  | some "text" =>
    let text := (stringMember item "text").getD ""
    let text := if profile = .glmAnthropic then ext.cleanPrivateWebSearchText text else some text
    (text.filter (· ≠ "")).map fun text =>
      let annotations := (((item.get "citations").bind JsonValue.asArray).map fun citations =>
        convertAnthropicCitations citations 0 text.length).getD []
      { itemType := .message, id := some generatedId, role := some "assistant",
        content := some (.parts [{ ContentPart.outputText text with annotations := some annotations }]),
        status := some "completed" }
  | some "thinking" =>
    let text := (stringMember item "thinking").getD ""
    let encryptedContent := stringMember item "signature"
    if text = "" && encryptedContent.isNone then none
    else some
      { itemType := .reasoning, id := some generatedId, status := some "completed",
        summary := some (if text = "" then [] else [⟨"summary_text", text⟩]), encryptedContent := encryptedContent }
  | some "redacted_thinking" =>
    some
      { itemType := .reasoning, id := some generatedId, status := some "completed",
        encryptedContent := ((item.get "data").or (item.get "signature")).bind JsonValue.asStr }
  | some "tool_use" =>
    let rawName := (stringMember item "name").getD ""
    if rawName = "WebSearch" || isUnmappedWebSearchToolUse rawName toolNameMap profile then
      some (webSearchResponseItem generatedId item)
    else
      some (anthropicToolItem ext.codec generatedId (stringMember item "id") (toolNameMap.decode rawName)
        ((item.get "input").getD (.object [])))
  | some "server_tool_use" =>
    if !profile.isWebSearchServerTool ((stringMember item "name").getD "") || webSearchQuery item = "" then none
    else some (webSearchResponseItem generatedId item)
  | _ => none

/-- The outcome of a search goes to the item with its id; where there is none, it makes one if it may. -/
def attachWebSearchResult (generatedId : String) (output : List ResponseItem) (item : JsonValue)
    (allowOrphan : Bool) : List ResponseItem × Bool :=
  let toolUseId := stringMember item "tool_use_id"
  let status := if ((item.get "is_error").bind JsonValue.asBool).getD false then "failed" else "completed"
  match toolUseId.bind fun id => output.findIdx? fun candidate => candidate.callId = some id with
  | some i => (output.modify i fun existing => { existing with status := some status }, true)
  | none =>
    if !allowOrphan || toolUseId.isNone then (output, false)
    else
      (output ++ [{
        itemType := .webSearchCall
        id := toolUseId.or (some generatedId)
        callId := toolUseId
        status := some status
        action := some (.object [("type", .string "search"), ("query", .string "")]) }], true)

def convertAnthropicBlock (ext : AnthropicConverters) (toolNameMap : ToolNameMap) (profile : AnthropicProviderProfile)
    (output : List ResponseItem) (item : JsonValue × Nat) : List ResponseItem :=
  let generatedId := ext.itemId item.2
  if stringMember item.1 "type" = some "web_search_tool_result" then
    (attachWebSearchResult generatedId output item.1 true).1
  else
    let (output, attached) :=
      if stringMember item.1 "type" = some "tool_result" && profile = .glmAnthropic then
        attachWebSearchResult generatedId output item.1 false
      else (output, false)
    if attached then output
    else output ++ (anthropicContentToResponseItem ext generatedId toolNameMap profile item.1).toList

def convertAnthropicContent (ext : AnthropicConverters) (items : List JsonValue) (toolNameMap : ToolNameMap)
    (profile : AnthropicProviderProfile) : List ResponseItem :=
  items.zipIdx.foldl (convertAnthropicBlock ext toolNameMap profile) []

def anthropicCacheCreationInputTokens (usage : JsonValue) : Int :=
  ((intMember usage "cache_creation_input_tokens").or
    ((usage.get "cache_creation").bind fun cacheCreation =>
      cacheCreation.asObject.map fun fields =>
        (fields.filterMap fun field => field.2.asI64).foldl i64Add 0)).getD 0

def anthropicCacheCreationSplit (usage : JsonValue) : Int × Int :=
  match usage.get "cache_creation" with
  | none => (0, 0)
  | some cacheCreation =>
    ((intMember cacheCreation "ephemeral_5m_input_tokens").getD 0,
      (intMember cacheCreation "ephemeral_1h_input_tokens").getD 0)

def convertAnthropicUsageValue (usage : JsonValue) : Usage :=
  let uncachedInput := (intMember usage "input_tokens").getD 0
  let output := (intMember usage "output_tokens").getD 0
  let cached := (intMember usage "cache_read_input_tokens").getD 0
  let cacheCreation := anthropicCacheCreationInputTokens usage
  let split := anthropicCacheCreationSplit usage
  let reasoningTokens :=
    ((usage.get "output_tokens_details").bind fun details => intMember details "thinking_tokens").getD 0
  let input := i64Add (i64Add uncachedInput cached) cacheCreation
  { inputTokens := input
    outputTokens := output
    totalTokens := i64Add input output
    inputTokensDetails := some
      { cachedTokens := cached, cacheCreationTokens := cacheCreation, cacheCreation5mTokens := split.1,
        cacheCreation1hTokens := split.2 }
    outputTokensDetails := some { reasoningTokens := reasoningTokens } }

/-- The response for a whole message; `responseId` and `now` stand for the id that is generated where the message
has none, and for the time. -/
def convertAnthropicResponse (ext : AnthropicConverters) (responseId : String) (now : Int) (response : JsonValue)
    (requestModel : String) (toolNameMap : ToolNameMap) (profile : AnthropicProviderProfile) : ResponseObject :=
  let stopReason := stringMember response "stop_reason"
  { id := (stringMember response "id").getD responseId
    objectType := "response"
    model := (stringMember response "model").getD requestModel
    createdAt := now
    status := if stopReason = some "max_tokens" then "incomplete" else "completed"
    output := (((response.get "content").bind JsonValue.asArray).map fun items =>
      convertAnthropicContent ext items toolNameMap profile).getD []
    usage := (response.get "usage").map convertAnthropicUsageValue
    error := none
    incompleteDetails := incompleteDetailsForStopReason stopReason }

end MochiPort

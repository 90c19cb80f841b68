import MochiPort.ChatStream

namespace MochiPort

def parseJsonOrEmptyObject (codec : JsonCodec) (text : String) : JsonValue :=
  (codec.parse text).getD (.object [])

def extractCustomToolInput (codec : JsonCodec) (argumentsText : String) : String :=
  ((codec.parse argumentsText).bind stringInput).getD argumentsText

def convertUsage (usageVal : Option JsonValue) : Option Usage :=
  usageVal.bind fun u =>
    if u.asObject.isNone then none
    else if !hasUsageTokenFields u then none
    else
      let inputTokens := (firstI64 u ["prompt_tokens"]).getD 0
      let outputTokens := (firstI64 u ["completion_tokens"]).getD 0
      let totalTokens := (firstI64 u ["total_tokens"]).getD (i64Add inputTokens outputTokens)
      let cached := ((((u.get "prompt_tokens_details").bind (·.get "cached_tokens")).bind JsonValue.asI64).or
        (firstI64 u ["cached_tokens", "prompt_cache_hit_tokens"])).getD 0
      let reasoning :=
        (((u.get "completion_tokens_details").bind (·.get "reasoning_tokens")).bind JsonValue.asI64).getD 0
      some {
        inputTokens := inputTokens
        outputTokens := outputTokens
        totalTokens := totalTokens
        inputTokensDetails := some { cachedTokens := cached }
        outputTokensDetails := some { reasoningTokens := reasoning } }

def convertToolCall (codec : JsonCodec) (toolNameMap : ToolNameMap) (tc : JsonValue) : ResponseItem :=
  let func := (tc.get "function").getD .null
  let rawName := ((func.get "name").bind JsonValue.asStr).getD ""
  let target := toolNameMap.decode rawName
  let argumentsText := ((func.get "arguments").bind JsonValue.asStr).getD "\x7b\x7d"
  let callId := (tc.get "id").bind JsonValue.asStr
  match target.kind with
  | .toolSearch =>
    { itemType := .toolSearchCall, callId := callId,
      arguments := some (.value (parseJsonOrEmptyObject codec argumentsText)), status := some "completed",
      execution := some "client" }
  | .custom =>
    { itemType := .customToolCall, name := some target.name, callId := callId,
      input := some (extractCustomToolInput codec argumentsText), status := some "completed" }
  | .function =>
    { itemType := .functionCall, name := some target.name, nameSpace := target.nameSpace, callId := callId,
      arguments := some (.string argumentsText), status := some "completed" }

def convertMessage (codec : JsonCodec) (toolNameMap : ToolNameMap) (message : JsonValue) : List ResponseItem :=
  let reasoning :=
    match ((message.get "reasoning_content").bind JsonValue.asStr).filter (· ≠ "") with
    | some reasoningContent =>
      [{ itemType := .reasoning, status := some "completed", summary := some [⟨"summary_text", reasoningContent⟩],
         encryptedContent := (message.get "reasoning_signature").bind JsonValue.asStr }]
    | none => []
  let content :=
    match ((message.get "content").bind JsonValue.asStr).filter (· ≠ "") with
    | some content =>
      [{ itemType := .message, role := some "assistant", content := some (.parts [.outputText content]),
         status := some "completed" }]
    | none => []
  let toolCalls := ((message.get "tool_calls").bind JsonValue.asArray).getD []
  reasoning ++ content ++ toolCalls.map (convertToolCall codec toolNameMap)

/-- The response for a whole chat completion; each item takes the next generated id. `responseId` and `now` stand
for what a completion without an id or a time is given. -/
def convertChatResponseWithToolNames (ext : Externals) (responseId : String) (now : Int) (chatResp : JsonValue)
    (requestModel : String) (toolNameMap : ToolNameMap) : Except String ResponseObject :=
  match ((chatResp.get "choices").bind JsonValue.asArray).bind List.head? with
  | none => .error "no choices in chat response"
  | some choice =>
    match choice.get "message" with
    | none => .error "no message in choice"
    | some message =>
      let finishReason := ((choice.get "finish_reason").bind JsonValue.asStr).getD "stop"
      .ok {
        id := ((chatResp.get "id").bind JsonValue.asStr).getD responseId
        objectType := "response"
        model := ((chatResp.get "model").bind JsonValue.asStr).getD requestModel
        createdAt := ((chatResp.get "created").bind JsonValue.asI64).getD now
        status := if finishReason = "length" then "incomplete" else "completed"
        output := (convertMessage ext.codec toolNameMap message).zipIdx.map fun (item, n) =>
          { item with id := some (ext.itemId n) }
        usage := convertUsage (chatResp.get "usage")
        error := none
        incompleteDetails :=
          if finishReason = "length" then some (.object [("reason", .string "max_output_tokens")]) else none }

end MochiPort

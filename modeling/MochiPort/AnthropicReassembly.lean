import MochiPort.AnthropicMessages
import MochiPort.AnthropicSse

namespace MochiPort

def GatewayError.upstream (status : Nat) (message : String) : GatewayError where
  status := status
  errorType := "upstream_error"
  code := "upstream_error"
  message := message

def rawLines (raw : List Char) : List String :=
  let cut := ByteLines.cut '\n' raw
  (if cut.2 = [] then cut.1 else cut.1 ++ [cut.2]).map fun line => trimEndCr (String.ofList line)

/-- The data lines that are not yet an event, and the events so far. -/
structure JsonEvents where
  dataLines : List String
  events : List JsonValue

namespace JsonEvents

def flush (codec : JsonCodec) (r : JsonEvents) : JsonEvents :=
  if r.dataLines = [] then r
  else
    let data := "\n".intercalate r.dataLines
    ⟨[], r.events ++ (if RustText.trim data = "[DONE]" then none else codec.parse data).toList⟩

def readLine (codec : JsonCodec) (r : JsonEvents) (line : String) : JsonEvents :=
  if line = "" then r.flush codec
  else
    match stripStart line "data:" with
    | some data => { r with dataLines := r.dataLines ++ [(stripStart data " ").getD data] }
    | none => r

end JsonEvents

def parseSseJsonEvents (codec : JsonCodec) (raw : List Char) : List JsonValue :=
  (((rawLines raw).foldl (JsonEvents.readLine codec) ⟨[], []⟩).flush codec).events

def appendStringField (block : JsonValue) (field value : String) : JsonValue :=
  if value = "" then block
  else
    match block with
    | .object fields =>
      match (fields.lookup field).getD (.string "") with
      | .string text => .object (insertField field (.string (text ++ value)) fields)
      | _ => .object fields
    | block => block

def partialInputField : String := "__partial_input_json"

def applyContentDelta (codec : JsonCodec) (block delta : JsonValue) : JsonValue :=
  match stringMember delta "type" with
  | some "text_delta" => appendStringField block "text" ((stringMember delta "text").getD "")
  | some "input_json_delta" =>
    let block := appendStringField block partialInputField ((stringMember delta "partial_json").getD "")
    match (stringMember block partialInputField).bind codec.parse, block with
    | some input, .object fields => .object (removeField partialInputField (insertField "input" input fields))
    | _, block => block
  | some "thinking_delta" => appendStringField block "thinking" ((stringMember delta "thinking").getD "")
  | _ => block

def ensureContentIndex (content : List JsonValue) (index : Nat) : List JsonValue :=
  content ++ List.replicate (index + 1 - content.length) .null

structure MessageParts where
  message : List (String × JsonValue)
  content : List JsonValue
  stopReason : Option String
  usage : List (String × JsonValue)

namespace MessageParts

open AnthropicStreamState (blockIndex)

def insertAll (fields into : List (String × JsonValue)) : List (String × JsonValue) :=
  fields.foldl (fun into field => insertField field.1 field.2 into) into

def startField (parts : MessageParts) (field : String × JsonValue) : MessageParts :=
  if field.1 = "content" then parts
  else
    match if field.1 = "usage" then field.2.asObject else none with
    | some usage => { parts with usage := insertAll usage parts.usage }
    | none => { parts with message := insertField field.1 field.2 parts.message }

def readEvent (codec : JsonCodec) (parts : MessageParts) (event : JsonValue) : MessageParts :=
  match stringMember event "type" with
  | some "message_start" =>
    (((event.get "message").bind JsonValue.asObject).getD []).foldl startField parts
  | some "content_block_start" =>
    match event.get "content_block" with
    | some block =>
      { parts with content := (ensureContentIndex parts.content (blockIndex event)).set (blockIndex event) block }
    | none => parts
  | some "content_block_delta" =>
    let content := ensureContentIndex parts.content (blockIndex event)
    match event.get "delta" with
    | some delta => { parts with content := content.modify (blockIndex event) (applyContentDelta codec · delta) }
    | none => { parts with content := content }
  | some "message_delta" =>
    { parts with
      stopReason := ((event.get "delta").bind (stringMember · "stop_reason")).or parts.stopReason
      usage := insertAll (((event.get "usage").bind JsonValue.asObject).getD []) parts.usage }
  | _ => parts

def insertMissing (key : String) (value : JsonValue) (fields : List (String × JsonValue)) : List (String × JsonValue) :=
  if (fields.lookup key).isSome then fields else insertField key value fields

def finish (parts : MessageParts) : Except GatewayError JsonValue :=
  if parts.message = [] ∧ parts.content = [] then
    .error (.upstream 502 "anthropic stream did not contain a message")
  else
    let message := insertMissing "type" (.string "message") parts.message
    let message := insertMissing "role" (.string "assistant") message
    let message := insertMissing "content" (.array parts.content) message
    let message := insertField "stop_reason" ((parts.stopReason.map .string).getD .null) message
    .ok (.object (if parts.usage = [] then message else insertField "usage" (.object parts.usage) message))

end MessageParts

def anthropicMessageOfEvents (codec : JsonCodec) (events : List JsonValue) : Except GatewayError JsonValue :=
  (events.foldl (MessageParts.readEvent codec) ⟨[], [], none, []⟩).finish

def anthropicMessageFromSse (codec : JsonCodec) (raw : List Char) : Except GatewayError JsonValue :=
  anthropicMessageOfEvents codec (parseSseJsonEvents codec raw)

def groupToolResult (content : List JsonValue) (result : String × String) : List JsonValue :=
  if result.1 = "" then content
  else
    match content.findIdx? fun block => stringMember block "tool_use_id" = some result.1 with
    | some i =>
      if result.2 = "" then content
      else
        content.modify i fun existing =>
          let current := (stringMember existing "content").getD ""
          match existing with
          | .object fields =>
            .object (insertField "content"
              (.string (if current = "" then result.2 else current ++ "\n\n" ++ result.2)) fields)
          | existing => existing
    | none =>
      content ++ [.object [("type", .string "tool_result"), ("tool_use_id", .string result.1),
        ("content", .string result.2)]]

def groupedToolResultBlocks (toolResults : List (String × String)) : List JsonValue :=
  toolResults.foldl groupToolResult []

def appendToolResults (anthropicBody assistantResponse : JsonValue) (toolResults : List (String × String)) :
    JsonValue :=
  match anthropicBody with
  | .object body =>
    match body.lookup "messages" with
    | some (.array messages) =>
      let content := groupedToolResultBlocks toolResults
      if content = [] then anthropicBody
      else
        let assistant := (assistantResponse.get "content").map fun content =>
          JsonValue.object [("role", .string "assistant"), ("content", content)]
        let user := JsonValue.object [("role", .string "user"), ("content", .array content)]
        .object (insertField "messages" (.array (messages ++ assistant.toList ++ [user])) body)
    | _ => anthropicBody
  | _ => anthropicBody

end MochiPort

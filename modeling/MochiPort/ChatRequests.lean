import MochiPort.CustomToolInput
import MochiPort.GatewayModel
import MochiPort.ToolNameSound

namespace MochiPort

namespace ToolNameMap

theorem encode_isSome (sha256 : List UInt8 → Vector UInt8 32) (map : ToolNameMap) (target : ToolCallTarget) :
    (map.encode sha256 target).isSome := by
  unfold encode
  cases map.targetToEncoded.lookup target with
  | some encoded => rfl
  | none =>
    rw [Option.isSome_map]
    exact allocateEncodedName_isSome sha256 map (preferredName target) target

/-- The map with the target, and its name: there always is one. -/
def encodeName (sha256 : List UInt8 → Vector UInt8 32) (map : ToolNameMap) (target : ToolCallTarget) :
    ToolNameMap × String := (map.encode sha256 target).get (map.encode_isSome sha256 target)

end ToolNameMap

structure Reasoning where
  effort : Option String
  budgetTokens : Option Int

structure TextFormat where
  formatType : String
  schema : Option JsonValue
  name : Option String

structure TextOptions where
  format : Option TextFormat

structure GatewayRequest where
  instructions : Option String := none
  input : List ResponseItem
  reasoning : Option Reasoning := none
  text : Option TextOptions := none

/-- What the conversion of a request takes from elsewhere: the JSON library, the hash function, `to_lowercase`, and
the text that asks for an answer in JSON. -/
structure RequestExternals where
  codec : JsonCodec
  sha256 : List UInt8 → Vector UInt8 32
  toLowercase : String → String
  jsonOutputInstruction : TextFormat → String

def JsonString.toChatArguments (codec : JsonCodec) : JsonString → String
  | .string s => s
  | .value v => codec.print v

def FunctionCallOutput.toChatToolContent : FunctionCallOutput → String
  | .text s => s
  | .contentItems items =>
    "\n".intercalate (items.filterMap fun item =>
      if item.itemType = "input_text" ∨ item.itemType = "output_text" ∨ item.itemType = "text" then
        item.text.filter fun text => RustText.trim text ≠ ""
      else none)

structure FunctionToolCall where
  index : Nat
  id : String
  name : String
  arguments : String
  deriving DecidableEq

def FunctionToolCall.toJson (call : FunctionToolCall) : JsonValue :=
  .object [("index", .number (.int call.index)), ("id", .string call.id), ("type", .string "function"),
    ("function", .object [("name", .string call.name), ("arguments", .string call.arguments)])]

/-- A message of the request; `source` is no part of it, but says which output item of the input it carries. -/
structure ChatRequestMessage where
  role : String
  content : JsonValue := .null
  toolCalls : Option (List FunctionToolCall) := none
  toolCallId : Option String := none
  reasoningContent : Option String := none
  source : Option Nat := none
  deriving DecidableEq

namespace ResponseItem

def isAssistantToolCallItem (item : ResponseItem) : Bool :=
  match item.itemType with
  | .functionCall | .toolSearchCall | .customToolCall | .webSearchCall | .imageGenerationCall => true
  | _ => false

def extractMessageContent (item : ResponseItem) : JsonValue :=
  match item.content with
  | some (.text text) => .string text
  | some (.parts parts) =>
    let isText (part : ContentPart) : Bool :=
      part.partType = "output_text" || part.partType = "input_text" || part.partType = "text"
    let convert (part : ContentPart) : JsonValue :=
      if isText part then .object [("type", .string "text"), ("text", .string (part.text.getD ""))]
      else if part.partType = "image_url" || part.partType = "input_image" then
        .object [("type", .string "image_url"),
          ("image_url", .object (("url", .string (part.imageUrl.getD "")) ::
            (part.detail.map fun detail => ("detail", JsonValue.string detail)).toList))]
      else .object [("type", .string "text"), ("text", .string (part.text.getD ""))]
    match parts with
    | [part] => if isText part then .string (part.text.getD "") else .array [convert part]
    | parts => .array (parts.map convert)
  | none => (item.text.map JsonValue.string).getD .null

def extractReasoningText (item : ResponseItem) : String :=
  String.join ((item.summary.getD []).map fun part => part.text)

def toolSearchOutputToChatContent (codec : JsonCodec) (item : ResponseItem) : String :=
  codec.print (.object [("status", .string (item.status.getD "completed")),
    ("execution", .string (item.execution.getD "client")), ("tools", .array (item.tools.getD []))])

end ResponseItem

/-- The chat tool call of an item; hosted calls have none. -/
def buildFunctionToolCall (ext : RequestExternals) (item : ResponseItem) (index : Nat) (toolNameMap : ToolNameMap) :
    ToolNameMap × Option FunctionToolCall :=
  let arguments := (item.arguments.map (JsonString.toChatArguments ext.codec)).getD "\x7b\x7d"
  let call (target : ToolCallTarget) (arguments : String) : ToolNameMap × Option FunctionToolCall :=
    let (toolNameMap, name) := toolNameMap.encodeName ext.sha256 target
    (toolNameMap, some { index := index, id := item.callId.getD "", name := name, arguments := arguments })
  match item.itemType with
  | .functionCall => call (.ofFunction item.nameSpace (item.name.getD "")) arguments
  | .toolSearchCall => call .toolSearch arguments
  | .customToolCall =>
    call (.custom (item.name.getD "")) (ext.codec.print (.object [("input", .string (item.input.getD ""))]))
  | _ => (toolNameMap, none)

def orphanToolOutputMessage (callId output : String) (source : Option Nat) : ChatRequestMessage :=
  { role := "user"
    content := .string ("Function call output (" ++ (if callId = "" then "<missing>" else callId) ++ "): " ++ output)
    source := source }

/-- The messages so far, with the ids of the calls that were left out and of those that were kept. -/
structure InputState where
  messages : List ChatRequestMessage
  removedToolCallIds : List String
  seenToolCallIds : List String
  toolNameMap : ToolNameMap

namespace InputState

def push (s : InputState) (message : ChatRequestMessage) : InputState :=
  { s with messages := s.messages ++ [message] }

def insertIds (ids : List String) (new : List (Option String)) : List String :=
  (new.filterMap fun id => id.filter (· ≠ "")).foldl (fun ids id => ids.insert id) ids

def rememberRemovedToolCall (s : InputState) (item : ResponseItem) : InputState :=
  { s with removedToolCallIds := insertIds s.removedToolCallIds [item.callId, item.id] }

def rememberSeenToolCall (s : InputState) (item : ResponseItem) : InputState :=
  { s with seenToolCallIds := insertIds s.seenToolCallIds [item.callId] }

def addToolCall (ext : RequestExternals) : InputState × List FunctionToolCall → ResponseItem →
    InputState × List FunctionToolCall
  | (s, toolCalls), item =>
    match buildFunctionToolCall ext item toolCalls.length s.toolNameMap with
    | (toolNameMap, some call) => ({ s with toolNameMap := toolNameMap }.rememberSeenToolCall item, toolCalls ++ [call])
    | (toolNameMap, none) => ({ s with toolNameMap := toolNameMap }.rememberRemovedToolCall item, toolCalls)

def addToolCalls (ext : RequestExternals) (s : InputState) (run : List ResponseItem) :
    InputState × List FunctionToolCall := run.foldl (addToolCall ext) (s, [])

def convertFunctionCalls (ext : RequestExternals) (s : InputState) (run : List ResponseItem) : InputState :=
  let (s, toolCalls) := s.addToolCalls ext run
  if toolCalls = [] then s else s.push { role := "assistant", toolCalls := some toolCalls }

def isEmptyContent (content : JsonValue) : Bool :=
  content = .null || content = .string "" || content = .array []

def shouldDropMessageAfterToolFiltering (message : ChatRequestMessage) : Bool :=
  if message.toolCalls.any (· ≠ []) then false
  else if !isEmptyContent message.content then false
  else !message.reasoningContent.any (· ≠ "")

/-- A reasoning item goes into the message of the calls, or of the assistant, that follow it; the items that are
left come back too. -/
def convertReasoningWithFollowing (ext : RequestExternals) (s : InputState) (item : ResponseItem)
    (following : List ResponseItem) : InputState × List ResponseItem :=
  let reasoningText := item.extractReasoningText
  let reasoningContent := if reasoningText = "" then none else some reasoningText
  match following with
  | [] => (s.push { role := "assistant", reasoningContent := reasoningContent }, [])
  | next :: rest =>
    if next.isAssistantToolCallItem then
      let run := (next :: rest).takeWhile ResponseItem.isAssistantToolCallItem
      let (s, toolCalls) := s.addToolCalls ext run
      let message : ChatRequestMessage :=
        { role := "assistant", toolCalls := if toolCalls = [] then none else some toolCalls,
          reasoningContent := reasoningContent }
      (if shouldDropMessageAfterToolFiltering message then s else s.push message,
        (next :: rest).dropWhile ResponseItem.isAssistantToolCallItem)
    else if (next.itemType = .message ∨ next.itemType = .inputText) ∧ next.role = some "assistant" then
      (s.push { role := "assistant", content := next.extractMessageContent, reasoningContent := reasoningContent },
        rest)
    else (s.push { role := "assistant", reasoningContent := reasoningContent }, next :: rest)

def toolOutput (codec : JsonCodec) (item : ResponseItem) : Option String :=
  match item.itemType with
  | .toolSearchOutput => some (item.toolSearchOutputToChatContent codec)
  | _ => item.output.map FunctionCallOutput.toChatToolContent

/-- An output goes to its call; without one it becomes a text of the user. -/
def convertToolOutput (codec : JsonCodec) (s : InputState) (item : ResponseItem) (index : Nat) :
    Except String InputState :=
  let callId := item.callId.getD ""
  if callId ∈ s.removedToolCallIds then .ok s
  else
    match toolOutput codec item with
    | none => .error "function_call_output missing output"
    | some output =>
      if callId = "" ∨ callId ∉ s.seenToolCallIds then
        .ok (s.push (orphanToolOutputMessage callId output (some index)))
      else
        .ok (s.push { role := "tool", toolCallId := some callId, content := .string output, source := some index })

def inputTextMessage (item : ResponseItem) : ChatRequestMessage :=
  let text := item.text.getD (match item.content with
    | some (.text text) => text
    | _ => "")
  { role := item.role.getD "user", content := .string text }

def inputImageUrl (item : ResponseItem) : String :=
  match item.content with
  | some (.text text) => text
  | some (.parts parts) => (parts.findSome? fun part => part.imageUrl).getD ""
  | none => item.imageUrl.getD ""

def inputImageMessage (item : ResponseItem) : Option ChatRequestMessage :=
  if inputImageUrl item = "" then none
  else
    let image := ("url", JsonValue.string (inputImageUrl item)) ::
      (item.detail.map fun detail => ("detail", JsonValue.string detail)).toList
    some {
      role := item.role.getD "user"
      content := .array [.object [("type", .string "image_url"), ("image_url", .object image)]] }

/-- The loop over the items, the next of which has the given index; every round takes one item at least. -/
def convertInputToMessages (ext : RequestExternals) : Nat → Nat → List ResponseItem → InputState →
    Except String InputState
  | _, _, [], s => .ok s
  | 0, _, _ :: _, s => .ok s
  | fuel + 1, index, item :: items, s =>
    match item.itemType with
    | .inputText => convertInputToMessages ext fuel (index + 1) items (s.push (inputTextMessage item))
    | .inputImage =>
      let s :=
        match inputImageMessage item with
        | some message => s.push message
        | none => s
      convertInputToMessages ext fuel (index + 1) items s
    | .message =>
      let s := s.push { role := item.role.getD "user", content := item.extractMessageContent }
      convertInputToMessages ext fuel (index + 1) items s
    | .reasoning =>
      let (s, rest) := s.convertReasoningWithFollowing ext item items
      convertInputToMessages ext fuel (index + (items.length + 1 - rest.length)) rest s
    | .functionCall | .toolSearchCall | .customToolCall | .webSearchCall | .imageGenerationCall =>
      let run := (item :: items).takeWhile ResponseItem.isAssistantToolCallItem
      let rest := (item :: items).dropWhile ResponseItem.isAssistantToolCallItem
      convertInputToMessages ext fuel (index + run.length) rest (s.convertFunctionCalls ext run)
    | .functionCallOutput | .toolSearchOutput | .customToolCallOutput =>
      (s.convertToolOutput ext.codec item index).bind (convertInputToMessages ext fuel (index + 1) items)
    | .outputText | .unknown => convertInputToMessages ext fuel (index + 1) items s

end InputState

end MochiPort

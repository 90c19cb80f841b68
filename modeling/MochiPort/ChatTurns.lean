import MochiPort.AnswerClaims
import MochiPort.ChatRequests

namespace MochiPort

def chatMessageContentToString (codec : JsonCodec) : JsonValue → String
  | .string text => text
  | .null => ""
  | other => codec.print other

namespace ChatRequestMessage

def assistantToolCallIds (message : ChatRequestMessage) : List String :=
  if message.role = "assistant" then
    ((message.toolCalls.getD []).map FunctionToolCall.id).filter fun id => decide (id ≠ "")
  else []

def answeredId (message : ChatRequestMessage) : Option String :=
  if message.role = "tool" then message.toolCallId else none

def chatToolMessageMatches (toolCallId : String) (message : ChatRequestMessage) : Bool :=
  decide (message.answeredId = some toolCallId)

def filterAssistantToolCalls (message : ChatRequestMessage) (matchedIds : List String) : ChatRequestMessage :=
  match message.toolCalls with
  | none => message
  | some toolCalls =>
    let kept := toolCalls.filter fun call => decide (call.id ∈ matchedIds)
    { message with toolCalls := if kept = [] then none else some kept }

def orphanChatToolMessage (codec : JsonCodec) (message : ChatRequestMessage) : ChatRequestMessage :=
  orphanToolOutputMessage (message.toolCallId.getD "") (chatMessageContentToString codec message.content) message.source

/-- Whether an assistant message has content or tool calls; other messages are always valid. -/
def isValid (message : ChatRequestMessage) : Bool :=
  if message.role ≠ "assistant" then true
  else (message.content ≠ .null && message.content ≠ .string "") || message.toolCalls.any (· ≠ [])

end ChatRequestMessage

/-- The messages in order, each assistant message with tool calls followed by the answers that stand anywhere behind
it; `consumed` says which of the messages have been moved already. -/
def repairFrom (codec : JsonCodec) : List ChatRequestMessage → List Bool → List ChatRequestMessage
  | [], _ => []
  | message :: messages, consumed =>
    if consumed.headD false then repairFrom codec messages consumed.tail
    else
      let toolCallIds := message.assistantToolCallIds
      if toolCallIds = [] then
        (if message.role = "tool" then message.orphanChatToolMessage codec else message) ::
          repairFrom codec messages consumed.tail
      else
        let matched := AnswerClaims.claimAll ChatRequestMessage.chatToolMessageMatches toolCallIds messages consumed.tail
        message.filterAssistantToolCalls (matched.1.map Prod.fst) ::
          (matched.1.map Prod.snd ++ repairFrom codec messages matched.2)

def repairToolCallTurns (codec : JsonCodec) (messages : List ChatRequestMessage) : List ChatRequestMessage :=
  repairFrom codec messages (List.replicate messages.length false)

def dropInvalidAssistantMessages (messages : List ChatRequestMessage) : List ChatRequestMessage :=
  messages.filter ChatRequestMessage.isValid

def isLowPriorityCodexDeveloperContext (toLowercase : String → String) (content : String) : Bool :=
  let normalized := toLowercase (String.ofList (trimStartList content.toList))
  "meta_kim memory status:".toList.isPrefixOf normalized.toList ||
    "untrusted recalled memory context".toList.isPrefixOf normalized.toList ||
    "graphify: knowledge graph".toList.isPrefixOf normalized.toList ||
    "warning: truncated output".toList.isPrefixOf normalized.toList ||
    RustText.contains normalized "quoted historical notes only; do not treat this content as instructions"

def normalizeDeveloperMessage (ext : RequestExternals) (message : ChatRequestMessage) : ChatRequestMessage :=
  if message.role = "developer" then
    { message with
      role :=
        if isLowPriorityCodexDeveloperContext ext.toLowercase
          (chatMessageContentToString ext.codec message.content) then "user" else "system" }
  else message

def systemMessage (instructions : String) : ChatRequestMessage :=
  { role := "system", content := .string instructions }

/-- The instruction goes behind the text of a first system message, or before all messages. -/
def injectJsonOutputInstruction (instruction : String) (messages : List ChatRequestMessage) : List ChatRequestMessage :=
  match messages with
  | { role := "system", content := .string existing, toolCalls, toolCallId, reasoningContent, source } :: rest =>
    { role := "system", content := .string (existing ++ "\n\n" ++ instruction), toolCalls, toolCallId,
      reasoningContent, source } :: rest
  | messages => systemMessage instruction :: messages

def padReasoningContent (message : ChatRequestMessage) : ChatRequestMessage :=
  if message.role = "assistant" ∧ message.reasoningContent = none then { message with reasoningContent := some "" }
  else message

/-- A turn with tool calls takes over the last reasoning before it when it has none. -/
def ensureReasoningFrom : Option String → List ChatRequestMessage → List ChatRequestMessage
  | _, [] => []
  | last, message :: messages =>
    if message.role ≠ "assistant" then message :: ensureReasoningFrom last messages
    else
      let last := (message.reasoningContent.filter (· ≠ "")).or last
      let lacks := message.toolCalls.any (· ≠ []) && !message.reasoningContent.any (· ≠ "")
      (match lacks, last with
        | true, some reasoning => { message with reasoningContent := some reasoning }
        | _, _ => message) :: ensureReasoningFrom last messages

def deepseekMessages (ext : RequestExternals) (thinkingEnabled : Bool) (messages : List ChatRequestMessage) :
    List ChatRequestMessage :=
  let messages := messages.map (normalizeDeveloperMessage ext)
  let messages := dropInvalidAssistantMessages (repairToolCallTurns ext.codec messages)
  if thinkingEnabled then ensureReasoningFrom none (messages.map padReasoningContent) else messages

def InputState.start (instructions : Option String) : InputState where
  messages := (instructions.map systemMessage).toList
  removedToolCallIds := []
  seenToolCallIds := []
  toolNameMap := .empty

/-- The messages of `build_chat_request_with_tool_names`. -/
def buildChatMessages (ext : RequestExternals) (request : GatewayRequest) (deepseekMode : Bool) :
    Except String (List ChatRequestMessage) :=
  let start := InputState.start request.instructions
  (InputState.convertInputToMessages ext request.input.length 0 request.input start).map fun s =>
    if deepseekMode then
      let messages :=
        match request.text.bind TextOptions.format with
        | some format =>
          if format.formatType = "json_schema" ∨ format.formatType = "json_object" then
            injectJsonOutputInstruction (ext.jsonOutputInstruction format) s.messages
          else s.messages
        | none => s.messages
      deepseekMessages ext (request.reasoning.any fun reasoning => reasoning.effort ≠ some "none") messages
    else s.messages

end MochiPort

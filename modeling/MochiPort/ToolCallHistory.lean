import MochiPort.ChatRequests
import MochiPort.ChatResponses

namespace MochiPort

open ResponsesStreamState

/-- A chat completion whose message has the call and nothing else. -/
structure HoldsOnly (chatResp : JsonValue) (call : FunctionToolCall) (choice message : JsonValue) : Prop where
  firstChoice : chunkChoice chatResp = some choice
  wholeMessage : choice.get "message" = some message
  reasoning : ((message.get "reasoning_content").bind JsonValue.asStr).filter (· ≠ "") = none
  content : ((message.get "content").bind JsonValue.asStr).filter (· ≠ "") = none
  toolCalls : message.get "tool_calls" = some (.array [call.toJson])

namespace ResponseItem

def isChatToolCall (item : ResponseItem) : Bool :=
  item.itemType = .functionCall || item.itemType = .toolSearchCall || item.itemType = .customToolCall

def argumentsText (codec : JsonCodec) (item : ResponseItem) : String :=
  (item.arguments.map (JsonString.toChatArguments codec)).getD "\x7b\x7d"

structure SameCall (item item' : ResponseItem) : Prop where
  itemType : item'.itemType = item.itemType
  nameSpace : item'.nameSpace = item.nameSpace
  name : item'.name = item.name
  callId : item'.callId = item.callId
  arguments : item'.arguments = item.arguments
  input : item'.input = item.input

/-- How a call comes back: what it lacks is filled in, and its arguments are read again from their text. -/
structure ComesBack (codec : JsonCodec) (item item' : ResponseItem) : Prop where
  itemType : item'.itemType = item.itemType
  callId : item'.callId = some (item.callId.getD "")
  nameSpace : item'.nameSpace = if item.itemType = .functionCall then trimmedNamespace item.nameSpace else none
  name : item'.name = if item.itemType = .toolSearchCall then none else some (item.name.getD "")
  arguments : item'.arguments =
    match item.itemType with
    | .functionCall => some (.string (item.argumentsText codec))
    | .toolSearchCall => some (.value ((codec.parse (item.argumentsText codec)).getD (.object [])))
    | _ => none
  input : item'.input = if item.itemType = .customToolCall then some (item.input.getD "") else none

end ResponseItem

theorem encodeName_eq {sha256 : List UInt8 → Vector UInt8 32} {map next : ToolNameMap} {target : ToolCallTarget}
    {encoded : String} (h : map.encode sha256 target = some (next, encoded)) :
    map.encodeName sha256 target = (next, encoded) := Option.get_of_eq_some _ h

theorem decode_encodeName {map : ToolNameMap} (hs : map.Sound) (sha256 : List UInt8 → Vector UInt8 32)
    (target : ToolCallTarget) :
    (map.encodeName sha256 target).1.decode (map.encodeName sha256 target).2 = target := by
  obtain ⟨next, encoded, hencode, hcases⟩ := hs.encode_cases sha256 target
  rw [encodeName_eq hencode]
  rcases hcases with ⟨hknown, rfl⟩ | ⟨htarget, hencoded, rfl, _⟩
  · exact hs.decode hknown
  · refine (hs.insert htarget hencoded).decode ?_
    exact AList.lookup_insert map.targetToEncoded

theorem buildFunctionToolCall_cases (ext : RequestExternals) {item : ResponseItem} (hcall : item.isChatToolCall = true)
    (index : Nat) {map : ToolNameMap} (hs : map.Sound) :
    ∃ next call target, buildFunctionToolCall ext item index map = (next, some call) ∧
      call.id = item.callId.getD "" ∧ next.decode call.name = target ∧
      (item.itemType = .functionCall ∧ target = .ofFunction item.nameSpace (item.name.getD "") ∧
          call.arguments = item.argumentsText ext.codec ∨
        item.itemType = .toolSearchCall ∧ target = .toolSearch ∧ call.arguments = item.argumentsText ext.codec ∨
        item.itemType = .customToolCall ∧ target = .custom (item.name.getD "") ∧
          call.arguments = ext.codec.print (.object [("input", .string (item.input.getD ""))])) := by
  unfold buildFunctionToolCall
  cases htype : item.itemType with
  | functionCall => exact ⟨_, _, _, rfl, rfl, decode_encodeName hs ext.sha256 _, .inl ⟨rfl, rfl, rfl⟩⟩
  | toolSearchCall => exact ⟨_, _, _, rfl, rfl, decode_encodeName hs ext.sha256 _, .inr (.inl ⟨rfl, rfl, rfl⟩)⟩
  | customToolCall => exact ⟨_, _, _, rfl, rfl, decode_encodeName hs ext.sha256 _, .inr (.inr ⟨rfl, rfl, rfl⟩)⟩
  | _ => simp [ResponseItem.isChatToolCall, htype] at hcall

theorem convertToolCall_toJson (codec : JsonCodec) (toolNameMap : ToolNameMap) (call : FunctionToolCall) :
    convertToolCall codec toolNameMap call.toJson =
      match (toolNameMap.decode call.name).kind with
      | .toolSearch =>
        { itemType := .toolSearchCall, callId := some call.id,
          arguments := some (.value (parseJsonOrEmptyObject codec call.arguments)), status := some "completed",
          execution := some "client" }
      | .custom =>
        { itemType := .customToolCall, name := some (toolNameMap.decode call.name).name, callId := some call.id,
          input := some (extractCustomToolInput codec call.arguments), status := some "completed" }
      | .function =>
        { itemType := .functionCall, name := some (toolNameMap.decode call.name).name,
          nameSpace := (toolNameMap.decode call.name).nameSpace, callId := some call.id,
          arguments := some (.string call.arguments), status := some "completed" } := rfl

theorem HoldsOnly.converted {chatResp choice message : JsonValue} {call : FunctionToolCall}
    (h : HoldsOnly chatResp call choice message) (ext : Externals) (responseId : String) (now : Int)
    (requestModel : String) (toolNameMap : ToolNameMap) :
    ∃ r, convertChatResponseWithToolNames ext responseId now chatResp requestModel toolNameMap = .ok r ∧
      r.output = [{ convertToolCall ext.codec toolNameMap call.toJson with id := some (ext.itemId 0) }] := by
  have hchoice := h.firstChoice
  unfold chunkChoice at hchoice
  have hmessage : convertMessage ext.codec toolNameMap message =
      [convertToolCall ext.codec toolNameMap call.toJson] := by
    unfold convertMessage
    rw [h.reasoning, h.content, h.toolCalls]
    rfl
  unfold convertChatResponseWithToolNames
  rw [hchoice]
  dsimp only
  rw [h.wholeMessage]
  refine ⟨_, rfl, ?_⟩
  rw [hmessage]
  rfl

/-- A call of the history that the model repeats comes back as it was, with the fields it lacks filled in. -/
theorem tool_call_comes_back (ext : RequestExternals) {calls : List EncodeCall} {map : ToolNameMap}
    {names : List (ToolCallTarget × String)} (hmap : ToolNameMap.empty.encodeAll ext.sha256 calls = some (map, names))
    {item : ResponseItem} (hcall : item.isChatToolCall = true) (hinput : item.itemType = .customToolCall →
      ext.codec.parse (ext.codec.print (.object [("input", .string (item.input.getD ""))])) =
        some (.object [("input", .string (item.input.getD ""))])) (index : Nat) :
    ∃ next call, buildFunctionToolCall ext item index map = (next, some call) ∧
      ∀ chatResp choice message, HoldsOnly chatResp call choice message →
        ∀ itemId responseId now requestModel, ∃ r item',
          convertChatResponseWithToolNames ⟨ext.codec, itemId⟩ responseId now chatResp requestModel next = .ok r ∧
          r.output = [item'] ∧ item.ComesBack ext.codec item' := by
  obtain ⟨_, _, hall, hs, _⟩ := ToolNameMap.sound_empty.encodeAll_run ToolNameMap.within_empty ext.sha256 calls
  obtain ⟨rfl, -⟩ := Prod.mk.inj (Option.some.inj (hall.symm.trans hmap))
  obtain ⟨next, call, target, hbuild, hid, htarget, hkind⟩ := buildFunctionToolCall_cases ext hcall index hs
  refine ⟨next, call, hbuild, ?_⟩
  intro chatResp choice message hholds itemId responseId now requestModel
  obtain ⟨r, hok, houtput⟩ := hholds.converted ⟨ext.codec, itemId⟩ responseId now requestModel next
  refine ⟨r, _, hok, houtput, ?_⟩
  rw [convertToolCall_toJson, htarget, hid]
  rcases hkind with ⟨htype, rfl, harguments⟩ | ⟨htype, rfl, harguments⟩ | ⟨htype, rfl, harguments⟩
  · rw [harguments]
    constructor
    all_goals simp [ToolCallTarget.ofFunction, htype]
  · rw [harguments]
    constructor
    all_goals simp [ToolCallTarget.toolSearch, parseJsonOrEmptyObject, htype]
  · have hread : extractCustomToolInput ext.codec call.arguments = item.input.getD "" := by
      rw [extractCustomToolInput, harguments, hinput htype]
      rfl
    rw [hread]
    constructor
    all_goals simp [ToolCallTarget.custom, htype]

/-- A JSON library that knows the wrapped input of one call. -/
def wrappedInputCodec : JsonCodec :=
  ⟨fun text => if text = "\x7b\"input\":\"ls\"\x7d" then some (.object [("input", .string "ls")]) else none,
    fun value => if value = .object [("input", .string "ls")] then "\x7b\"input\":\"ls\"\x7d" else "null"⟩

def plainRequestExternals (codec : JsonCodec) : RequestExternals :=
  ⟨codec, fun _ => Vector.replicate 32 0, id, fun _ => ""⟩

theorem tool_call_comes_back_custom :
    ∃ next call, buildFunctionToolCall (plainRequestExternals wrappedInputCodec)
        { itemType := .customToolCall, name := some "shell", callId := some "c1", input := some "ls" } 0 .empty =
        (next, some call) ∧
      ∀ chatResp choice message, HoldsOnly chatResp call choice message →
        ∀ itemId responseId now requestModel, ∃ r item',
          convertChatResponseWithToolNames ⟨wrappedInputCodec, itemId⟩ responseId now chatResp requestModel next =
            .ok r ∧ r.output = [item'] ∧
          ({ itemType := .customToolCall, name := some "shell", callId := some "c1", input := some "ls" } :
            ResponseItem).ComesBack wrappedInputCodec item' :=
  tool_call_comes_back (plainRequestExternals wrappedInputCodec)
    (show ToolNameMap.empty.encodeAll (plainRequestExternals wrappedInputCodec).sha256 [] = some (.empty, []) from rfl)
    rfl (fun _ => by decide) 0

def callWithoutArguments : ResponseItem := { itemType := .functionCall, name := some "f", callId := some "c1" }

def callMessage (call : FunctionToolCall) : JsonValue := .object [("tool_calls", .array [call.toJson])]

def callChoice (call : FunctionToolCall) : JsonValue := .object [("message", callMessage call)]

def callResponse (call : FunctionToolCall) : JsonValue := .object [("choices", .array [callChoice call])]

theorem holdsOnly_callResponse (call : FunctionToolCall) :
    HoldsOnly (callResponse call) call (callChoice call) (callMessage call) := ⟨rfl, rfl, rfl, rfl, rfl⟩

/-- A call without arguments comes back with an empty object for them. -/
theorem missing_arguments_filled_in :
    ∃ next call, buildFunctionToolCall (plainRequestExternals wrappedInputCodec) callWithoutArguments 0 .empty =
        (next, some call) ∧ HoldsOnly (callResponse call) call (callChoice call) (callMessage call) ∧
      ∃ r item', convertChatResponseWithToolNames ⟨wrappedInputCodec, toString⟩ "r" 0 (callResponse call) "m" next = .ok r ∧
        r.output = [item'] ∧ ¬ callWithoutArguments.SameCall item' := by
  refine ⟨_, _, rfl, holdsOnly_callResponse _, _, _, rfl, rfl, ?_⟩
  intro h
  exact absurd h.arguments (by decide +kernel)

end MochiPort

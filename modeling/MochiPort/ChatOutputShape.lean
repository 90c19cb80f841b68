import MochiPort.ClosingOrder
import MochiPort.StreamAgreement

namespace MochiPort

inductive TextKind where
  | reasoning
  | message
  deriving DecidableEq

def ResponseEvent.doneItem : ResponseEvent → Option (Nat × ResponseItem)
  | outputItemDone outputIndex item => some (outputIndex, item)
  | _ => none

def doneItems (events : List StreamEvent) : List (Nat × ResponseItem) := events.filterMap fun e => e.event.doneItem

/-- What the order of the output depends on: the items that are open, with their indices and ids, and those that are
done, as they were announced and as they were listed. -/
@[ext]
structure OutputShape where
  next : Nat
  generated : Nat
  text : TextKind → Option (Nat × String)
  calls : Nat → Option (Nat × String)
  done : List (Nat × ResponseItem)
  output : List ResponseItem
  terminals : List (List ResponseItem)
  finished : Bool
  usageKnown : Bool
  completed : Bool

namespace OutputShape

def addDone (v : OutputShape) (index : Nat) (item : ResponseItem) : OutputShape :=
  { v with done := v.done ++ [(index, item)], output := v.output ++ [item] }

/-- The item of a kind of text is done, if it is open. -/
def closeText (v : OutputShape) (kind : TextKind) (item : ResponseItem) : OutputShape :=
  match v.text kind with
  | none => v
  | some (index, _) => { v.addDone index item with text := Function.update v.text kind none }

def openText (v : OutputShape) (kind : TextKind) (id : String) : OutputShape :=
  { v with
    text := Function.update v.text kind (some (v.next, id))
    next := v.next + 1
    generated := v.generated + 1 }

def openCall (v : OutputShape) (index : Nat) (id : String) : OutputShape :=
  { v with
    calls := Function.update v.calls index (some (v.next, id))
    next := v.next + 1
    generated := v.generated + 1 }

def closeCall (v : OutputShape) (index : Nat) (item : ResponseItem) : OutputShape :=
  match v.calls index with
  | none => v
  | some (outputIndex, _) => { v.addDone outputIndex item with calls := Function.update v.calls index none }

variable {v : OutputShape}

theorem closeText_none {kind : TextKind} (item : ResponseItem) (h : v.text kind = none) :
    v.closeText kind item = v := by
  rw [closeText, h]

theorem closeText_some {kind : TextKind} {index : Nat} {id : String} (item : ResponseItem)
    (h : v.text kind = some (index, id)) :
    v.closeText kind item = { v.addDone index item with text := Function.update v.text kind none } := by
  rw [closeText, h]

theorem closeCall_some {index outputIndex : Nat} {id : String} (item : ResponseItem)
    (h : v.calls index = some (outputIndex, id)) :
    v.closeCall index item = { v.addDone outputIndex item with calls := Function.update v.calls index none } := by
  rw [closeCall, h]

/-- A terminal event lists what is done so far. -/
def complete (v : OutputShape) : OutputShape :=
  { v with terminals := v.terminals ++ [v.output], completed := true }

end OutputShape

namespace ResponsesStreamState

/-- Where the calls of a table stand, and under which ids. -/
def callPlaces (calls : Table Nat ToolCallState) (index : Nat) : Option (Nat × String) :=
  (calls.lookup index).map fun tc => (tc.outputIndex, tc.itemId)

def shape (s : ResponsesStreamState) : OutputShape where
  next := s.outputIndex
  generated := s.generated
  text
    | .reasoning => if s.reasoningItemStarted then some (s.reasoningOutputIndex, s.reasoningItemId) else none
    | .message => if s.messageItemStarted then some (s.messageOutputIndex, s.messageItemId) else none
  calls := callPlaces s.toolCalls
  done := doneItems s.emitted
  output := s.completedOutput
  terminals := (terminalResponses s.emitted).map (·.output)
  finished := s.finished
  usageKnown := s.usage.isSome
  completed := s.responseCompleted

variable {s : ResponsesStreamState}

theorem filterMap_single {β : Type*} (f : StreamEvent → Option β) (event : StreamEvent) :
    [event].filterMap f = (f event).toList := by
  rw [List.filterMap_cons, List.filterMap_nil]
  cases f event with
  | none | some b => rfl

section

variable (s)

theorem shape_emit (event : ResponseEvent) : (s.emit event).shape = { s.shape with
    done := s.shape.done ++ event.doneItem.toList
    terminals := s.shape.terminals ++ (event.terminalResponse.map (·.output)).toList } := by
  have hdone : doneItems (s.emit event).emitted = doneItems s.emitted ++ event.doneItem.toList := by
    rw [emit, doneItems, List.filterMap_append, filterMap_single]
    rfl
  have hterminal : terminalResponses (s.emit event).emitted =
      terminalResponses s.emitted ++ event.terminalResponse.toList := by
    rw [emit, terminalResponses, List.filterMap_append, filterMap_single]
    rfl
  have hoption : event.terminalResponse.toList.map (·.output) = (event.terminalResponse.map (·.output)).toList := by
    cases event.terminalResponse with
    | none | some response => rfl
  simp only [shape, hdone, hterminal, List.map_append, hoption]
  rfl

theorem shape_emit_quiet {event : ResponseEvent} (hdone : event.doneItem = none)
    (hterminal : event.terminalResponse = none) : (s.emit event).shape = s.shape := by
  rw [shape_emit, hdone, hterminal]
  simp

theorem shape_emit_done (index : Nat) (item : ResponseItem) :
    (s.emit (.outputItemDone index item)).shape = { s.shape with done := s.shape.done ++ [(index, item)] } := by
  rw [shape_emit]
  simp [ResponseEvent.doneItem, ResponseEvent.terminalResponse]

theorem closeReasoningItem_shape :
    ∃ item, (∀ index id, s.shape.text .reasoning = some (index, id) → item.id = some id) ∧
      s.closeReasoningItem.shape = s.shape.closeText .reasoning item := by
  let item : ResponseItem :=
    { itemType := .reasoning, id := some s.reasoningItemId, status := some "completed",
      summary := some [⟨"summary_text", s.accumulatedReasoning⟩] }
  by_cases hstarted : s.reasoningItemStarted = true
  · have htext : s.shape.text .reasoning = some (s.reasoningOutputIndex, s.reasoningItemId) := if_pos hstarted
    refine ⟨item, ?_, ?_⟩
    · intro index id h
      rw [htext] at h
      cases h
      rfl
    · let t := (s.emit (.reasoningSummaryTextDone s.reasoningItemId s.reasoningOutputIndex s.accumulatedReasoning)).emit
        (.reasoningSummaryPartDone s.reasoningItemId s.reasoningOutputIndex s.accumulatedReasoning)
      have ht : t.shape = s.shape := (shape_emit_quiet _ rfl rfl).trans (shape_emit_quiet s rfl rfl)
      have hdone := shape_emit_done t s.reasoningOutputIndex item
      rw [ht] at hdone
      rw [OutputShape.closeText, htext]
      simp only [closeReasoningItem, hstarted, Bool.not_true, Bool.false_eq_true, if_false]
      refine OutputShape.ext rfl rfl ?_ rfl (congrArg OutputShape.done hdone :) rfl
        (congrArg OutputShape.terminals hdone :) rfl rfl rfl
      funext kind
      cases kind with
      | reasoning | message => rfl
  · have hidle : s.reasoningItemStarted = false := Bool.eq_false_iff.mpr hstarted
    have htext : s.shape.text .reasoning = none := if_neg hstarted
    refine ⟨item, ?_, ?_⟩
    · intro index id h
      rw [htext] at h
      cases h
    · rw [OutputShape.closeText, htext]
      simp only [closeReasoningItem, hidle, Bool.not_false, if_true]

theorem closeContentPart_shape : s.closeContentPart.shape = s.shape := by
  unfold closeContentPart
  split
  next => rfl
  next =>
    let event := ResponseEvent.outputTextDone s.messageItemId s.messageOutputIndex s.contentIndex s.accumulatedText
    have htext : (s.emit event).shape = s.shape := shape_emit_quiet s rfl rfl
    exact (shape_emit_quiet (s.emit event) rfl rfl).trans htext

theorem closeMessageItem_shape :
    ∃ item, (∀ index id, s.shape.text .message = some (index, id) → item.id = some id) ∧
      s.closeMessageItem.shape = s.shape.closeText .message item := by
  let t := s.closeContentPart
  have hpart : t.shape = s.shape := closeContentPart_shape s
  have hflag : t.messageItemStarted = s.messageItemStarted := closeContentPart_messageItemStarted
  let item : ResponseItem :=
    { itemType := .message, id := some t.messageItemId, role := some "assistant", status := some "completed",
      content := some (.parts [.outputText t.accumulatedText]) }
  by_cases hstarted : s.messageItemStarted = true
  · have htext : t.shape.text .message = some (t.messageOutputIndex, t.messageItemId) := if_pos (hflag.trans hstarted)
    refine ⟨item, ?_, ?_⟩
    · intro index id h
      rw [← hpart, htext] at h
      cases h
      rfl
    · rw [← hpart, OutputShape.closeText, htext]
      have hdone := shape_emit_done t t.messageOutputIndex item
      simp only [closeMessageItem, hstarted, Bool.not_true, Bool.false_eq_true, if_false]
      refine OutputShape.ext rfl rfl ?_ rfl (congrArg OutputShape.done hdone :) rfl
        (congrArg OutputShape.terminals hdone :) rfl rfl rfl
      funext kind
      cases kind with
      | reasoning | message => rfl
  · have hidle : s.messageItemStarted = false := Bool.eq_false_iff.mpr hstarted
    have htext : s.shape.text .message = none := if_neg hstarted
    refine ⟨item, ?_, ?_⟩
    · intro index id h
      rw [htext] at h
      cases h
    · rw [OutputShape.closeText, htext]
      simp only [closeMessageItem, hidle, Bool.not_false, if_true]

end

section

variable (ext : Externals)

section

variable (s)

theorem startReasoningItem_shape :
    (s.startReasoningItem ext).shape =
      if (s.shape.text .reasoning).isSome then s.shape
      else s.shape.openText .reasoning (ext.itemId s.shape.generated) := by
  by_cases hstarted : s.reasoningItemStarted = true
  · have htext : s.shape.text .reasoning = some (s.reasoningOutputIndex, s.reasoningItemId) := if_pos hstarted
    rw [htext, startReasoningItem, if_pos hstarted]
    rfl
  · have htext : s.shape.text .reasoning = none := if_neg hstarted
    let t := { s with
      reasoningItemId := ext.itemId s.generated
      generated := s.generated + 1
      reasoningOutputIndex := s.outputIndex }
    let item : ResponseItem :=
      { itemType := .reasoning, id := some t.reasoningItemId, status := some "in_progress", summary := some [] }
    have hadded : (t.emit (.outputItemAdded t.reasoningOutputIndex item)).shape = t.shape := shape_emit_quiet t rfl rfl
    rw [htext, startReasoningItem, if_neg hstarted]
    refine OutputShape.ext rfl rfl ?_ rfl (congrArg OutputShape.done hadded :) rfl
      (congrArg OutputShape.terminals hadded :) rfl rfl rfl
    funext kind
    cases kind with
    | reasoning | message => rfl

theorem startMessageItem_shape :
    (s.startMessageItem ext).shape =
      if (s.shape.text .message).isSome then s.shape
      else s.shape.openText .message (ext.itemId s.shape.generated) := by
  by_cases hstarted : s.messageItemStarted = true
  · have htext : s.shape.text .message = some (s.messageOutputIndex, s.messageItemId) := if_pos hstarted
    rw [htext, startMessageItem, if_pos hstarted]
    rfl
  · have htext : s.shape.text .message = none := if_neg hstarted
    let t := { s with
      messageItemId := ext.itemId s.generated
      generated := s.generated + 1
      messageOutputIndex := s.outputIndex }
    let item : ResponseItem :=
      { itemType := .message, id := some t.messageItemId, role := some "assistant", status := some "in_progress",
        content := some (.parts []) }
    have hadded : (t.emit (.outputItemAdded t.messageOutputIndex item)).shape = t.shape := shape_emit_quiet t rfl rfl
    rw [htext, startMessageItem, if_neg hstarted]
    refine OutputShape.ext rfl rfl ?_ rfl (congrArg OutputShape.done hadded :) rfl
      (congrArg OutputShape.terminals hadded :) rfl rfl rfl
    funext kind
    cases kind with
    | reasoning | message => rfl

theorem startSummaryPart_shape : s.startSummaryPart.shape = s.shape := by
  unfold startSummaryPart
  split
  next => rfl
  next => exact shape_emit_quiet s rfl rfl

theorem startContentPart_shape : s.startContentPart.shape = s.shape := by
  unfold startContentPart
  split
  next => rfl
  next => exact shape_emit_quiet s rfl rfl

theorem handleReasoningDelta_shape (text : String) :
    (s.handleReasoningDelta ext text).shape = (s.closeMessageItem.startReasoningItem ext).shape := by
  have hpart := startSummaryPart_shape (s.closeMessageItem.startReasoningItem ext)
  exact (shape_emit_quiet _ rfl rfl).trans hpart

theorem handleContentDelta_shape (text : String) :
    (s.handleContentDelta ext text).shape = (s.closeReasoningItem.startMessageItem ext).shape := by
  have hpart := startContentPart_shape (s.closeReasoningItem.startMessageItem ext)
  exact (shape_emit_quiet _ rfl rfl).trans hpart

end

theorem callPlaces_insert (calls : Table Nat ToolCallState) (index : Nat) (call : ToolCallState) :
    callPlaces (calls.insert index call) =
      Function.update (callPlaces calls) index (some (call.outputIndex, call.itemId)) := by
  funext other
  rw [Function.update_apply, callPlaces, Table.lookup_insert_eq]
  split
  next => rfl
  next => rfl

theorem callPlaces_erase (calls : Table Nat ToolCallState) (index : Nat) :
    callPlaces (calls.erase index) = Function.update (callPlaces calls) index none := by
  funext other
  rw [Function.update_apply, callPlaces, Table.lookup_erase_eq]
  split
  next => rfl
  next => rfl

section

variable (s)

theorem shape_calls_isSome (index : Nat) :
    (s.shape.calls index).isSome = (s.toolCalls.lookup index).isSome := Option.isSome_map

theorem startToolCall_shape (tc : JsonValue) :
    (s.startToolCall ext tc).shape =
      if (s.shape.calls (toolCallIndex tc)).isSome then s.shape
      else (s.closeMessageItem.closeReasoningItem).shape.openCall (toolCallIndex tc)
        (ext.itemId (s.closeMessageItem.closeReasoningItem).shape.generated) := by
  rw [shape_calls_isSome]
  by_cases hopen : (s.toolCalls.lookup (toolCallIndex tc)).isSome = true
  · rw [startToolCall, if_pos hopen, if_pos hopen]
  · rw [startToolCall, if_neg hopen, if_neg hopen]
    let t := s.closeMessageItem.closeReasoningItem
    let target := t.toolNameMap.decode (toolCallName tc)
    let t' := { t with generated := t.generated + 1 }
    let item := inProgressToolItem (ext.itemId t.generated) (toolCallId tc) target
    have hadded : (t'.emit (.outputItemAdded t'.outputIndex item)).shape = t'.shape := shape_emit_quiet t' rfl rfl
    exact OutputShape.ext rfl rfl rfl (callPlaces_insert ..) (congrArg OutputShape.done hadded :) rfl
      (congrArg OutputShape.terminals hadded :) rfl rfl rfl

end

theorem extendToolCall_shape (codec : JsonCodec) (s : ResponsesStreamState) (index : Nat) (arguments : String) :
    (s.extendToolCall codec index arguments).shape = s.shape := by
  unfold extendToolCall
  split
  next => rfl
  next call hcall =>
    let grown := { call with arguments := call.arguments ++ arguments }
    obtain ⟨emittedInput, hgrown, hevent⟩ := toolDeltaEvent_cases codec grown arguments
    let t := { s with toolCalls := s.toolCalls.insert index (toolDeltaEvent codec grown arguments).1 }
    have ht : t.shape = s.shape := by
      refine OutputShape.ext rfl rfl rfl ?_ rfl rfl rfl rfl rfl rfl
      have hplaces := callPlaces_insert s.toolCalls index (toolDeltaEvent codec grown arguments).1
      have hsame : callPlaces s.toolCalls index = some (call.outputIndex, call.itemId) := by
        rw [callPlaces, hcall]
        rfl
      have hindex : (toolDeltaEvent codec grown arguments).1.outputIndex = call.outputIndex := by rw [hgrown]
      have hid : (toolDeltaEvent codec grown arguments).1.itemId = call.itemId := by rw [hgrown]
      rw [hindex, hid, Function.update_eq_self_iff.mpr hsame.symm] at hplaces
      exact hplaces
    dsimp only
    rcases hevent with ⟨hnone, _⟩ | ⟨⟨delta, hdelta⟩, _⟩ | ⟨hdelta, _⟩
    · rw [hnone]
      exact ht
    · rw [hdelta]
      exact (shape_emit_quiet t rfl rfl).trans ht
    · rw [hdelta]
      exact (shape_emit_quiet t rfl rfl).trans ht

theorem handleToolCallDelta_shape (s : ResponsesStreamState) (tc : JsonValue) :
    (s.handleToolCallDelta ext tc).shape = (s.startToolCall ext tc).shape := by
  unfold handleToolCallDelta
  split
  next => exact extendToolCall_shape ..
  next => rfl

end

theorem closeToolCall_shape (codec : JsonCodec) (s : ResponsesStreamState) (index : Nat) :
    ∃ item, (∀ outputIndex id, s.shape.calls index = some (outputIndex, id) → item.id = some id) ∧
      (s.closeToolCall codec index).shape = s.shape.closeCall index item := by
  cases hcall : s.toolCalls.lookup index with
  | none =>
    have hnone : s.shape.calls index = none := by simp [shape, callPlaces, hcall]
    refine ⟨{ itemType := .message }, ?_, ?_⟩
    · intro outputIndex id h
      rw [hnone] at h
      cases h
    · rw [OutputShape.closeCall, hnone, closeToolCall, hcall]
  | some tc =>
    have hsome : s.shape.calls index = some (tc.outputIndex, tc.itemId) := by simp [shape, callPlaces, hcall]
    let item := completedToolItem codec tc.itemId tc.id tc.target tc.arguments
    refine ⟨item, ?_, ?_⟩
    · intro outputIndex id h
      rw [hsome] at h
      cases h
      exact completedToolItem_id ..
    · let erased := { s with toolCalls := s.toolCalls.erase index }
      have herased : erased.shape = { s.shape with calls := Function.update s.shape.calls index none } :=
        OutputShape.ext rfl rfl rfl (callPlaces_erase ..) rfl rfl rfl rfl rfl rfl
      have hquiet : ∀ t : ResponsesStreamState, t.shape = erased.shape → ResponsesStreamState.shape
          { t.emit (.outputItemDone tc.outputIndex item) with completedOutput := t.completedOutput ++ [item] } =
            s.shape.closeCall index item := by
        intro t ht
        have hdone := shape_emit_done t tc.outputIndex item
        have hfinal : ResponsesStreamState.shape
            { t.emit (.outputItemDone tc.outputIndex item) with completedOutput := t.completedOutput ++ [item] } =
            t.shape.addDone tc.outputIndex item :=
          OutputShape.ext rfl rfl rfl rfl (congrArg OutputShape.done hdone :) rfl
            (congrArg OutputShape.terminals hdone :) rfl rfl rfl
        rw [hfinal, ht, herased, OutputShape.closeCall, hsome]
        rfl
      rw [closeToolCall, hcall]
      dsimp only
      cases tc.target.kind with
      | custom | function => exact hquiet _ (shape_emit_quiet erased rfl rfl)
      | toolSearch => exact hquiet erased rfl

section

variable (s)

theorem emitResponseCompleted_shape : s.emitResponseCompleted.shape = s.shape.complete := by
  unfold emitResponseCompleted
  split
  next =>
    have hevent := shape_emit s (.incomplete (s.responseObject "incomplete"))
    exact OutputShape.ext rfl rfl rfl rfl ((congrArg OutputShape.done hevent :).trans (List.append_nil _)) rfl
      (congrArg OutputShape.terminals hevent :) rfl rfl rfl
  next =>
    have hevent := shape_emit s (.completed (s.responseObject "completed"))
    exact OutputShape.ext rfl rfl rfl rfl ((congrArg OutputShape.done hevent :).trans (List.append_nil _)) rfl
      (congrArg OutputShape.terminals hevent :) rfl rfl rfl

theorem emitResponseFailed_shape (message : String) : (s.emitResponseFailed message).shape = s.shape.complete := by
  let error := JsonValue.object [("code", .string "upstream_stream_incomplete"), ("message", .string message)]
  have hevent := shape_emit s (.failed { s.responseObject "failed" with error := some error })
  exact OutputShape.ext rfl rfl rfl rfl ((congrArg OutputShape.done hevent :).trans (List.append_nil _)) rfl
    (congrArg OutputShape.terminals hevent :) rfl rfl rfl

theorem handleStart_shape (chunk : JsonValue) : (s.handleStart chunk).shape = s.shape := by
  unfold handleStart
  split
  next => rfl
  next =>
    let named := { s with
      hasStarted := true
      responseId := ((chunk.get "id").bind JsonValue.asStr).getD s.responseId
      model := ((chunk.get "model").bind JsonValue.asStr).getD s.model
      createdAt := ((chunk.get "created").bind JsonValue.asI64).getD s.createdAt }
    have hcreated : named.emitResponseCreated.shape = s.shape :=
      shape_emit_quiet named rfl rfl
    exact (shape_emit_quiet named.emitResponseCreated rfl rfl).trans hcreated

end

end ResponsesStreamState

end MochiPort

import MochiPort.AnthropicFrames

/-! The reasoning items of a stream. -/

namespace MochiPort

open AnthropicStreamState List

inductive ThinkingBlock where
  | thinking (text signature : String)
  | redactedThinking (data : String)
  deriving DecidableEq

namespace ThinkingBlock

def kind : ThinkingBlock → AnthropicEncryptedContentKind
  | thinking _ _ => .thinking
  | redactedThinking _ => .redactedThinking

def state : ThinkingBlock → String
  | thinking _ signature => signature
  | redactedThinking data => data

def summary : ThinkingBlock → Option (List SummaryPart)
  | thinking text _ => some (if text = "" then [] else [⟨"summary_text", text⟩])
  | redactedThinking _ => none

def toItem (b : ThinkingBlock) (id : Option String) : ResponseItem :=
  { itemType := .reasoning, id := id, status := some "completed", summary := b.summary,
    encryptedContent := some b.state }

end ThinkingBlock

/-- The items of a list of blocks, whatever their ids. -/
def ItemsOf (blocks : List ThinkingBlock) (items : List ResponseItem) : Prop :=
  List.Forall₂ (fun b item => ∃ id, item = ThinkingBlock.toItem b id) blocks items

/-- What the state of the reasoning items depends on in an event. -/
def startedBlock (event : JsonValue) : JsonValue := (event.get "content_block").getD .null

def eventDelta (event : JsonValue) : JsonValue := (event.get "delta").getD .null

def startsBlock (event : JsonValue) (blockType : String) : Bool :=
  stringMember event "type" = some "content_block_start" && stringMember (startedBlock event) "type" = some blockType

def bringsDelta (event : JsonValue) (deltaType : String) : Bool :=
  stringMember event "type" = some "content_block_delta" && stringMember (eventDelta event) "type" = some deltaType

/-- The event starts a block of thinking or adds to one. -/
def concernsThinking (event : JsonValue) : Bool :=
  startsBlock event "thinking" || startsBlock event "redacted_thinking" || bringsDelta event "thinking_delta" ||
    bringsDelta event "signature_delta"

namespace AnthropicStreamState

variable {s : AnthropicStreamState} {ext : AnthropicConverters} {event : JsonValue}

theorem processEvent_other (s : AnthropicStreamState) (ext : AnthropicConverters)
    (h : concernsThinking event = false) : (s.processEvent ext event).reasonings = s.reasonings := by
  simp only [concernsThinking, Bool.or_eq_false_iff] at h
  obtain ⟨⟨⟨hthinking, hredacted⟩, hdelta⟩, hsignature⟩ := h
  unfold processEvent
  split
  next => exact (steady_handleMessageStart s event).reasonings_eq
  next htype =>
    have hstarted := (steady_ensureStarted s).reasonings_eq
    unfold handleContentBlockStart
    dsimp only
    split
    next => exact (quiet_startTextBlock ext _ _).after_close.trans hstarted
    next =>
      split
      next => exact (quiet_startServerToolBlock _ _ _ _).after_close.trans hstarted
      next => exact (quiet_startToolBlock _ _ _ _).after_close.trans hstarted
    next => exact (quiet_startServerToolBlock _ _ _ _).after_close.trans hstarted
    next hblock => simp [startsBlock, startedBlock, htype, hblock] at hthinking
    next hblock => simp [startsBlock, startedBlock, htype, hblock] at hredacted
    next => exact (quiet_attachWebSearchResult _ _ _ _).reasonings_eq.trans hstarted
    next =>
      split
      next => exact (quiet_attachWebSearchResult _ _ _ _).reasonings_eq.trans hstarted
      next => exact hstarted
    next => exact hstarted
  next htype =>
    have hstarted := (steady_ensureStarted s).reasonings_eq
    unfold handleContentBlockDelta
    dsimp only
    split
    next => exact (quiet_handleTextDelta _ _ _).after_close.trans hstarted
    next =>
      split
      next => exact (quiet_handleCitationDelta _ _ _).after_close.trans hstarted
      next => exact (closeReasoningItem_reasonings _).1.trans hstarted
    next hkind => simp [bringsDelta, eventDelta, htype, hkind] at hdelta
    next hkind => simp [bringsDelta, eventDelta, htype, hkind] at hsignature
    next => exact (quiet_handleInputDelta _ _ _ _).after_close.trans hstarted
    next => exact hstarted
  next => exact (quiet_handleContentBlockStop ext s event).reasonings_eq
  next => exact (steady_handleMessageDelta s event).reasonings_eq
  next => exact (handleDone_reasonings ext s).1
  next => rfl

/-- What was done before stays, and the text of a block of thinking is in the open item; without text there may be
no item yet. -/
structure Gathers (s : AnthropicStreamState) (done : List ResponseItem) (text : String) : Prop where
  done_eq : doneReasonings s.emitted = done
  open_eq : text = "" ∧ s.reasoningItem = none ∨
    ∃ item, s.reasoningItem = some item ∧ item.kind = .thinking ∧ item.text = text

theorem gathers_closeReasoningItem (s : AnthropicStreamState) : Gathers s.closeReasoningItem s.reasonings "" := by
  obtain ⟨hreasonings, hnone⟩ := closeReasoningItem_reasonings s
  refine ⟨?_, .inl ⟨rfl, hnone⟩⟩
  rw [← hreasonings, reasonings, hnone]
  exact (append_nil _).symm

variable {done : List ResponseItem} {text : String}

theorem Gathers.ensureStarted (h : Gathers s done text) : Gathers s.ensureStarted done text := by
  have hquiet := steady_ensureStarted s
  exact ⟨hquiet.done_eq.trans h.done_eq, by rw [hquiet.open_eq]; exact h.open_eq⟩

theorem Gathers.ensureReasoningItem (h : Gathers s done text) (ext : Externals) :
    doneReasonings (s.ensureReasoningItem ext .thinking).emitted = done ∧
      ∃ item, (s.ensureReasoningItem ext .thinking).reasoningItem = some item ∧ item.kind = .thinking ∧
        item.text = text := by
  unfold AnthropicStreamState.ensureReasoningItem
  rcases h.open_eq with ⟨rfl, hnone⟩ | ⟨item, hitem, hkind, htext⟩
  · rw [if_neg (by rw [hnone]; exact Bool.false_ne_true)]
    exact ⟨(quiet_addItem ext s _).done_eq.trans h.done_eq, _, rfl, rfl, rfl⟩
  · rw [if_pos (by rw [hitem]; rfl)]
    exact ⟨h.done_eq, item, hitem, hkind, htext⟩

theorem Gathers.handleThinkingDelta (h : Gathers s done text) (ext : Externals) (piece : String) :
    Gathers (s.handleThinkingDelta ext piece) done (text ++ piece) := by
  unfold AnthropicStreamState.handleThinkingDelta
  split
  next hempty =>
    rw [hempty, String.append_empty]
    exact h
  next =>
    obtain ⟨hdone, item, hitem, hkind, htext⟩ := h.ensureReasoningItem ext
    dsimp only
    rw [hitem]
    generalize s.ensureReasoningItem ext .thinking = t at hdone hitem
    have hquiet := @quiet_emitInPart
      { t with reasoningItem := some { item with summaryPartStarted := true, text := item.text ++ piece } }
      item.summaryPartStarted (.reasoningSummaryPartAdded item.itemId item.outputIndex)
      (.reasoningSummaryTextDelta item.itemId item.outputIndex piece) ⟨rfl, rfl⟩ ⟨rfl, rfl⟩
    refine ⟨hquiet.done_eq.trans hdone, .inr ⟨_, hquiet.open_eq, hkind, ?_⟩⟩
    rw [← htext]

theorem Gathers.handleThinkingSignature {text signature : String} (h : Gathers s done text) (ext : Externals)
    (hsignature : signature ≠ "") :
    ∃ id, (s.handleThinkingSignature ext signature).reasonings =
      done ++ [(ThinkingBlock.thinking text signature).toItem id] := by
  obtain ⟨hdone, item, hitem, hkind, htext⟩ := h.ensureReasoningItem ext
  refine ⟨some item.itemId, ?_⟩
  rw [AnthropicStreamState.handleThinkingSignature, keepReasoningState, if_neg hsignature, reasonings]
  dsimp only
  rw [hdone, hitem]
  simp [StreamReasoningItem.toItem, ThinkingBlock.toItem, ThinkingBlock.summary, ThinkingBlock.state, hkind, htext]

theorem handleRedactedThinking_reasonings (s : AnthropicStreamState) (ext : Externals) {data : String}
    (hdata : data ≠ "") :
    ∃ id, (s.closeReasoningItem.handleRedactedThinking ext (some data)).reasonings =
      s.reasonings ++ [(ThinkingBlock.redactedThinking data).toItem id] := by
  obtain ⟨hreasonings, hnone⟩ := closeReasoningItem_reasonings s
  refine ⟨some (ext.itemId s.closeReasoningItem.generated), ?_⟩
  rw [handleRedactedThinking, keepReasoningState, Option.getD_some, if_neg hdata,
    ensureReasoningItem, if_neg (by rw [hnone]; exact Bool.false_ne_true), ← hreasonings]
  have hquiet := (quiet_addItem ext s.closeReasoningItem
    { itemType := .reasoning, status := some "in_progress",
      summary := if AnthropicEncryptedContentKind.redactedThinking = .thinking then some [] else none }).done_eq
  rw [reasonings, reasonings, hnone]
  rw [hquiet]
  simp [StreamReasoningItem.toItem, ThinkingBlock.toItem, ThinkingBlock.summary, ThinkingBlock.state]

end AnthropicStreamState

def anthropicEventTypes : List String :=
  ["message_start", "content_block_start", "content_block_delta", "content_block_stop", "message_delta",
    "message_stop"]

/-- The text that an event within a block of thinking adds to it; an event that is not read adds nothing. -/
def thinkingPiece (event : JsonValue) : Option String :=
  if bringsDelta event "thinking_delta" then stringMember (eventDelta event) "thinking"
  else if anthropicEventTypes.all fun known => stringMember event "type" ≠ some known then some ""
  else none

/-- The events of a stream and the blocks of thinking that they bring, among blocks of other types. -/
inductive ThinkingStream : List JsonValue → List ThinkingBlock → Prop
  | nil : ThinkingStream [] []
  | other {event : JsonValue} {events : List JsonValue} {blocks : List ThinkingBlock}
      (h : concernsThinking event = false) (rest : ThinkingStream events blocks) :
      ThinkingStream (event :: events) blocks
  | thinking {start last : JsonValue} {deltas events : List JsonValue} {pieces : List String} {signature : String}
      {blocks : List ThinkingBlock} (hstart : startsBlock start "thinking" = true)
      (hdeltas : List.Forall₂ (fun event piece => thinkingPiece event = some piece) deltas pieces)
      (hlast : bringsDelta last "signature_delta" = true)
      (hsignature : stringMember (eventDelta last) "signature" = some signature)
      (rest : ThinkingStream events blocks) :
      ThinkingStream (start :: (deltas ++ last :: events))
        (.thinking ((stringMember (startedBlock start) "thinking").getD "" ++ String.join pieces) signature :: blocks)
  | redactedThinking {start : JsonValue} {events : List JsonValue} {data : String} {blocks : List ThinkingBlock}
      (hstart : startsBlock start "redacted_thinking" = true)
      (hdata : stringMember (startedBlock start) "data" = some data) (rest : ThinkingStream events blocks) :
      ThinkingStream (start :: events) (.redactedThinking data :: blocks)

namespace AnthropicStreamState

variable {s : AnthropicStreamState} {ext : AnthropicConverters} {event : JsonValue} {done : List ResponseItem}
  {text : String}

theorem Gathers.processEvent (h : Gathers s done text) (ext : AnthropicConverters) {piece : String}
    (hpiece : thinkingPiece event = some piece) : Gathers (s.processEvent ext event) done (text ++ piece) := by
  unfold thinkingPiece at hpiece
  split at hpiece
  next hdelta =>
    obtain ⟨htype, hkind⟩ := (Bool.and_eq_true ..).mp hdelta
    have htype := of_decide_eq_true htype
    have hkind := of_decide_eq_true hkind
    have hstep : s.processEvent ext event = s.ensureStarted.handleThinkingDelta ext.toExternals piece := by
      unfold eventDelta at hkind hpiece
      simp only [AnthropicStreamState.processEvent, htype, handleContentBlockDelta, hkind, hpiece, Option.getD_some]
    rw [hstep]
    exact h.ensureStarted.handleThinkingDelta ext.toExternals piece
  next =>
    split at hpiece
    next hunknown =>
      have hstep : s.processEvent ext event = s := by
        have hne : ∀ known ∈ anthropicEventTypes, stringMember event "type" ≠ some known :=
          fun known hknown => of_decide_eq_true (all_eq_true.mp hunknown known hknown)
        unfold AnthropicStreamState.processEvent
        split
        next htype => exact absurd htype (hne _ (by simp [anthropicEventTypes]))
        next htype => exact absurd htype (hne _ (by simp [anthropicEventTypes]))
        next htype => exact absurd htype (hne _ (by simp [anthropicEventTypes]))
        next htype => exact absurd htype (hne _ (by simp [anthropicEventTypes]))
        next htype => exact absurd htype (hne _ (by simp [anthropicEventTypes]))
        next htype => exact absurd htype (hne _ (by simp [anthropicEventTypes]))
        next => rfl
      rw [hstep, ← Option.some.inj hpiece, String.append_empty]
      exact h
    next => cases hpiece

theorem Gathers.foldl (h : Gathers s done text) (ext : AnthropicConverters) {deltas : List JsonValue}
    {pieces : List String}
    (hdeltas : List.Forall₂ (fun event piece => thinkingPiece event = some piece) deltas pieces) :
    Gathers (deltas.foldl (AnthropicStreamState.processEvent ext) s) done (text ++ String.join pieces) := by
  induction hdeltas generalizing s text with
  | nil =>
    have hnil : text ++ String.join [] = text := String.append_empty
    rw [hnil]
    exact h
  | cons hpiece _ ih =>
    have hrest := ih (h.processEvent ext hpiece)
    rw [String.append_assoc, ← String.join_cons] at hrest
    exact hrest

theorem processEvent_startThinking (s : AnthropicStreamState) (ext : AnthropicConverters)
    (hstart : startsBlock event "thinking" = true) :
    Gathers (s.processEvent ext event) s.reasonings ((stringMember (startedBlock event) "thinking").getD "") := by
  obtain ⟨htype, hblock⟩ := (Bool.and_eq_true ..).mp hstart
  have htype := of_decide_eq_true htype
  have hblock := of_decide_eq_true hblock
  have hstep : s.processEvent ext event = s.ensureStarted.closeReasoningItem.handleThinkingDelta ext.toExternals
      ((stringMember (startedBlock event) "thinking").getD "") := by
    unfold startedBlock at hblock ⊢
    simp only [processEvent, htype, handleContentBlockStart, hblock]
  have hclosed := gathers_closeReasoningItem s.ensureStarted
  rw [(steady_ensureStarted s).reasonings_eq] at hclosed
  have hgathers := hclosed.handleThinkingDelta ext.toExternals ((stringMember (startedBlock event) "thinking").getD "")
  rw [hstep]
  exact hgathers

theorem Gathers.processEvent_signature (h : Gathers s done text) (ext : AnthropicConverters) {signature : String}
    (hlast : bringsDelta event "signature_delta" = true)
    (hsignature : stringMember (eventDelta event) "signature" = some signature) (hsigned : signature ≠ "") :
    ∃ id, (s.processEvent ext event).reasonings = done ++ [(ThinkingBlock.thinking text signature).toItem id] := by
  obtain ⟨htype, hkind⟩ := (Bool.and_eq_true ..).mp hlast
  have htype := of_decide_eq_true htype
  have hkind := of_decide_eq_true hkind
  have hstep : s.processEvent ext event = s.ensureStarted.handleThinkingSignature ext.toExternals signature := by
    unfold eventDelta at hkind hsignature
    simp only [AnthropicStreamState.processEvent, htype, handleContentBlockDelta, hkind, hsignature, Option.getD_some]
  rw [hstep]
  exact h.ensureStarted.handleThinkingSignature ext.toExternals hsigned

theorem processEvent_startRedacted (s : AnthropicStreamState) (ext : AnthropicConverters) {data : String}
    (hstart : startsBlock event "redacted_thinking" = true)
    (hdata : stringMember (startedBlock event) "data" = some data) (hsent : data ≠ "") :
    ∃ id, (s.processEvent ext event).reasonings = s.reasonings ++ [(ThinkingBlock.redactedThinking data).toItem id] := by
  obtain ⟨htype, hblock⟩ := (Bool.and_eq_true ..).mp hstart
  have htype := of_decide_eq_true htype
  have hblock := of_decide_eq_true hblock
  have hstep : s.processEvent ext event =
      s.ensureStarted.closeReasoningItem.handleRedactedThinking ext.toExternals (some data) := by
    unfold startedBlock at hblock hdata
    simp only [processEvent, htype, handleContentBlockStart, hblock, hdata]
  rw [hstep, ← (steady_ensureStarted s).reasonings_eq]
  exact handleRedactedThinking_reasonings s.ensureStarted ext.toExternals hsent

theorem reasonings_foldl {events : List JsonValue} {blocks : List ThinkingBlock} (h : ThinkingStream events blocks)
    (hstate : ∀ b ∈ blocks, b.state ≠ "") (ext : AnthropicConverters) (s : AnthropicStreamState) :
    ∃ items, ItemsOf blocks items ∧
      (events.foldl (processEvent ext) s).reasonings = s.reasonings ++ items := by
  induction h generalizing s with
  | nil => exact ⟨[], .nil, (append_nil _).symm⟩
  | @other event events blocks hother rest ih =>
    obtain ⟨items, hitems, heq⟩ := ih hstate (s.processEvent ext event)
    exact ⟨items, hitems, heq.trans (by rw [processEvent_other s ext hother])⟩
  | @thinking start last deltas events pieces signature blocks hstart hdeltas hlast hsignature rest ih =>
    have hsigned : signature ≠ "" := hstate _ mem_cons_self
    have hrestState : ∀ b ∈ blocks, b.state ≠ "" := fun b hb => hstate b (mem_cons_of_mem _ hb)
    have hbegin := (processEvent_startThinking s ext hstart).foldl ext hdeltas
    obtain ⟨id, hend⟩ := hbegin.processEvent_signature ext hlast hsignature hsigned
    rw [foldl_cons, foldl_append, foldl_cons]
    obtain ⟨items, hitems, heq⟩ := ih hrestState
      (((deltas.foldl (processEvent ext) (s.processEvent ext start)).processEvent ext last))
    refine ⟨_ :: items, .cons ⟨id, rfl⟩ hitems, ?_⟩
    rw [heq, hend, append_assoc]
    rfl
  | @redactedThinking start events data blocks hstart hdata rest ih =>
    have hsent : data ≠ "" := hstate _ mem_cons_self
    have hrestState : ∀ b ∈ blocks, b.state ≠ "" := fun b hb => hstate b (mem_cons_of_mem _ hb)
    obtain ⟨id, hend⟩ := processEvent_startRedacted s ext hstart hdata hsent
    obtain ⟨items, hitems, heq⟩ := ih hrestState (s.processEvent ext start)
    refine ⟨_ :: items, .cons ⟨id, rfl⟩ hitems, ?_⟩
    rw [foldl_cons, heq, hend, append_assoc]
    rfl

end AnthropicStreamState

theorem ThinkingStream.starts {events : List JsonValue} {blocks : List ThinkingBlock}
    (h : ThinkingStream events blocks) (hne : blocks ≠ []) : events.any isStarting = true := by
  have hstarts : ∀ {event blockType}, startsBlock event blockType = true → isStarting event = true := by
    intro event blockType hstart
    have htype := of_decide_eq_true ((Bool.and_eq_true ..).mp hstart).1
    simp [isStarting, htype]
  induction h with
  | nil => exact absurd rfl hne
  | other _ _ ih => rw [any_cons, ih hne, Bool.or_true]
  | thinking hstart _ _ _ _ _ | redactedThinking hstart _ _ _ => rw [any_cons, hstarts hstart, Bool.true_or]

theorem AnthropicStreamState.doneReasonings_handleDone {events : List JsonValue} {blocks : List ThinkingBlock}
    (h : ThinkingStream events blocks) (hstate : ∀ b ∈ blocks, b.state ≠ "") (ext : AnthropicConverters)
    {s : AnthropicStreamState} (hfresh : s.reasonings = []) :
    ItemsOf blocks (doneReasonings ((events.foldl (processEvent ext) s).handleDone ext).emitted) := by
  obtain ⟨items, hitems, heq⟩ := reasonings_foldl h hstate ext s
  rw [hfresh, nil_append] at heq
  obtain ⟨hdone, hclosed⟩ := handleDone_reasonings ext (events.foldl (processEvent ext) s)
  rw [heq] at hdone
  cases hblocks : blocks with
  | nil =>
    rw [hblocks] at hitems
    have hnil : items = [] := forall₂_nil_left_iff.mp hitems
    rw [hnil, reasonings] at hdone
    rw [(append_eq_nil_iff.mp hdone).1]
    exact List.Forall₂.nil
  | cons b rest =>
    have hstarted : (events.foldl (processEvent ext) s).hasStarted = true := by
      rw [foldl_hasStarted, h.starts (by rw [hblocks]; exact cons_ne_nil _ _), Bool.or_true]
    rw [reasonings, hclosed hstarted, Option.map_none, Option.toList_none, append_nil] at hdone
    rw [hdone, ← hblocks]
    exact hitems

end MochiPort

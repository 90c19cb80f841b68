import MochiPort.AnthropicStream
import MochiPort.ChatStreamSound

/-! What each step of a stream leaves alone. -/

namespace MochiPort

open List

def ResponseItem.isReasoning (item : ResponseItem) : Bool := item.itemType = .reasoning

def ResponseEvent.doneReasoning : ResponseEvent → Option ResponseItem
  | outputItemDone _ item => if item.isReasoning then some item else none
  | _ => none

def doneReasonings (events : List StreamEvent) : List ResponseItem :=
  events.filterMap fun e => e.event.doneReasoning

def StreamReasoningItem.toItem (item : StreamReasoningItem) : ResponseItem :=
  { itemType := .reasoning, id := some item.itemId, status := some "completed",
    summary := if item.kind = .thinking then
      some (if item.text = "" then [] else [⟨"summary_text", item.text⟩]) else none
    encryptedContent := item.encryptedContent }

def isStarting (event : JsonValue) : Bool :=
  ["message_start", "content_block_start", "content_block_delta"].any fun t => stringMember event "type" = some t

namespace AnthropicStreamState

variable {s s' s'' : AnthropicStreamState} {ext : AnthropicConverters}

/-- The reasoning items so far, with the open one as it is. -/
def reasonings (s : AnthropicStreamState) : List ResponseItem :=
  doneReasonings s.emitted ++ (s.reasoningItem.map StreamReasoningItem.toItem).toList

/-- How far the response is, apart from its items. -/
structure Phase where
  hasStarted : Bool
  responseCompleted : Bool
  responseId : String
  model : String
  createdAt : Int
  usage : Option Usage
  stopReason : Option String
  toolNameMap : ToolNameMap
  profile : AnthropicProviderProfile

def phase (s : AnthropicStreamState) : Phase :=
  ⟨s.hasStarted, s.responseCompleted, s.responseId, s.model, s.createdAt, s.usage, s.stopReason, s.toolNameMap,
    s.profile⟩

/-- Events came, but the response did not end. -/
def Grows (s s' : AnthropicStreamState) : Prop :=
  ∃ new, s'.emitted = s.emitted ++ new ∧ ∀ e ∈ new, e.event.isTerminal = false

structure Steady (s s' : AnthropicStreamState) : Prop where
  grows : Grows s s'
  open_eq : s'.reasoningItem = s.reasoningItem
  done_eq : doneReasonings s'.emitted = doneReasonings s.emitted

/-- Nothing happened to the phase and to the reasoning items. -/
structure Quiet (s s' : AnthropicStreamState) : Prop extends Steady s s' where
  phase_eq : s'.phase = s.phase

theorem Grows.refl (s : AnthropicStreamState) : Grows s s :=
  ⟨[], (append_nil _).symm, fun _ h => absurd h not_mem_nil⟩

theorem Grows.trans (h : Grows s s') (h' : Grows s' s'') : Grows s s'' := by
  obtain ⟨new, hnew, hall⟩ := h
  obtain ⟨new', hnew', hall'⟩ := h'
  refine ⟨new ++ new', by rw [hnew', hnew, append_assoc], ?_⟩
  intro e he
  rcases mem_append.mp he with he | he
  · exact hall e he
  · exact hall' e he

theorem grows_of_eq (hemitted : s'.emitted = s.emitted) : Grows s s' :=
  ⟨[], hemitted.trans (append_nil _).symm, fun _ h => absurd h not_mem_nil⟩

section

variable (s)

theorem grows_emit {event : ResponseEvent} (h : event.isTerminal = false) : Grows s (s.emit event) := by
  refine ⟨[⟨s.sequenceNumber, event⟩], rfl, ?_⟩
  intro e he
  rw [mem_singleton.mp he]
  exact h

theorem Steady.refl : Steady s s := ⟨Grows.refl s, rfl, rfl⟩

end

theorem Steady.trans (h : Steady s s') (h' : Steady s' s'') : Steady s s'' :=
  ⟨h.grows.trans h'.grows, h'.open_eq.trans h.open_eq, h'.done_eq.trans h.done_eq⟩

theorem Steady.reasonings_eq (h : Steady s s') : s'.reasonings = s.reasonings := by
  rw [reasonings, reasonings, h.open_eq, h.done_eq]

theorem Quiet.refl (s : AnthropicStreamState) : Quiet s s := ⟨Steady.refl s, rfl⟩

theorem Quiet.trans (h : Quiet s s') (h' : Quiet s' s'') : Quiet s s'' :=
  ⟨h.toSteady.trans h'.toSteady, h'.phase_eq.trans h.phase_eq⟩

theorem steady_of_eq (hopen : s'.reasoningItem = s.reasoningItem) (hemitted : s'.emitted = s.emitted) :
    Steady s s' := ⟨grows_of_eq hemitted, hopen, congrArg doneReasonings hemitted⟩

theorem quiet_of_eq (hopen : s'.reasoningItem = s.reasoningItem) (hphase : s'.phase = s.phase)
    (hemitted : s'.emitted = s.emitted) : Quiet s s' := ⟨steady_of_eq hopen hemitted, hphase⟩

theorem Steady.after (h : Steady s' s'') (hopen : s'.reasoningItem = s.reasoningItem)
    (hemitted : s'.emitted = s.emitted) : Steady s s'' := (steady_of_eq hopen hemitted).trans h

theorem Quiet.after (h : Quiet s' s'') (hopen : s'.reasoningItem = s.reasoningItem) (hphase : s'.phase = s.phase)
    (hemitted : s'.emitted = s.emitted) : Quiet s s'' := (quiet_of_eq hopen hphase hemitted).trans h

section

variable (s)

theorem doneReasonings_emit (event : ResponseEvent) :
    doneReasonings (s.emit event).emitted = doneReasonings s.emitted ++ event.doneReasoning.toList := by
  simp only [emit, doneReasonings, filterMap_append]
  cases h : event.doneReasoning with
  | none | some item => simp [h]

theorem quiet_emit {event : ResponseEvent} (hterminal : event.isTerminal = false)
    (h : event.doneReasoning = none) : Quiet s (s.emit event) := by
  refine ⟨⟨grows_emit s hterminal, rfl, ?_⟩, rfl⟩
  rw [doneReasonings_emit, h]
  exact append_nil _

theorem quiet_skipSeq : Quiet s s.skipSeq := quiet_of_eq rfl rfl rfl

end

def IsItemEvent (event : ResponseEvent) : Prop := event.isTerminal = false ∧ event.doneReasoning = none

theorem quiet_emitInPart (s : AnthropicStreamState) (started : Bool) {opening event : ResponseEvent}
    (hopening : IsItemEvent opening) (h : IsItemEvent event) : Quiet s (s.emitInPart started opening event) := by
  cases started with
  | true => exact (quiet_skipSeq s).trans (quiet_emit _ h.1 h.2)
  | false => exact (quiet_emit s hopening.1 hopening.2).trans (quiet_emit _ h.1 h.2)

theorem quiet_addItem (ext : Externals) (s : AnthropicStreamState) (item : ResponseItem) :
    Quiet s (s.addItem ext item) := by
  have hemit :=
    @quiet_emit s (.outputItemAdded s.outputIndex { item with id := some (ext.itemId s.generated) }) rfl rfl
  exact hemit.trans (quiet_of_eq rfl rfl rfl)

section

variable (s)

theorem quiet_finishItem (outputIndex : Nat) {item : ResponseItem}
    (h : item.itemType ≠ .reasoning) : Quiet s (s.finishItem outputIndex item) := by
  have hdone : (ResponseEvent.outputItemDone outputIndex item).doneReasoning = none := by
    simp [ResponseEvent.doneReasoning, ResponseItem.isReasoning, h]
  exact (quiet_emit s rfl hdone).trans (quiet_of_eq rfl rfl rfl)

theorem closeReasoningItem_reasonings :
    s.closeReasoningItem.reasonings = s.reasonings ∧ s.closeReasoningItem.reasoningItem = none := by
  unfold closeReasoningItem
  split
  next hnone => exact ⟨rfl, hnone⟩
  next item hitem =>
    refine ⟨?_, ?_⟩
    · have hopen : s.reasonings = doneReasonings s.emitted ++ [item.toItem] := by rw [reasonings, hitem]; rfl
      rw [hopen, reasonings]
      split
      next =>
        simp only [finishItem, doneReasonings_emit]
        simp [ResponseEvent.doneReasoning, ResponseItem.isReasoning, StreamReasoningItem.toItem, emit]
      next =>
        simp only [finishItem, doneReasonings_emit]
        simp [ResponseEvent.doneReasoning, ResponseItem.isReasoning, StreamReasoningItem.toItem, emit]
    · split
      next => rfl
      next => rfl

theorem quiet_closeMessageItem : Quiet s s.closeMessageItem := by
  unfold closeMessageItem
  split
  next => exact Quiet.refl s
  next item hitem =>
    refine Quiet.trans ?_ (quiet_finishItem _ _ (fun h => ItemType.noConfusion h))
    split
    next =>
      exact ((quiet_emit _ rfl rfl).trans (quiet_emit _ rfl rfl)).after rfl rfl rfl
    next => exact quiet_of_eq rfl rfl rfl

end

theorem quiet_ensureMessageItem (ext : Externals) (s : AnthropicStreamState) : Quiet s (s.ensureMessageItem ext) := by
  unfold ensureMessageItem
  split
  next => exact Quiet.refl s
  next => exact (quiet_addItem ext s _).trans (quiet_of_eq rfl rfl rfl)

theorem quiet_emitMessageText (ext : Externals) (s : AnthropicStreamState) (text : String) :
    Quiet s (s.emitMessageText ext text) := by
  unfold emitMessageText
  refine (quiet_ensureMessageItem ext s).trans ?_
  dsimp only
  split
  next => exact (quiet_skipSeq _).trans (quiet_skipSeq _)
  next => exact (quiet_emitInPart _ _ ⟨rfl, rfl⟩ ⟨rfl, rfl⟩).after rfl rfl rfl

theorem quiet_handleTextDelta (ext : AnthropicConverters) (s : AnthropicStreamState) (text : String) :
    Quiet s (s.handleTextDelta ext text) := by
  unfold handleTextDelta
  split
  next => exact Quiet.refl s
  next =>
    split
    next =>
      dsimp only
      split
      next => exact (quiet_emitMessageText _ _ _).after rfl rfl rfl
      next => exact quiet_of_eq rfl rfl rfl
    next => exact quiet_emitMessageText _ _ _

theorem quiet_handleCitationDelta (ext : Externals) (s : AnthropicStreamState) (citation : JsonValue) :
    Quiet s (s.handleCitationDelta ext citation) := by
  unfold handleCitationDelta
  dsimp only
  split
  next => exact Quiet.refl s
  next =>
    refine (quiet_ensureMessageItem ext s).trans ?_
    split
    next => exact (quiet_skipSeq _).trans (quiet_skipSeq _)
    next => exact (quiet_emitInPart _ _ ⟨rfl, rfl⟩ ⟨rfl, rfl⟩).after rfl rfl rfl

theorem quiet_flushGlmPendingText (ext : AnthropicConverters) (s : AnthropicStreamState) :
    Quiet s (s.flushGlmPendingText ext) := by
  unfold flushGlmPendingText
  split
  next => exact Quiet.refl s
  next =>
    refine Quiet.trans ?_ (quiet_closeMessageItem _)
    split
    next => exact (quiet_emitMessageText _ _ _).after rfl rfl rfl
    next => exact quiet_of_eq rfl rfl rfl

section

variable (codec : JsonCodec)
include codec

theorem toolDeltaEvent_isItemEvent (state : ToolCallState) (rawDelta : String) :
    ∀ event ∈ (toolDeltaEvent codec state rawDelta).2, IsItemEvent event := by
  intro event hevent
  obtain ⟨_, _, ⟨hnone, -⟩ | ⟨⟨delta, hdelta⟩, -⟩ | ⟨hdelta, -⟩⟩ := toolDeltaEvent_cases codec state rawDelta
  · rw [hnone] at hevent
    cases hevent
  · rw [hdelta] at hevent
    rw [← Option.some.inj hevent]
    exact ⟨rfl, rfl⟩
  · rw [hdelta] at hevent
    rw [← Option.some.inj hevent]
    exact ⟨rfl, rfl⟩

theorem quiet_handleToolDelta (s : AnthropicStreamState) (index : Nat) (partialJson : String) :
    Quiet s (s.handleToolDelta codec index partialJson) := by
  unfold handleToolDelta
  split
  next => exact Quiet.refl s
  next =>
    split
    next => exact Quiet.refl s
    next state _ =>
      have hevents := toolDeltaEvent_isItemEvent codec { state with arguments := state.arguments ++ partialJson }
        partialJson
      dsimp only
      split
      next event hevent => exact (quiet_emit _ (hevents event hevent).1 (hevents event hevent).2).after rfl rfl rfl
      next => exact quiet_of_eq rfl rfl rfl

theorem completedToolItem_type (itemId callId : String) (target : ToolCallTarget)
    (arguments : String) : (completedToolItem codec itemId callId target arguments).itemType ≠ .reasoning := by
  unfold completedToolItem
  split
  next => exact fun h => ItemType.noConfusion h
  next => exact fun h => ItemType.noConfusion h
  next => exact fun h => ItemType.noConfusion h

theorem quiet_closeToolBlock (s : AnthropicStreamState) (index : Nat) : Quiet s (s.closeToolBlock codec index) := by
  unfold closeToolBlock
  split
  next => exact Quiet.refl s
  next state _ =>
    refine Quiet.trans ?_ (quiet_finishItem _ _ (completedToolItem_type codec _ _ _ _))
    split
    next => exact (quiet_emit _ rfl rfl).after rfl rfl rfl
    next => exact (quiet_emit _ rfl rfl).after rfl rfl rfl
    next => exact quiet_of_eq rfl rfl rfl

omit codec in
theorem quiet_emitWebSearchAddedIfReady (s : AnthropicStreamState) (itemId callId : String) (input : JsonValue) :
    Quiet s (s.emitWebSearchAddedIfReady itemId callId input).1 := by
  unfold emitWebSearchAddedIfReady
  split
  next => exact Quiet.refl s
  next =>
    exact (((quiet_emit _ rfl rfl).trans (quiet_emit _ rfl rfl)).trans (quiet_emit _ rfl rfl)).after rfl rfl rfl

theorem quiet_handleWebSearchDelta (s : AnthropicStreamState) (index : Nat)
    (partialJson : String) : Quiet s (s.handleWebSearchDelta codec index partialJson) := by
  unfold handleWebSearchDelta
  split
  next => exact Quiet.refl s
  next =>
    split
    next => exact Quiet.refl s
    next state _ =>
      dsimp only
      split
      next => exact (quiet_emitWebSearchAddedIfReady _ _ _ _).trans (quiet_of_eq rfl rfl rfl)
      next => exact quiet_of_eq rfl rfl rfl

theorem quiet_closeWebSearchBlock (s : AnthropicStreamState) (index : Nat) :
    Quiet s (s.closeWebSearchBlock codec index) := by
  unfold closeWebSearchBlock
  split
  next => exact Quiet.refl s
  next state _ =>
    dsimp only
    generalize hready : (if state.outputIndex.isNone = true then _ else _) = ready
    have hquiet : Quiet s ready.1 := by
      subst hready
      split
      next => exact (quiet_emitWebSearchAddedIfReady _ _ _ _).after rfl rfl rfl
      next => exact quiet_of_eq rfl rfl rfl
    split
    next => exact hquiet
    next =>
      refine Quiet.trans ?_ (quiet_finishItem _ _ (fun h => ItemType.noConfusion h))
      split
      next => exact hquiet
      next => exact hquiet.trans (quiet_emit _ rfl rfl)

theorem quiet_attachWebSearchResult (s : AnthropicStreamState) (index : Nat)
    (block : JsonValue) : Quiet s (s.attachWebSearchResult codec index block) := by
  unfold attachWebSearchResult
  split
  next => exact Quiet.refl s
  next =>
    split
    next => exact Quiet.refl s
    next => exact (quiet_closeWebSearchBlock _ _ _).after rfl rfl rfl

theorem quiet_closeWebSearchToolUseBlock (s : AnthropicStreamState) (index : Nat) :
    Quiet s (s.closeWebSearchToolUseBlock codec index) := by
  unfold closeWebSearchToolUseBlock
  split
  next => exact quiet_closeWebSearchBlock _ _ _
  next => exact Quiet.refl s

end

section

variable (s)

theorem steady_mergeUsage (usage : Option Usage) : Steady s (s.mergeUsage usage) := by
  unfold mergeUsage
  split
  next => exact Steady.refl s
  next =>
    split
    next => exact steady_of_eq rfl rfl
    next => exact steady_of_eq rfl rfl

theorem quiet_announce : Quiet s s.emitResponseCreated.emitResponseInProgress :=
  (quiet_emit s rfl rfl).trans (quiet_emit _ rfl rfl)

theorem steady_ensureStarted : Steady s s.ensureStarted := by
  unfold ensureStarted
  split
  next => exact Steady.refl s
  next => exact (quiet_announce _).toSteady.after rfl rfl

theorem steady_handleMessageStart (event : JsonValue) : Steady s (s.handleMessageStart event) := by
  unfold handleMessageStart
  split
  next => exact Steady.refl s
  next => exact ((steady_mergeUsage _ _).trans (quiet_announce _).toSteady).after rfl rfl

theorem steady_handleMessageDelta (event : JsonValue) : Steady s (s.handleMessageDelta event) :=
  (steady_mergeUsage _ _).after rfl rfl

end

theorem quiet_foldl {α : Type} {f : AnthropicStreamState → α → AnthropicStreamState}
    (h : ∀ s a, Quiet s (f s a)) (as : List α) (s : AnthropicStreamState) : Quiet s (as.foldl f s) := by
  induction as generalizing s with
  | nil => exact Quiet.refl s
  | cons a as ih => exact (h s a).trans (ih (f s a))

theorem Quiet.after_close (h : Quiet s.closeReasoningItem s') : s'.reasonings = s.reasonings :=
  h.reasonings_eq.trans (closeReasoningItem_reasonings s).1

theorem quiet_startToolBlock (ext : Externals) (s : AnthropicStreamState) (index : Nat) (block : JsonValue) :
    Quiet s.closeReasoningItem (s.startToolBlock ext index block) := by
  have hclosed := quiet_closeMessageItem s.closeReasoningItem
  refine hclosed.trans ?_
  unfold startToolBlock
  dsimp only
  split
  next => exact Quiet.refl _
  next => exact (quiet_addItem ext _ _).trans (quiet_of_eq rfl rfl rfl)

theorem quiet_startServerToolBlock (ext : Externals) (s : AnthropicStreamState) (index : Nat)
    (block : JsonValue) : Quiet s.closeReasoningItem (s.startServerToolBlock ext index block) := by
  have hclosed := quiet_closeMessageItem s.closeReasoningItem
  refine hclosed.trans ?_
  unfold startServerToolBlock
  dsimp only
  split
  next => exact Quiet.refl _
  next =>
    split
    next => exact Quiet.refl _
    next =>
      generalize hready : emitWebSearchAddedIfReady _ _ _ _ = ready
      have hquiet : Quiet s.closeReasoningItem.closeMessageItem ready.1 := by
        rw [← hready]
        exact (quiet_emitWebSearchAddedIfReady _ _ _ _).after rfl rfl rfl
      exact hquiet.trans (quiet_of_eq rfl rfl rfl)

theorem quiet_startTextBlock (ext : AnthropicConverters) (s : AnthropicStreamState) (block : JsonValue) :
    Quiet s.closeReasoningItem (s.startTextBlock ext block) := by
  refine Quiet.trans ?_ (quiet_handleTextDelta _ _ _)
  refine Quiet.trans ?_ (quiet_foldl (quiet_handleCitationDelta ext.toExternals) _ _)
  split
  next => exact quiet_of_eq rfl rfl rfl
  next => exact quiet_ensureMessageItem _ _

theorem quiet_handleInputDelta (codec : JsonCodec) (s : AnthropicStreamState) (index : Nat) (partialJson : String) :
    Quiet s (s.handleInputDelta codec index partialJson) := by
  unfold handleInputDelta
  split
  next => exact quiet_handleWebSearchDelta _ _ _ _
  next => exact quiet_handleToolDelta _ _ _ _

section

variable (ext)

theorem quiet_handleContentBlockStop (s : AnthropicStreamState) (event : JsonValue) :
    Quiet s (s.handleContentBlockStop ext event) :=
  ((quiet_flushGlmPendingText ext s).trans (quiet_closeToolBlock _ _ _)).trans
    (quiet_closeWebSearchToolUseBlock _ _ _)

theorem quiet_closeOpenItems (s : AnthropicStreamState) : Quiet s.closeReasoningItem (s.closeOpenItems ext) := by
  have htext := (quiet_flushGlmPendingText ext s.closeReasoningItem).trans (quiet_closeMessageItem _)
  unfold closeOpenItems
  dsimp only
  generalize ((s.closeReasoningItem).flushGlmPendingText ext).closeMessageItem = t at htext ⊢
  have htools := quiet_foldl (quiet_closeToolBlock ext.codec) (t.contentBlocks.keys.insertionSort (· ≤ ·)) t
  generalize List.foldl (closeToolBlock ext.codec) _ _ = u at htools ⊢
  have hsearches := quiet_foldl (quiet_closeWebSearchBlock ext.codec) (u.webSearchBlocks.keys.insertionSort (· ≤ ·)) u
  exact htext.trans (htools.trans hsearches)

theorem handleDone_reasonings (s : AnthropicStreamState) :
    (s.handleDone ext).reasonings = s.reasonings ∧
      (s.hasStarted = true → (s.handleDone ext).reasoningItem = none) := by
  unfold handleDone
  split
  next hstarted =>
    refine ⟨rfl, fun h => ?_⟩
    rw [h] at hstarted
    cases hstarted
  next =>
    have hclosed := closeReasoningItem_reasonings s
    have hquiet := quiet_closeOpenItems ext s
    dsimp only
    generalize s.closeOpenItems ext = u at hquiet ⊢
    split
    next =>
      have hdone : doneReasonings u.emitResponseCompleted.emitted = doneReasonings u.emitted := by
        unfold emitResponseCompleted
        rw [doneReasonings_emit]
        split
        next => exact append_nil _
        next => exact append_nil _
      have hopen : u.emitResponseCompleted.reasoningItem = u.reasoningItem := rfl
      refine ⟨?_, fun _ => hopen.trans (hquiet.open_eq.trans hclosed.2)⟩
      rw [reasonings, hdone, hopen]
      exact hquiet.after_close
    next => exact ⟨hquiet.after_close, fun _ => hquiet.open_eq.trans hclosed.2⟩

end

/-- The phase is the same, and the response did not end. -/
structure Continues (s s' : AnthropicStreamState) : Prop where
  grows : Grows s s'
  phase_eq : s'.phase = s.phase

theorem Continues.refl (s : AnthropicStreamState) : Continues s s := ⟨Grows.refl s, rfl⟩

theorem Continues.trans (h : Continues s s') (h' : Continues s' s'') : Continues s s'' :=
  ⟨h.grows.trans h'.grows, h'.phase_eq.trans h.phase_eq⟩

theorem Quiet.continues (h : Quiet s s') : Continues s s' := ⟨h.grows, h.phase_eq⟩

theorem continues_of_eq (hphase : s'.phase = s.phase) (hemitted : s'.emitted = s.emitted) : Continues s s' :=
  ⟨grows_of_eq hemitted, hphase⟩

theorem Continues.after (h : Continues s' s'') (hphase : s'.phase = s.phase) (hemitted : s'.emitted = s.emitted) :
    Continues s s'' := (continues_of_eq hphase hemitted).trans h

section

variable (s)

theorem continues_emit {event : ResponseEvent} (h : event.isTerminal = false) :
    Continues s (s.emit event) := ⟨grows_emit s h, rfl⟩

theorem continues_finishItem (outputIndex : Nat) (item : ResponseItem) : Continues s (s.finishItem outputIndex item) :=
  (@continues_emit s (.outputItemDone outputIndex item) rfl).trans (continues_of_eq rfl rfl)

theorem continues_closeReasoningItem : Continues s s.closeReasoningItem := by
  unfold closeReasoningItem
  split
  next => exact Continues.refl s
  next =>
    refine Continues.trans ?_ (continues_finishItem _ _ _)
    split
    next => exact ((continues_emit _ rfl).trans (continues_emit _ rfl)).after rfl rfl
    next => exact continues_of_eq rfl rfl

end

theorem continues_ensureReasoningItem (ext : Externals) (s : AnthropicStreamState)
    (kind : AnthropicEncryptedContentKind) : Continues s (s.ensureReasoningItem ext kind) := by
  unfold ensureReasoningItem
  split
  next => exact Continues.refl s
  next => exact (quiet_addItem ext s _).continues.trans (continues_of_eq rfl rfl)

theorem continues_handleThinkingDelta (ext : Externals) (s : AnthropicStreamState) (text : String) :
    Continues s (s.handleThinkingDelta ext text) := by
  unfold handleThinkingDelta
  split
  next => exact Continues.refl s
  next =>
    refine (continues_ensureReasoningItem ext s .thinking).trans ?_
    dsimp only
    split
    next => exact continues_of_eq rfl rfl
    next => exact (quiet_emitInPart _ _ ⟨rfl, rfl⟩ ⟨rfl, rfl⟩).continues.after rfl rfl

theorem continues_keepReasoningState (ext : Externals) (s : AnthropicStreamState)
    (kind : AnthropicEncryptedContentKind) (content : String) :
    Continues s (s.keepReasoningState ext kind content) := by
  unfold keepReasoningState
  split
  next => exact Continues.refl s
  next => exact (continues_ensureReasoningItem ext s kind).trans (continues_of_eq rfl rfl)

theorem continues_closeOpenItems (ext : AnthropicConverters) (s : AnthropicStreamState) :
    Continues s (s.closeOpenItems ext) :=
  (continues_closeReasoningItem s).trans (quiet_closeOpenItems ext s).continues

theorem Quiet.continues_after_close (h : Quiet s.closeReasoningItem s') : Continues s s' :=
  (continues_closeReasoningItem s).trans h.continues

section

variable (ext)

theorem continues_handleContentBlockStart (s : AnthropicStreamState)
    (event : JsonValue) : Continues s.ensureStarted (s.handleContentBlockStart ext event) := by
  unfold handleContentBlockStart
  dsimp only
  split
  next => exact (quiet_startTextBlock ext _ _).continues_after_close
  next =>
    split
    next => exact (quiet_startServerToolBlock _ _ _ _).continues_after_close
    next => exact (quiet_startToolBlock _ _ _ _).continues_after_close
  next => exact (quiet_startServerToolBlock _ _ _ _).continues_after_close
  next => exact (continues_closeReasoningItem _).trans (continues_handleThinkingDelta _ _ _)
  next => exact (continues_closeReasoningItem _).trans (continues_keepReasoningState _ _ _ _)
  next => exact (quiet_attachWebSearchResult _ _ _ _).continues
  next =>
    split
    next => exact (quiet_attachWebSearchResult _ _ _ _).continues
    next => exact Continues.refl _
  next => exact Continues.refl _

theorem continues_handleContentBlockDelta (s : AnthropicStreamState)
    (event : JsonValue) : Continues s.ensureStarted (s.handleContentBlockDelta ext event) := by
  unfold handleContentBlockDelta
  dsimp only
  split
  next => exact (quiet_handleTextDelta _ _ _).continues_after_close
  next =>
    split
    next => exact (quiet_handleCitationDelta _ _ _).continues_after_close
    next => exact continues_closeReasoningItem _
  next => exact continues_handleThinkingDelta _ _ _
  next => exact continues_keepReasoningState _ _ _ _
  next => exact (quiet_handleInputDelta _ _ _ _).continues_after_close
  next => exact Continues.refl _

end

section

variable (s)

theorem ensureStarted_hasStarted : s.ensureStarted.hasStarted = true := by
  unfold ensureStarted
  split
  next h => exact h
  next => rfl

theorem handleMessageStart_hasStarted (event : JsonValue) : (s.handleMessageStart event).hasStarted = true := by
  unfold handleMessageStart
  split
  next h => exact h
  next =>
    dsimp only
    unfold mergeUsage
    split
    next => rfl
    next =>
      split
      next => rfl
      next => rfl

theorem mergeUsage_hasStarted (usage : Option Usage) : (s.mergeUsage usage).hasStarted = s.hasStarted := by
  unfold mergeUsage
  split
  next => rfl
  next =>
    split
    next => rfl
    next => rfl

end

theorem Continues.hasStarted_eq (h : Continues s s') : s'.hasStarted = s.hasStarted :=
  congrArg Phase.hasStarted h.phase_eq

section

variable (ext)

section

variable (s)

theorem handleDone_hasStarted : (s.handleDone ext).hasStarted = s.hasStarted := by
  have hclose := (continues_closeOpenItems ext s).hasStarted_eq
  unfold handleDone
  split
  next => rfl
  next =>
    dsimp only
    split
    next => exact hclose
    next => exact hclose

theorem processEvent_hasStarted (event : JsonValue) :
    (s.processEvent ext event).hasStarted = (s.hasStarted || isStarting event) := by
  unfold processEvent isStarting
  split
  next htype => simp [htype, handleMessageStart_hasStarted]
  next htype =>
    rw [(continues_handleContentBlockStart ext s event).hasStarted_eq, ensureStarted_hasStarted]
    simp [htype]
  next htype =>
    rw [(continues_handleContentBlockDelta ext s event).hasStarted_eq, ensureStarted_hasStarted]
    simp [htype]
  next htype =>
    rw [(quiet_handleContentBlockStop ext s event).continues.hasStarted_eq]
    simp [htype]
  next htype => simp [htype, handleMessageDelta, mergeUsage_hasStarted]
  next htype => simp [htype, handleDone_hasStarted]
  next h₁ h₂ h₃ _ _ _ =>
    rw [any_cons, any_cons, any_cons, any_nil, decide_eq_false h₁, decide_eq_false h₂,
      decide_eq_false h₃]
    exact (Bool.or_false _).symm

end

theorem foldl_hasStarted (events : List JsonValue) (s : AnthropicStreamState) :
    (events.foldl (processEvent ext) s).hasStarted = (s.hasStarted || events.any isStarting) := by
  induction events generalizing s with
  | nil => simp
  | cons event events ih => rw [foldl_cons, ih, processEvent_hasStarted, any_cons, Bool.or_assoc]

end

end AnthropicStreamState

end MochiPort

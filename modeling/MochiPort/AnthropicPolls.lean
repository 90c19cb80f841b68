import MochiPort.ChatSse

namespace MochiPort

open AnthropicSseToResponsesSse AnthropicStreamState List

namespace AnthropicStreamState

variable {s t : AnthropicStreamState}

structure Closed (s : AnthropicStreamState) : Prop where
  reasoning : s.reasoningItem = none
  message : s.messageItem = none
  pending : s.glmPendingText = none
  calls : s.contentBlocks = ∅
  searches : s.webSearchBlocks = ∅

theorem closeOpenItems_of_closed (h : Closed s) (ext : AnthropicConverters) : s.closeOpenItems ext = s := by
  have hreasoning : s.closeReasoningItem = s := by rw [closeReasoningItem, h.reasoning]
  have hpending : s.flushGlmPendingText ext = s := by rw [flushGlmPendingText, h.pending]
  have hmessage : s.closeMessageItem = s := by rw [closeMessageItem, h.message]
  rw [closeOpenItems, hreasoning, hpending, hmessage, h.calls]
  show List.foldl (closeWebSearchBlock ext.codec) s (s.webSearchBlocks.keys.insertionSort (· ≤ ·)) = s
  rw [h.searches]
  rfl

structure SameText (s t : AnthropicStreamState) : Prop where
  reasoning : t.reasoningItem = s.reasoningItem
  message : t.messageItem = s.messageItem
  pending : t.glmPendingText = s.glmPendingText

theorem SameText.trans {u : AnthropicStreamState} (h : SameText s t) (h' : SameText t u) : SameText s u :=
  ⟨h'.reasoning.trans h.reasoning, h'.message.trans h.message, h'.pending.trans h.pending⟩

theorem closeToolBlock_frame (codec : JsonCodec) (s : AnthropicStreamState) (index : Nat) :
    SameText s (s.closeToolBlock codec index) ∧
      (s.closeToolBlock codec index).webSearchBlocks = s.webSearchBlocks ∧
      ∀ other, (s.closeToolBlock codec index).contentBlocks.lookup other =
        if other = index then none else s.contentBlocks.lookup other := by
  unfold closeToolBlock
  split
  next hnone =>
    refine ⟨⟨rfl, rfl, rfl⟩, rfl, fun other => ?_⟩
    split
    next heq => rw [heq, hnone]
    next => rfl
  next state _ =>
    have herase : ∀ other, (s.contentBlocks.erase index).lookup other =
        if other = index then none else s.contentBlocks.lookup other := Table.lookup_erase_eq _ _
    cases state.target.kind with
    | custom | function | toolSearch => exact ⟨⟨rfl, rfl, rfl⟩, rfl, herase⟩

theorem closeWebSearchBlock_frame (codec : JsonCodec) (s : AnthropicStreamState) (index : Nat) :
    SameText s (s.closeWebSearchBlock codec index) ∧
      (s.closeWebSearchBlock codec index).contentBlocks = s.contentBlocks ∧
      ∀ other, (s.closeWebSearchBlock codec index).webSearchBlocks.lookup other =
        if other = index then none else s.webSearchBlocks.lookup other := by
  unfold closeWebSearchBlock
  split
  next hnone =>
    refine ⟨⟨rfl, rfl, rfl⟩, rfl, fun other => ?_⟩
    split
    next heq => rw [heq, hnone]
    next => rfl
  next state _ =>
    have herase : ∀ other, (s.webSearchBlocks.erase index).lookup other =
        if other = index then none else s.webSearchBlocks.lookup other := Table.lookup_erase_eq _ _
    have hready : ∀ (t : AnthropicStreamState) input,
        SameText t (t.emitWebSearchAddedIfReady state.itemId state.callId input).1 ∧
          (t.emitWebSearchAddedIfReady state.itemId state.callId input).1.contentBlocks = t.contentBlocks ∧
          (t.emitWebSearchAddedIfReady state.itemId state.callId input).1.webSearchBlocks = t.webSearchBlocks := by
      intro t input
      unfold emitWebSearchAddedIfReady
      split
      next => exact ⟨⟨rfl, rfl, rfl⟩, rfl, rfl⟩
      next => exact ⟨⟨rfl, rfl, rfl⟩, rfl, rfl⟩
    dsimp only
    generalize (if state.input = .object [] ∧ state.arguments ≠ "" then _ else state.input) = input
    generalize hread : (if state.outputIndex.isNone = true then _ else _) = ready
    have hframe : SameText s ready.1 ∧ ready.1.contentBlocks = s.contentBlocks ∧
        ready.1.webSearchBlocks = s.webSearchBlocks.erase index := by
      subst hread
      split
      next =>
        obtain ⟨htext, hcalls, hsearches⟩ := hready { s with webSearchBlocks := s.webSearchBlocks.erase index } input
        exact ⟨⟨htext.reasoning, htext.message, htext.pending⟩, hcalls, hsearches⟩
      next => exact ⟨⟨rfl, rfl, rfl⟩, rfl, rfl⟩
    obtain ⟨htext, hcalls, hsearches⟩ := hframe
    rw [← hsearches] at herase
    split
    next => exact ⟨htext, hcalls, herase⟩
    next =>
      split
      next => exact ⟨⟨htext.reasoning, htext.message, htext.pending⟩, hcalls, herase⟩
      next => exact ⟨⟨htext.reasoning, htext.message, htext.pending⟩, hcalls, herase⟩

theorem foldl_frame {V W : Type} {close : AnthropicStreamState → Nat → AnthropicStreamState}
    {blocks : AnthropicStreamState → Table Nat V} {others : AnthropicStreamState → W}
    (h : ∀ s index, SameText s (close s index) ∧ others (close s index) = others s ∧
      ∀ other, (blocks (close s index)).lookup other = if other = index then none else (blocks s).lookup other)
    (indices : List Nat) (s : AnthropicStreamState) :
    SameText s (indices.foldl close s) ∧ others (indices.foldl close s) = others s ∧
      ∀ other, (blocks (indices.foldl close s)).lookup other =
        if other ∈ indices then none else (blocks s).lookup other := by
  induction indices generalizing s with
  | nil => exact ⟨⟨rfl, rfl, rfl⟩, rfl, fun other => (if_neg not_mem_nil).symm⟩
  | cons index indices ih =>
    obtain ⟨htext, hothers, hblocks⟩ := h s index
    obtain ⟨htext', hothers', hblocks'⟩ := ih (close s index)
    rw [foldl_cons]
    refine ⟨htext.trans htext', hothers'.trans hothers, fun other => ?_⟩
    rw [hblocks', hblocks]
    by_cases hmem : other ∈ indices
    · rw [if_pos hmem, if_pos (mem_cons_of_mem _ hmem)]
    · simp only [mem_cons, hmem, or_false, if_false]

theorem empty_of_lookup_keys {V : Type} {m n : Table Nat V}
    (h : ∀ k, n.lookup k = if k ∈ m.keys.insertionSort (· ≤ ·) then none else m.lookup k) : n = ∅ := by
  refine Table.eq_empty_iff.mpr fun k => ?_
  rw [h]
  split
  next => rfl
  next hmem =>
    have hkey : k ∉ m := fun hk => hmem ((mem_insertionSort _).mpr hk)
    exact AList.lookup_eq_none.mpr hkey

theorem closeMessageItem_frame (s : AnthropicStreamState) :
    s.closeMessageItem.messageItem = none ∧ s.closeMessageItem.glmPendingText = s.glmPendingText := by
  unfold closeMessageItem
  cases hitem : s.messageItem with
  | none => exact ⟨hitem, rfl⟩
  | some item =>
    dsimp only
    split
    next => exact ⟨rfl, rfl⟩
    next => exact ⟨rfl, rfl⟩

theorem emitMessageText_pending (ext : Externals) (s : AnthropicStreamState) (text : String) :
    (s.emitMessageText ext text).glmPendingText = s.glmPendingText := by
  have hensured : (s.ensureMessageItem ext).glmPendingText = s.glmPendingText := by
    unfold ensureMessageItem
    split
    next => rfl
    next => rfl
  unfold emitMessageText
  dsimp only
  generalize s.ensureMessageItem ext = t at hensured
  split
  next => exact hensured
  next item _ =>
    rw [← hensured]
    unfold emitInPart
    split
    next => rfl
    next => rfl

section

variable (ext : AnthropicConverters)
include ext

theorem flushGlmPendingText_pending (s : AnthropicStreamState) : (s.flushGlmPendingText ext).glmPendingText = none := by
  unfold flushGlmPendingText
  cases hpending : s.glmPendingText with
  | none => exact hpending
  | some text =>
    rw [(closeMessageItem_frame _).2]
    split
    next => rw [emitMessageText_pending]
    next => rfl

theorem closed_closeOpenItems (s : AnthropicStreamState) : Closed (s.closeOpenItems ext) := by
  have hreasoning := (closeReasoningItem_reasonings s).2
  have hopen := ((quiet_flushGlmPendingText ext s.closeReasoningItem).trans (quiet_closeMessageItem _)).open_eq
  obtain ⟨hmessage, hkept⟩ := closeMessageItem_frame ((s.closeReasoningItem).flushGlmPendingText ext)
  have hpending := hkept.trans (flushGlmPendingText_pending ext s.closeReasoningItem)
  unfold closeOpenItems
  dsimp only
  generalize ((s.closeReasoningItem).flushGlmPendingText ext).closeMessageItem = t at hopen hmessage hpending
  obtain ⟨htext, hothers, hcalls⟩ := foldl_frame (closeToolBlock_frame ext.codec)
    (t.contentBlocks.keys.insertionSort (· ≤ ·)) t
  have hnocalls := empty_of_lookup_keys hcalls
  generalize (t.contentBlocks.keys.insertionSort (· ≤ ·)).foldl (closeToolBlock ext.codec) t = u at htext hnocalls
  obtain ⟨htext', hcalls', hsearches⟩ := foldl_frame (closeWebSearchBlock_frame ext.codec)
    (u.webSearchBlocks.keys.insertionSort (· ≤ ·)) u
  have hall := htext.trans htext'
  exact ⟨hall.reasoning.trans (hopen.trans hreasoning), hall.message.trans hmessage, hall.pending.trans hpending,
    hcalls'.trans hnocalls, empty_of_lookup_keys hsearches⟩

theorem handleDone_handleDone (s : AnthropicStreamState) : (s.handleDone ext).handleDone ext = s.handleDone ext := by
  by_cases hstarted : (!s.hasStarted) = true
  · have hdone : s.handleDone ext = s := if_pos hstarted
    rw [hdone, hdone]
  have hclosed := closed_closeOpenItems ext s
  have hkept : (!(s.closeOpenItems ext).hasStarted) = (!s.hasStarted) :=
    congrArg _ (continues_closeOpenItems ext s).hasStarted_eq
  have hdone : s.handleDone ext = if !(s.closeOpenItems ext).responseCompleted then
      (s.closeOpenItems ext).emitResponseCompleted else s.closeOpenItems ext := if_neg hstarted
  rw [hdone]
  generalize s.closeOpenItems ext = t at hclosed hkept
  rw [← hkept] at hstarted
  split
  next =>
    have hcompleted : Closed t.emitResponseCompleted :=
      ⟨hclosed.reasoning, hclosed.message, hclosed.pending, hclosed.calls, hclosed.searches⟩
    have hagain : t.emitResponseCompleted.handleDone ext =
        if !(t.emitResponseCompleted.closeOpenItems ext).responseCompleted then
          (t.emitResponseCompleted.closeOpenItems ext).emitResponseCompleted
        else t.emitResponseCompleted.closeOpenItems ext := if_neg hstarted
    rw [hagain, closeOpenItems_of_closed hcompleted]
    exact if_neg Bool.false_ne_true
  next hnot =>
    have hagain : t.handleDone ext = if !(t.closeOpenItems ext).responseCompleted then
        (t.closeOpenItems ext).emitResponseCompleted else t.closeOpenItems ext := if_neg hstarted
    rw [hagain, closeOpenItems_of_closed hclosed]
    exact if_neg hnot

omit ext in
theorem Grows.isPrefix (h : Grows s t) : s.emitted <+: t.emitted := by
  obtain ⟨new, hnew, -⟩ := h
  exact ⟨new, hnew.symm⟩

theorem handleDone_grows (s : AnthropicStreamState) : s.emitted <+: (s.handleDone ext).emitted := by
  have hclosed := (continues_closeOpenItems ext s).grows.isPrefix
  unfold handleDone
  split
  next => exact prefix_rfl
  next =>
    dsimp only
    split
    next => exact hclosed.trans ⟨_, rfl⟩
    next => exact hclosed

theorem processEvent_grows (s : AnthropicStreamState) (event : JsonValue) :
    s.emitted <+: (s.processEvent ext event).emitted := by
  have hstarted := (steady_ensureStarted s).grows
  unfold processEvent
  split
  next => exact (steady_handleMessageStart s event).grows.isPrefix
  next => exact (hstarted.trans (continues_handleContentBlockStart ext s event).grows).isPrefix
  next => exact (hstarted.trans (continues_handleContentBlockDelta ext s event).grows).isPrefix
  next => exact (quiet_handleContentBlockStop ext s event).grows.isPrefix
  next => exact (steady_handleMessageDelta s event).grows.isPrefix
  next => exact handleDone_grows ext s
  next => exact prefix_rfl

end

end AnthropicStreamState

namespace AnthropicSseToResponsesSse

variable {ext : AnthropicConverters} {a : AnthropicSseToResponsesSse}

section

variable (ext)

section

variable (a)

theorem flushSseEvent_grows : a.state.emitted <+: (a.flushSseEvent ext).state.emitted := by
  unfold flushSseEvent
  by_cases hnil : a.dataLines = []
  · rw [if_pos hnil]
  rw [if_neg hnil]
  dsimp only
  split
  next => exact handleDone_grows ext a.state
  next =>
    cases ext.codec.parse ("\n".intercalate a.dataLines) with
    | none => exact prefix_rfl
    | some value => exact processEvent_grows ext a.state value

theorem processSseLine_grows (line : String) : a.state.emitted <+: (a.processSseLine ext line).state.emitted := by
  unfold processSseLine
  by_cases hempty : line = ""
  · rw [if_pos hempty]
    exact flushSseEvent_grows ext a
  rw [if_neg hempty]
  by_cases hcomment : (stripStart line ":").isSome = true
  · rw [if_pos hcomment]
  rw [if_neg hcomment]
  cases stripStart line "event:" with
  | some event => exact prefix_rfl
  | none =>
    cases stripStart line "data:" with
    | some data | none => exact prefix_rfl

end

theorem foldl_lines_grows (lines : List (List UInt8)) (a : AnthropicSseToResponsesSse) :
    a.state.emitted <+:
      (lines.foldl (fun a line => a.processSseLine ext (lineText line)) a).state.emitted := by
  induction lines generalizing a with
  | nil => exact prefix_rfl
  | cons line lines ih =>
    have hrest := ih (a.processSseLine ext (lineText line))
    exact (processSseLine_grows ext a (lineText line)).trans hrest

theorem readItem_grows (a : AnthropicSseToResponsesSse) (item : BodyItem) :
    a.state.emitted <+: (a.readItem ext item).state.emitted := by
  cases item with
  | chunk bytes => exact foldl_lines_grows ext _ { a with lineBuf := (ByteLines.cut newline (a.lineBuf ++ bytes)).2 }
  | error message => exact prefix_rfl

theorem foldl_items_grows (items : List BodyItem) (a : AnthropicSseToResponsesSse) :
    a.state.emitted <+: (items.foldl (readItem ext) a).state.emitted := by
  induction items generalizing a with
  | nil => exact prefix_rfl
  | cons item items ih =>
    have hrest := ih (a.readItem ext item)
    exact (readItem_grows ext a item).trans hrest

section

variable (a)

theorem endOfBody_grows : a.state.emitted <+: (a.endOfBody ext).state.emitted := by
  have hlast : a.state.emitted <+: (if a.lineBuf = [] then a
      else { a with lineBuf := [] }.processSseLine ext (lineText a.lineBuf)).state.emitted := by
    split
    next => exact prefix_rfl
    next => exact processSseLine_grows ext { a with lineBuf := [] } (lineText a.lineBuf)
  exact (hlast.trans (flushSseEvent_grows ext _)).trans (handleDone_grows ext _)

theorem flushSseEvent_dataLines : (a.flushSseEvent ext).dataLines = [] := by
  unfold flushSseEvent
  by_cases hnil : a.dataLines = []
  · rw [if_pos hnil]
    exact hnil
  rw [if_neg hnil]
  dsimp only
  split
  next => rfl
  next =>
    cases ext.codec.parse ("\n".intercalate a.dataLines) with
    | none | some value => rfl

theorem endOfBody_endOfBody : ((a.endOfBody ext).endOfBody ext).state = (a.endOfBody ext).state := by
  have hlast : (if a.lineBuf = [] then a
      else { a with lineBuf := [] }.processSseLine ext (lineText a.lineBuf)).lineBuf = [] := by
    split
    next h => exact h
    next => exact processSseLine_lineBuf { a with lineBuf := [] } ext (lineText a.lineBuf)
  have hended : a.endOfBody ext = { (if a.lineBuf = [] then a
      else { a with lineBuf := [] }.processSseLine ext (lineText a.lineBuf)).flushSseEvent ext with
    state := ((if a.lineBuf = [] then a
      else { a with lineBuf := [] }.processSseLine ext (lineText a.lineBuf)).flushSseEvent ext).state.handleDone ext } := rfl
  generalize (if a.lineBuf = [] then a
      else { a with lineBuf := [] }.processSseLine ext (lineText a.lineBuf)) = b at hlast hended
  have hbuf := flushSseEvent_lineBuf b ext
  have hdata := flushSseEvent_dataLines ext b
  generalize b.flushSseEvent ext = d at hbuf hdata hended
  rw [hended]
  unfold endOfBody
  dsimp only
  rw [if_pos (hbuf.trans hlast)]
  unfold flushSseEvent
  rw [if_pos hdata]
  exact handleDone_handleDone ext d.state

end

end

end AnthropicSseToResponsesSse

/-- The adapter with its upstream and the events that wait. -/
structure PolledAnthropicSse extends AnthropicSseToResponsesSse where
  inner : List UpstreamAnswer
  outputQueue : List StreamEvent

namespace PolledAnthropicSse

def new (inner : List UpstreamAnswer) (state : AnthropicStreamState) : PolledAnthropicSse :=
  ⟨.new state, inner, []⟩

/-- The events of a step of the adapter come behind those that wait. -/
def advance (c : PolledAnthropicSse) (a : AnthropicSseToResponsesSse) (inner : List UpstreamAnswer) :
    PolledAnthropicSse where
  toAnthropicSseToResponsesSse := a
  inner := inner
  outputQueue := c.outputQueue ++ a.state.emitted.drop c.state.emitted.length

def pollInner (ext : AnthropicConverters) (c : PolledAnthropicSse) :
    List UpstreamAnswer → Polled (Except String StreamEvent) × PolledAnthropicSse
  | [] =>
    let d := c.advance (c.toAnthropicSseToResponsesSse.endOfBody ext) []
    match d.outputQueue with
    | event :: queue => (.ready (some (.ok event)), { d with outputQueue := queue })
    | [] => (.ready none, d)
  | .pending :: inner => (.pending, { c with inner := inner })
  | .item (.error message) :: inner => (.ready (some (.error message)), { c with inner := inner })
  | .item (.chunk bytes) :: inner =>
    let d := c.advance (c.toAnthropicSseToResponsesSse.readChunk ext bytes) inner
    match d.outputQueue with
    | event :: queue => (.ready (some (.ok event)), { d with outputQueue := queue })
    | [] => d.pollInner ext inner

def pollNext (ext : AnthropicConverters) (c : PolledAnthropicSse) :
    Polled (Except String StreamEvent) × PolledAnthropicSse :=
  match c.outputQueue with
  | event :: queue => (.ready (some (.ok event)), { c with outputQueue := queue })
  | [] => c.pollInner ext c.inner

variable {ext : AnthropicConverters} {c : PolledAnthropicSse} {items : List (Except String StreamEvent)}
  {inner : List UpstreamAnswer}

/-- What the adapter has become at the end of the body. -/
def atEnd (ext : AnthropicConverters) (c : PolledAnthropicSse) : AnthropicSseToResponsesSse :=
  ((upstreamItems c.inner).foldl (readItem ext) c.toAnthropicSseToResponsesSse).endOfBody ext

/-- The adapter has still to yield the events that wait and those up to the end of the body. -/
structure Owes (ext : AnthropicConverters) (c : PolledAnthropicSse) (items : List (Except String StreamEvent)) : Prop where
  sound : ∀ answer ∈ c.inner, answer.isError = false
  items_eq : items = (c.outputQueue ++ (c.atEnd ext).state.emitted.drop c.state.emitted.length).map .ok

theorem Owes.pop {event : StreamEvent} {queue : List StreamEvent} (h : Owes ext c items)
    (hqueue : c.outputQueue = event :: queue) :
    Polled.Keeps (Owes ext) (fun c => c.inner.length) c items
      (.ready (some (.ok event)), { c with outputQueue := queue }) := by
  have hitems := h.items_eq
  rw [hqueue] at hitems
  exact .item hitems ⟨h.sound, rfl⟩ (Nat.le_refl _)

theorem atEnd_grows (ext : AnthropicConverters) (c : PolledAnthropicSse) :
    c.state.emitted <+: (c.atEnd ext).state.emitted :=
  (foldl_items_grows ext _ _).trans (endOfBody_grows ext _)

theorem Owes.advance {a : AnthropicSseToResponsesSse} (h : Owes ext c items)
    (hsound : ∀ answer ∈ inner, answer.isError = false) (hgrows : c.state.emitted <+: a.state.emitted)
    (hend : (atEnd ext (c.advance a inner)).state.emitted = (c.atEnd ext).state.emitted) :
    Owes ext (c.advance a inner) items := by
  refine ⟨hsound, ?_⟩
  have hmore := atEnd_grows ext (c.advance a inner)
  rw [h.items_eq, hend]
  rw [hend] at hmore
  have hqueue : (c.advance a inner).outputQueue = c.outputQueue ++ a.state.emitted.drop c.state.emitted.length := rfl
  have hboth := drop_append_drop hgrows hmore
  rw [hqueue, append_assoc]
  exact congrArg (fun events => List.map Except.ok (c.outputQueue ++ events)) hboth.symm

theorem pollInner_keeps (h : Owes ext c items) (hqueue : c.outputQueue = []) (hinner : c.inner = inner) :
    Polled.Keeps (Owes ext) (fun c => c.inner.length) c items (c.pollInner ext inner) := by
  induction inner generalizing c with
  | nil =>
    have hend : c.atEnd ext = c.toAnthropicSseToResponsesSse.endOfBody ext := by
      rw [atEnd, hinner]
      rfl
    have hagain := endOfBody_endOfBody ext c.toAnthropicSseToResponsesSse
    have howes : Owes ext (c.advance (c.toAnthropicSseToResponsesSse.endOfBody ext) []) items := by
      refine h.advance (fun answer hanswer => absurd hanswer not_mem_nil)
        (endOfBody_grows ext _) ?_
      rw [hend]
      exact congrArg _ hagain
    have hitems := howes.items_eq
    unfold pollInner
    dsimp only
    cases hevents : (c.advance (c.toAnthropicSseToResponsesSse.endOfBody ext) []).outputQueue with
    | cons event queue => exact (howes.pop hevents).mono (Nat.zero_le _)
    | nil =>
      refine .ended ?_
      -- the end was told, so nothing comes after the events that wait
      rw [hitems]
      have hnone : (atEnd ext (c.advance (c.toAnthropicSseToResponsesSse.endOfBody ext) [])).state =
          (c.toAnthropicSseToResponsesSse.endOfBody ext).state := hagain
      rw [hnone]
      show List.map _ ((c.advance (c.toAnthropicSseToResponsesSse.endOfBody ext) []).outputQueue ++
        (c.toAnthropicSseToResponsesSse.endOfBody ext).state.emitted.drop
          (c.toAnthropicSseToResponsesSse.endOfBody ext).state.emitted.length) = []
      rw [hevents, drop_length]
      rfl
  | cons answer inner ih =>
    have hlength : c.inner.length = inner.length + 1 := by rw [hinner]; rfl
    have hsound : ∀ answer ∈ inner, answer.isError = false := by
      intro answer hanswer
      exact h.sound answer (hinner ▸ mem_cons_of_mem _ hanswer)
    cases answer with
    | pending =>
      refine .pending ⟨hsound, ?_⟩ (show inner.length < c.inner.length by omega)
      rw [h.items_eq, atEnd, hinner]
      rfl
    | item item =>
      cases item with
      | error message =>
        have herror := h.sound (.item (.error message)) (hinner ▸ mem_cons_self)
        cases herror
      | chunk bytes =>
        have hgrows := readItem_grows ext c.toAnthropicSseToResponsesSse (.chunk bytes)
        have howes : Owes ext (c.advance (c.toAnthropicSseToResponsesSse.readChunk ext bytes) inner) items := by
          refine h.advance hsound hgrows ?_
          rw [atEnd, atEnd, hinner]
          rfl
        have hle : inner.length ≤ c.inner.length := by omega
        unfold pollInner
        dsimp only
        cases hevents : (c.advance (c.toAnthropicSseToResponsesSse.readChunk ext bytes) inner).outputQueue with
        | cons event queue => exact (howes.pop hevents).mono hle
        | nil => exact (ih howes hevents rfl).mono hle

theorem pollNext_keeps (c : PolledAnthropicSse) (items : List (Except String StreamEvent)) (h : Owes ext c items) :
    Polled.Keeps (Owes ext) (fun c => c.inner.length) c items (c.pollNext ext) := by
  unfold pollNext
  cases hqueue : c.outputQueue with
  | nil => exact pollInner_keeps h hqueue rfl
  | cons event queue => exact h.pop hqueue

theorem yields_readBody (ext : AnthropicConverters) (s : AnthropicStreamState) {answers : List UpstreamAnswer}
    (hsound : ∀ answer ∈ answers, answer.isError = false) :
    Polled.Yields (pollNext ext) (new answers s)
      ((((bodyInputs ext.codec (upstreamBytes answers)).foldl (SseInput.apply ext) s).handleDone ext).emitted.drop
        s.emitted.length |>.map .ok) := by
  refine Polled.yields_of_keeps (Owes ext) (fun c => c.inner.length) pollNext_keeps ?_
  refine ⟨hsound, ?_⟩
  have hstate := readBody_state ext s (upstreamItems answers)
  have hend : ((new answers s).atEnd ext).state =
      ((bodyInputs ext.codec (upstreamBytes answers)).foldl (SseInput.apply ext) s).handleDone ext := hstate
  rw [hend]
  rfl

end PolledAnthropicSse

/-- The network brings the bytes in some pieces, at some times. -/
structure Brings (answers : List UpstreamAnswer) (bytes : List UInt8) : Prop where
  sound : ∀ answer ∈ answers, answer.isError = false
  bytes_eq : upstreamBytes answers = bytes

/-- The events that both adapters yield are the same for all ways to cut a body into chunks; for chat completions no
data line may follow `[DONE]`. -/
theorem chunks_invisible (ext : Externals) (converters : AnthropicConverters) (s : ResponsesStreamState)
    (t : AnthropicStreamState) (bytes : List UInt8) :
    (doneIsLast (ByteLines.cut newline bytes).1 = true →
      ∃ events, ∀ answers, Brings answers bytes → ∀ yielded,
        Polled.Yields (ChatSseToResponsesSse.pollNext ext) (.new answers s) yielded ↔ yielded = events) ∧
      ∃ events, ∀ answers, Brings answers bytes → ∀ yielded,
        Polled.Yields (PolledAnthropicSse.pollNext converters) (.new answers t) yielded ↔ yielded = events := by
  refine ⟨fun hlast => ⟨((s.readBody ext (ByteLines.cut newline bytes).1).emitted.drop s.emitted.length).map .ok,
      fun answers h yielded => ?_⟩, ⟨((((bodyInputs converters.codec bytes).foldl (SseInput.apply converters) t).handleDone
        converters).emitted.drop t.emitted.length).map .ok, fun answers h yielded => ?_⟩⟩
  · have hyields := ChatSseToResponsesSse.yields_readBody ext s h.sound (by rw [h.bytes_eq]; exact hlast)
    rw [h.bytes_eq] at hyields
    exact ⟨fun hother => hother.unique hyields, fun heq => heq ▸ hyields⟩
  · have hyields := PolledAnthropicSse.yields_readBody converters t h.sound
    rw [h.bytes_eq] at hyields
    exact ⟨fun hother => hother.unique hyields, fun heq => heq ▸ hyields⟩

end MochiPort

import MochiPort.AnthropicSse
import MochiPort.ThinkingStreams

/-! Streams of Anthropic messages that stop before their end. -/

namespace MochiPort

def ResponseEvent.isCompleted : ResponseEvent → Bool
  | completed _ => true
  | _ => false

/-- The message ends with the event, or the event says why it is going to. -/
def isEnding (event : JsonValue) : Bool :=
  stringMember event "type" = some "message_stop" ||
    stringMember event "type" = some "message_delta" && (stringMember (eventDelta event) "stop_reason").isSome

namespace AnthropicStreamState

variable {s s' : AnthropicStreamState}

/-- Events came, but nothing is known of the end of the message. -/
structure Undecided (s s' : AnthropicStreamState) : Prop where
  grows : Grows s s'
  responseCompleted : s'.responseCompleted = s.responseCompleted
  stopReason : s'.stopReason = s.stopReason

theorem Undecided.refl (s : AnthropicStreamState) : Undecided s s := ⟨Grows.refl s, rfl, rfl⟩

theorem Undecided.trans {s'' : AnthropicStreamState} (h : Undecided s s') (h' : Undecided s' s'') : Undecided s s'' :=
  ⟨h.grows.trans h'.grows, h'.responseCompleted.trans h.responseCompleted, h'.stopReason.trans h.stopReason⟩

theorem Continues.undecided (h : Continues s s') : Undecided s s' :=
  ⟨h.grows, congrArg Phase.responseCompleted h.phase_eq, congrArg Phase.stopReason h.phase_eq⟩

section

variable (s)

theorem undecided_mergeUsage (usage : Option Usage) : Undecided s (s.mergeUsage usage) := by
  unfold mergeUsage
  split
  next => exact Undecided.refl s
  next =>
    split
    next => exact ⟨grows_of_eq rfl, rfl, rfl⟩
    next => exact ⟨grows_of_eq rfl, rfl, rfl⟩

theorem undecided_ensureStarted : Undecided s s.ensureStarted := by
  unfold ensureStarted
  split
  next => exact Undecided.refl s
  next =>
    have hannounce := (quiet_announce { s with hasStarted := true }).continues.undecided
    exact ⟨hannounce.grows, hannounce.responseCompleted, hannounce.stopReason⟩

theorem undecided_handleMessageStart (event : JsonValue) : Undecided s (s.handleMessageStart event) := by
  unfold handleMessageStart
  split
  next => exact Undecided.refl s
  next =>
    generalize (event.get "message").getD event = message
    have hmerge := undecided_mergeUsage
      { s with
        hasStarted := true
        responseId := (stringMember message "id").getD s.responseId
        model := (stringMember message "model").getD s.model }
      ((message.get "usage").bind convertAnthropicStreamUsage)
    have hall := hmerge.trans (quiet_announce _).continues.undecided
    exact ⟨hall.grows, hall.responseCompleted, hall.stopReason⟩

theorem undecided_handleMessageDelta {event : JsonValue}
    (h : (stringMember (eventDelta event) "stop_reason").isSome = false) :
    Undecided s (s.handleMessageDelta event) := by
  have hreason : (event.get "delta").bind (stringMember · "stop_reason") = none := by
    unfold eventDelta at h
    cases hdelta : event.get "delta" with
    | none => rfl
    | some delta =>
      rw [hdelta, Option.getD_some] at h
      exact Option.isNone_iff_eq_none.mp (Option.isSome_eq_false_iff.mp h)
  have hmerge := undecided_mergeUsage
    { s with stopReason := ((event.get "delta").bind (stringMember · "stop_reason")).or s.stopReason }
    ((event.get "usage").bind convertAnthropicStreamUsage)
  refine ⟨hmerge.grows, hmerge.responseCompleted, hmerge.stopReason.trans ?_⟩
  rw [hreason]
  rfl

end

theorem undecided_processEvent (ext : AnthropicConverters) (s : AnthropicStreamState) {event : JsonValue}
    (h : isEnding event = false) : Undecided s (s.processEvent ext event) := by
  obtain ⟨hstop, hdelta⟩ := Bool.or_eq_false_iff.mp h
  unfold processEvent
  split
  next => exact undecided_handleMessageStart s event
  next => exact (undecided_ensureStarted s).trans (continues_handleContentBlockStart ext s event).undecided
  next => exact (undecided_ensureStarted s).trans (continues_handleContentBlockDelta ext s event).undecided
  next => exact (quiet_handleContentBlockStop ext s event).continues.undecided
  next htype =>
    rw [htype, decide_eq_true rfl, Bool.true_and] at hdelta
    exact undecided_handleMessageDelta s hdelta
  next htype =>
    rw [htype, decide_eq_true rfl] at hstop
    cases hstop
  next => exact Undecided.refl s

/-- What the flags say of a message whose end was not told. -/
structure Unended (s : AnthropicStreamState) : Prop where
  stopReason : s.stopReason = none
  told : s.responseCompleted = true → ∃ e ∈ s.emitted, e.event.isCompleted = true
  silent : s.hasStarted = false → ∀ e ∈ s.emitted, e.event.isCompleted = false

theorem isCompleted_of_not_terminal {event : ResponseEvent} (h : event.isTerminal = false) :
    event.isCompleted = false := by
  cases event with
  | completed response => cases h
  | _ => rfl

theorem Unended.undecided (hu : Unended s) (h : Undecided s s') (hstarted : s.hasStarted = true → s'.hasStarted = true) :
    Unended s' := by
  obtain ⟨new, hemitted, hnew⟩ := h.grows
  refine ⟨h.stopReason.trans hu.stopReason, ?_, ?_⟩
  · intro hcompleted
    rw [h.responseCompleted] at hcompleted
    obtain ⟨e, he, hevent⟩ := hu.told hcompleted
    exact ⟨e, by rw [hemitted]; exact List.mem_append_left _ he, hevent⟩
  · intro hfresh e he
    have hold : s.hasStarted = false := Bool.eq_false_iff.mpr fun hs => by
      rw [hstarted hs] at hfresh
      cases hfresh
    rw [hemitted] at he
    rcases List.mem_append.mp he with he | he
    · exact hu.silent hold e he
    · exact isCompleted_of_not_terminal (hnew e he)

theorem Unended.handleDone (hu : Unended s) (ext : AnthropicConverters) :
    Unended (s.handleDone ext) ∧
      (s.hasStarted = true → ∃ e ∈ (s.handleDone ext).emitted, e.event.isCompleted = true) := by
  unfold AnthropicStreamState.handleDone
  cases hstarted : s.hasStarted with
  | false =>
    exact ⟨hu, fun h => Bool.noConfusion h⟩
  | true =>
    rw [Bool.not_true, if_neg Bool.false_ne_true]
    have hclose := continues_closeOpenItems ext s
    have hopen : Unended (s.closeOpenItems ext) :=
      hu.undecided hclose.undecided fun h => hclose.hasStarted_eq.trans h
    have hfresh : (s.closeOpenItems ext).hasStarted = true := hclose.hasStarted_eq.trans hstarted
    dsimp only
    generalize s.closeOpenItems ext = t at hopen hfresh
    cases hcompleted : t.responseCompleted with
    | true =>
      exact ⟨hopen, fun _ => hopen.told hcompleted⟩
    | false =>
      rw [Bool.not_false, if_pos rfl]
      have hevent : ∃ e ∈ t.emitResponseCompleted.emitted, e.event.isCompleted = true := by
        refine ⟨⟨t.sequenceNumber, .completed (t.responseObject "completed")⟩, ?_, rfl⟩
        unfold emitResponseCompleted
        rw [hopen.stopReason, if_neg (by decide)]
        exact List.mem_append_right _ List.mem_cons_self
      refine ⟨⟨hopen.stopReason, fun _ => hevent, fun h => ?_⟩, fun _ => hevent⟩
      rw [show t.emitResponseCompleted.hasStarted = t.hasStarted from rfl, hfresh] at h
      cases h

end AnthropicStreamState

/-- The event begins the response, unless it has begun. -/
def SseInput.isStarting : SseInput → Bool
  | done => false
  | event value => MochiPort.isStarting value

def SseInput.isEnding : SseInput → Bool
  | done => false
  | event value => MochiPort.isEnding value

open AnthropicStreamState in
theorem unended_apply {s : AnthropicStreamState} (hu : Unended s) (ext : AnthropicConverters) {input : SseInput}
    (h : input.isEnding = false) :
    Unended (input.apply ext s) ∧ (input.apply ext s).hasStarted = (s.hasStarted || input.isStarting) := by
  cases input with
  | done =>
    refine ⟨(hu.handleDone ext).1, ?_⟩
    rw [SseInput.isStarting, Bool.or_false]
    exact handleDone_hasStarted s ext
  | event value =>
    have hstarted := processEvent_hasStarted s ext value
    have hkept : s.hasStarted = true → (s.processEvent ext value).hasStarted = true := by
      intro hs
      rw [hstarted, hs]
      rfl
    exact ⟨hu.undecided (undecided_processEvent ext s h) hkept, hstarted⟩

open AnthropicStreamState in
theorem unended_foldl {s : AnthropicStreamState} (hu : Unended s) (ext : AnthropicConverters) {inputs : List SseInput}
    (h : ∀ input ∈ inputs, input.isEnding = false) :
    Unended (inputs.foldl (SseInput.apply ext) s) ∧
      (inputs.foldl (SseInput.apply ext) s).hasStarted = (s.hasStarted || inputs.any SseInput.isStarting) := by
  induction inputs generalizing s with
  | nil => exact ⟨hu, (Bool.or_false _).symm⟩
  | cons input inputs ih =>
    obtain ⟨hnext, hstarted⟩ := unended_apply hu ext (h input List.mem_cons_self)
    obtain ⟨hlast, hall⟩ := ih hnext fun i hi => h i (List.mem_cons_of_mem _ hi)
    refine ⟨hlast, ?_⟩
    rw [List.foldl_cons, hall, hstarted, List.any_cons, Bool.or_assoc]

open AnthropicSseToResponsesSse in
/-- A body that breaks off is not reported as completed when, and only when, no event has begun the response. -/
theorem broken_not_completed_iff (ext : AnthropicConverters) (responseId model : String) (createdAt : Int)
    (toolNameMap : ToolNameMap) (profile : AnthropicProviderProfile) (items : List BodyItem)
    (h : ∀ input ∈ bodyInputs ext.codec (bodyBytes items), input.isEnding = false) :
    (∀ e ∈ (readBody ext (.new responseId model createdAt toolNameMap profile) items).state.emitted,
        e.event.isCompleted = false) ↔
      ∀ input ∈ bodyInputs ext.codec (bodyBytes items), input.isStarting = false := by
  have hnew : AnthropicStreamState.Unended (.new responseId model createdAt toolNameMap profile) :=
    ⟨rfl, fun h => Bool.noConfusion h, fun _ e he => absurd he List.not_mem_nil⟩
  obtain ⟨hlast, hstarted⟩ := unended_foldl hnew ext h
  rw [readBody_state]
  generalize bodyInputs ext.codec (bodyBytes items) = inputs at hlast hstarted ⊢
  generalize inputs.foldl (SseInput.apply ext) (.new responseId model createdAt toolNameMap profile) = t at *
  have hfresh : t.hasStarted = inputs.any SseInput.isStarting := hstarted.trans (Bool.false_or _)
  obtain ⟨hdone, htold⟩ := hlast.handleDone ext
  constructor
  · intro hsilent input hinput
    by_contra hstart
    have hany : t.hasStarted = true :=
      hfresh.trans (List.any_eq_true.mpr ⟨input, hinput, Bool.eq_true_of_not_eq_false hstart⟩)
    obtain ⟨e, he, hcompleted⟩ := htold hany
    rw [hsilent e he] at hcompleted
    cases hcompleted
  · intro hquiet
    refine hdone.silent ?_
    rw [AnthropicStreamState.handleDone_hasStarted, hfresh]
    refine List.any_eq_false.mpr fun input hinput => ?_
    rw [hquiet input hinput]
    exact Bool.false_ne_true

def startText : String := "\x7b\"type\":\"message_start\"\x7d"

def errorText : String := "\x7b\"type\":\"error\"\x7d"

def typedEvent (eventType : String) : JsonValue := .object [("type", .string eventType)]

def startErrorCodec : JsonCodec where
  parse text :=
    if text = startText then some (typedEvent "message_start")
    else if text = errorText then some (typedEvent "error")
    else none
  print _ := ""

def startErrorConverters : AnthropicConverters := { plainConverters with codec := startErrorCodec }

def asciiBytes (text : String) : List UInt8 := text.toList.map fun c => UInt8.ofNat c.toNat

def startThenError : List BodyItem :=
  [.chunk (asciiBytes ("data: " ++ startText ++ "\n\n")), .chunk (asciiBytes ("data: " ++ errorText ++ "\n\n"))]

theorem startThenError_inputs :
    bodyInputs startErrorCodec (bodyBytes startThenError) =
      [.event (typedEvent "message_start"), .event (typedEvent "error")] := by rfl

theorem startThenError_unended :
    ∀ input ∈ bodyInputs startErrorConverters.codec (bodyBytes startThenError), input.isEnding = false := by
  intro input hinput
  rcases List.mem_cons.mp hinput with rfl | hinput
  · rfl
  · rw [List.mem_singleton.mp hinput]
    rfl

def claudeStream : AnthropicStreamState := .new "r" "m" 0 .empty .anthropic

/-- A message that an error breaks off is reported as completed. -/
theorem broken_completed :
    (∀ input ∈ bodyInputs startErrorConverters.codec (bodyBytes startThenError), input.isEnding = false) ∧
      ∃ e ∈ (AnthropicSseToResponsesSse.readBody startErrorConverters claudeStream startThenError).state.emitted,
        e.event.isCompleted = true := by
  refine ⟨startThenError_unended, ⟨2, .completed (claudeStream.responseObject "completed")⟩, ?_, rfl⟩
  exact List.mem_of_getElem? (i := 2) rfl

theorem broken_not_completed_iff_error :
    ¬ ∀ e ∈ (AnthropicSseToResponsesSse.readBody startErrorConverters claudeStream startThenError).state.emitted,
        e.event.isCompleted = false := by
  intro hsilent
  have hstart := (broken_not_completed_iff startErrorConverters "r" "m" 0 .empty .anthropic startThenError
    startThenError_unended).mp hsilent (.event (typedEvent "message_start"))
  exact Bool.noConfusion (hstart List.mem_cons_self)

end MochiPort

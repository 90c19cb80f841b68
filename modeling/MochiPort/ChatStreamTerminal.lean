import MochiPort.ChatStreamItems

namespace MochiPort

open List

/-- Something comes behind a terminal event. -/
def Broken (events : List StreamEvent) : Prop :=
  ∃ before last after, events = before ++ last :: after ∧ last.event.isTerminal = true ∧ after ≠ []

section

variable {events events' : List StreamEvent}

theorem Broken.extend (hb : Broken events) (h : events <+: events') : Broken events' := by
  obtain ⟨before, last, after, rfl, hlast, hafter⟩ := hb
  obtain ⟨more, rfl⟩ := h
  refine ⟨before, last, after ++ more, by simp, hlast, ?_⟩
  exact fun hnil => hafter (append_eq_nil_iff.mp hnil).1

theorem Broken.not_endsOnce (hb : Broken events) : ¬ EndsOnce events := by
  rintro ⟨before, last, heq, hlast, hquiet⟩
  obtain ⟨before', last', after, rfl, hlast', hafter⟩ := hb
  obtain ⟨more, final, rfl⟩ := (eq_nil_or_concat after).resolve_left hafter
  rw [concat_eq_append, ← cons_append, ← append_assoc] at heq
  obtain ⟨hbefore, -⟩ := append_inj' heq rfl
  have hmem : last' ∈ before := hbefore ▸ mem_append_right _ mem_cons_self
  rw [hquiet last' hmem] at hlast'
  cases hlast'

theorem EndsOnce.broken (he : EndsOnce events) (h : events <+: events') (hlt : events.length < events'.length) :
    Broken events' := by
  obtain ⟨before, last, rfl, hlast, _⟩ := he
  obtain ⟨more, rfl⟩ := h
  refine ⟨before, last, more, by simp, hlast, ?_⟩
  rintro rfl
  simp at hlt

theorem endsOnce_concat {last : StreamEvent} (hquiet : ∀ e ∈ events, e.event.isTerminal = false)
    (hlast : last.event.isTerminal = true) : EndsOnce (events ++ [last]) := ⟨events, last, rfl, hlast, hquiet⟩

end

namespace ResponsesStreamState

/-- Whether the entries only extend open calls, by fragments that show nothing. -/
def quietToolCalls (codec : JsonCodec) : Table Nat ToolCallState → List JsonValue → Bool
  | _, [] => true
  | calls, tc :: tcs =>
    match calls.lookup (toolCallIndex tc) with
    | none => false
    | some call =>
      match toolCallArguments tc with
      | none => quietToolCalls codec calls tcs
      | some arguments =>
        let (next, event) := toolDeltaEvent codec { call with arguments := call.arguments ++ arguments } arguments
        event.isNone && quietToolCalls codec (calls.insert (toolCallIndex tc) next) tcs

/-- Whether a chunk has no text, no `finish_reason`, and only quiet tool calls. -/
def quietChunk (codec : JsonCodec) (calls : Table Nat ToolCallState) (chunk : JsonValue) : Bool :=
  match chunkChoice chunk with
  | none => true
  | some choice =>
    (deltaReasoning (choiceDelta choice)).isNone && (deltaContent (choiceDelta choice)).isNone &&
      quietToolCalls codec calls (deltaToolCalls (choiceDelta choice)) && (choiceFinishReason choice).isNone

/-- Every chunk that arrives after the terminal event is quiet. -/
def QuietAfterTerminal (ext : Externals) : ResponsesStreamState → List JsonValue → Prop
  | _, [] => True
  | s, chunk :: chunks =>
    (s.responseCompleted = true → quietChunk ext.codec s.toolCalls chunk = true) ∧
      QuietAfterTerminal ext (s.processChunk ext chunk) chunks

instance decidableQuietAfterTerminal (ext : Externals) :
    ∀ (s : ResponsesStreamState) (chunks : List JsonValue), Decidable (QuietAfterTerminal ext s chunks)
  | _, [] => .isTrue trivial
  | s, chunk :: chunks =>
    have := decidableQuietAfterTerminal ext (s.processChunk ext chunk) chunks
    inferInstanceAs (Decidable (_ ∧ _))

variable {s s' : ResponsesStreamState}

theorem Continues.grows (h : Continues s s') : s.emitted <+: s'.emitted := by
  obtain ⟨events, hevents, _⟩ := h.emitted
  exact ⟨events, hevents.symm⟩

theorem emit_length (s : ResponsesStreamState) (event : ResponseEvent) :
    (s.emit event).emitted.length = s.emitted.length + 1 := by
  simp [emit]

section

variable (ext : Externals)
include ext

theorem handleReasoningDelta_emits (s : ResponsesStreamState) (text : String) :
    s.emitted.length < (s.handleReasoningDelta ext text).emitted.length := by
  have hbefore := (beforeReasoningDelta_continues ext s).grows.length_le
  have hlength : (s.handleReasoningDelta ext text).emitted.length =
      ((s.closeMessageItem).startReasoningItem ext).startSummaryPart.emitted.length + 1 := emit_length _ _
  omega

theorem handleContentDelta_emits (s : ResponsesStreamState) (text : String) :
    s.emitted.length < (s.handleContentDelta ext text).emitted.length := by
  have hbefore := (beforeContentDelta_continues ext s).grows.length_le
  have hlength : (s.handleContentDelta ext text).emitted.length =
      ((s.closeReasoningItem).startMessageItem ext).startContentPart.emitted.length + 1 := emit_length _ _
  omega

theorem handleToolCallDelta_emits {tc : JsonValue} (h : s.toolCalls.lookup (toolCallIndex tc) = none) :
    s.emitted.length < (s.handleToolCallDelta ext tc).emitted.length := by
  have hclosed := ((closeMessageItem_continues s).trans (closeReasoningItem_continues _)).grows.length_le
  have hstart : (s.startToolCall ext tc).emitted.length = s.closeMessageItem.closeReasoningItem.emitted.length + 1 := by
    rw [startToolCall, h]
    exact emit_length _ _
  have hextend : (s.startToolCall ext tc).emitted.length ≤ (s.handleToolCallDelta ext tc).emitted.length := by
    unfold handleToolCallDelta
    split
    next => exact (extendToolCall_continues ext.codec _ _ _).grows.length_le
    next => exact Nat.le_refl _
  omega

theorem handleToolCallDelta_open {tc : JsonValue} {call : ToolCallState}
    (h : s.toolCalls.lookup (toolCallIndex tc) = some call) :
    (toolCallArguments tc = none ∧ s.handleToolCallDelta ext tc = s) ∨
      ∃ arguments next event, toolCallArguments tc = some arguments ∧
        toolDeltaEvent ext.codec { call with arguments := call.arguments ++ arguments } arguments = (next, event) ∧
        (s.handleToolCallDelta ext tc).toolCalls = s.toolCalls.insert (toolCallIndex tc) next ∧
        (event = none ∧ (s.handleToolCallDelta ext tc).emitted = s.emitted ∨
          event ≠ none ∧ s.emitted.length < (s.handleToolCallDelta ext tc).emitted.length) := by
  have hstart : s.startToolCall ext tc = s := by
    rw [startToolCall, h]
    rfl
  unfold handleToolCallDelta
  rw [hstart]
  cases harguments : toolCallArguments tc with
  | none => exact .inl ⟨rfl, rfl⟩
  | some arguments =>
    refine .inr ?_
    obtain ⟨next, event, hevent⟩ : ∃ next event,
        toolDeltaEvent ext.codec { call with arguments := call.arguments ++ arguments } arguments = (next, event) :=
      ⟨_, _, rfl⟩
    refine ⟨arguments, next, event, rfl, hevent, ?_⟩
    dsimp only
    rw [extendToolCall, h]
    dsimp only
    rw [hevent]
    cases event with
    | none => exact ⟨rfl, .inl ⟨rfl, rfl⟩⟩
    | some event => exact ⟨rfl, .inr ⟨Option.some_ne_none event, by simp [emit]⟩⟩

theorem quietToolCalls_emitted {tcs : List JsonValue} (h : quietToolCalls ext.codec s.toolCalls tcs = true) :
    (tcs.foldl (handleToolCallDelta ext) s).emitted = s.emitted := by
  induction tcs generalizing s with
  | nil => rfl
  | cons tc tcs ih =>
    rw [quietToolCalls] at h
    cases hcall : s.toolCalls.lookup (toolCallIndex tc) with
    | none =>
      rw [hcall] at h
      cases h
    | some call =>
      rw [hcall] at h
      rcases handleToolCallDelta_open ext hcall with ⟨hnone, heq⟩ | ⟨arguments, next, event, hsome, hevent, hcalls, hemit⟩
      · simp only [hnone] at h
        rw [foldl_cons, heq]
        exact ih h
      · simp only [hsome, hevent] at h
        obtain ⟨hquiet, hrest⟩ := (Bool.and_eq_true ..).mp h
        rcases hemit with ⟨_, hsame⟩ | ⟨hne, _⟩
        · rw [foldl_cons, ih (hcalls ▸ hrest), hsame]
        · exact absurd (Option.isNone_iff_eq_none.mp hquiet) hne

theorem not_quietToolCalls_emits {tcs : List JsonValue} (h : quietToolCalls ext.codec s.toolCalls tcs = false) :
    s.emitted.length < (tcs.foldl (handleToolCallDelta ext) s).emitted.length := by
  induction tcs generalizing s with
  | nil => cases h
  | cons tc tcs ih =>
    have hmore := (Continues.foldl (fun s tc => handleToolCallDelta_continues ext s tc)
      (s.handleToolCallDelta ext tc) tcs).grows.length_le
    rw [foldl_cons]
    rw [quietToolCalls] at h
    cases hcall : s.toolCalls.lookup (toolCallIndex tc) with
    | none =>
      have hemits := handleToolCallDelta_emits ext hcall
      omega
    | some call =>
      rw [hcall] at h
      rcases handleToolCallDelta_open ext hcall with ⟨hnone, heq⟩ | ⟨arguments, next, event, hsome, hevent, hcalls, hemit⟩
      · simp only [hnone] at h
        rw [heq]
        exact ih h
      · simp only [hsome, hevent] at h
        rcases hemit with ⟨hnone, hsame⟩ | ⟨_, hlt⟩
        · simp only [hnone, Option.isNone_none, Bool.true_and] at h
          have hrest := ih (hcalls ▸ h)
          rwa [hsame] at hrest
        · omega

end

structure Running (s : ResponsesStreamState) : Prop where
  responseCompleted : s.responseCompleted = false
  quiet : ∀ e ∈ s.emitted, e.event.isTerminal = false

/-- The terminal event has been sent, before the end of the body. -/
structure Ended (s : ResponsesStreamState) : Prop where
  finished : s.finished = true
  responseCompleted : s.responseCompleted = true
  usage : s.usage.isSome
  endsOnce : EndsOnce s.emitted

theorem Running.continues (hr : Running s) (h : Continues s s') : Running s' := by
  have hphase := h.phase
  simp only [phase, Phase.mk.injEq] at hphase
  obtain ⟨events, hevents, hquiet⟩ := h.emitted
  refine ⟨hphase.2.2.1.trans hr.responseCompleted, ?_⟩
  intro e he
  rcases mem_append.mp (hevents ▸ he) with he | he
  · exact hr.quiet e he
  · exact hquiet e he

theorem emitResponseCompleted_emitted (s : ResponsesStreamState) :
    ∃ event, event.isTerminal = true ∧
      s.emitResponseCompleted.emitted = s.emitted ++ [⟨s.sequenceNumber, event⟩] := by
  unfold emitResponseCompleted
  split
  next => exact ⟨_, rfl, rfl⟩
  next => exact ⟨_, rfl, rfl⟩

theorem emitResponseCompleted_endsOnce (h : ∀ e ∈ s.emitted, e.event.isTerminal = false) :
    EndsOnce s.emitResponseCompleted.emitted := by
  obtain ⟨event, hterminal, hemitted⟩ := emitResponseCompleted_emitted s
  rw [hemitted]
  exact endsOnce_concat h hterminal

section

variable (s)

theorem emitResponseCompleted_grows : s.emitted <+: s.emitResponseCompleted.emitted := by
  obtain ⟨event, _, hemitted⟩ := emitResponseCompleted_emitted s
  exact ⟨_, hemitted.symm⟩

theorem emitResponseCompleted_length : s.emitResponseCompleted.emitted.length = s.emitted.length + 1 := by
  obtain ⟨event, _, hemitted⟩ := emitResponseCompleted_emitted s
  rw [hemitted, length_append]
  rfl

end

theorem handleStart_running (hr : Running s) (chunk : JsonValue) : Running (s.handleStart chunk) := by
  unfold handleStart
  split
  next => exact hr
  next =>
    refine ⟨hr.responseCompleted, ?_⟩
    intro e he
    simp only [emitResponseInProgress, emitResponseCreated, emit, mem_append, mem_singleton] at he
    rcases he with (he | rfl) | rfl
    · exact hr.quiet e he
    · rfl
    · rfl

theorem handleStart_grows (s : ResponsesStreamState) (chunk : JsonValue) :
    s.emitted <+: (s.handleStart chunk).emitted := by
  unfold handleStart
  split
  next => exact prefix_rfl
  next => simp [emitResponseInProgress, emitResponseCreated, emit]

theorem finishOpenItems_running (hr : Running s) (codec : JsonCodec) : Running (s.finishOpenItems codec) := by
  have hclosed := hr.continues (closeOpenItems_continues codec s)
  exact ⟨hclosed.responseCompleted, hclosed.quiet⟩

section

variable (codec : JsonCodec)

theorem finishOpenItems_grows (s : ResponsesStreamState) :
    s.emitted <+: (s.finishOpenItems codec).emitted := (closeOpenItems_continues codec s).grows

theorem finishOpenItems_usage (s : ResponsesStreamState) : (s.finishOpenItems codec).usage = s.usage := by
  have hphase := finishOpenItems_phase codec s
  simp only [phase, Phase.mk.injEq] at hphase
  exact hphase.2.2.2.2

theorem handleFinish_cases (hr : Running s) (codec : JsonCodec) :
    Running (s.handleFinish codec) ∨ Ended (s.handleFinish codec) := by
  have hclosed := finishOpenItems_running hr codec
  unfold handleFinish
  dsimp only
  split
  next husage => exact .inr ⟨rfl, rfl, husage, emitResponseCompleted_endsOnce hclosed.quiet⟩
  next => exact .inl hclosed

theorem handleFinish_grows (s : ResponsesStreamState) : s.emitted <+: (s.handleFinish codec).emitted := by
  have hclosed := finishOpenItems_grows codec s
  unfold handleFinish
  dsimp only
  split
  next => exact hclosed.trans (emitResponseCompleted_grows _)
  next => exact hclosed

theorem handleFinish_emits (h : s.usage.isSome) : s.emitted.length < (s.handleFinish codec).emitted.length := by
  have hclosed := (finishOpenItems_grows codec s).length_le
  have husage : (s.finishOpenItems codec).usage.isSome := by rw [finishOpenItems_usage]; exact h
  rw [handleFinish, if_pos husage, emitResponseCompleted_length]
  omega

theorem handleFinishReason_cases (hr : Running s) (codec : JsonCodec) (reason : Option String) :
    Running (s.handleFinishReason codec reason) ∨ Ended (s.handleFinishReason codec reason) := by
  cases reason with
  | none => exact .inl hr
  | some reason =>
    have hset : Running { s with finishReason := some reason } := ⟨hr.responseCompleted, hr.quiet⟩
    exact handleFinish_cases hset codec

theorem handleFinishReason_grows (s : ResponsesStreamState) (reason : Option String) :
    s.emitted <+: (s.handleFinishReason codec reason).emitted := by
  cases reason with
  | none => exact prefix_rfl
  | some reason => exact handleFinish_grows codec { s with finishReason := some reason }

theorem handleUsage_cases (hr : Running s) (usage : Option Usage) :
    Running (s.handleUsage usage) ∨ Ended (s.handleUsage usage) := by
  unfold handleUsage
  split
  next => exact .inl hr
  next usage =>
    dsimp only
    split
    next hready =>
      have hfinished := ((Bool.and_eq_true ..).mp hready).1
      exact .inr ⟨hfinished, rfl, rfl, emitResponseCompleted_endsOnce hr.quiet⟩
    next => exact .inl ⟨hr.responseCompleted, hr.quiet⟩

theorem handleUsage_grows (s : ResponsesStreamState) (usage : Option Usage) :
    s.emitted <+: (s.handleUsage usage).emitted := by
  unfold handleUsage
  split
  next => exact prefix_rfl
  next usage =>
    dsimp only
    split
    next => exact emitResponseCompleted_grows { s with usage := some usage }
    next => exact prefix_rfl

theorem Ended.handleUsage (he : Ended s) (usage : Option Usage) :
    Ended (s.handleUsage usage) ∧ (s.handleUsage usage).emitted = s.emitted := by
  unfold ResponsesStreamState.handleUsage
  split
  next => exact ⟨he, rfl⟩
  next usage =>
    rw [if_neg (by simp [he.responseCompleted])]
    exact ⟨⟨he.finished, he.responseCompleted, rfl, he.endsOnce⟩, rfl⟩

theorem processChunk_running (hr : Running s) (ext : Externals) (chunk : JsonValue) :
    Running (s.processChunk ext chunk) ∨ Ended (s.processChunk ext chunk) := by
  have hstart := handleStart_running hr chunk
  unfold processChunk
  cases chunkChoice chunk with
  | none => exact handleUsage_cases hstart _
  | some choice =>
    have hdelta := hstart.continues (handleDelta_continues ext _ (choiceDelta choice))
    rcases handleFinishReason_cases hdelta ext.codec (choiceFinishReason choice) with hfinish | hfinish
    · exact handleUsage_cases hfinish _
    · exact .inr (hfinish.handleUsage _).1

theorem processChunk_grows (ext : Externals) (s : ResponsesStreamState) (chunk : JsonValue) :
    s.emitted <+: (s.processChunk ext chunk).emitted := by
  have hstart := handleStart_grows s chunk
  unfold processChunk
  cases chunkChoice chunk with
  | none => exact hstart.trans (handleUsage_grows _ _)
  | some choice =>
    have hdelta := (handleDelta_continues ext (s.handleStart chunk) (choiceDelta choice)).grows
    exact ((hstart.trans hdelta).trans (handleFinishReason_grows _ _ _)).trans (handleUsage_grows _ _)

theorem handleDelta_emitted (ext : Externals) (s : ResponsesStreamState) (delta : JsonValue) :
    let quiet := (deltaReasoning delta).isNone && (deltaContent delta).isNone &&
      quietToolCalls ext.codec s.toolCalls (deltaToolCalls delta)
    (quiet = true → (s.handleDelta ext delta).emitted = s.emitted) ∧
      (quiet = false → s.emitted.length < (s.handleDelta ext delta).emitted.length) := by
  have hfold := fun t => (Continues.foldl (fun s tc => handleToolCallDelta_continues ext s tc) t
    (deltaToolCalls delta)).grows.length_le
  unfold handleDelta
  cases deltaReasoning delta with
  | some reasoning =>
    have hreasoning := handleReasoningDelta_emits ext s reasoning
    refine ⟨fun h => by simp at h, fun _ => ?_⟩
    cases deltaContent delta with
    | none => exact hreasoning.trans_le (hfold _)
    | some content => exact (hreasoning.trans (handleContentDelta_emits ext _ content)).trans_le (hfold _)
  | none =>
    cases deltaContent delta with
    | some content => exact ⟨fun h => by simp at h, fun _ => (handleContentDelta_emits ext s content).trans_le (hfold _)⟩
    | none => exact ⟨fun h => quietToolCalls_emitted ext h, fun h => not_quietToolCalls_emits ext h⟩

theorem Ended.processChunk (he : Ended s) (hstarted : s.hasStarted = true) (ext : Externals) (chunk : JsonValue) :
    (quietChunk ext.codec s.toolCalls chunk = true → Ended (s.processChunk ext chunk)) ∧
      (quietChunk ext.codec s.toolCalls chunk = false → Broken (s.processChunk ext chunk).emitted) := by
  have hgrows := processChunk_grows ext s chunk
  have hstart : s.handleStart chunk = s := by rw [handleStart, if_pos hstarted]
  unfold quietChunk
  unfold ResponsesStreamState.processChunk at hgrows ⊢
  rw [hstart] at hgrows ⊢
  cases hchoice : chunkChoice chunk with
  | none => exact ⟨fun _ => (he.handleUsage _).1, fun h => Bool.noConfusion h⟩
  | some choice =>
    rw [hchoice] at hgrows
    dsimp only at hgrows ⊢
    obtain ⟨hquiet, hloud⟩ := handleDelta_emitted ext s (choiceDelta choice)
    have hcontinues := handleDelta_continues ext s (choiceDelta choice)
    have hphase := hcontinues.phase
    simp only [phase, Phase.mk.injEq] at hphase
    have hdelta := hcontinues.grows.length_le
    generalize s.handleDelta ext (choiceDelta choice) = t at hgrows hquiet hloud hphase hdelta ⊢
    have hfinish := (handleFinishReason_grows ext.codec t (choiceFinishReason choice)).length_le
    have husage := (handleUsage_grows (t.handleFinishReason ext.codec (choiceFinishReason choice))
      (chunkUsage chunk)).length_le
    constructor
    · intro h
      obtain ⟨hall, hnone⟩ := (Bool.and_eq_true ..).mp h
      have hended : Ended t :=
        ⟨hphase.2.1.trans he.finished, hphase.2.2.1.trans he.responseCompleted, hphase.2.2.2.2 ▸ he.usage,
          (hquiet hall) ▸ he.endsOnce⟩
      rw [Option.isNone_iff_eq_none.mp hnone]
      exact (hended.handleUsage _).1
    · intro h
      refine he.endsOnce.broken hgrows ?_
      rcases (Bool.and_eq_false_iff ..).mp h with hdeltaLoud | hsome
      · have hlt := hloud hdeltaLoud
        omega
      · obtain ⟨reason, hreason⟩ := Option.isSome_iff_exists.mp (by simpa using hsome)
        have hemits : t.emitted.length < (t.handleFinishReason ext.codec (some reason)).emitted.length :=
          handleFinish_emits ext.codec (s := { t with finishReason := some reason }) (hphase.2.2.2.2 ▸ he.usage)
        rw [hreason] at husage ⊢
        omega

theorem handleDone_running (hr : Running s) (hstarted : s.hasStarted = true) (codec : JsonCodec) :
    EndsOnce (s.handleDone codec).emitted := by
  have hclosed : Running (if !s.finished then s.handleFinish codec else s) ∨
      Ended (if !s.finished then s.handleFinish codec else s) := by
    split
    next => exact handleFinish_cases hr codec
    next => exact .inl hr
  rw [handleDone, if_neg (by simp [hstarted])]
  generalize (if !s.finished then s.handleFinish codec else s) = t at hclosed ⊢
  rcases hclosed with ht | ht
  · rw [if_pos (by simp [ht.responseCompleted])]
    exact emitResponseCompleted_endsOnce ht.quiet
  · rw [if_neg (by simp [ht.responseCompleted])]
    exact ht.endsOnce

theorem handleEnd_running (hr : Running s) (hstarted : s.hasStarted = true) (codec : JsonCodec)
    (ending : StreamEnd) : EndsOnce (s.handleEnd codec ending).emitted := by
  have hdone := handleDone_running hr hstarted codec
  cases ending with
  | done => exact hdone
  | ended =>
    rw [handleEnd, handleStreamEnded, if_neg (by simp [hstarted])]
    split
    next => exact endsOnce_concat (finishOpenItems_running hr codec).quiet rfl
    next => exact hdone

theorem Ended.handleEnd (he : Ended s) (codec : JsonCodec) (ending : StreamEnd) : s.handleEnd codec ending = s := by
  have hdone : s.handleDone codec = s := by
    rw [handleDone, he.finished]
    split
    next => rfl
    next => exact if_neg (by simp [he.responseCompleted])
  cases ending with
  | done => exact hdone
  | ended =>
    rw [ResponsesStreamState.handleEnd, handleStreamEnded, he.responseCompleted]
    split
    next => rfl
    next => simpa using hdone

theorem handleDone_grows (s : ResponsesStreamState) : s.emitted <+: (s.handleDone codec).emitted := by
  have hclosed : s.emitted <+: (if !s.finished then s.handleFinish codec else s).emitted := by
    split
    next => exact handleFinish_grows codec s
    next => exact prefix_rfl
  unfold handleDone
  split
  next => exact prefix_rfl
  next =>
    dsimp only
    generalize (if !s.finished then s.handleFinish codec else s) = t at hclosed ⊢
    split
    next => exact hclosed.trans (emitResponseCompleted_grows t)
    next => exact hclosed

theorem handleEnd_grows (s : ResponsesStreamState) (ending : StreamEnd) :
    s.emitted <+: (s.handleEnd codec ending).emitted := by
  have hdone := handleDone_grows codec s
  cases ending with
  | done => exact hdone
  | ended =>
    rw [handleEnd]
    unfold handleStreamEnded
    split
    next => exact prefix_rfl
    next =>
      split
      next => exact (finishOpenItems_grows codec s).trans ⟨_, rfl⟩
      next => exact hdone

end

theorem streamed_grows (ext : Externals) (s : ResponsesStreamState) (chunks : List JsonValue)
    (ending : StreamEnd) : s.emitted <+: (streamed ext s chunks ending).emitted := by
  induction chunks generalizing s with
  | nil => exact handleEnd_grows ext.codec s ending
  | cons chunk chunks ih => exact (processChunk_grows ext s chunk).trans (ih (s.processChunk ext chunk))

theorem Ended.streamed_iff (he : Ended s) (hstarted : s.hasStarted = true) (ext : Externals)
    (chunks : List JsonValue) (ending : StreamEnd) :
    EndsOnce (streamed ext s chunks ending).emitted ↔ QuietAfterTerminal ext s chunks := by
  induction chunks generalizing s with
  | nil =>
    rw [streamed, foldl_nil, he.handleEnd]
    exact iff_of_true he.endsOnce trivial
  | cons chunk chunks ih =>
    obtain ⟨hquiet, hloud⟩ := he.processChunk hstarted ext chunk
    have hnext := (processChunk_finished ext s chunk).1
    rw [QuietAfterTerminal]
    cases h : quietChunk ext.codec s.toolCalls chunk with
    | true =>
      have hrest := ih (hquiet h) hnext
      exact ⟨fun hends => ⟨fun _ => rfl, hrest.mp hends⟩, fun hall => hrest.mpr hall.2⟩
    | false =>
      have hbroken := (hloud h).extend (streamed_grows ext (s.processChunk ext chunk) chunks ending)
      refine iff_of_false hbroken.not_endsOnce ?_
      rintro ⟨hall, _⟩
      exact absurd (hall he.responseCompleted) (by decide)

theorem endsOnce_iff (hr : Running s) (ext : Externals) (chunks : List JsonValue) (ending : StreamEnd)
    (hchunks : s.hasStarted = true ∨ chunks ≠ []) :
    EndsOnce (streamed ext s chunks ending).emitted ↔ QuietAfterTerminal ext s chunks := by
  induction chunks generalizing s with
  | nil =>
    have hstarted := hchunks.resolve_right (fun h => h rfl)
    exact iff_of_true (handleEnd_running hr hstarted ext.codec ending) trivial
  | cons chunk chunks ih =>
    have hnext := (processChunk_finished ext s chunk).1
    have hopen : s.responseCompleted = true → quietChunk ext.codec s.toolCalls chunk = true := by
      intro h
      rw [hr.responseCompleted] at h
      cases h
    have hrest : EndsOnce (streamed ext (s.processChunk ext chunk) chunks ending).emitted ↔
        QuietAfterTerminal ext (s.processChunk ext chunk) chunks := by
      rcases processChunk_running hr ext chunk with hrunning | hended
      · exact ih hrunning (.inl hnext)
      · exact hended.streamed_iff hnext ext chunks ending
    exact ⟨fun h => ⟨hopen, hrest.mp h⟩, fun h => hrest.mpr h.2⟩

theorem running_new (responseId model : String) (createdAt : Int) (toolNameMap : ToolNameMap) :
    Running (new responseId model createdAt toolNameMap) :=
  ⟨rfl, fun _ he => absurd he not_mem_nil⟩

/-- One terminal event at the end of every stream, whatever its chunks are, as long as no chunk after the
terminal event shows anything. -/
theorem streamed_endsOnce_iff (ext : Externals) (responseId model : String) (createdAt : Int)
    (toolNameMap : ToolNameMap) (chunks : List JsonValue) (ending : StreamEnd) (hchunks : chunks ≠ []) :
    EndsOnce (streamed ext (new responseId model createdAt toolNameMap) chunks ending).emitted ↔
      QuietAfterTerminal ext (new responseId model createdAt toolNameMap) chunks :=
  endsOnce_iff (running_new responseId model createdAt toolNameMap) ext chunks ending (.inr hchunks)

def usageChunk : JsonValue :=
  .object [("usage", .object [("prompt_tokens", .number (.int 1)), ("completion_tokens", .number (.int 1))])]

theorem streamed_endsOnce_iff_usageLast :
    EndsOnce (streamed plainExternals (new "r" "m" 0 .empty) [contentChunk "hi", finishChunk "stop", usageChunk]
      .done).emitted :=
  (streamed_endsOnce_iff plainExternals "r" "m" 0 .empty _ .done (cons_ne_nil _ _)).mpr (by decide +kernel)

/-- A second `finish_reason` behind the usage completes the response again. -/
theorem second_finish_completes_again :
    ¬ EndsOnce (streamed plainExternals (new "r" "m" 0 .empty)
      [finishChunk "stop", usageChunk, finishChunk "stop"] .done).emitted := by
  rintro ⟨before, last, heq, _, hquiet⟩
  have hcount : ((streamed plainExternals (new "r" "m" 0 .empty)
      [finishChunk "stop", usageChunk, finishChunk "stop"] .done).emitted.dropLast.any
        fun e => e.event.isTerminal) = true := by decide +kernel
  rw [heq, dropLast_concat, any_eq_true] at hcount
  obtain ⟨e, he, hterminal⟩ := hcount
  rw [hquiet e he] at hterminal
  cases hterminal

end ResponsesStreamState

end MochiPort

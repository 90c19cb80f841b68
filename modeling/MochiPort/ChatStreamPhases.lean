import MochiPort.ChatStreamSound

namespace MochiPort

namespace ResponsesStreamState

/-- The fields that decide how a stream ends. -/
structure Phase where
  hasStarted : Bool
  finished : Bool
  responseCompleted : Bool
  finishReason : Option String
  usage : Option Usage

def phase (s : ResponsesStreamState) : Phase :=
  ⟨s.hasStarted, s.finished, s.responseCompleted, s.finishReason, s.usage⟩

/-- The stream goes on: events were added, none of them terminal. -/
structure Continues (s s' : ResponsesStreamState) : Prop where
  phase : s'.phase = s.phase
  toolNameMap : s'.toolNameMap = s.toolNameMap
  emitted : ∃ events, s'.emitted = s.emitted ++ events ∧ ∀ e ∈ events, e.event.isTerminal = false

variable {s s' : ResponsesStreamState}

theorem Continues.refl (s : ResponsesStreamState) : Continues s s :=
  ⟨rfl, rfl, [], (List.append_nil _).symm, fun _ h => absurd h List.not_mem_nil⟩

theorem Continues.trans {s'' : ResponsesStreamState} (h : Continues s s') (h' : Continues s' s'') :
    Continues s s'' := by
  obtain ⟨events, hevents, hquiet⟩ := h.emitted
  obtain ⟨events', hevents', hquiet'⟩ := h'.emitted
  refine ⟨h'.phase.trans h.phase, h'.toolNameMap.trans h.toolNameMap, events ++ events', ?_, ?_⟩
  · rw [hevents', hevents, List.append_assoc]
  · intro e he
    rcases List.mem_append.mp he with he | he
    · exact hquiet e he
    · exact hquiet' e he

theorem Continues.emit (h : Continues s s') (event : ResponseEvent) (hquiet : event.isTerminal = false) :
    Continues s (s'.emit event) := by
  refine h.trans ⟨rfl, rfl, [⟨s'.sequenceNumber, event⟩], rfl, ?_⟩
  intro e he
  rw [List.mem_singleton.mp he]
  exact hquiet

theorem Continues.set {s'' : ResponsesStreamState} (h : Continues s s') (hphase : s''.phase = s'.phase)
    (hnames : s''.toolNameMap = s'.toolNameMap) (hemitted : s''.emitted = s'.emitted) : Continues s s'' :=
  ⟨hphase.trans h.phase, hnames.trans h.toolNameMap, hemitted ▸ h.emitted⟩

theorem Continues.foldl {α : Type*} {f : ResponsesStreamState → α → ResponsesStreamState}
    (hf : ∀ s a, Continues s (f s a)) (s : ResponsesStreamState) (as : List α) : Continues s (as.foldl f s) := by
  induction as generalizing s with
  | nil => exact .refl s
  | cons a as ih => exact (hf s a).trans (ih (f s a))

section

variable (s)

theorem closeReasoningItem_continues : Continues s s.closeReasoningItem := by
  unfold closeReasoningItem
  split
  next => exact .refl s
  next =>
    refine ((((Continues.refl s).emit _ ?_).emit _ ?_).emit _ ?_).set rfl rfl rfl
    all_goals rfl

theorem closeContentPart_continues : Continues s s.closeContentPart := by
  unfold closeContentPart
  split
  next => exact .refl s
  next =>
    refine (((Continues.refl s).emit _ ?_).emit _ ?_).set rfl rfl rfl
    all_goals rfl

theorem closeMessageItem_continues : Continues s s.closeMessageItem := by
  unfold closeMessageItem
  split
  next => exact .refl s
  next =>
    refine ((closeContentPart_continues s).emit _ ?_).set rfl rfl rfl
    rfl

end

section

variable (ext : Externals)
include ext

theorem startReasoningItem_continues (s : ResponsesStreamState) : Continues s (s.startReasoningItem ext) := by
  unfold startReasoningItem
  split
  next => exact .refl s
  next =>
    refine ((Continues.refl s).emit _ ?_).set rfl rfl rfl
    rfl

omit ext in
theorem startSummaryPart_continues (s : ResponsesStreamState) : Continues s s.startSummaryPart := by
  unfold startSummaryPart
  split
  next => exact .refl s
  next =>
    refine ((Continues.refl s).emit _ ?_).set rfl rfl rfl
    rfl

theorem beforeReasoningDelta_continues (s : ResponsesStreamState) :
    Continues s ((s.closeMessageItem).startReasoningItem ext).startSummaryPart :=
  ((closeMessageItem_continues s).trans (startReasoningItem_continues ext _)).trans (startSummaryPart_continues _)

theorem handleReasoningDelta_continues (s : ResponsesStreamState) (text : String) :
    Continues s (s.handleReasoningDelta ext text) := by
  refine ((beforeReasoningDelta_continues ext s).emit _ ?_).set rfl rfl rfl
  rfl

theorem startMessageItem_continues (s : ResponsesStreamState) : Continues s (s.startMessageItem ext) := by
  unfold startMessageItem
  split
  next => exact .refl s
  next =>
    refine ((Continues.refl s).emit _ ?_).set rfl rfl rfl
    rfl

omit ext in
theorem startContentPart_continues (s : ResponsesStreamState) : Continues s s.startContentPart := by
  unfold startContentPart
  split
  next => exact .refl s
  next =>
    refine ((Continues.refl s).emit _ ?_).set rfl rfl rfl
    rfl

theorem beforeContentDelta_continues (s : ResponsesStreamState) :
    Continues s ((s.closeReasoningItem).startMessageItem ext).startContentPart :=
  ((closeReasoningItem_continues s).trans (startMessageItem_continues ext _)).trans (startContentPart_continues _)

theorem handleContentDelta_continues (s : ResponsesStreamState) (text : String) :
    Continues s (s.handleContentDelta ext text) := by
  refine ((beforeContentDelta_continues ext s).emit _ ?_).set rfl rfl rfl
  rfl

theorem startToolCall_continues (s : ResponsesStreamState) (tc : JsonValue) : Continues s (s.startToolCall ext tc) := by
  unfold startToolCall
  split
  next => exact .refl s
  next =>
    have hclosed := (closeMessageItem_continues s).trans (closeReasoningItem_continues _)
    refine (hclosed.emit _ ?_).set rfl rfl rfl
    rfl

omit ext in
theorem extendToolCall_continues (codec : JsonCodec) (s : ResponsesStreamState) (index : Nat)
    (arguments : String) : Continues s (s.extendToolCall codec index arguments) := by
  unfold extendToolCall
  split
  next => exact .refl s
  next call _ =>
    obtain ⟨emittedInput, _, hevent⟩ :=
      toolDeltaEvent_cases codec { call with arguments := call.arguments ++ arguments } arguments
    dsimp only
    rcases hevent with ⟨hnone, _⟩ | ⟨⟨delta, hdelta⟩, _⟩ | ⟨hdelta, _⟩
    · rw [hnone]
      exact (Continues.refl s).set rfl rfl rfl
    · rw [hdelta]
      refine ((Continues.refl s).emit _ ?_).set rfl rfl rfl
      rfl
    · rw [hdelta]
      refine ((Continues.refl s).emit _ ?_).set rfl rfl rfl
      rfl

theorem handleToolCallDelta_continues (s : ResponsesStreamState) (tc : JsonValue) :
    Continues s (s.handleToolCallDelta ext tc) := by
  unfold handleToolCallDelta
  split
  next => exact (startToolCall_continues ext s tc).trans (extendToolCall_continues ext.codec _ _ _)
  next => exact startToolCall_continues ext s tc

end

theorem closeToolCall_continues (codec : JsonCodec) (s : ResponsesStreamState) (index : Nat) :
    Continues s (s.closeToolCall codec index) := by
  unfold closeToolCall
  split
  next => exact .refl s
  next call _ =>
    cases call.target.kind with
    | function | custom =>
      refine (((Continues.refl s).emit _ ?_).emit _ ?_).set rfl rfl rfl
      all_goals rfl
    | toolSearch =>
      refine ((Continues.refl s).emit _ ?_).set rfl rfl rfl
      rfl

theorem closeToolCalls_continues (codec : JsonCodec) (s : ResponsesStreamState) :
    Continues s (s.closeToolCalls codec) :=
  Continues.foldl (fun s index => closeToolCall_continues codec s index) s _

theorem closeOpenItems_continues (codec : JsonCodec) (s : ResponsesStreamState) :
    Continues s (((s.closeReasoningItem).closeMessageItem).closeToolCalls codec) :=
  ((closeReasoningItem_continues s).trans (closeMessageItem_continues _)).trans (closeToolCalls_continues codec _)

theorem handleDelta_continues (ext : Externals) (s : ResponsesStreamState) (delta : JsonValue) :
    Continues s (s.handleDelta ext delta) := by
  have hfold := Continues.foldl (fun s tc => handleToolCallDelta_continues ext s tc)
  unfold handleDelta
  cases deltaReasoning delta with
  | none =>
    cases deltaContent delta with
    | none => exact hfold s _
    | some content => exact (handleContentDelta_continues ext s content).trans (hfold _ _)
  | some reasoning =>
    have hreasoning := handleReasoningDelta_continues ext s reasoning
    cases deltaContent delta with
    | none => exact hreasoning.trans (hfold _ _)
    | some content => exact (hreasoning.trans (handleContentDelta_continues ext _ content)).trans (hfold _ _)

end ResponsesStreamState

end MochiPort

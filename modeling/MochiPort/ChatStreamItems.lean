import MochiPort.ChatStreamPhases

namespace MochiPort

/-- The rules for the events of a stream at any time: the numbers have no gaps, and the items keep the rules of
the ledger. -/
structure OrderlyStream (events : List StreamEvent) : Prop where
  numbered : events.map StreamEvent.sequenceNumber = List.range events.length
  items : (itemsAfter events).isSome

/-- The rules for the events of a whole stream: besides, each item that is added is done once. -/
structure WellFormedStream (events : List StreamEvent) : Prop extends OrderlyStream events where
  settled : ((events.map fun e => e.event.itemAct).filterMap ItemLedger.Act.doneIndex).Perm
    ((events.map fun e => e.event.itemAct).filterMap ItemLedger.Act.addedIndex)

namespace ResponsesStreamState

/-- Whether a chunk has text or tool calls. -/
def chunkOpens (chunk : JsonValue) : Bool :=
  match chunkChoice chunk with
  | none => false
  | some choice =>
    (deltaReasoning (choiceDelta choice)).isSome || (deltaContent (choiceDelta choice)).isSome ||
      !(deltaToolCalls (choiceDelta choice)).isEmpty

def chunkFinishes (chunk : JsonValue) : Bool := ((chunkChoice chunk).bind choiceFinishReason).isSome

/-- Whether text or tool calls come after the last chunk with a `finish_reason`. -/
def opensAfterLastFinish (chunks : List JsonValue) : Bool :=
  chunks.any chunkFinishes && (chunks.reverse.takeWhile fun c => !chunkFinishes c).any chunkOpens

theorem opensAfterLastFinish_concat_of_finishes {chunk : JsonValue} (chunks : List JsonValue)
    (h : chunkFinishes chunk = true) : opensAfterLastFinish (chunks ++ [chunk]) = false := by
  simp [opensAfterLastFinish, h]

theorem opensAfterLastFinish_concat {chunk : JsonValue} {chunks : List JsonValue}
    (h : chunkFinishes chunk = false) (hfinish : chunks.any chunkFinishes = true) :
    opensAfterLastFinish (chunks ++ [chunk]) = (opensAfterLastFinish chunks || chunkOpens chunk) := by
  simp [opensAfterLastFinish, h, hfinish, Bool.or_comm]

variable {s : ResponsesStreamState} {l : ItemLedger.State (Option String)}

theorem startSummaryPart_reasoningItemStarted (s : ResponsesStreamState) :
    s.startSummaryPart.reasoningItemStarted = s.reasoningItemStarted := by
  unfold startSummaryPart
  split
  next => rfl
  next => rfl

section

variable (ext : Externals)
include ext

theorem startReasoningItem_reasoningItemStarted (s : ResponsesStreamState) :
    (s.startReasoningItem ext).reasoningItemStarted = true := by
  unfold startReasoningItem
  split
  next h => exact h
  next => rfl

omit ext in
theorem startContentPart_messageItemStarted (s : ResponsesStreamState) :
    s.startContentPart.messageItemStarted = s.messageItemStarted := by
  unfold startContentPart
  split
  next => rfl
  next => rfl

theorem startMessageItem_messageItemStarted (s : ResponsesStreamState) :
    (s.startMessageItem ext).messageItemStarted = true := by
  unfold startMessageItem
  split
  next h => exact h
  next => rfl

theorem handleReasoningDelta_not_idle (s : ResponsesStreamState) (text : String) :
    ¬ (s.handleReasoningDelta ext text).Idle := by
  have hstarted : (s.handleReasoningDelta ext text).reasoningItemStarted = true :=
    (startSummaryPart_reasoningItemStarted _).trans (startReasoningItem_reasoningItemStarted ext s.closeMessageItem)
  rintro ⟨hnone, _⟩
  cases hm : (s.handleReasoningDelta ext text).messageItemStarted with
  | true => simp [activeItem, hm] at hnone
  | false => simp [activeItem, hm, hstarted] at hnone

theorem handleContentDelta_not_idle (s : ResponsesStreamState) (text : String) :
    ¬ (s.handleContentDelta ext text).Idle := by
  have hstarted : (s.handleContentDelta ext text).messageItemStarted = true :=
    (startContentPart_messageItemStarted _).trans (startMessageItem_messageItemStarted ext s.closeReasoningItem)
  rintro ⟨hnone, _⟩
  rw [activeItem_of_message hstarted] at hnone
  cases hnone

theorem startToolCall_lookup (s : ResponsesStreamState) (tc : JsonValue) :
    ((s.startToolCall ext tc).toolCalls.lookup (toolCallIndex tc)).isSome := by
  unfold startToolCall
  split
  next h => exact h
  next =>
    rw [AList.lookup_insert]
    rfl

omit ext in
theorem extendToolCall_lookup (codec : JsonCodec) {index : Nat} (arguments : String)
    (h : (s.toolCalls.lookup index).isSome) :
    ((s.extendToolCall codec index arguments).toolCalls.lookup index).isSome := by
  obtain ⟨call, hcall⟩ := Option.isSome_iff_exists.mp h
  rw [extendToolCall, hcall]
  dsimp only
  split
  next =>
    have hlookup := AList.lookup_insert (b := (toolDeltaEvent codec
      { call with arguments := call.arguments ++ arguments } arguments).1) (s := s.toolCalls) (a := index)
    exact Option.isSome_iff_exists.mpr ⟨_, hlookup⟩
  next =>
    rw [AList.lookup_insert]
    rfl

theorem handleToolCallDelta_not_idle (s : ResponsesStreamState) (tc : JsonValue) :
    ¬ (s.handleToolCallDelta ext tc).Idle := by
  have hstart := startToolCall_lookup ext s tc
  have hopen : ((s.handleToolCallDelta ext tc).toolCalls.lookup (toolCallIndex tc)).isSome := by
    unfold handleToolCallDelta
    split
    next => exact extendToolCall_lookup ext.codec _ hstart
    next => exact hstart
  rintro ⟨_, hcalls⟩
  rw [hcalls] at hopen
  cases hopen

theorem handleDelta_cases (s : ResponsesStreamState) (delta : JsonValue) :
    ((deltaReasoning delta).isSome || (deltaContent delta).isSome || !(deltaToolCalls delta).isEmpty) = false ∧
        s.handleDelta ext delta = s ∨
      ((deltaReasoning delta).isSome || (deltaContent delta).isSome || !(deltaToolCalls delta).isEmpty) = true ∧
        ¬ (s.handleDelta ext delta).Idle := by
  unfold handleDelta
  cases hcalls : deltaToolCalls delta using List.reverseRecOn with
  | append_singleton tcs tc =>
    refine .inr ⟨by simp, ?_⟩
    rw [List.foldl_append]
    exact handleToolCallDelta_not_idle ext _ tc
  | nil =>
    cases deltaContent delta with
    | some content => exact .inr ⟨by simp, handleContentDelta_not_idle ext _ content⟩
    | none =>
      cases deltaReasoning delta with
      | some reasoning => exact .inr ⟨by simp, handleReasoningDelta_not_idle ext s reasoning⟩
      | none => exact .inl ⟨rfl, rfl⟩

end

section

variable (s)

theorem handleStart_idle (chunk : JsonValue) : (s.handleStart chunk).Idle ↔ s.Idle := by
  unfold handleStart
  split
  next => exact Iff.rfl
  next => exact Iff.rfl

theorem handleUsage_idle (usage : Option Usage) : (s.handleUsage usage).Idle ↔ s.Idle := by
  unfold handleUsage
  split
  next => exact Iff.rfl
  next =>
    dsimp only
    split
    next => exact Iff.rfl
    next => exact Iff.rfl

end

theorem Tracked.processChunk_idle (ht : Tracked s l) (ext : Externals) (chunk : JsonValue) :
    (s.processChunk ext chunk).Idle ↔ chunkFinishes chunk = true ∨ s.Idle ∧ chunkOpens chunk = false := by
  have ht₁ := ht.handleStart chunk
  have hstart := handleStart_idle s chunk
  unfold ResponsesStreamState.processChunk chunkFinishes chunkOpens
  cases chunkChoice chunk with
  | none => simp [handleUsage_idle, hstart]
  | some choice =>
    obtain ⟨l₂, ht₂⟩ := ht₁.handleDelta ext (choiceDelta choice)
    rw [handleUsage_idle, Option.bind_some]
    cases choiceFinishReason choice with
    | some reason =>
      have hset : Tracked { (s.handleStart chunk).handleDelta ext (choiceDelta choice) with
          finishReason := some reason } l₂ :=
        ht₂.keep ⟨ht₂.numbered, ht₂.read⟩ ⟨ht₂.apart, ht₂.freshText, ht₂.freshReasoning⟩ rfl rfl rfl
      obtain ⟨m, _, hidle⟩ := hset.handleFinish ext.codec
      exact ⟨fun _ => .inl rfl, fun _ => hidle⟩
    | none =>
      rcases handleDelta_cases ext (s.handleStart chunk) (choiceDelta choice) with ⟨hquiet, heq⟩ | ⟨hopens, hidle⟩
      · simp [ResponsesStreamState.handleFinishReason, heq, hstart, hquiet]
      · simp [ResponsesStreamState.handleFinishReason, hidle, hopens]

section

variable (s)

theorem handleStart_phase (chunk : JsonValue) : (s.handleStart chunk).phase = { s.phase with hasStarted := true } := by
  unfold handleStart
  split
  next h => simp [phase, h]
  next => rfl

theorem handleUsage_finished (usage : Option Usage) :
    (s.handleUsage usage).hasStarted = s.hasStarted ∧ (s.handleUsage usage).finished = s.finished ∧
      (s.handleUsage usage).finishReason = s.finishReason := by
  unfold handleUsage
  split
  next => exact ⟨rfl, rfl, rfl⟩
  next =>
    dsimp only
    split
    next => exact ⟨rfl, rfl, rfl⟩
    next => exact ⟨rfl, rfl, rfl⟩

end

theorem finishOpenItems_phase (codec : JsonCodec) (s : ResponsesStreamState) :
    (s.finishOpenItems codec).phase = { s.phase with finished := true } := by
  have hphase := (closeOpenItems_continues codec s).phase
  simp only [phase, Phase.mk.injEq] at hphase ⊢
  exact ⟨hphase.1, rfl, hphase.2.2⟩

theorem handleFinish_finished (codec : JsonCodec) (s : ResponsesStreamState) :
    (s.handleFinish codec).hasStarted = s.hasStarted ∧ (s.handleFinish codec).finished = true ∧
      (s.handleFinish codec).finishReason = s.finishReason := by
  have hphase := finishOpenItems_phase codec s
  simp only [phase, Phase.mk.injEq] at hphase
  unfold handleFinish
  dsimp only
  split
  next => exact ⟨hphase.1, hphase.2.1, hphase.2.2.2.1⟩
  next => exact ⟨hphase.1, hphase.2.1, hphase.2.2.2.1⟩

theorem handleFinishReason_finished (codec : JsonCodec) (s : ResponsesStreamState) (reason : String) :
    (s.handleFinishReason codec (some reason)).hasStarted = s.hasStarted ∧
      (s.handleFinishReason codec (some reason)).finished = true ∧
      (s.handleFinishReason codec (some reason)).finishReason = some reason :=
  handleFinish_finished codec { s with finishReason := some reason }

/-- How far the chunks have brought the stream. -/
structure After (chunks : List JsonValue) (s : ResponsesStreamState) : Prop where
  hasStarted : s.hasStarted = !chunks.isEmpty
  finished : s.finished = chunks.any chunkFinishes
  finishReason : s.finishReason.isSome = chunks.any chunkFinishes
  idle : chunks.any chunkFinishes = true → (s.Idle ↔ opensAfterLastFinish chunks = false)

theorem processChunk_finished (ext : Externals) (s : ResponsesStreamState) (chunk : JsonValue) :
    (s.processChunk ext chunk).hasStarted = true ∧
      (s.processChunk ext chunk).finished = (s.finished || chunkFinishes chunk) ∧
      (s.processChunk ext chunk).finishReason.isSome = (s.finishReason.isSome || chunkFinishes chunk) := by
  have hstart := handleStart_phase s chunk
  simp only [phase, Phase.mk.injEq] at hstart
  obtain ⟨h₁, h₂, -, h₃, -⟩ := hstart
  unfold processChunk chunkFinishes
  cases chunkChoice chunk with
  | none =>
    obtain ⟨hu₁, hu₂, hu₃⟩ := handleUsage_finished (s.handleStart chunk) (chunkUsage chunk)
    simp [hu₁, hu₂, hu₃, h₁, h₂, h₃]
  | some choice =>
    have hdelta := (handleDelta_continues ext (s.handleStart chunk) (choiceDelta choice)).phase
    simp only [phase, Phase.mk.injEq] at hdelta
    obtain ⟨hd₁, hd₂, -, hd₃, -⟩ := hdelta
    dsimp only
    generalize (s.handleStart chunk).handleDelta ext (choiceDelta choice) = t at hd₁ hd₂ hd₃
    obtain ⟨hu₁, hu₂, hu₃⟩ := handleUsage_finished (t.handleFinishReason ext.codec (choiceFinishReason choice))
      (chunkUsage chunk)
    rw [hu₁, hu₂, hu₃, Option.bind_some]
    cases choiceFinishReason choice with
    | none => simp [handleFinishReason, hd₁, hd₂, hd₃, h₁, h₂, h₃]
    | some reason =>
      obtain ⟨hf₁, hf₂, hf₃⟩ := handleFinishReason_finished ext.codec t reason
      simp [hf₁, hf₂, hf₃, hd₁, h₁]

section

variable (ht : Tracked s l)
include ht

theorem Tracked.after_step {chunks : List JsonValue} (ha : After chunks s) (ext : Externals)
    (chunk : JsonValue) : After (chunks ++ [chunk]) (s.processChunk ext chunk) := by
  obtain ⟨hstarted, hfinished, hreason⟩ := processChunk_finished ext s chunk
  have hidle := ht.processChunk_idle ext chunk
  refine ⟨?_, ?_, ?_, ?_⟩
  · simp [hstarted]
  · simp [hfinished, ha.finished]
  · simp [hreason, ha.finishReason]
  · intro hany
    rw [hidle]
    cases hfinish : chunkFinishes chunk with
    | true => simp [opensAfterLastFinish_concat_of_finishes chunks hfinish]
    | false =>
      have hbefore : chunks.any chunkFinishes = true := by simpa [hfinish] using hany
      rw [opensAfterLastFinish_concat hfinish hbefore, ha.idle hbefore]
      simp

omit ht in
theorem tracked_foldl_processChunk (ext : Externals) (chunks : List JsonValue) (ht : Tracked s l) (ha : After [] s) :
    ∃ m, Tracked (chunks.foldl (processChunk ext) s) m ∧ After chunks (chunks.foldl (processChunk ext) s) := by
  induction chunks using List.reverseRecOn with
  | nil => exact ⟨l, ht, ha⟩
  | append_singleton chunks chunk ih =>
    obtain ⟨m, hm, ham⟩ := ih
    obtain ⟨m', hm'⟩ := hm.processChunk ext chunk
    rw [List.foldl_append]
    exact ⟨m', hm', hm.after_step ham ext chunk⟩

theorem Tracked.handleDone (codec : JsonCodec) :
    ∃ m, Tracked (s.handleDone codec) m ∧
      ((s.handleDone codec).Idle ↔ s.Idle ∨ s.hasStarted = true ∧ s.finished = false) := by
  have hclosed : ∃ m, Tracked (if !s.finished then s.handleFinish codec else s) m ∧
      ((if !s.finished then s.handleFinish codec else s).Idle ↔ s.Idle ∨ s.finished = false) := by
    cases hfinished : s.finished with
    | true => exact ⟨l, ht, by simp⟩
    | false =>
      obtain ⟨m, hm, hidle⟩ := ht.handleFinish codec
      exact ⟨m, hm, by simp [hidle]⟩
  unfold ResponsesStreamState.handleDone
  split
  next hstart =>
    have hstart : s.hasStarted = false := by simpa using hstart
    exact ⟨l, ht, by simp [hstart]⟩
  next hstart =>
    have hstart : s.hasStarted = true := by simpa using hstart
    obtain ⟨m, hm, hidle⟩ := hclosed
    dsimp only
    generalize (if !s.finished then s.handleFinish codec else s) = t at hm hidle ⊢
    split
    all_goals rw [hstart]; simp only [true_and]
    next => exact ⟨m, hm.emitResponseCompleted, hidle⟩
    next => exact ⟨m, hm, hidle⟩

theorem Tracked.handleStreamEnded (codec : JsonCodec) :
    ∃ m, Tracked (s.handleStreamEnded codec) m ∧
      (s.finished = s.finishReason.isSome →
        ((s.handleStreamEnded codec).Idle ↔ s.Idle ∨ s.hasStarted = true ∧ s.finished = false)) := by
  obtain ⟨m, hm, hidle⟩ := ht.handleDone codec
  unfold ResponsesStreamState.handleStreamEnded
  split
  next hstart =>
    have hstart : s.hasStarted = false := by simpa using hstart
    exact ⟨l, ht, fun _ => by simp [hstart]⟩
  next hstart =>
    have hstart : s.hasStarted = true := by simpa using hstart
    split
    next htruncated =>
      obtain ⟨m', hm', hidle'⟩ := ht.finishOpenItems codec
      have hreason : s.finishReason.isSome = false := by
        have hnone := ((Bool.and_eq_true ..).mp htruncated).1
        simpa using hnone
      refine ⟨m', hm'.emitResponseFailed _, fun hfinished => ?_⟩
      exact ⟨fun _ => .inr ⟨hstart, hfinished.trans hreason⟩, fun _ => hidle'⟩
    next => exact ⟨m, hm, fun _ => hidle⟩

theorem Tracked.handleEnd (codec : JsonCodec) (ending : StreamEnd) (hfinished : s.finished = s.finishReason.isSome) :
    ∃ m, Tracked (s.handleEnd codec ending) m ∧
      ((s.handleEnd codec ending).Idle ↔ s.Idle ∨ s.hasStarted = true ∧ s.finished = false) := by
  cases ending with
  | done => exact ht.handleDone codec
  | ended =>
    obtain ⟨m, hm, hidle⟩ := ht.handleStreamEnded codec
    exact ⟨m, hm, hidle hfinished⟩

theorem Tracked.orderly : OrderlyStream s.emitted := by
  constructor
  · have hlength := congrArg List.length ht.numbered
    rw [List.length_map, List.length_range] at hlength
    rw [hlength]
    exact ht.numbered
  · exact Option.isSome_iff_exists.mpr ⟨l, ht.read⟩

theorem Tracked.wellFormed_iff : WellFormedStream s.emitted ↔ s.Idle := by
  have hsettled := ItemLedger.done_perm_added_iff ht.read
  rw [← ht.opened_eq_empty_iff, ← hsettled]
  exact ⟨fun h => h.settled, fun h => ⟨ht.orderly, h⟩⟩

end

/-- The state after all chunks and the end of the body. -/
def streamed (ext : Externals) (s : ResponsesStreamState) (chunks : List JsonValue) (ending : StreamEnd) :
    ResponsesStreamState :=
  (chunks.foldl (processChunk ext) s).handleEnd ext.codec ending

theorem after_new (responseId model : String) (createdAt : Int) (toolNameMap : ToolNameMap) :
    After [] (new responseId model createdAt toolNameMap) :=
  ⟨rfl, rfl, rfl, fun h => nomatch h⟩

theorem idle_new (responseId model : String) (createdAt : Int) (toolNameMap : ToolNameMap) :
    (new responseId model createdAt toolNameMap).Idle := ⟨rfl, rfl⟩

/-- The events of every stream are numbered and keep the rules of the items; each item is done if and only if
nothing is opened behind the last `finish_reason`. -/
theorem streamed_wellFormed_iff (ext : Externals) (responseId model : String) (createdAt : Int)
    (toolNameMap : ToolNameMap) (chunks : List JsonValue) (ending : StreamEnd) :
    OrderlyStream (streamed ext (new responseId model createdAt toolNameMap) chunks ending).emitted ∧
      (WellFormedStream (streamed ext (new responseId model createdAt toolNameMap) chunks ending).emitted ↔
        opensAfterLastFinish chunks = false) := by
  have hnew := tracked_new responseId model createdAt toolNameMap
  obtain ⟨l, ht, ha⟩ := tracked_foldl_processChunk ext chunks hnew
    (after_new responseId model createdAt toolNameMap)
  obtain ⟨m, hm, hidle⟩ := ht.handleEnd ext.codec ending (ha.finished.trans ha.finishReason.symm)
  refine ⟨hm.orderly, ?_⟩
  rw [streamed, hm.wellFormed_iff, hidle, ha.finished, ha.hasStarted]
  cases hany : chunks.any chunkFinishes with
  | true => simp [ha.idle hany]
  | false =>
    have hquiet : opensAfterLastFinish chunks = false := by rw [opensAfterLastFinish, hany, Bool.false_and]
    cases chunks with
    | nil => simp [hquiet, idle_new]
    | cons chunk chunks => simp [hquiet]

def plainExternals : Externals := ⟨⟨fun _ => none, fun _ => ""⟩, fun n => toString n⟩

def contentChunk (content : String) : JsonValue :=
  .object [("choices", .array [.object [("delta", .object [("content", .string content)])]])]

def finishChunk (reason : String) : JsonValue :=
  .object [("choices", .array [.object [("delta", .object []), ("finish_reason", .string reason)]])]

/-- A message that comes behind the `finish_reason` is never done. -/
theorem message_after_finish_open :
    ¬ WellFormedStream (streamed plainExternals (new "r" "m" 0 .empty)
      [finishChunk "stop", contentChunk "late"] .done).emitted := by
  intro h
  have hlength := h.settled.length_eq
  exact absurd hlength (by decide +kernel)

end ResponsesStreamState

end MochiPort

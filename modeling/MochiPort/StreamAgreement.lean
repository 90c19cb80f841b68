import MochiPort.ChatResponses
import MochiPort.ChatStreamOutput
import MochiPort.ChatStreamTerminal

namespace MochiPort

open List ResponseItem ResponsesStreamState

structure ChatToolCall where
  id : String
  name : String
  arguments : Option String

/-- A chat message, with the finish reason and the usage that come with it. -/
structure ChatMessage where
  reasoning : Option String
  content : Option String
  toolCalls : List ChatToolCall
  finishReason : Option String
  usage : Option JsonValue

def ChatToolCall.IsWhole (call : ChatToolCall) (tc : JsonValue) : Prop :=
  (tc.get "id").bind JsonValue.asStr = some call.id ∧
    ((toolCallFunction tc).get "name").bind JsonValue.asStr = some call.name ∧
    ((toolCallFunction tc).get "arguments").bind JsonValue.asStr = call.arguments

structure ChatMessage.IsWhole (m : ChatMessage) (chatResp choice message : JsonValue) : Prop where
  firstChoice : chunkChoice chatResp = some choice
  wholeMessage : choice.get "message" = some message
  reasoning : (message.get "reasoning_content").bind JsonValue.asStr = m.reasoning
  content : (message.get "content").bind JsonValue.asStr = m.content
  toolCalls : List.Forall₂ ChatToolCall.IsWhole m.toolCalls
    (((message.get "tool_calls").bind JsonValue.asArray).getD [])
  finishReason : (choice.get "finish_reason").bind JsonValue.asStr = m.finishReason
  usage : chatResp.get "usage" = m.usage

section

def chunkDelta (chunk : JsonValue) : JsonValue := ((chunkChoice chunk).map choiceDelta).getD .null

def chunkReasoning (chunk : JsonValue) : Option String := deltaReasoning (chunkDelta chunk)

def chunkContent (chunk : JsonValue) : Option String := deltaContent (chunkDelta chunk)

def chunkToolCalls (chunk : JsonValue) : List JsonValue := deltaToolCalls (chunkDelta chunk)

def chunkFinishReason (chunk : JsonValue) : Option String :=
  (chunkChoice chunk).bind fun choice => (choice.get "finish_reason").bind JsonValue.asStr

/-- The usage of a chunk as it was sent; null is none. -/
def chunkUsageValue (chunk : JsonValue) : Option JsonValue := (chunk.get "usage").filter (· ≠ .null)

/-- Reasoning comes before content, and both come before the tool calls. -/
def InChatOrder (earlier later : JsonValue) : Prop :=
  (chunkReasoning later ≠ none → chunkContent earlier = none ∧ chunkToolCalls earlier = []) ∧
    (chunkContent later ≠ none → chunkToolCalls earlier = [])

def joined (fragment : JsonValue → Option String) (chunks : List JsonValue) : String :=
  String.join (chunks.map fun chunk => (fragment chunk).getD "")

def entriesAt (chunks : List JsonValue) (index : Nat) : List JsonValue :=
  (chunks.flatMap chunkToolCalls).filter fun tc => toolCallIndex tc = index

/-- The first entry has the id and the name of the call, and all of them together its arguments. -/
def ChatToolCall.IsStreamed (call : ChatToolCall) (entries : List JsonValue) : Prop :=
  ∃ tc tcs, entries = tc :: tcs ∧ toolCallId tc = call.id ∧ toolCallName tc = call.name ∧
    String.join ((tc :: tcs).map entryArguments) = call.arguments.getD ""

end

/-- The message as chunks: fragments, of which the last come with the finish reason, and then perhaps its usage. -/
structure ChatMessage.IsStreamed (m : ChatMessage) (body : List JsonValue) (finish : JsonValue)
    (rest : List JsonValue) : Prop where
  ordered : (body ++ [finish]).Pairwise InChatOrder
  reasoning : joined chunkReasoning (body ++ [finish]) = m.reasoning.getD ""
  content : joined chunkContent (body ++ [finish]) = m.content.getD ""
  toolCalls : ∀ (k : Nat) (call : ChatToolCall), m.toolCalls[k]? = some call → call.IsStreamed (entriesAt (body ++ [finish]) k)
  noOthers : ∀ k, m.toolCalls.length ≤ k → entriesAt (body ++ [finish]) k = []
  unfinished : ∀ chunk ∈ body ++ rest, chunkFinishes chunk = false
  finishReason : chunkFinishReason finish = m.finishReason
  noUsage : ∀ chunk ∈ body, chunkUsageValue chunk = none
  usage : (finish :: rest).filterMap chunkUsageValue = (m.usage.filter (· ≠ .null)).toList
  silent : ∀ chunk ∈ rest, chunkReasoning chunk = none ∧ chunkContent chunk = none ∧ chunkToolCalls chunk = []

def ResponseEvent.terminalResponse : ResponseEvent → Option ResponseObject
  | completed response => some response
  | incomplete response => some response
  | failed response => some response
  | _ => none

def terminalResponses (events : List StreamEvent) : List ResponseObject :=
  events.filterMap fun e => e.event.terminalResponse

/-- Two responses say the same, item ids and signatures apart; details that are left out are null. -/
structure ResponseObject.Agrees (response response' : ResponseObject) : Prop where
  output : response.output.map strip = response'.output.map strip
  status : response.status = response'.status
  incompleteDetails : response.incompleteDetails.getD .null = response'.incompleteDetails.getD .null
  usage : response.usage = response'.usage

/-- The calls and the finish reason for which the two converters do the same. -/
def ChatMessage.SameBothWays (m : ChatMessage) (toolNameMap : ToolNameMap) : Prop :=
  (∀ call ∈ m.toolCalls, (toolNameMap.decode call.name).kind ≠ .custom ∧
    ((toolNameMap.decode call.name).kind = .function → call.arguments ≠ none)) ∧
    (m.finishReason.map RustText.trim = some "length" ↔ m.finishReason = some "length")

structure ResponseObject.Answers (r : ResponseObject) (output : List ResponseItem) (reason : Option String)
    (usage : Option Usage) : Prop where
  output : r.output.map strip = output
  status : r.status = if reason = some "length" then "incomplete" else "completed"
  incompleteDetails : r.incompleteDetails.getD .null =
    if reason = some "length" then .object [("reason", .string "max_output_tokens")] else .null
  usage : r.usage = usage

section whole

variable {m : ChatMessage} {chatResp choice message : JsonValue}

def ChatToolCall.wholeItem (codec : JsonCodec) (toolNameMap : ToolNameMap) (call : ChatToolCall) : ResponseItem :=
  let target := toolNameMap.decode call.name
  let argumentsText := call.arguments.getD "\x7b\x7d"
  match target.kind with
  | .toolSearch =>
    { itemType := .toolSearchCall, callId := some call.id,
      arguments := some (.value (parseJsonOrEmptyObject codec argumentsText)), status := some "completed",
      execution := some "client" }
  | .custom =>
    { itemType := .customToolCall, name := some target.name, callId := some call.id,
      input := some (extractCustomToolInput codec argumentsText), status := some "completed" }
  | .function =>
    { itemType := .functionCall, name := some target.name, nameSpace := target.nameSpace, callId := some call.id,
      arguments := some (.string argumentsText), status := some "completed" }

def ChatToolCall.streamedItem (codec : JsonCodec) (toolNameMap : ToolNameMap) (call : ChatToolCall) : ResponseItem :=
  viewItem codec (call.id, toolNameMap.decode call.name, call.arguments.getD "")

theorem ChatToolCall.IsWhole.item {call : ChatToolCall} {tc : JsonValue} (h : call.IsWhole tc) (codec : JsonCodec)
    (toolNameMap : ToolNameMap) : (convertToolCall codec toolNameMap tc).strip = call.wholeItem codec toolNameMap := by
  obtain ⟨hid, hname, harguments⟩ := h
  unfold toolCallFunction at hname harguments
  unfold convertToolCall ChatToolCall.wholeItem
  dsimp only
  rw [hid, hname, harguments, Option.getD_some]
  cases (toolNameMap.decode call.name).kind with
  | function | toolSearch | custom => rfl

theorem map_convertToolCall {calls : List ChatToolCall} {tcs : List JsonValue}
    (h : List.Forall₂ ChatToolCall.IsWhole calls tcs) (codec : JsonCodec) (toolNameMap : ToolNameMap) :
    (tcs.map (convertToolCall codec toolNameMap)).map strip =
      calls.map (ChatToolCall.wholeItem codec toolNameMap) := by
  induction h with
  | nil => rfl
  | cons hcall _ ih =>
    rw [map_cons, map_cons, map_cons, hcall.item, ih]

theorem reasoningItems_filter (text : Option String) : reasoningItems (text.getD "") =
    ((text.filter (· ≠ "")).map reasoningItem).toList := by
  cases text with
  | none => rfl
  | some text =>
    by_cases h : text = ""
    · simp [reasoningItems, h]
    · simp [reasoningItems, Option.filter, h]

theorem messageItems_filter (text : Option String) : messageItems (text.getD "") =
    ((text.filter (· ≠ "")).map messageItem).toList := by
  cases text with
  | none => rfl
  | some text =>
    by_cases h : text = ""
    · simp [messageItems, h]
    · simp [messageItems, Option.filter, h]

theorem ChatMessage.IsWhole.items (hw : m.IsWhole chatResp choice message) (codec : JsonCodec)
    (toolNameMap : ToolNameMap) : (convertMessage codec toolNameMap message).map strip =
      reasoningItems (m.reasoning.getD "") ++ messageItems (m.content.getD "") ++
        m.toolCalls.map (ChatToolCall.wholeItem codec toolNameMap) := by
  have hcalls := map_convertToolCall hw.toolCalls codec toolNameMap
  rw [reasoningItems_filter, messageItems_filter, ← hcalls, convertMessage, hw.reasoning, hw.content]
  rw [map_append, map_append]
  congr 1
  congr 1
  · cases m.reasoning.filter (· ≠ "") with
    | none | some text => rfl
  · cases m.content.filter (· ≠ "") with
    | none | some text => rfl

theorem map_strip_zipIdx (itemId : Nat → String) (items : List ResponseItem) :
    ((items.zipIdx.map fun (item, n) => { item with id := some (itemId n) }).map strip) =
      items.map strip := by
  have hfst : items.zipIdx.map Prod.fst = items := zipIdx_map_fst 0 items
  calc ((items.zipIdx.map fun (item, n) => { item with id := some (itemId n) }).map strip)
      = items.zipIdx.map (strip ∘ Prod.fst) := by
        rw [map_map]
        rfl
    _ = (items.zipIdx.map Prod.fst).map strip := map_map.symm
    _ = items.map strip := by rw [hfst]

theorem ChatMessage.IsWhole.answers (hw : m.IsWhole chatResp choice message) (ext : Externals) (responseId : String)
    (now : Int) (requestModel : String) (toolNameMap : ToolNameMap) :
    ∃ whole, convertChatResponseWithToolNames ext responseId now chatResp requestModel toolNameMap = .ok whole ∧
      whole.Answers (reasoningItems (m.reasoning.getD "") ++ messageItems (m.content.getD "") ++
        m.toolCalls.map (ChatToolCall.wholeItem ext.codec toolNameMap)) m.finishReason
        (m.usage.bind convertUsageValue) := by
  have hchoice := hw.firstChoice
  unfold chunkChoice at hchoice
  unfold convertChatResponseWithToolNames
  rw [hchoice]
  dsimp only
  rw [hw.wholeMessage]
  have hlength : (m.finishReason.getD "stop" = "length") ↔ m.finishReason = some "length" := by
    cases m.finishReason with
    | none | some reason => simp
  refine ⟨_, rfl, ?_, ?_, ?_, ?_⟩
  · dsimp only
    rw [map_strip_zipIdx]
    exact hw.items ext.codec toolNameMap
  · dsimp only
    rw [hw.finishReason]
    simp only [hlength]
  · dsimp only
    rw [hw.finishReason]
    simp only [hlength]
    split
    next => rfl
    next => rfl
  · dsimp only
    rw [hw.usage]
    rfl

end whole

namespace ResponsesStreamState

variable {s : ResponsesStreamState} {names : ToolNameMap} {reasoningText contentText : String}
  {entries : List JsonValue}

theorem processChunk_eq (ext : Externals) (s : ResponsesStreamState) (chunk : JsonValue) :
    s.processChunk ext chunk =
      (((s.handleStart chunk).handleDelta ext (chunkDelta chunk)).handleFinishReason ext.codec
        ((chunkChoice chunk).bind choiceFinishReason)).handleUsage (chunkUsage chunk) := by
  unfold processChunk chunkDelta
  cases chunkChoice chunk with
  | none | some choice => rfl

theorem chunkUsage_eq (chunk : JsonValue) : chunkUsage chunk = (chunkUsageValue chunk).bind convertUsageValue := by
  unfold chunkUsage chunkUsageValue
  cases chunk.get "usage" with
  | none => rfl
  | some value =>
    by_cases h : value = .null
    · subst h
      rfl
    · simp [Option.filter, h]

section

variable (hf : Fed s names reasoningText contentText entries)
include hf

theorem Fed.handleStart (chunk : JsonValue) : Fed (s.handleStart chunk) names reasoningText contentText entries := by
  unfold ResponsesStreamState.handleStart
  split
  next => exact hf
  next =>
    exact ⟨⟨hf.content.reasoning, hf.content.message, hf.content.apart⟩, hf.shown, hf.calls, hf.names, hf.opened,
      hf.untouched⟩

theorem Fed.setUsage (usage : Option Usage) : Fed { s with usage := usage } names reasoningText contentText entries :=
  ⟨⟨hf.content.reasoning, hf.content.message, hf.content.apart⟩, hf.shown, hf.calls, hf.names, hf.opened,
    hf.untouched⟩

theorem Fed.setFinishReason (reason : Option String) :
    Fed { s with finishReason := reason } names reasoningText contentText entries :=
  ⟨⟨hf.content.reasoning, hf.content.message, hf.content.apart⟩, hf.shown, hf.calls, hf.names, hf.opened,
    hf.untouched⟩

end

/-- No chunk has said how the answer ends. -/
structure Unfinished (s : ResponsesStreamState) : Prop extends Running s where
  finished : s.finished = false
  finishReason : s.finishReason = none

theorem Unfinished.continues {s' : ResponsesStreamState} (hu : Unfinished s) (h : Continues s s') : Unfinished s' := by
  have hphase := h.phase
  simp only [phase, Phase.mk.injEq] at hphase
  exact ⟨hu.toRunning.continues h, hphase.2.1.trans hu.finished, hphase.2.2.2.1.trans hu.finishReason⟩

theorem Unfinished.handleStart (hu : Unfinished s) (chunk : JsonValue) : Unfinished (s.handleStart chunk) := by
  have hphase := handleStart_phase s chunk
  simp only [phase, Phase.mk.injEq] at hphase
  exact ⟨handleStart_running hu.toRunning chunk, hphase.2.1.trans hu.finished, hphase.2.2.2.1.trans hu.finishReason⟩

/-- The texts and the entries that have come are those of the chunks so far. -/
structure FedBy (s : ResponsesStreamState) (names : ToolNameMap) (chunks : List JsonValue) : Prop where
  fed : Fed s names (joined chunkReasoning chunks) (joined chunkContent chunks) (chunks.flatMap chunkToolCalls)
  unfinished : Unfinished s

theorem joined_concat (fragment : JsonValue → Option String) (chunks : List JsonValue) (chunk : JsonValue) :
    joined fragment (chunks ++ [chunk]) = joined fragment chunks ++ (fragment chunk).getD "" := by
  simp [joined]

variable {chunks : List JsonValue}

theorem joined_empty {fragment : JsonValue → Option String} (h : ∀ chunk ∈ chunks, fragment chunk = none) :
    joined fragment chunks = "" := by
  induction chunks with
  | nil => rfl
  | cons chunk chunks ih =>
    have hfirst := h chunk mem_cons_self
    have hrest := ih fun c hc => h c (mem_cons_of_mem chunk hc)
    unfold joined at hrest ⊢
    rw [map_cons, String.join_cons, hfirst, hrest]
    rfl

variable {chunk : JsonValue}

theorem FedBy.delta (hf : FedBy s names chunks) (hordered : ∀ earlier ∈ chunks, InChatOrder earlier chunk)
    (ext : Externals) :
    FedBy ((s.handleStart chunk).handleDelta ext (chunkDelta chunk)) names (chunks ++ [chunk]) := by
  refine ⟨?_, (hf.unfinished.handleStart chunk).continues (handleDelta_continues ext _ _)⟩
  have hstart := hf.fed.handleStart chunk
  rw [joined_concat, joined_concat, flatMap_append, flatMap_singleton]
  refine hstart.delta ext (chunkDelta chunk) ?_ ?_
  · intro hreasoning
    refine ⟨joined_empty fun earlier he => ((hordered earlier he).1 hreasoning).1, ?_⟩
    exact flatMap_eq_nil_iff.mpr fun earlier he => ((hordered earlier he).1 hreasoning).2
  · intro hcontent
    exact flatMap_eq_nil_iff.mpr fun earlier he => (hordered earlier he).2 hcontent

theorem not_finishes (h : chunkFinishes chunk = false) :
    (chunkChoice chunk).bind choiceFinishReason = none := Option.isSome_eq_false_iff.mp h |> Option.isNone_iff_eq_none.mp

theorem FedBy.processChunk (hf : FedBy s names chunks) (hordered : ∀ earlier ∈ chunks, InChatOrder earlier chunk)
    (hfinishes : chunkFinishes chunk = false) (husage : chunkUsageValue chunk = none) (ext : Externals) :
    FedBy (s.processChunk ext chunk) names (chunks ++ [chunk]) ∧ (s.processChunk ext chunk).usage = s.usage := by
  have hdelta := hf.delta hordered ext
  have hphase := (handleDelta_continues ext (s.handleStart chunk) (chunkDelta chunk)).phase
  have hstart := handleStart_phase s chunk
  simp only [phase, Phase.mk.injEq] at hphase hstart
  rw [processChunk_eq, not_finishes hfinishes, chunkUsage_eq, husage]
  exact ⟨hdelta, hphase.2.2.2.2.trans hstart.2.2.2.2⟩

theorem FedBy.foldl {earlier chunks : List JsonValue} (hf : FedBy s names earlier)
    (hordered : (earlier ++ chunks).Pairwise InChatOrder) (hfinishes : ∀ chunk ∈ chunks, chunkFinishes chunk = false)
    (husage : ∀ chunk ∈ chunks, chunkUsageValue chunk = none) (ext : Externals) :
    FedBy (chunks.foldl (ResponsesStreamState.processChunk ext) s) names (earlier ++ chunks) ∧
      (chunks.foldl (ResponsesStreamState.processChunk ext) s).usage = s.usage := by
  induction chunks generalizing s earlier with
  | nil =>
    rw [append_nil]
    exact ⟨hf, rfl⟩
  | cons chunk chunks ih =>
    have hbefore : ∀ c ∈ earlier, InChatOrder c chunk := fun c hc =>
      (pairwise_append.mp hordered).2.2 c hc chunk mem_cons_self
    obtain ⟨hstep, hsame⟩ := hf.processChunk hbefore (hfinishes chunk mem_cons_self)
      (husage chunk mem_cons_self) ext
    rw [append_cons] at hordered ⊢
    obtain ⟨hrest, hrestUsage⟩ := ih hstep hordered (fun c hc => hfinishes c (mem_cons_of_mem chunk hc))
      (fun c hc => husage c (mem_cons_of_mem chunk hc))
    exact ⟨hrest, hrestUsage.trans hsame⟩

theorem terminalResponses_running (h : ∀ e ∈ s.emitted, e.event.isTerminal = false) :
    terminalResponses s.emitted = [] := by
  refine filterMap_eq_nil_iff.mpr ?_
  intro e he
  have hquiet := h e he
  cases hevent : e.event with
  | completed response | incomplete response | failed response =>
    rw [hevent] at hquiet
    cases hquiet
  | _ => rfl

variable {output : List ResponseItem} {reason : Option String} {usage : Option Usage} {codec : JsonCodec}

theorem emitResponseCompleted_answers (hr : ∀ e ∈ s.emitted, e.event.isTerminal = false)
    (houtput : s.completedOutput.map strip = output) :
    ∃ r, terminalResponses s.emitResponseCompleted.emitted = [r] ∧ r.Answers output s.finishReason s.usage := by
  have hbefore := terminalResponses_running hr
  unfold terminalResponses at hbefore
  unfold terminalResponses emitResponseCompleted
  dsimp only
  split
  next hlength =>
    refine ⟨s.responseObject "incomplete", ?_, houtput, ?_, ?_, rfl⟩
    · rw [emit, filterMap_append, hbefore]
      rfl
    · rw [if_pos hlength]
      rfl
    · rw [if_pos hlength, responseObject, if_pos ⟨rfl, hlength⟩]
      rfl
  next hlength =>
    refine ⟨s.responseObject "completed", ?_, houtput, ?_, ?_, rfl⟩
    · rw [emit, filterMap_append, hbefore]
      rfl
    · rw [if_neg hlength]
      rfl
    · rw [if_neg hlength, responseObject, if_neg (fun h => hlength h.2)]
      rfl

/-- Items are open, and closing them gives the output. -/
structure Closes (codec : JsonCodec) (output : List ResponseItem) (s : ResponsesStreamState) : Prop where
  running : Running s
  finished : s.finished = false
  closes : ∀ usage reason, ({ s with usage := usage, finishReason := reason }.finishOpenItems codec).completedOutput.map
    strip = output

structure AwaitsUsage (output : List ResponseItem) (s : ResponsesStreamState) : Prop where
  running : Running s
  finished : s.finished = true
  usage : s.usage = none
  output : s.completedOutput.map strip = output

structure Completed (output : List ResponseItem) (s : ResponsesStreamState) : Prop where
  finished : s.finished = true
  responseCompleted : s.responseCompleted = true
  usage : s.usage.isSome
  answered : ∃ r, terminalResponses s.emitted = [r] ∧ r.Answers output s.finishReason s.usage

/-- The whole message has come, with this usage so far. -/
structure Told (codec : JsonCodec) (output : List ResponseItem) (reason : Option String) (usage : Option Usage)
    (s : ResponsesStreamState) : Prop where
  hasStarted : s.hasStarted = true
  finishReason : s.finishReason = reason
  usage : s.usage = usage
  stage : Closes codec output s ∨ AwaitsUsage output s ∨ Completed output s

theorem Closes.handleFinishReason (hc : Closes codec output s) (hstarted : s.hasStarted = true)
    (hreason : s.finishReason = none) (husage : s.usage = none) (reason : Option String) :
    Told codec output reason none (s.handleFinishReason codec reason) := by
  cases reason with
  | none => exact ⟨hstarted, hreason, husage, .inl hc⟩
  | some reason =>
    have hclosed := hc.closes none (some reason)
    have hset : ({ s with usage := none, finishReason := some reason } : ResponsesStreamState) =
        { s with finishReason := some reason } := by rw [← husage]
    rw [hset] at hclosed
    have hrunning : Running { s with finishReason := some reason } := ⟨hc.running.responseCompleted, hc.running.quiet⟩
    have hphase := finishOpenItems_phase codec { s with finishReason := some reason }
    simp only [phase, Phase.mk.injEq] at hphase
    obtain ⟨hstarted', hfinished', -, hreason', husage'⟩ := hphase
    have hnone := husage'.trans husage
    unfold ResponsesStreamState.handleFinishReason handleFinish
    dsimp only
    rw [if_neg (by rw [hnone]; exact Bool.false_ne_true)]
    exact ⟨hstarted'.trans hstarted, hreason', hnone,
      .inr (.inl ⟨finishOpenItems_running hrunning codec, hfinished', hnone, hclosed⟩)⟩

theorem Told.handleUsage (ht : Told codec output reason none s) (usage : Option Usage) :
    Told codec output reason usage (s.handleUsage usage) := by
  cases usage with
  | none => exact ht
  | some usage =>
    unfold ResponsesStreamState.handleUsage
    dsimp only
    rcases ht.stage with hcloses | hawaits | hcompleted
    · rw [if_neg (by simp [hcloses.finished])]
      exact ⟨ht.hasStarted, ht.finishReason, rfl,
        .inl ⟨⟨hcloses.running.responseCompleted, hcloses.running.quiet⟩, hcloses.finished, hcloses.closes⟩⟩
    · rw [if_pos (by simp [hawaits.finished, hawaits.running.responseCompleted])]
      have hanswered := emitResponseCompleted_answers (s := { s with usage := some usage }) hawaits.running.quiet
        hawaits.output
      exact ⟨ht.hasStarted, ht.finishReason, rfl, .inr (.inr ⟨hawaits.finished, rfl, rfl, hanswered⟩)⟩
    · have husage := hcompleted.usage
      rw [ht.usage] at husage
      cases husage

theorem processChunk_silent (hstarted : s.hasStarted = true) (ext : Externals)
    (hsilent : chunkReasoning chunk = none ∧ chunkContent chunk = none ∧ chunkToolCalls chunk = [])
    (hfinishes : chunkFinishes chunk = false) :
    s.processChunk ext chunk = s.handleUsage ((chunkUsageValue chunk).bind convertUsageValue) := by
  obtain ⟨hreasoning, hcontent, hcalls⟩ := hsilent
  unfold chunkReasoning at hreasoning
  unfold chunkContent at hcontent
  unfold chunkToolCalls at hcalls
  have hstart : s.handleStart chunk = s := by rw [handleStart, if_pos hstarted]
  have hdelta : s.handleDelta ext (chunkDelta chunk) = s := by
    rw [handleDelta, hreasoning, hcontent, hcalls]
    rfl
  rw [processChunk_eq, hstart, hdelta, not_finishes hfinishes, chunkUsage_eq]
  rfl

theorem Told.foldl {sent total : Option JsonValue} {rest : List JsonValue} (ext : Externals)
    (ht : Told codec output reason (sent.bind convertUsageValue) s)
    (hsilent : ∀ chunk ∈ rest, chunkReasoning chunk = none ∧ chunkContent chunk = none ∧ chunkToolCalls chunk = [])
    (hfinishes : ∀ chunk ∈ rest, chunkFinishes chunk = false)
    (husage : sent.toList ++ rest.filterMap chunkUsageValue = total.toList) :
    Told codec output reason (total.bind convertUsageValue) (rest.foldl (processChunk ext) s) := by
  induction rest generalizing s sent with
  | nil =>
    have hsame : sent = total := by
      cases sent with
      | none =>
        cases total with
        | none => rfl
        | some value => cases husage
      | some value =>
        cases total with
        | none => cases husage
        | some value' => exact congrArg some (List.cons.inj husage).1
    rwa [← hsame]
  | cons chunk rest ih =>
    have hstep := processChunk_silent ht.hasStarted ext (hsilent chunk mem_cons_self)
      (hfinishes chunk mem_cons_self)
    have hrest := fun c hc => hsilent c (mem_cons_of_mem chunk hc)
    have hrestFinishes := fun c hc => hfinishes c (mem_cons_of_mem chunk hc)
    rw [foldl_cons, hstep]
    cases hvalue : chunkUsageValue chunk with
    | none =>
      rw [filterMap_cons_none hvalue] at husage
      exact ih ht hrest hrestFinishes husage
    | some value =>
      rw [filterMap_cons_some hvalue] at husage
      cases sent with
      | none =>
        have hfirst : (some value).toList ++ rest.filterMap chunkUsageValue = total.toList := husage
        exact ih (ht.handleUsage _) hrest hrestFinishes hfirst
      | some value' =>
        have hlength := congrArg List.length husage
        cases total with
        | none | some value'' => simp at hlength

theorem handleDone_unfinished (hr : Running s) (hstarted : s.hasStarted = true) (hfinished : s.finished = false)
    (codec : JsonCodec) : s.handleDone codec = (s.finishOpenItems codec).emitResponseCompleted := by
  have hrunning := finishOpenItems_running hr codec
  unfold handleDone handleFinish
  simp only [hstarted, hfinished, Bool.not_true, Bool.not_false, Bool.false_eq_true, if_true, if_false]
  by_cases husage : (s.finishOpenItems codec).usage.isSome = true
  · rw [if_pos husage]
    rfl
  · rw [if_neg husage, hrunning.responseCompleted]
    rfl

theorem handleDone_finished (hstarted : s.hasStarted = true) (hfinished : s.finished = true) (codec : JsonCodec) :
    s.handleDone codec = if s.responseCompleted then s else s.emitResponseCompleted := by
  unfold handleDone
  simp only [hstarted, hfinished, Bool.not_true, Bool.false_eq_true, if_false]
  cases s.responseCompleted with
  | false | true => rfl

theorem Told.handleDone (ht : Told codec output reason usage s) :
    ∃ r, terminalResponses (s.handleDone codec).emitted = [r] ∧ r.Answers output reason usage := by
  obtain ⟨hstarted, rfl, rfl, hstage⟩ := ht
  rcases hstage with hcloses | hawaits | hcompleted
  · have hrunning := finishOpenItems_running hcloses.running codec
    have hphase := finishOpenItems_phase codec s
    simp only [phase, Phase.mk.injEq] at hphase
    obtain ⟨r, hr, hanswers⟩ := emitResponseCompleted_answers hrunning.quiet (hcloses.closes s.usage s.finishReason)
    rw [hphase.2.2.2.1, hphase.2.2.2.2] at hanswers
    rw [handleDone_unfinished hcloses.running hstarted hcloses.finished]
    exact ⟨r, hr, hanswers⟩
  · rw [handleDone_finished hstarted hawaits.finished, hawaits.running.responseCompleted]
    exact emitResponseCompleted_answers hawaits.running.quiet hawaits.output
  · rw [handleDone_finished hstarted hcompleted.finished, hcompleted.responseCompleted]
    exact hcompleted.answered

theorem entriesView_streamed {m : ChatMessage} {body rest : List JsonValue} {finish : JsonValue}
    (hm : m.IsStreamed body finish rest) (names : ToolNameMap) (k : Nat) :
    entriesView names (entriesAt (body ++ [finish]) k) =
      m.toolCalls[k]?.map fun call => (call.id, names.decode call.name, call.arguments.getD "") := by
  cases hcall : m.toolCalls[k]? with
  | none =>
    rw [hm.noOthers k (List.getElem?_eq_none_iff.mp hcall)]
    rfl
  | some call =>
    obtain ⟨tc, tcs, hentries, hid, hname, harguments⟩ := hm.toolCalls k call hcall
    rw [hentries, entriesView, hid, hname, harguments]
    rfl

theorem filterMap_range_getElem {α β : Type*} (f : α → β) (as : List α) :
    ((List.range as.length).filterMap fun k => as[k]?.map f) = as.map f := by
  induction as using List.reverseRecOn with
  | nil => rfl
  | append_singleton as a ih =>
    have hbefore : ((List.range as.length).filterMap fun k => (as ++ [a])[k]?.map f) = as.map f := by
      rw [← ih]
      refine filterMap_congr ?_
      intro k hk
      rw [List.getElem?_append_left (mem_range.mp hk)]
    rw [length_append, length_singleton, range_succ, filterMap_append, hbefore]
    simp

theorem told_finish {m : ChatMessage} {body rest : List JsonValue} {finish : JsonValue}
    (hm : m.IsStreamed body finish rest) (ext : Externals) (names : ToolNameMap) (responseId model : String)
    (createdAt : Int) :
    Told ext.codec (reasoningItems (m.reasoning.getD "") ++ messageItems (m.content.getD "") ++
        m.toolCalls.map (ChatToolCall.streamedItem ext.codec names))
      ((chunkChoice finish).bind choiceFinishReason) ((chunkUsageValue finish).bind convertUsageValue)
      ((body ++ [finish]).foldl (processChunk ext) (new responseId model createdAt names)) := by
  have hnew : FedBy (new responseId model createdAt names) names [] :=
    ⟨fed_new responseId model createdAt names, ⟨rfl, fun e he => absurd he not_mem_nil⟩, rfl, rfl⟩
  have hordered := hm.ordered
  obtain ⟨hbody, -, hlast⟩ := pairwise_append.mp hordered
  obtain ⟨hfed, husage⟩ := hnew.foldl hbody
    (fun chunk hc => hm.unfinished chunk (mem_append_left rest hc)) hm.noUsage ext
  rw [nil_append] at hfed
  have hdelta := hfed.delta (fun earlier he => hlast earlier he finish mem_cons_self) ext
  have hn : ∀ k, (entriesView names (entriesAt (body ++ [finish]) k)).isSome = true ↔ k < m.toolCalls.length := by
    intro k
    rw [entriesView_streamed hm, Option.isSome_map, isSome_getElem?]
  have hcalls : ((List.range m.toolCalls.length).filterMap fun k =>
      (entriesView names (entriesAt (body ++ [finish]) k)).map (viewItem ext.codec)) =
      m.toolCalls.map (ChatToolCall.streamedItem ext.codec names) := by
    rw [← filterMap_range_getElem]
    refine filterMap_congr ?_
    intro k _
    rw [entriesView_streamed hm, Option.map_map]
    rfl
  rw [foldl_append, foldl_cons, foldl_nil, processChunk_eq, chunkUsage_eq]
  generalize body.foldl (processChunk ext) (new responseId model createdAt names) = s at hfed husage hdelta
  have hstart := handleStart_phase s finish
  have hphase := (handleDelta_continues ext (s.handleStart finish) (chunkDelta finish)).phase
  simp only [phase, Phase.mk.injEq] at hstart hphase
  have hcloses : Closes ext.codec (reasoningItems (m.reasoning.getD "") ++ messageItems (m.content.getD "") ++
      m.toolCalls.map (ChatToolCall.streamedItem ext.codec names))
      ((s.handleStart finish).handleDelta ext (chunkDelta finish)) := by
    refine ⟨hdelta.unfinished.toRunning, hdelta.unfinished.finished, ?_⟩
    intro usage reason
    have hclosed := ((hdelta.fed.setUsage usage).setFinishReason reason).finish ext.codec hn
    rw [hm.reasoning, hm.content] at hclosed
    rw [← hcalls]
    exact hclosed
  exact (hcloses.handleFinishReason (hphase.1.trans hstart.1) hdelta.unfinished.finishReason
    (hphase.2.2.2.2.trans (hstart.2.2.2.2.trans husage)) _).handleUsage _

end ResponsesStreamState

theorem ChatToolCall.sameItem_iff (call : ChatToolCall) {codec : JsonCodec} (hempty : codec.parse "" = none)
    (hobject : codec.parse "\x7b\x7d" = some (.object [])) (toolNameMap : ToolNameMap) :
    call.wholeItem codec toolNameMap = call.streamedItem codec toolNameMap ↔
      (toolNameMap.decode call.name).kind ≠ .custom ∧
        ((toolNameMap.decode call.name).kind = .function → call.arguments ≠ none) := by
  unfold ChatToolCall.wholeItem ChatToolCall.streamedItem viewItem completedToolItem
  dsimp only
  cases (toolNameMap.decode call.name).kind with
  | function =>
    cases call.arguments with
    | none =>
      refine iff_of_false (fun h => ?_) (fun h => h.2 rfl rfl)
      have harguments : some (JsonString.string "\x7b\x7d") = some (JsonString.string "") :=
        congrArg ResponseItem.arguments h
      exact absurd harguments (by decide)
    | some arguments => exact iff_of_true rfl ⟨by decide, fun _ => Option.some_ne_none arguments⟩
  | toolSearch =>
    refine iff_of_true ?_ ⟨by decide, fun h => absurd h (by decide)⟩
    cases call.arguments with
    | none =>
      rw [Option.getD_none, Option.getD_none, parseJsonOrEmptyObject, hempty, hobject]
      rfl
    | some arguments => rfl
  | custom =>
    refine iff_of_false (fun h => ?_) (fun h => h.1 rfl)
    have hstatus := congrArg ResponseItem.status h
    exact absurd hstatus (Option.some_ne_none "completed")

theorem filter_trim_eq_length (reason : Option String) :
    (reason.map RustText.trim).filter (· ≠ "") = some "length" ↔ reason.map RustText.trim = some "length" := by
  rw [Option.filter_eq_some_iff]
  exact ⟨fun h => h.1, fun h => ⟨h, by decide⟩⟩

theorem ResponseObject.Answers.agrees_iff {whole r : ResponseObject} {output output' : List ResponseItem}
    {reason reason' : Option String} {usage : Option Usage} (hw : whole.Answers output reason usage)
    (hr : r.Answers output' reason' usage) :
    whole.Agrees r ↔ output = output' ∧ (reason' = some "length" ↔ reason = some "length") := by
  refine ⟨fun h => ⟨?_, ?_⟩, fun ⟨houtput, hreason⟩ => ⟨?_, ?_, ?_, ?_⟩⟩
  · rw [← hw.output, ← hr.output]
    exact h.output
  · have hstatus := h.status
    rw [hw.status, hr.status] at hstatus
    by_cases hlength : reason = some "length"
    · by_cases hlength' : reason' = some "length"
      · exact iff_of_true hlength' hlength
      · rw [if_pos hlength, if_neg hlength'] at hstatus
        exact absurd hstatus (by decide)
    · by_cases hlength' : reason' = some "length"
      · rw [if_neg hlength, if_pos hlength'] at hstatus
        exact absurd hstatus (by decide)
      · exact iff_of_false hlength' hlength
  · rw [hw.output, hr.output, houtput]
  · rw [hw.status, hr.status]
    simp only [hreason]
  · rw [hw.incompleteDetails, hr.incompleteDetails]
    simp only [hreason]
  · rw [hw.usage, hr.usage]

/-- Streaming a message gives the response of the whole message exactly when no call is custom, no call of a function
lacks its arguments, and no blanks hide the finish reason. -/
theorem stream_agrees_iff (codec : JsonCodec) (itemId itemId' : Nat → String) (hempty : codec.parse "" = none)
    (hobject : codec.parse "\x7b\x7d" = some (.object [])) {m : ChatMessage} {chatResp choice message : JsonValue}
    (hwhole : m.IsWhole chatResp choice message) {body rest : List JsonValue} {finish : JsonValue}
    (hstreamed : m.IsStreamed body finish rest) (toolNameMap : ToolNameMap) (responseId requestModel : String)
    (now : Int) (streamId streamModel : String) (createdAt : Int) :
    ∃ whole r,
      convertChatResponseWithToolNames ⟨codec, itemId⟩ responseId now chatResp requestModel toolNameMap = .ok whole ∧
      terminalResponses (streamed ⟨codec, itemId'⟩ (new streamId streamModel createdAt toolNameMap)
        (body ++ finish :: rest) .done).emitted = [r] ∧
      (whole.Agrees r ↔ m.SameBothWays toolNameMap) := by
  obtain ⟨whole, hok, hanswers⟩ := hwhole.answers ⟨codec, itemId⟩ responseId now requestModel toolNameMap
  have htold := told_finish hstreamed ⟨codec, itemId'⟩ toolNameMap streamId streamModel createdAt
  have husage := hstreamed.usage
  have hsent : ((chunkUsageValue finish).toList ++ rest.filterMap chunkUsageValue) =
      (m.usage.filter (· ≠ .null)).toList := by
    rw [← husage]
    cases hvalue : chunkUsageValue finish with
    | none => rw [filterMap_cons_none hvalue]; rfl
    | some value => rw [filterMap_cons_some hvalue]; rfl
  have hrest := htold.foldl ⟨codec, itemId'⟩ hstreamed.silent
    (fun chunk hc => hstreamed.unfinished chunk (mem_append_right body hc)) hsent
  obtain ⟨r, hr, hanswers'⟩ := hrest.handleDone
  rw [← foldl_append, append_assoc] at hr
  have hsame : (m.usage.filter (· ≠ .null)).bind convertUsageValue = m.usage.bind convertUsageValue := by
    cases m.usage with
    | none => rfl
    | some value =>
      by_cases h : value = .null
      · subst h
        rfl
      · simp [Option.filter, h]
  have hreason : (chunkChoice finish).bind choiceFinishReason = (m.finishReason.map RustText.trim).filter (· ≠ "") := by
    rw [← hstreamed.finishReason, chunkFinishReason]
    cases chunkChoice finish with
    | none | some choice => rfl
  rw [hsame, hreason] at hanswers'
  refine ⟨whole, r, hok, hr, ?_⟩
  rw [hanswers.agrees_iff hanswers', filter_trim_eq_length, append_cancel_left_eq, ChatMessage.SameBothWays,
    map_inj_left]
  simp only [ChatToolCall.sameItem_iff _ hempty hobject]

def emptyObjectCodec : JsonCodec :=
  ⟨fun text => if text = "\x7b\x7d" then some (.object []) else none, fun _ => "\x7b\x7d"⟩

def oneCall (arguments : Option String) : ChatMessage :=
  { reasoning := none, content := some "hi", toolCalls := [⟨"c1", "f", arguments⟩], finishReason := some "tool_calls",
    usage := none }

def oneCallEntry (arguments : Option String) : JsonValue :=
  .object [("id", .string "c1"),
    ("function", .object [("name", .string "f"), ("arguments", (arguments.map JsonValue.string).getD .null)])]

def oneCallMessage (arguments : Option String) : JsonValue :=
  .object [("content", .string "hi"), ("tool_calls", .array [oneCallEntry arguments])]

def oneCallChoice (arguments : Option String) : JsonValue :=
  .object [("message", oneCallMessage arguments), ("finish_reason", .string "tool_calls")]

def oneCallResponse (arguments : Option String) : JsonValue := .object [("choices", .array [oneCallChoice arguments])]

def oneCallChunk (arguments : Option String) : JsonValue :=
  .object [("choices", .array [.object [("delta", .object [("tool_calls", .array [oneCallEntry arguments])])]])]

theorem oneCall_isWhole (arguments : Option String) :
    (oneCall arguments).IsWhole (oneCallResponse arguments) (oneCallChoice arguments) (oneCallMessage arguments) := by
  refine ⟨rfl, rfl, rfl, rfl, .cons ⟨rfl, rfl, ?_⟩ .nil, rfl, rfl⟩
  cases arguments with
  | none | some arguments => rfl

theorem oneCall_isStreamed (arguments : Option String) :
    (oneCall arguments).IsStreamed [contentChunk "hi", oneCallChunk arguments] (finishChunk "tool_calls") [] := by
  have hentry : entryArguments (oneCallEntry arguments) = arguments.getD "" := by
    cases arguments with
    | none => rfl
    | some text =>
      by_cases h : text = ""
      · rw [h]
        rfl
      · have hkept : toolCallArguments (oneCallEntry (some text)) = some text :=
          Option.filter_eq_some_iff.mpr ⟨rfl, decide_eq_true h⟩
        rw [entryArguments, hkept]
  refine ⟨?_, rfl, rfl, ?_, ?_, ?_, rfl, ?_, rfl, fun chunk hc => absurd hc not_mem_nil⟩
  · have hquiet : ∀ earlier, InChatOrder earlier (oneCallChunk arguments) ∧ InChatOrder earlier (finishChunk "tool_calls") :=
      fun earlier => ⟨⟨fun h => absurd rfl h, fun h => absurd rfl h⟩, fun h => absurd rfl h, fun h => absurd rfl h⟩
    refine pairwise_cons.mpr ⟨?_, pairwise_cons.mpr ⟨?_, pairwise_singleton InChatOrder _⟩⟩
    · intro later hlater
      rcases mem_cons.mp hlater with rfl | hlater
      · exact (hquiet _).1
      · rw [mem_singleton.mp hlater]
        exact (hquiet _).2
    · intro later hlater
      rw [mem_singleton.mp hlater]
      exact (hquiet _).2
  · intro k call hcall
    obtain ⟨hk, rfl⟩ := List.getElem?_eq_some_iff.mp hcall
    have hk : k = 0 := Nat.lt_one_iff.mp hk
    subst hk
    refine ⟨oneCallEntry arguments, [], rfl, rfl, rfl, ?_⟩
    rw [map_cons, map_nil, hentry]
    simp [oneCall]
  · intro k hk
    have hk : 1 ≤ k := hk
    have hzero : toolCallIndex (oneCallEntry arguments) = 0 := rfl
    have hne : ¬ toolCallIndex (oneCallEntry arguments) = k := by omega
    exact filter_eq_nil_iff.mpr fun tc htc hindex => hne (by
      rw [← mem_singleton.mp htc]
      exact of_decide_eq_true hindex)
  · intro chunk hc
    rcases mem_cons.mp hc with rfl | hc
    · rfl
    · rw [mem_singleton.mp hc]
      rfl
  · intro chunk hc
    rcases mem_cons.mp hc with rfl | hc
    · rfl
    · rw [mem_singleton.mp hc]
      rfl

theorem stream_agrees_iff_oneCall :
    ∃ whole r,
      convertChatResponseWithToolNames ⟨emptyObjectCodec, toString⟩ "r" 0 (oneCallResponse (some "\x7b\x7d")) "m" .empty =
        .ok whole ∧
      terminalResponses (streamed ⟨emptyObjectCodec, toString⟩ (new "r" "m" 0 .empty)
        ([contentChunk "hi", oneCallChunk (some "\x7b\x7d")] ++ [finishChunk "tool_calls"]) .done).emitted = [r] ∧
      (whole.Agrees r ↔ (oneCall (some "\x7b\x7d")).SameBothWays .empty) :=
  stream_agrees_iff emptyObjectCodec toString toString (by decide) (by decide) (oneCall_isWhole _) (oneCall_isStreamed _)
    .empty "r" "m" 0 "r" "m" 0

/-- A call without arguments has an empty object as its arguments when it is whole and no text when it is streamed. -/
theorem missing_arguments_differ :
    (oneCall none).IsWhole (oneCallResponse none) (oneCallChoice none) (oneCallMessage none) ∧
    (oneCall none).IsStreamed [contentChunk "hi", oneCallChunk none] (finishChunk "tool_calls") [] ∧
    ∃ whole r,
      convertChatResponseWithToolNames ⟨emptyObjectCodec, toString⟩ "r" 0 (oneCallResponse none) "m" .empty = .ok whole ∧
      terminalResponses (streamed ⟨emptyObjectCodec, toString⟩ (new "r" "m" 0 .empty)
        ([contentChunk "hi", oneCallChunk none] ++ [finishChunk "tool_calls"]) .done).emitted = [r] ∧
      ¬ whole.Agrees r := by
  refine ⟨oneCall_isWhole none, oneCall_isStreamed none, _, _, rfl, rfl, ?_⟩
  intro h
  exact absurd h.output (by decide +kernel)

end MochiPort

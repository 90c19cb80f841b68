import MochiPort.ChatTurnRepair
import MochiPort.ToolCallHistory

namespace MochiPort

open AnswerClaims ChatRequestMessage InputState List ResponseItem

namespace ResponseItem

def isToolOutput (item : ResponseItem) : Bool :=
  item.itemType = .functionCallOutput || item.itemType = .toolSearchOutput || item.itemType = .customToolCallOutput

/-- The ids of a hosted call, whose outputs are left out. -/
def removedIds (item : ResponseItem) : List String :=
  if item.isAssistantToolCallItem && !item.isChatToolCall then
    [item.callId, item.id].filterMap fun id => id.filter (· ≠ "")
  else []

def seenIds (item : ResponseItem) : List String :=
  if item.isChatToolCall then [item.callId].filterMap fun id => id.filter (· ≠ "") else []

/-- The id of a call, which is empty if it has none. -/
def calledIds (item : ResponseItem) : List String := if item.isChatToolCall then [item.callId.getD ""] else []

def isKeptOutput (before : List ResponseItem) (item : ResponseItem) : Bool :=
  item.isToolOutput && !(before.flatMap removedIds).contains (item.callId.getD "")

def CarriedBy (codec : JsonCodec) (item : ResponseItem) (message : ChatRequestMessage) : Prop :=
  ∃ output, toolOutput codec item = some output ∧
    (message.role = "tool" ∧ message.toolCallId = some (item.callId.getD "") ∧ message.content = .string output ∨
      message.role = "user" ∧ message.content = (orphanToolOutputMessage (item.callId.getD "") output none).content)

end ResponseItem

/-- The outputs of the input by their index, those of hosted calls apart. -/
def keptOutputs : List ResponseItem → List ResponseItem → List Nat
  | _, [] => []
  | before, item :: items =>
    (if item.isKeptOutput before then [before.length] else []) ++ keptOutputs (before ++ [item]) items

def turnEntries (ids : List String) : List (Entry String) := if ids = [] then [] else [.turn ids]

def answerEntries (before : List ResponseItem) (item : ResponseItem) : List (Entry String) :=
  if item.isKeptOutput before ∧ item.callId.getD "" ≠ "" ∧ item.callId.getD "" ∈ before.flatMap seenIds then
    [.answer (item.callId.getD "")]
  else []

/-- The turns and answers of the input: calls that follow one another are one turn; `open` are those of the turn that
has begun. -/
def transcript : List ResponseItem → List String → List ResponseItem → List (Entry String)
  | _, begun, [] => turnEntries begun
  | before, begun, item :: items =>
    if item.isAssistantToolCallItem then transcript (before ++ [item]) (begun ++ item.calledIds) items
    else turnEntries begun ++ answerEntries before item ++ transcript (before ++ [item]) [] items

section

variable {ext : RequestExternals} {before run items rest : List ResponseItem} {item : ResponseItem}
  {s s' : InputState}

def EndsRun (rest : List ResponseItem) : Prop := ∀ item, rest.head? = some item → item.isAssistantToolCallItem = false

theorem transcript_endsRun (h : EndsRun rest) (begun : List String) :
    transcript before begun rest = turnEntries begun ++ transcript before [] rest := by
  cases rest with
  | nil => exact (append_nil _).symm
  | cons item rest =>
    rw [transcript, transcript, h item rfl]
    simp [turnEntries]

variable (before) in
theorem transcript_run (hrun : ∀ item ∈ run, item.isAssistantToolCallItem = true) (h : EndsRun rest)
    (begun : List String) :
    transcript before begun (run ++ rest) =
      turnEntries (begun ++ run.flatMap calledIds) ++ transcript (before ++ run) [] rest := by
  induction run generalizing before begun with
  | nil =>
    rw [nil_append, flatMap_nil, append_nil, append_nil]
    exact transcript_endsRun h begun
  | cons item run ih =>
    rw [cons_append, transcript, hrun item mem_cons_self, if_pos rfl,
      ih _ fun i hi => hrun i (mem_cons_of_mem item hi)]
    simp

theorem keptOutputs_run (hrun : ∀ item ∈ run, item.isToolOutput = false) :
    keptOutputs before (run ++ rest) = keptOutputs (before ++ run) rest := by
  induction run generalizing before with
  | nil => rw [nil_append, append_nil]
  | cons item run ih =>
    rw [cons_append, keptOutputs, ih fun i hi => hrun i (mem_cons_of_mem item hi)]
    simp [isKeptOutput, hrun item mem_cons_self]

structure Knows (before : List ResponseItem) (s : InputState) : Prop where
  removed : ∀ id, id ∈ s.removedToolCallIds ↔ id ∈ before.flatMap removedIds
  seen : ∀ id, id ∈ s.seenToolCallIds ↔ id ∈ before.flatMap seenIds

/-- What a few items become: their turns, their answers and their outputs. -/
structure Converts (codec : JsonCodec) (before chunk rest : List ResponseItem) (s s' : InputState) : Prop where
  knows : Knows (before ++ chunk) s'
  messages : ∃ new, s'.messages = s.messages ++ new ∧ (∀ m ∈ new, m.Sane) ∧
    entries new ++ transcript (before ++ chunk) [] rest = transcript before [] (chunk ++ rest) ∧
    new.filterMap source ++ keptOutputs (before ++ chunk) rest = keptOutputs before (chunk ++ rest) ∧
    ∀ m ∈ new, ∀ j, m.source = some j → ∃ item, (before ++ chunk)[j]? = some item ∧ item.CarriedBy codec m

theorem Converts.trans {codec : JsonCodec} {chunk chunk' : List ResponseItem} {s'' : InputState}
    (h : Converts codec before chunk (chunk' ++ rest) s s') (h' : Converts codec (before ++ chunk) chunk' rest s' s'') :
    Converts codec before (chunk ++ chunk') rest s s'' := by
  obtain ⟨new, hnew, hsane, hentries, hsources, hcarried⟩ := h.messages
  obtain ⟨new', hnew', hsane', hentries', hsources', hcarried'⟩ := h'.messages
  refine ⟨by rw [← append_assoc]; exact h'.knows, new ++ new', ?_, ?_, ?_, ?_, ?_⟩
  · rw [hnew', hnew, append_assoc]
  · intro m hm
    exact (mem_append.mp hm).elim (hsane m) (hsane' m)
  · unfold entries at hentries hentries' ⊢
    rw [filterMap_append, ← append_assoc before, append_assoc, hentries', hentries, append_assoc]
  · rw [filterMap_append, ← append_assoc before, append_assoc, hsources', hsources, append_assoc]
  · intro m hm j hj
    rw [← append_assoc]
    rcases mem_append.mp hm with hm | hm
    · obtain ⟨item, hitem, hcarries⟩ := hcarried m hm j hj
      have hlt := (List.getElem?_eq_some_iff.mp hitem).1
      exact ⟨item, by rw [List.getElem?_append_left hlt]; exact hitem, hcarries⟩
    · exact hcarried' m hm j hj

/-- A message that calls no tool and answers no call. -/
structure ChatRequestMessage.Plain (message : ChatRequestMessage) : Prop where
  toolCalls : message.toolCalls = none
  toolCallId : message.toolCallId = none
  source : message.source = none

theorem ChatRequestMessage.Plain.sane {message : ChatRequestMessage} (h : message.Plain) : message.Sane := by
  refine ⟨fun toolCalls hcalls => ?_, fun hsource => absurd h.source hsource⟩
  rw [h.toolCalls] at hcalls
  cases hcalls

theorem ChatRequestMessage.Plain.entry {message : ChatRequestMessage} (h : message.Plain) : message.entry = none := by
  rw [ChatRequestMessage.entry, h.toolCalls]
  rw [ChatRequestMessage.answeredId, h.toolCallId, ite_self]
  rfl

theorem isChatToolCall_of_not_call (h : item.isAssistantToolCallItem = false) : item.isChatToolCall = false := by
  unfold isAssistantToolCallItem at h
  unfold isChatToolCall
  cases htype : item.itemType with
  | functionCall | toolSearchCall | customToolCall => simp [htype] at h
  | _ => rfl

theorem isToolOutput_of_call (h : item.isAssistantToolCallItem = true) : item.isToolOutput = false := by
  unfold isAssistantToolCallItem at h
  unfold isToolOutput
  cases htype : item.itemType with
  | functionCallOutput | toolSearchOutput | customToolCallOutput => simp [htype] at h
  | _ => rfl

theorem Knows.append (hk : Knows before s) (hcall : item.isAssistantToolCallItem = false)
    (hremoved : s'.removedToolCallIds = s.removedToolCallIds) (hseen : s'.seenToolCallIds = s.seenToolCallIds) :
    Knows (before ++ [item]) s' := by
  constructor
  · intro id
    rw [hremoved, hk.removed]
    simp [removedIds, hcall]
  · intro id
    rw [hseen, hk.seen]
    simp [seenIds, isChatToolCall_of_not_call hcall]

theorem plain_messages {new : List ChatRequestMessage} (h : ∀ m ∈ new, m.Plain) :
    entries new = [] ∧ new.filterMap source = [] :=
  ⟨filterMap_eq_nil_iff.mpr fun m hm => (h m hm).entry, filterMap_eq_nil_iff.mpr fun m hm => (h m hm).source⟩

theorem converts_plain (codec : JsonCodec) (rest : List ResponseItem) (hk : Knows before s)
    (hcall : item.isAssistantToolCallItem = false) (hout : item.isToolOutput = false) {new : List ChatRequestMessage}
    (hnew : ∀ m ∈ new, m.Plain) (hmessages : s'.messages = s.messages ++ new)
    (hremoved : s'.removedToolCallIds = s.removedToolCallIds) (hseen : s'.seenToolCallIds = s.seenToolCallIds) :
    Converts codec before [item] rest s s' := by
  obtain ⟨hentries, hsources⟩ := plain_messages hnew
  refine ⟨hk.append hcall hremoved hseen, new, hmessages, fun m hm => (hnew m hm).sane, ?_, ?_, ?_⟩
  · rw [hentries, singleton_append, transcript, hcall]
    simp [turnEntries, answerEntries, isKeptOutput, hout]
  · rw [hsources, singleton_append, keptOutputs]
    simp [isKeptOutput, hout]
  · intro m hm j hj
    rw [(hnew m hm).source] at hj
    cases hj

theorem mem_insertIds {ids : List String} {new : List (Option String)} {id : String} :
    id ∈ insertIds ids new ↔ id ∈ ids ∨ id ∈ new.filterMap fun id => id.filter (· ≠ "") := by
  unfold insertIds
  generalize (new.filterMap fun id => id.filter (· ≠ "")) = added
  induction added generalizing ids with
  | nil => simp
  | cons a added ih =>
    rw [foldl_cons, ih, mem_insert_iff, mem_cons]
    tauto

variable (ext) in
theorem buildFunctionToolCall_chat (h : item.isChatToolCall = true) (index : Nat) (map : ToolNameMap) :
    ∃ next call, buildFunctionToolCall ext item index map = (next, some call) ∧ call.id = item.callId.getD "" := by
  unfold buildFunctionToolCall
  cases htype : item.itemType with
  | functionCall | toolSearchCall | customToolCall => exact ⟨_, _, rfl, rfl⟩
  | _ => simp [isChatToolCall, htype] at h

variable (ext) in
theorem buildFunctionToolCall_hosted (h : item.isChatToolCall = false) (index : Nat) (map : ToolNameMap) :
    buildFunctionToolCall ext item index map = (map, none) := by
  unfold buildFunctionToolCall
  cases htype : item.itemType with
  | functionCall | toolSearchCall | customToolCall => simp [isChatToolCall, htype] at h
  | _ => rfl

variable (ext) in
theorem addToolCall_cases (hk : Knows before s) (hcall : item.isAssistantToolCallItem = true)
    (toolCalls : List FunctionToolCall) :
    ∃ s' new, addToolCall ext (s, toolCalls) item = (s', toolCalls ++ new) ∧ s'.messages = s.messages ∧
      Knows (before ++ [item]) s' ∧ new.map FunctionToolCall.id = item.calledIds := by
  cases hchat : item.isChatToolCall with
  | true =>
    obtain ⟨next, call, hbuild, hid⟩ := buildFunctionToolCall_chat ext hchat toolCalls.length s.toolNameMap
    refine ⟨{ s with toolNameMap := next }.rememberSeenToolCall item, [call], ?_, rfl, ⟨?_, ?_⟩, ?_⟩
    · rw [addToolCall, hbuild]
    · intro id
      have hremoved := hk.removed id
      simpa [rememberSeenToolCall, removedIds, hchat] using hremoved
    · intro id
      have hseen := hk.seen id
      rw [rememberSeenToolCall, mem_insertIds, hseen, flatMap_append, mem_append]
      simp [seenIds, hchat]
    · simp [calledIds, hchat, hid]
  | false =>
    have hbuild := buildFunctionToolCall_hosted ext hchat toolCalls.length s.toolNameMap
    refine ⟨s.rememberRemovedToolCall item, [], ?_, rfl, ⟨?_, ?_⟩, ?_⟩
    · rw [addToolCall, hbuild, append_nil]
    · intro id
      have hremoved := hk.removed id
      rw [rememberRemovedToolCall, mem_insertIds, hremoved, flatMap_append, mem_append]
      simp [removedIds, hchat, hcall]
    · intro id
      have hseen := hk.seen id
      simpa [rememberRemovedToolCall, seenIds, hchat] using hseen
    · simp [calledIds, hchat]

variable (ext) in
theorem foldl_addToolCall (hk : Knows before s) (hrun : ∀ item ∈ run, item.isAssistantToolCallItem = true)
    (toolCalls : List FunctionToolCall) :
    ∃ s' new, run.foldl (addToolCall ext) (s, toolCalls) = (s', toolCalls ++ new) ∧
      s'.messages = s.messages ∧ Knows (before ++ run) s' ∧
      new.map FunctionToolCall.id = run.flatMap calledIds := by
  induction run generalizing before s toolCalls with
  | nil => exact ⟨s, [], by rw [foldl_nil, append_nil], rfl, by rwa [append_nil], rfl⟩
  | cons item run ih =>
    obtain ⟨s₁, new₁, hfirst, hmessages₁, hk₁, hids₁⟩ :=
      addToolCall_cases ext hk (hrun item mem_cons_self) toolCalls
    obtain ⟨s₂, new₂, hrest, hmessages₂, hk₂, hids₂⟩ :=
      ih hk₁ (fun i hi => hrun i (mem_cons_of_mem item hi)) (toolCalls ++ new₁)
    refine ⟨s₂, new₁ ++ new₂, ?_, hmessages₂.trans hmessages₁, ?_, ?_⟩
    · rw [foldl_cons, hfirst, hrest, append_assoc]
    · rwa [append_assoc] at hk₂
    · rw [map_append, hids₁, hids₂, flatMap_cons]

variable (ext) in
theorem addToolCalls_messages (hk : Knows before s) (hrun : ∀ item ∈ run, item.isAssistantToolCallItem = true) :
    (s.addToolCalls ext run).1.messages = s.messages := by
  obtain ⟨s₁, toolCalls, hfold, hmessages, _⟩ := foldl_addToolCall ext hk hrun []
  rw [addToolCalls, hfold]
  exact hmessages

/-- A run of calls becomes a turn; `message` is the message of the turn. -/
theorem converts_run (codec : JsonCodec) (hk : Knows before s)
    (hrun : ∀ item ∈ run, item.isAssistantToolCallItem = true) (hrest : EndsRun rest)
    (message : ChatRequestMessage) (hrole : message.role = "assistant") (hsource : message.source = none)
    (htoolCallId : message.toolCallId = none)
    (hcalls : message.toolCalls = if (s.addToolCalls ext run).2 = [] then none else some (s.addToolCalls ext run).2)
    (hmessages : s'.messages = s.messages ++ [message] ∨ (s.addToolCalls ext run).2 = [] ∧ s'.messages = s.messages)
    (hremoved : s'.removedToolCallIds = (s.addToolCalls ext run).1.removedToolCallIds)
    (hseen : s'.seenToolCallIds = (s.addToolCalls ext run).1.seenToolCallIds) :
    Converts codec before run rest s s' := by
  obtain ⟨s₁, toolCalls, hfold, _, hk₁, hids⟩ := foldl_addToolCall ext hk hrun []
  rw [nil_append] at hfold
  unfold addToolCalls at hcalls hmessages hremoved hseen
  rw [hfold] at hcalls hmessages hremoved hseen
  have hk' : Knows (before ++ run) s' := by
    refine ⟨fun id => ?_, fun id => ?_⟩
    · rw [hremoved]
      exact hk₁.removed id
    · rw [hseen]
      exact hk₁.seen id
  have hsources : keptOutputs (before ++ run) rest = keptOutputs before (run ++ rest) :=
    (keptOutputs_run fun item hi => isToolOutput_of_call (hrun item hi)).symm
  have htranscript := transcript_run before hrun hrest []
  rw [nil_append, ← hids] at htranscript
  by_cases hnil : toolCalls = []
  · have hplain : message.Plain := ⟨by rw [hcalls, if_pos hnil], htoolCallId, hsource⟩
    rw [hnil] at htranscript
    obtain ⟨new, hnew, hmessages⟩ : ∃ new, (∀ m ∈ new, m.Plain) ∧ s'.messages = s.messages ++ new := by
      rcases hmessages with h | ⟨_, h⟩
      · exact ⟨[message], fun m hm => by rw [mem_singleton.mp hm]; exact hplain, h⟩
      · exact ⟨[], fun m hm => absurd hm not_mem_nil, by rw [h, append_nil]⟩
    obtain ⟨hentries, hnone⟩ := plain_messages hnew
    refine ⟨hk', new, hmessages, fun m hm => (hnew m hm).sane, ?_, ?_, ?_⟩
    · rw [hentries, htranscript]
      rfl
    · rw [hnone, hsources]
      rfl
    · intro m hm j hj
      rw [(hnew m hm).source] at hj
      cases hj
  · rw [if_neg hnil] at hcalls
    have hmessages : s'.messages = s.messages ++ [message] := hmessages.resolve_right fun h => hnil h.1
    have hentry : message.entry = some (.turn (toolCalls.map FunctionToolCall.id)) := by
      rw [entry, callIds, hcalls]
      rfl
    have hne : toolCalls.map FunctionToolCall.id ≠ [] := fun h => hnil (map_eq_nil_iff.mp h)
    refine ⟨hk', [message], hmessages, ?_, ?_, ?_, ?_⟩
    · intro m hm
      rw [mem_singleton.mp hm]
      refine ⟨fun calls h => ?_, fun h => absurd hsource h⟩
      rw [hcalls] at h
      rw [← Option.some.inj h]
      exact ⟨hrole, hnil⟩
    · rw [entries_cons_some hentry, htranscript, turnEntries, if_neg hne]
      rfl
    · rw [filterMap_cons_none hsource, filterMap_nil, hsources]
      rfl
    · intro m hm j hj
      rw [mem_singleton.mp hm, hsource] at hj
      cases hj

theorem converts_output (codec : JsonCodec) (rest : List ResponseItem) (hk : Knows before s)
    (hcall : item.isAssistantToolCallItem = false) (hout : item.isToolOutput = true)
    (h : s.convertToolOutput codec item before.length = .ok s') : Converts codec before [item] rest s s' := by
  have hitem : (before ++ [item])[before.length]? = some item := by simp
  unfold convertToolOutput at h
  by_cases hremoved : item.callId.getD "" ∈ s.removedToolCallIds
  · rw [if_pos hremoved] at h
    cases h
    have hkept : item.isKeptOutput before = false := by
      rw [hk.removed] at hremoved
      simp only [isKeptOutput, hout, Bool.true_and, Bool.not_eq_false']
      exact contains_iff_mem.mpr hremoved
    refine ⟨hk.append hcall rfl rfl, [], (append_nil _).symm, fun m hm => absurd hm not_mem_nil, ?_, ?_,
      fun m hm => absurd hm not_mem_nil⟩
    · rw [singleton_append, transcript, hcall]
      simp [entries, turnEntries, answerEntries, hkept]
    · rw [singleton_append, keptOutputs, hkept]
      rfl
  · rw [if_neg hremoved] at h
    have hkept : item.isKeptOutput before = true := by
      rw [hk.removed] at hremoved
      simp only [isKeptOutput, hout, Bool.true_and, Bool.not_eq_true']
      exact Bool.eq_false_iff.mpr fun hmem => hremoved (contains_iff_mem.mp hmem)
    have hsources : [before.length] ++ keptOutputs (before ++ [item]) rest = keptOutputs before ([item] ++ rest) := by
      rw [singleton_append, singleton_append, keptOutputs, hkept]
      rfl
    cases houtput : toolOutput codec item with
    | none =>
      rw [houtput] at h
      cases h
    | some output =>
      rw [houtput] at h
      dsimp only at h
      by_cases horphan : item.callId.getD "" = "" ∨ item.callId.getD "" ∉ s.seenToolCallIds
      · rw [if_pos horphan] at h
        cases h
        have hanswer : answerEntries before item = [] := by
          refine if_neg ?_
          rintro ⟨_, hne, hseen⟩
          exact horphan.elim hne fun h => h ((hk.seen _).mpr hseen)
        refine ⟨hk.append hcall rfl rfl, [orphanToolOutputMessage (item.callId.getD "") output (some before.length)],
          rfl, ?_, ?_, hsources, ?_⟩
        · intro m hm
          rw [mem_singleton.mp hm]
          exact ⟨fun calls hcalls => (nomatch hcalls), fun _ => (by decide : "user" ≠ "assistant")⟩
        · rw [singleton_append, transcript, hcall, hanswer]
          rfl
        · intro m hm j hj
          rw [mem_singleton.mp hm] at hj ⊢
          cases hj
          exact ⟨item, hitem, output, houtput, .inr ⟨rfl, rfl⟩⟩
      · rw [if_neg horphan] at h
        cases h
        have hanswer : answerEntries before item = [.answer (item.callId.getD "")] := by
          refine if_pos ⟨hkept, fun hempty => horphan (.inl hempty), ?_⟩
          by_contra hseen
          exact horphan (.inr fun h => hseen ((hk.seen _).mp h))
        refine ⟨hk.append hcall rfl rfl, [_], rfl, ?_, ?_, hsources, ?_⟩
        · intro m hm
          rw [mem_singleton.mp hm]
          exact ⟨fun calls hcalls => (nomatch hcalls), fun _ => (by decide : "tool" ≠ "assistant")⟩
        · rw [singleton_append, transcript, hcall, hanswer]
          rfl
        · intro m hm j hj
          rw [mem_singleton.mp hm] at hj ⊢
          cases hj
          exact ⟨item, hitem, output, houtput, .inl ⟨rfl, rfl, rfl⟩⟩

theorem endsRun_dropWhile (items : List ResponseItem) : EndsRun (items.dropWhile isAssistantToolCallItem) := by
  intro item hitem
  have hnot := List.head?_dropWhile_not isAssistantToolCallItem items
  rw [hitem] at hnot
  exact hnot

variable (ext items) in
theorem converts_reasoning (hk : Knows before s) (htype : item.itemType = .reasoning) :
    ∃ chunk, item :: items = chunk ++ (s.convertReasoningWithFollowing ext item items).2 ∧ chunk ≠ [] ∧
      Converts ext.codec before chunk (s.convertReasoningWithFollowing ext item items).2 s
        (s.convertReasoningWithFollowing ext item items).1 := by
  have hcall : item.isAssistantToolCallItem = false := by rw [isAssistantToolCallItem, htype]
  have hout : item.isToolOutput = false := by
    unfold isToolOutput
    rw [htype]
    rfl
  have halone : ∀ rest, Converts ext.codec before [item] rest s s := fun rest =>
    converts_plain ext.codec rest hk hcall hout (fun m hm => absurd hm not_mem_nil)
      (append_nil _).symm rfl rfl
  unfold convertReasoningWithFollowing
  cases items with
  | nil =>
    refine ⟨[item], rfl, cons_ne_nil _ _, converts_plain ext.codec [] hk hcall hout ?_ rfl rfl rfl⟩
    intro m hm
    rw [mem_singleton.mp hm]
    exact ⟨rfl, rfl, rfl⟩
  | cons next rest =>
    dsimp only
    by_cases hnext : next.isAssistantToolCallItem = true
    · rw [if_pos hnext]
      refine ⟨item :: (next :: rest).takeWhile isAssistantToolCallItem, ?_, cons_ne_nil _ _, ?_⟩
      · rw [cons_append, takeWhile_append_dropWhile]
      · have hrun : ∀ i ∈ (next :: rest).takeWhile isAssistantToolCallItem,
            i.isAssistantToolCallItem = true := fun i hi => all_eq_true.mp all_takeWhile i hi
        have hk' := (halone []).knows
        have hmessages := addToolCalls_messages ext hk' hrun
        have hrest := endsRun_dropWhile (next :: rest)
        generalize (next :: rest).takeWhile isAssistantToolCallItem = run at hrun hmessages ⊢
        generalize hcalls : ({ role := "assistant", toolCalls := _, reasoningContent := _ } : ChatRequestMessage) =
          message
        have htoolCalls := congrArg ChatRequestMessage.toolCalls hcalls
        refine (halone _).trans (converts_run ext.codec hk' hrun hrest message ?_ ?_ ?_
          htoolCalls.symm ?_ ?_ ?_)
        · rw [← hcalls]
        · rw [← hcalls]
        · rw [← hcalls]
        · by_cases hdrop : shouldDropMessageAfterToolFiltering message = true
          · rw [if_pos hdrop]
            refine .inr ⟨?_, hmessages⟩
            by_contra hne
            rw [shouldDropMessageAfterToolFiltering, ← htoolCalls] at hdrop
            simp [hne] at hdrop
          · rw [if_neg hdrop]
            exact .inl (congrArg (· ++ [message]) hmessages)
        · split
          next => rfl
          next => rfl
        · split
          next => rfl
          next => rfl
    · rw [if_neg hnext]
      by_cases hassistant : (next.itemType = .message ∨ next.itemType = .inputText) ∧ next.role = some "assistant"
      · rw [if_pos hassistant]
        have hout' : next.isToolOutput = false := by
          unfold isToolOutput
          rcases hassistant.1 with htype' | htype'
          · rw [htype']
            rfl
          · rw [htype']
            rfl
        refine ⟨[item] ++ [next], rfl, cons_ne_nil _ _, (halone ([next] ++ rest)).trans ?_⟩
        refine converts_plain ext.codec rest (halone []).knows (Bool.eq_false_iff.mpr hnext) hout' ?_ rfl rfl rfl
        intro m hm
        rw [mem_singleton.mp hm]
        exact ⟨rfl, rfl, rfl⟩
      · rw [if_neg hassistant]
        refine ⟨[item], rfl, cons_ne_nil _ _, converts_plain ext.codec _ hk hcall hout ?_ rfl rfl rfl⟩
        intro m hm
        rw [mem_singleton.mp hm]
        exact ⟨rfl, rfl, rfl⟩

theorem converts_nil (codec : JsonCodec) (hk : Knows before s) : Converts codec before [] [] s s := by
  refine ⟨by rwa [append_nil], [], (append_nil _).symm, fun m hm => absurd hm not_mem_nil, ?_, ?_,
    fun m hm => absurd hm not_mem_nil⟩
  · rw [append_nil, append_nil]
    rfl
  · rw [append_nil, append_nil]
    rfl

theorem Converts.last {codec : JsonCodec} {chunk : List ResponseItem} {s'' : InputState}
    (h : Converts codec before chunk rest s s') (h' : Converts codec (before ++ chunk) rest [] s' s'') :
    Converts codec before (chunk ++ rest) [] s s'' := by
  refine Converts.trans ?_ h'
  rwa [append_nil]

theorem converts_functionCalls (hk : Knows before s) (hrun : ∀ item ∈ run, item.isAssistantToolCallItem = true)
    (hrest : EndsRun rest) : Converts ext.codec before run rest s (s.convertFunctionCalls ext run) := by
  have hmessages := addToolCalls_messages ext hk hrun
  unfold convertFunctionCalls
  dsimp only
  by_cases hnil : (s.addToolCalls ext run).2 = []
  · rw [if_pos hnil]
    exact converts_run ext.codec hk hrun hrest { role := "assistant" } rfl rfl rfl (if_pos hnil).symm
      (.inr ⟨hnil, hmessages⟩) rfl rfl
  · rw [if_neg hnil]
    exact converts_run ext.codec hk hrun hrest
      { role := "assistant", toolCalls := some (s.addToolCalls ext run).2 } rfl rfl rfl (if_neg hnil).symm
      (.inl (congrArg (· ++ [_]) hmessages)) rfl rfl

theorem convertInputToMessages_round {fuel : Nat} (hk : Knows before s)
    (h : convertInputToMessages ext (fuel + 1) before.length (item :: items) s = .ok s') :
    ∃ chunk rest s₁, item :: items = chunk ++ rest ∧ chunk ≠ [] ∧ Converts ext.codec before chunk rest s s₁ ∧
      convertInputToMessages ext fuel (before ++ chunk).length rest s₁ = .ok s' := by
  have hnext : (before ++ [item]).length = before.length + 1 := by simp
  -- an item that is one message at most
  have hplain : ∀ s₁ new, item.isAssistantToolCallItem = false → item.isToolOutput = false →
      (∀ m ∈ new, m.Plain) → s₁.messages = s.messages ++ new → s₁.removedToolCallIds = s.removedToolCallIds →
      s₁.seenToolCallIds = s.seenToolCallIds →
      convertInputToMessages ext fuel (before.length + 1) items s₁ = .ok s' →
      ∃ chunk rest s₁, item :: items = chunk ++ rest ∧ chunk ≠ [] ∧ Converts ext.codec before chunk rest s s₁ ∧
        convertInputToMessages ext fuel (before ++ chunk).length rest s₁ = .ok s' := by
    intro s₁ new hcall hout hnew hmessages hremoved hseen hrest
    refine ⟨[item], items, s₁, rfl, cons_ne_nil _ _, ?_, hnext ▸ hrest⟩
    exact converts_plain ext.codec items hk hcall hout hnew hmessages hremoved hseen
  have hone : ∀ message : ChatRequestMessage, message.Plain → ∀ m ∈ [message], m.Plain := by
    intro message hmessage m hm
    rw [mem_singleton.mp hm]
    exact hmessage
  have hcalls : item.isAssistantToolCallItem = true →
      convertInputToMessages ext fuel
        (before.length + ((item :: items).takeWhile isAssistantToolCallItem).length)
        ((item :: items).dropWhile isAssistantToolCallItem)
        (s.convertFunctionCalls ext ((item :: items).takeWhile isAssistantToolCallItem)) = .ok s' →
      ∃ chunk rest s₁, item :: items = chunk ++ rest ∧ chunk ≠ [] ∧ Converts ext.codec before chunk rest s s₁ ∧
        convertInputToMessages ext fuel (before ++ chunk).length rest s₁ = .ok s' := by
    intro hcall hrest
    have hrun : ∀ i ∈ (item :: items).takeWhile isAssistantToolCallItem,
        i.isAssistantToolCallItem = true := fun i hi => all_eq_true.mp all_takeWhile i hi
    refine ⟨_, _, _, (takeWhile_append_dropWhile).symm, ?_, converts_functionCalls hk hrun (endsRun_dropWhile _),
      by rw [length_append]; exact hrest⟩
    rw [takeWhile_cons_of_pos hcall]
    exact cons_ne_nil _ _
  have houtput : item.isAssistantToolCallItem = false → item.isToolOutput = true →
      (s.convertToolOutput ext.codec item before.length).bind
        (convertInputToMessages ext fuel (before.length + 1) items) = .ok s' →
      ∃ chunk rest s₁, item :: items = chunk ++ rest ∧ chunk ≠ [] ∧ Converts ext.codec before chunk rest s s₁ ∧
        convertInputToMessages ext fuel (before ++ chunk).length rest s₁ = .ok s' := by
    intro hcall hout hrest
    cases hfirst : s.convertToolOutput ext.codec item before.length with
    | error message =>
      rw [hfirst] at hrest
      cases hrest
    | ok s₁ =>
      rw [hfirst] at hrest
      exact ⟨[item], items, s₁, rfl, cons_ne_nil _ _, converts_output ext.codec items hk hcall hout hfirst,
        hnext ▸ hrest⟩
  unfold convertInputToMessages at h
  cases htype : item.itemType with
  | message =>
    simp only [htype] at h
    exact hplain (s.push _) _ (by simp [isAssistantToolCallItem, htype])
      (by simp [isToolOutput, htype]) (hone _ ⟨rfl, rfl, rfl⟩) rfl rfl rfl h
  | inputText =>
    simp only [htype] at h
    exact hplain (s.push _) _ (by simp [isAssistantToolCallItem, htype])
      (by simp [isToolOutput, htype]) (hone (inputTextMessage item) ⟨rfl, rfl, rfl⟩) rfl rfl
      rfl h
  | inputImage =>
    simp only [htype] at h
    have hcall : item.isAssistantToolCallItem = false := by simp [isAssistantToolCallItem, htype]
    have hout : item.isToolOutput = false := by simp [isToolOutput, htype]
    cases himage : inputImageMessage item with
    | none =>
      rw [himage] at h
      exact hplain s [] hcall hout (fun m hm => absurd hm not_mem_nil) (append_nil _).symm rfl rfl h
    | some message =>
      rw [himage] at h
      have hmessage : message.Plain := by
        unfold inputImageMessage at himage
        by_cases hurl : inputImageUrl item = ""
        · rw [if_pos hurl] at himage
          cases himage
        · rw [if_neg hurl] at himage
          rw [← Option.some.inj himage]
          exact ⟨rfl, rfl, rfl⟩
      exact hplain (s.push message) _ hcall hout (hone message hmessage) rfl rfl rfl h
  | reasoning =>
    simp only [htype] at h
    obtain ⟨chunk, hsplit, hne, hstep⟩ := converts_reasoning ext items hk htype
    refine ⟨chunk, _, _, hsplit, hne, hstep, ?_⟩
    have hlength := congrArg List.length hsplit
    rw [length_cons, length_append] at hlength
    have hindex : (before ++ chunk).length =
        before.length + (items.length + 1 - (s.convertReasoningWithFollowing ext item items).2.length) := by
      rw [length_append]
      omega
    rw [hindex]
    exact h
  | functionCall | toolSearchCall | customToolCall | webSearchCall | imageGenerationCall =>
    simp only [htype] at h
    exact hcalls (by simp [isAssistantToolCallItem, htype]) h
  | functionCallOutput | toolSearchOutput | customToolCallOutput =>
    simp only [htype] at h
    exact houtput (by simp [isAssistantToolCallItem, htype]) (by simp [isToolOutput, htype]) h
  | outputText | unknown =>
    simp only [htype] at h
    exact hplain s [] (by simp [isAssistantToolCallItem, htype])
      (by simp [isToolOutput, htype]) (fun m hm => absurd hm not_mem_nil)
      (append_nil _).symm rfl rfl h

theorem convertInputToMessages_converts {fuel : Nat} (hfuel : items.length ≤ fuel) (hk : Knows before s)
    (h : convertInputToMessages ext fuel before.length items s = .ok s') :
    Converts ext.codec before items [] s s' := by
  induction fuel generalizing before items s with
  | zero =>
    have hnil : items = [] := length_eq_zero_iff.mp (by omega)
    subst hnil
    cases h
    exact converts_nil ext.codec hk
  | succ fuel ih =>
    cases items with
    | nil =>
      cases h
      exact converts_nil ext.codec hk
    | cons item items =>
      obtain ⟨chunk, rest, s₁, hsplit, hne, hstep, hrest⟩ := convertInputToMessages_round hk h
      have hlength := congrArg List.length hsplit
      have hpos := length_pos_iff.mpr hne
      rw [length_append] at hlength
      rw [hsplit]
      exact hstep.last (ih (by omega) hstep.knows hrest)

end

end MochiPort

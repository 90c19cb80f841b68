import MochiPort.ChatInputSound

namespace MochiPort

open AnswerClaims ChatRequestMessage InputState List

structure Ready (codec : JsonCodec) (input : List ResponseItem) (messages : List ChatRequestMessage) : Prop where
  sane : ∀ m ∈ messages, m.Sane
  entries : entries messages = transcript [] [] input
  sources : messages.filterMap source = keptOutputs [] input
  carried : ∀ m ∈ messages, ∀ j, m.source = some j → ∃ item, input[j]? = some item ∧ item.CarriedBy codec m

section

variable {ext : RequestExternals} {codec : JsonCodec} {input : List ResponseItem}
  {messages : List ChatRequestMessage} {m m' : ChatRequestMessage}

theorem Ready.source_none (hr : Ready codec input messages) (hm : m ∈ messages) (htool : m.role ≠ "tool")
    (huser : m.role ≠ "user") : m.source = none := by
  cases hj : m.source with
  | none => rfl
  | some j =>
    obtain ⟨item, _, output, _, ⟨hrole, _⟩ | ⟨hrole, _⟩⟩ := hr.carried m hm j hj
    · exact absurd hrole htool
    · exact absurd hrole huser

theorem convertInputToMessages_ready {s : InputState} (instructions : Option String)
    (h : convertInputToMessages ext input.length 0 input (start instructions) = .ok s) :
    Ready ext.codec input s.messages := by
  have hstart : ∀ m ∈ (start instructions).messages, m.Plain := by
    intro m hm
    obtain ⟨text, _, rfl⟩ := Option.map_eq_some_iff.mp (Option.mem_toList.mp hm)
    exact ⟨rfl, rfl, rfl⟩
  obtain ⟨hentries₀, hsources₀⟩ := plain_messages hstart
  have hk : Knows [] (start instructions) := ⟨fun id => Iff.rfl, fun id => Iff.rfl⟩
  obtain ⟨new, hnew, hsane, hentries, hsources, hcarried⟩ :=
    (convertInputToMessages_converts (Nat.le_refl _) hk h).messages
  have hnone : ∀ before, transcript before [] [] = [] ∧ keptOutputs before [] = [] := fun before => ⟨rfl, rfl⟩
  rw [(hnone _).1, append_nil, append_nil] at hentries
  rw [(hnone _).2, append_nil, append_nil] at hsources
  rw [hnew]
  refine ⟨?_, ?_, ?_, ?_⟩
  · intro m hm
    exact (mem_append.mp hm).elim (fun hm => (hstart m hm).sane) (hsane m)
  · unfold MochiPort.entries at hentries₀ hentries ⊢
    rw [filterMap_append, hentries₀, hentries]
    rfl
  · rw [filterMap_append, hsources₀, hsources]
    rfl
  · intro m hm j hj
    rcases mem_append.mp hm with hm | hm
    · rw [(hstart m hm).source] at hj
      cases hj
    · exact hcarried m hm j hj

/-- Another text or role, for a message that is no turn and no output. -/
def Reworded (m m' : ChatRequestMessage) : Prop :=
  m' = m ∨ m'.Sane ∧ m.entry = none ∧ m'.entry = none ∧ m.source = none ∧ m'.source = none

variable {messages' : List ChatRequestMessage}

theorem Ready.reworded (hr : Ready codec input messages) (h : List.Forall₂ Reworded messages messages') :
    Ready codec input messages' := by
  obtain ⟨hsane, hentries, hsources, hcarried⟩ := hr
  have hall : (∀ m ∈ messages', m.Sane) ∧ MochiPort.entries messages' = MochiPort.entries messages ∧
      messages'.filterMap source = messages.filterMap source ∧
      ∀ m ∈ messages', m.source ≠ none → m ∈ messages := by
    clear hentries hsources hcarried
    induction h with
    | nil => exact ⟨fun m hm => absurd hm not_mem_nil, rfl, rfl, fun m hm => absurd hm not_mem_nil⟩
    | @cons m m' rest rest' hfirst _ ih =>
      obtain ⟨hsane', hentries', hsources', hmem'⟩ := ih fun m hm => hsane m (mem_cons_of_mem _ hm)
      unfold MochiPort.entries at hentries' ⊢
      rcases hfirst with rfl | ⟨hfirst, hentry, hentry', hsource, hsource'⟩
      · refine ⟨?_, ?_, ?_, ?_⟩
        · intro m hm
          rcases mem_cons.mp hm with rfl | hm
          · exact hsane m mem_cons_self
          · exact hsane' m hm
        · rw [filterMap_cons, filterMap_cons, hentries']
        · rw [filterMap_cons, filterMap_cons, hsources']
        · intro m hm hne
          rcases mem_cons.mp hm with rfl | hm
          · exact mem_cons_self
          · exact mem_cons_of_mem _ (hmem' m hm hne)
      · refine ⟨?_, ?_, ?_, ?_⟩
        · intro m hm
          rcases mem_cons.mp hm with rfl | hm
          · exact hfirst
          · exact hsane' m hm
        · rw [filterMap_cons_none hentry, filterMap_cons_none hentry', hentries']
        · rw [filterMap_cons_none hsource, filterMap_cons_none hsource', hsources']
        · intro m hm hne
          rcases mem_cons.mp hm with rfl | hm
          · exact absurd hsource' hne
          · exact mem_cons_of_mem _ (hmem' m hm hne)
  obtain ⟨hsane', hentries', hsources', hmem'⟩ := hall
  refine ⟨hsane', hentries'.trans hentries, hsources'.trans hsources, ?_⟩
  intro m hm j hj
  exact hcarried m (hmem' m hm (by rw [hj]; exact Option.some_ne_none j)) j hj

theorem Ready.cons (hr : Ready codec input messages) (hm : m.Plain) : Ready codec input (m :: messages) := by
  refine ⟨?_, ?_, ?_, ?_⟩
  · intro m' hm'
    rcases mem_cons.mp hm' with rfl | hm'
    · exact hm.sane
    · exact hr.sane m' hm'
  · rw [entries_cons_none hm.entry]
    exact hr.entries
  · rw [filterMap_cons_none hm.source]
    exact hr.sources
  · intro m' hm' j hj
    rcases mem_cons.mp hm' with rfl | hm'
    · rw [hm.source] at hj
      cases hj
    · exact hr.carried m' hm' j hj

theorem reworded_refl (messages : List ChatRequestMessage) : List.Forall₂ Reworded messages messages :=
  forall₂_same.mpr fun _ _ => .inl rfl

theorem entry_none (hsane : m.Sane) (hassistant : m.role ≠ "assistant") (htool : m.role ≠ "tool") : m.entry = none := by
  have hcalls : m.toolCalls = none := by
    cases hcalls : m.toolCalls with
    | none => rfl
    | some toolCalls => exact absurd (hsane.calls toolCalls hcalls).1 hassistant
  rw [entry, hcalls]
  rw [answeredId, if_neg htool]
  rfl

theorem Ready.inject (hr : Ready codec input messages) (instruction : String) :
    Ready codec input (injectJsonOutputInstruction instruction messages) := by
  unfold injectJsonOutputInstruction
  split
  next existing toolCalls toolCallId reasoningContent source rest =>
    refine hr.reworded (.cons (.inr ?_) (reworded_refl rest))
    have hsane := hr.sane _ mem_cons_self
    have hsource := hr.source_none mem_cons_self (show "system" ≠ "tool" by decide)
      (show "system" ≠ "user" by decide)
    refine ⟨⟨hsane.calls, hsane.source⟩, entry_none hsane (show "system" ≠ "assistant" by decide)
      (show "system" ≠ "tool" by decide), ?_, hsource, hsource⟩
    exact entry_none ⟨hsane.calls, hsane.source⟩ (show "system" ≠ "assistant" by decide)
      (show "system" ≠ "tool" by decide)
  next => exact hr.cons ⟨rfl, rfl, rfl⟩

variable (ext) in
theorem Ready.normalized (hr : Ready ext.codec input messages) :
    Ready ext.codec input (messages.map (normalizeDeveloperMessage ext)) := by
  refine hr.reworded (forall₂_map_right_iff.mpr (forall₂_same.mpr ?_))
  intro m hm
  unfold normalizeDeveloperMessage
  split
  next hrole =>
    refine .inr ?_
    have hsane := hr.sane m hm
    have hassistant : m.role ≠ "assistant" := by rw [hrole]; decide
    have hsource := hr.source_none hm (by rw [hrole]; decide) (by rw [hrole]; decide)
    have hcalls : m.toolCalls = none := by
      cases hcalls : m.toolCalls with
      | none => rfl
      | some toolCalls => exact absurd (hsane.calls toolCalls hcalls).1 hassistant
    generalize hrole' : (if isLowPriorityCodexDeveloperContext ext.toLowercase
      (chatMessageContentToString ext.codec m.content) then "user" else "system") = role
    have hnew : role ≠ "assistant" ∧ role ≠ "tool" := by
      rw [← hrole']
      split
      next => decide
      next => decide
    have hsane' : ({ m with role := role } : ChatRequestMessage).Sane :=
      ⟨fun toolCalls h => (nomatch hcalls.symm.trans h), fun h => absurd hsource h⟩
    refine ⟨hsane', entry_none hsane hassistant ?_, entry_none hsane' hnew.1 hnew.2, hsource, hsource⟩
    rw [hrole]
    decide
  next => exact .inl rfl

/-- The outputs stand in one message each; whether the turns are in order is said by the input. -/
structure Repaired (codec : JsonCodec) (input : List ResponseItem) (messages : List ChatRequestMessage) : Prop where
  sources : (messages.filterMap source).Perm (keptOutputs [] input)
  carried : ∀ m ∈ messages, ∀ j, m.source = some j → ∃ item, input[j]? = some item ∧ item.CarriedBy codec m
  inOrder : TurnsInOrder [] messages ↔ AllAnswered (fun _ => 0) (transcript [] [] input)

theorem ResponseItem.CarriedBy.orphan {item : ResponseItem} (h : item.CarriedBy codec m) (hrole : m.role = "tool") :
    item.CarriedBy codec (m.orphanChatToolMessage codec) := by
  obtain ⟨output, houtput, ⟨_, hid, hcontent⟩ | ⟨huser, _⟩⟩ := h
  · refine ⟨output, houtput, .inr ⟨rfl, ?_⟩⟩
    rw [orphanChatToolMessage, hid, hcontent]
    rfl
  · rw [hrole] at huser
    exact absurd huser (by decide)

theorem Ready.repaired (hr : Ready codec input messages) :
    Repaired codec input (dropInvalidAssistantMessages (repairToolCallTurns codec messages)) := by
  have hs := sound_replicate answeredId messages
  refine ⟨?_, ?_, ?_⟩
  · have hsources := keptRepair_sources codec hr.sane hs
    rw [unclaimed_replicate, hr.sources] at hsources
    exact hsources
  · intro m hm j hj
    rcases mem_repairFrom hs (mem_filter.mp hm).1 with hm | ⟨m₀, hm₀, ⟨hrole, rfl⟩ | ⟨hrole, ids, rfl⟩⟩
    · exact hr.carried m hm j hj
    · obtain ⟨item, hitem, hcarries⟩ := hr.carried m₀ hm₀ j hj
      exact ⟨item, hitem, hcarries.orphan hrole⟩
    · rw [(filterAssistantToolCalls_role m₀ ids).2] at hj
      exact absurd hrole ((hr.sane m₀ hm₀).source (by rw [hj]; exact Option.some_ne_none j))
  · have hnone : taken messages (List.replicate messages.length false) = fun _ => 0 := by
      funext id
      rw [taken, flagsOf_replicate]
      exact count_eq_zero.mpr fun h => Bool.noConfusion (eq_of_mem_replicate h)
    have hinOrder := inOrderIff codec hr.sane hs
    rw [InOrderIff, hnone, hr.entries] at hinOrder
    exact hinOrder

structure SameTurn (m m' : ChatRequestMessage) : Prop where
  role : m'.role = m.role
  content : m'.content = m.content
  toolCalls : m'.toolCalls = m.toolCalls
  toolCallId : m'.toolCallId = m.toolCallId
  source : m'.source = m.source

theorem SameTurn.refl (m : ChatRequestMessage) : SameTurn m m := ⟨rfl, rfl, rfl, rfl, rfl⟩

theorem SameTurn.carriedBy {item : ResponseItem} (h : SameTurn m m') (hcarries : item.CarriedBy codec m) :
    item.CarriedBy codec m' := by
  obtain ⟨hrole, hcontent, _, htoolCallId, _⟩ := h
  unfold ResponseItem.CarriedBy
  rw [hrole, hcontent, htoolCallId]
  exact hcarries

theorem turnsInOrder_sameTurn (h : List.Forall₂ SameTurn messages messages') (awaited : List String) :
    TurnsInOrder awaited messages' ↔ TurnsInOrder awaited messages := by
  induction h generalizing awaited with
  | nil => exact Iff.rfl
  | cons hfirst _ ih =>
    cases awaited with
    | nil => rw [TurnsInOrder, TurnsInOrder, hfirst.role, callIds, hfirst.toolCalls, ih]; rfl
    | cons id awaited => rw [TurnsInOrder, TurnsInOrder, hfirst.role, hfirst.toolCallId, ih]

theorem sources_sameTurn (h : List.Forall₂ SameTurn messages messages') :
    messages'.filterMap source = messages.filterMap source ∧
      ∀ m' ∈ messages', ∃ m ∈ messages, SameTurn m m' := by
  induction h with
  | nil => exact ⟨rfl, fun m' hm' => absurd hm' not_mem_nil⟩
  | @cons m _ _ _ hfirst _ ih =>
    obtain ⟨hsources, hmem⟩ := ih
    refine ⟨by rw [filterMap_cons, filterMap_cons, hfirst.source, hsources], ?_⟩
    intro m' hm'
    rcases mem_cons.mp hm' with rfl | hm'
    · exact ⟨m, mem_cons_self, hfirst⟩
    · obtain ⟨m₀, hm₀, hsame⟩ := hmem m' hm'
      exact ⟨m₀, mem_cons_of_mem m hm₀, hsame⟩

theorem Repaired.sameTurn (hr : Repaired codec input messages) (h : List.Forall₂ SameTurn messages messages') :
    Repaired codec input messages' := by
  obtain ⟨hsources, hmem⟩ := sources_sameTurn h
  refine ⟨?_, ?_, (turnsInOrder_sameTurn h []).trans hr.inOrder⟩
  · rw [hsources]
    exact hr.sources
  · intro m' hm' j hj
    obtain ⟨m, hm, hsame⟩ := hmem m' hm'
    rw [hsame.source] at hj
    obtain ⟨item, hitem, hcarries⟩ := hr.carried m hm j hj
    exact ⟨item, hitem, hsame.carriedBy hcarries⟩

theorem padReasoningContent_sameTurn (m : ChatRequestMessage) : SameTurn m (padReasoningContent m) := by
  unfold padReasoningContent
  split
  next => exact ⟨rfl, rfl, rfl, rfl, rfl⟩
  next => exact .refl m

theorem ensureReasoningFrom_sameTurn (last : Option String) (messages : List ChatRequestMessage) :
    List.Forall₂ SameTurn messages (ensureReasoningFrom last messages) := by
  induction messages generalizing last with
  | nil => exact .nil
  | cons m messages ih =>
    rw [ensureReasoningFrom]
    split
    next => exact .cons (.refl m) (ih last)
    next =>
      refine .cons ?_ (ih _)
      split
      next => exact ⟨rfl, rfl, rfl, rfl, rfl⟩
      next => exact .refl m

theorem deepseekMessages_repaired (thinkingEnabled : Bool) (hr : Ready ext.codec input messages) :
    Repaired ext.codec input (deepseekMessages ext thinkingEnabled messages) := by
  have hrepaired := (hr.normalized ext).repaired
  unfold deepseekMessages
  split
  next =>
    have hpadded := hrepaired.sameTurn (forall₂_map_right_iff.mpr
      (forall₂_same.mpr fun m _ => padReasoningContent_sameTurn m))
    exact hpadded.sameTurn (ensureReasoningFrom_sameTurn none _)
  next => exact hrepaired

theorem buildChatMessages_repaired {request : GatewayRequest}
    (h : buildChatMessages ext request true = .ok messages) : Repaired ext.codec request.input messages := by
  unfold buildChatMessages at h
  dsimp only at h
  cases hs : convertInputToMessages ext request.input.length 0 request.input (start request.instructions) with
  | error e =>
    rw [hs] at h
    cases h
  | ok s =>
    have hready := convertInputToMessages_ready request.instructions hs
    rw [hs] at h
    cases h
    refine deepseekMessages_repaired _ ?_
    split
    next format _ =>
      split
      next => exact hready.inject _
      next => exact hready
    next => exact hready

end

theorem mem_keptOutputs (before items : List ResponseItem) (j : Nat) :
    j ∈ keptOutputs before items ↔ ∃ k item, j = before.length + k ∧ items[k]? = some item ∧
      item.isKeptOutput (before ++ items.take k) = true := by
  induction items generalizing before with
  | nil => exact iff_of_false not_mem_nil fun ⟨_, _, _, h, _⟩ => nomatch h
  | cons item items ih =>
    rw [keptOutputs, mem_append, ih]
    constructor
    · rintro (hmem | ⟨k, item', rfl, hitem, hkept⟩)
      · split at hmem
        next hkept =>
          rw [mem_singleton.mp hmem]
          exact ⟨0, item, rfl, rfl, by rwa [take_zero, append_nil]⟩
        next => cases hmem
      · refine ⟨k + 1, item', ?_, hitem, ?_⟩
        · rw [length_append, length_singleton]
          omega
        · rwa [append_assoc] at hkept
    · rintro ⟨k, item', rfl, hitem, hkept⟩
      cases k with
      | zero =>
        obtain rfl := Option.some.inj hitem
        rw [take_zero, append_nil] at hkept
        rw [if_pos hkept]
        exact .inl mem_cons_self
      | succ k =>
        refine .inr ⟨k, item', ?_, hitem, ?_⟩
        · rw [length_append, length_singleton]
          omega
        · rwa [append_assoc]

theorem keptOutputs_nodup (before items : List ResponseItem) : (keptOutputs before items).Nodup := by
  induction items generalizing before with
  | nil => exact nodup_nil
  | cons item items ih =>
    refine nodup_append.mpr ⟨?_, ih (before ++ [item]), ?_⟩
    · split
      next => exact nodup_singleton _
      next => exact nodup_nil
    · intro a ha b hb hab
      obtain ⟨k, _, hk, _⟩ := (mem_keptOutputs _ items b).mp hb
      have ha : a = before.length := by
        split at ha
        next => exact mem_singleton.mp ha
        next => cases ha
      rw [length_append, length_singleton] at hk
      omega

/-- Every kept output is carried once; the turns are in order exactly if each run of calls has a call with an id, and
for each id as many answers left as calls, or none. -/
theorem chat_turns_in_order_iff (ext : RequestExternals) (request : GatewayRequest)
    (messages : List ChatRequestMessage) (h : buildChatMessages ext request true = .ok messages) :
    (messages.filterMap source).Nodup ∧
    (∀ j, j ∈ messages.filterMap source ↔
      ∃ item, request.input[j]? = some item ∧ item.isKeptOutput (request.input.take j) = true) ∧
    (∀ m ∈ messages, ∀ j, m.source = some j → ∃ item, request.input[j]? = some item ∧ item.CarriedBy ext.codec m) ∧
    (TurnsInOrder [] messages ↔ AllAnswered (fun _ => 0) (transcript [] [] request.input)) := by
  obtain ⟨hsources, hcarried, hinOrder⟩ := buildChatMessages_repaired h
  refine ⟨hsources.nodup_iff.mpr (keptOutputs_nodup [] request.input), fun j => ?_, hcarried, hinOrder⟩
  rw [hsources.mem_iff, mem_keptOutputs]
  constructor
  · rintro ⟨k, item, rfl, hitem, hkept⟩
    rw [length_nil, Nat.zero_add]
    exact ⟨item, hitem, hkept⟩
  · rintro ⟨item, hitem, hkept⟩
    exact ⟨j, item, (Nat.zero_add j).symm, hitem, hkept⟩

def callItem (id : String) : ResponseItem :=
  { itemType := .functionCall, name := some "f", callId := some id, arguments := some (.string "[]") }

def outputItem (id text : String) : ResponseItem :=
  { itemType := .functionCallOutput, callId := some id, output := some (.text text) }

def callsMessage (calls : List FunctionToolCall) : ChatRequestMessage :=
  { role := "assistant", toolCalls := some calls }

def answerMessage (id text : String) (source : Nat) : ChatRequestMessage :=
  { role := "tool", content := .string text, toolCallId := some id, source := some source }

theorem chat_turns_in_order_answered :
    [1].Nodup ∧
    (∀ j, j ∈ [1] ↔ ∃ item, [callItem "c1", outputItem "c1" "done"][j]? = some item ∧
      item.isKeptOutput ([callItem "c1", outputItem "c1" "done"].take j) = true) ∧
    (∀ m ∈ [callsMessage [⟨0, "c1", "f", "[]"⟩], answerMessage "c1" "done" 1], ∀ j, m.source = some j →
      ∃ item, [callItem "c1", outputItem "c1" "done"][j]? = some item ∧ item.CarriedBy wrappedInputCodec m) ∧
    (TurnsInOrder [] [callsMessage [⟨0, "c1", "f", "[]"⟩], answerMessage "c1" "done" 1] ↔
      AllAnswered (fun _ => 0) (transcript [] [] [callItem "c1", outputItem "c1" "done"])) :=
  chat_turns_in_order_iff (plainRequestExternals wrappedInputCodec)
    ⟨none, [callItem "c1", outputItem "c1" "done"], none, none⟩ _ rfl

/-- Two calls of one id, with one output: both calls stay, but one answer follows. -/
theorem repeated_call_unanswered :
    buildChatMessages (plainRequestExternals wrappedInputCodec)
        ⟨none, [callItem "c1", callItem "c1", outputItem "c1" "done"], none, none⟩ true =
      .ok [callsMessage [⟨0, "c1", "f", "[]"⟩, ⟨1, "c1", "f", "[]"⟩], answerMessage "c1" "done" 2] ∧
    ¬ TurnsInOrder [] [callsMessage [⟨0, "c1", "f", "[]"⟩, ⟨1, "c1", "f", "[]"⟩], answerMessage "c1" "done" 2] := by
  refine ⟨by rfl, ?_⟩
  exact fun h => nomatch h.2.2.2

end MochiPort

import MochiPort.ChatTurns

namespace MochiPort

open AnswerClaims ChatRequestMessage List

namespace ChatRequestMessage

def callIds (message : ChatRequestMessage) : List String := (message.toolCalls.getD []).map FunctionToolCall.id

def entry (message : ChatRequestMessage) : Option (Entry String) :=
  match message.toolCalls with
  | some _ => some (.turn message.callIds)
  | none => message.answeredId.map .answer

/-- Only the assistant calls tools, at least one at a time, and the outputs are not its messages. -/
structure Sane (message : ChatRequestMessage) : Prop where
  calls : ∀ toolCalls, message.toolCalls = some toolCalls → message.role = "assistant" ∧ toolCalls ≠ []
  source : message.source ≠ none → message.role ≠ "assistant"

end ChatRequestMessage

/-- Each assistant message with tool calls is followed by one tool message a call, with the same ids in the same
order, and there are no other tool messages; `awaited` are the ids that must come next. -/
def TurnsInOrder : List String → List ChatRequestMessage → Prop
  | awaited, [] => awaited = []
  | [], message :: messages => message.role ≠ "tool" ∧ TurnsInOrder message.callIds messages
  | id :: awaited, message :: messages =>
    message.role = "tool" ∧ message.toolCallId = some id ∧ TurnsInOrder awaited messages

def entries (messages : List ChatRequestMessage) : List (Entry String) := messages.filterMap entry

def AllNamed (entries : List (Entry String)) : Prop := ∀ ids, Entry.turn ids ∈ entries → ∃ id ∈ ids, id ≠ ""

/-- Every turn has a call with an id, and as many answers for each id as it has calls, or none. -/
def AllAnswered (owed : String → Nat) (entries : List (Entry String)) : Prop :=
  AllNamed entries ∧ ∀ id, id ≠ "" → Answered id (owed id) entries

section

variable {codec : JsonCodec} {message : ChatRequestMessage} {messages : List ChatRequestMessage}
  {consumed : List Bool}

theorem turnsInOrder_no_answer (awaited : List String) {rest : List ChatRequestMessage}
    (hrest : ∀ m, rest.head? = some m → m.role ≠ "tool") :
    TurnsInOrder awaited rest ↔ awaited = [] ∧ TurnsInOrder [] rest := by
  cases awaited with
  | nil => exact (and_iff_right rfl).symm
  | cons id awaited =>
    refine iff_of_false (fun h => ?_) (fun h => nomatch h.1)
    cases rest with
    | nil => cases h
    | cons m rest => exact hrest m rfl h.1

theorem turnsInOrder_answers (awaited : List String) {answers rest : List ChatRequestMessage} {found : List String}
    (htool : ∀ m ∈ answers, m.role = "tool") (hids : answers.map toolCallId = found.map some)
    (hrest : ∀ m, rest.head? = some m → m.role ≠ "tool") :
    TurnsInOrder awaited (answers ++ rest) ↔ awaited = found ∧ TurnsInOrder [] rest := by
  induction answers generalizing awaited found with
  | nil =>
    have hfound : found = [] := map_eq_nil_iff.mp hids.symm
    subst hfound
    exact turnsInOrder_no_answer awaited hrest
  | cons answer answers ih =>
    cases found with
    | nil => cases hids
    | cons id found =>
      obtain ⟨hid, hids⟩ := List.cons.inj hids
      have hanswers := fun m hm => htool m (mem_cons_of_mem answer hm)
      have hrole := htool answer mem_cons_self
      rw [cons_append]
      cases awaited with
      | nil => exact iff_of_false (fun h => h.1 hrole) (fun h => nomatch h.1)
      | cons id' awaited =>
        rw [TurnsInOrder, ih awaited hanswers hids, hid]
        constructor
        · rintro ⟨_, hsame, rfl, hturns⟩
          exact ⟨by rw [Option.some.inj hsame], hturns⟩
        · rintro ⟨hsame, hturns⟩
          obtain ⟨rfl, rfl⟩ := List.cons.inj hsame
          exact ⟨hrole, rfl, rfl, hturns⟩

theorem callIds_ne_nil (hsane : message.Sane) {toolCalls : List FunctionToolCall}
    (h : message.toolCalls = some toolCalls) : message.callIds ≠ [] := by
  rw [callIds, h]
  exact fun hnil => (hsane.calls toolCalls h).2 (map_eq_nil_iff.mp hnil)

theorem isValid_of_callIds (h : message.callIds ≠ []) : message.isValid = true := by
  cases hcalls : message.toolCalls with
  | none =>
    rw [callIds, hcalls] at h
    exact absurd rfl h
  | some toolCalls =>
    have hne : toolCalls ≠ [] := by
      rintro rfl
      rw [callIds, hcalls] at h
      exact h rfl
    simp [isValid, hcalls, hne]

theorem isValid_of_role (h : message.role ≠ "assistant") : message.isValid = true := if_pos h

section

variable (message)

theorem filterAssistantToolCalls_callIds (matchedIds : List String) :
    (message.filterAssistantToolCalls matchedIds).callIds =
      message.callIds.filter fun id => decide (id ∈ matchedIds) := by
  unfold filterAssistantToolCalls callIds
  cases hcalls : message.toolCalls with
  | none => simp [hcalls]
  | some toolCalls =>
    dsimp only
    rw [Option.getD_some, filter_map]
    split
    next h =>
      have hnone : toolCalls.filter ((fun id => decide (id ∈ matchedIds)) ∘ FunctionToolCall.id) = [] := h
      rw [hnone]
      rfl
    next => rfl

theorem filterAssistantToolCalls_role (matchedIds : List String) :
    (message.filterAssistantToolCalls matchedIds).role = message.role ∧
      (message.filterAssistantToolCalls matchedIds).source = message.source := by
  unfold filterAssistantToolCalls
  cases message.toolCalls with
  | none | some toolCalls => exact ⟨rfl, rfl⟩

end

theorem assistantToolCallIds_eq (hsane : message.Sane) :
    message.assistantToolCallIds = message.callIds.filter fun id => decide (id ≠ "") := by
  unfold assistantToolCallIds callIds
  split
  next => rfl
  next h =>
    cases hcalls : message.toolCalls with
    | none => rfl
    | some toolCalls => exact absurd (hsane.calls toolCalls hcalls).1 h

theorem count_answers (hsane : ∀ m ∈ messages, m.Sane) (id : String) :
    (entries messages).count (.answer id) = messages.countP fun m => m.answeredId = some id := by
  induction messages with
  | nil => rfl
  | cons m messages ih =>
    have hrest := ih fun m' hm => hsane m' (mem_cons_of_mem m hm)
    have hentry : (m.entry = some (.answer id)) ↔ m.answeredId = some id := by
      unfold entry
      cases hcalls : m.toolCalls with
      | none => simp
      | some toolCalls =>
        have hrole := ((hsane m mem_cons_self).calls toolCalls hcalls).1
        simp [answeredId, hrole]
    unfold entries at hrest ⊢
    by_cases h : m.answeredId = some id
    · rw [filterMap_cons_some (hentry.mpr h), count_cons_self, hrest, countP_cons_of_pos (by simpa using h)]
    · rw [countP_cons_of_neg (by simpa using h), ← hrest]
      cases he : m.entry with
      | none => rw [filterMap_cons_none he]
      | some e =>
        have hne : e ≠ .answer id := by
          rintro rfl
          exact h (hentry.mp he)
        rw [filterMap_cons_some he, count_cons_of_ne hne]

def keptRepair (codec : JsonCodec) (messages : List ChatRequestMessage) (consumed : List Bool) :
    List ChatRequestMessage := (repairFrom codec messages consumed).filter isValid

theorem keptRepair_consumed : keptRepair codec (message :: messages) (true :: consumed) =
    keptRepair codec messages consumed := rfl

theorem keptRepair_plain (h : message.assistantToolCallIds = []) :
    keptRepair codec (message :: messages) (false :: consumed) =
      if message.role = "tool" then message.orphanChatToolMessage codec :: keptRepair codec messages consumed
      else if message.isValid then message :: keptRepair codec messages consumed
      else keptRepair codec messages consumed := by
  unfold keptRepair
  rw [repairFrom, headD_cons, if_neg Bool.false_ne_true]
  rw [if_pos h, filter_cons]
  by_cases hrole : message.role = "tool"
  · rw [if_pos hrole, if_pos hrole, if_pos (isValid_of_role (show "user" ≠ "assistant" by decide))]
    rfl
  · rw [if_neg hrole, if_neg hrole]
    rfl

def matchedAnswers (message : ChatRequestMessage) (messages : List ChatRequestMessage) (consumed : List Bool) :
    List (String × ChatRequestMessage) × List Bool :=
  claimAll (fun id m => decide (m.answeredId = some id)) message.assistantToolCallIds messages consumed

theorem answers_role {found : List (String × ChatRequestMessage)} (h : ∀ p ∈ found, p.2.answeredId = some p.1) :
    (∀ m ∈ found.map Prod.snd, m.role = "tool") ∧
      (found.map Prod.snd).map toolCallId = (found.map Prod.fst).map some := by
  have hboth : ∀ p ∈ found, p.2.role = "tool" ∧ p.2.toolCallId = some p.1 := by
    intro p hp
    have hid := h p hp
    unfold answeredId at hid
    split at hid
    next hrole => exact ⟨hrole, hid⟩
    next => cases hid
  constructor
  · intro m hm
    obtain ⟨p, hp, rfl⟩ := mem_map.mp hm
    exact (hboth p hp).1
  · rw [map_map, map_map]
    exact map_congr_left fun p hp => (hboth p hp).2

theorem keptRepair_turn (h : message.assistantToolCallIds ≠ [])
    (htool : ∀ m ∈ (matchedAnswers message messages consumed).1.map Prod.snd, m.role = "tool") :
    keptRepair codec (message :: messages) (false :: consumed) =
      let matched := matchedAnswers message messages consumed
      let turn := message.filterAssistantToolCalls (matched.1.map Prod.fst)
      (if turn.isValid then [turn] else []) ++
        (matched.1.map Prod.snd ++ keptRepair codec messages matched.2) := by
  have hvalid : ((matchedAnswers message messages consumed).1.map Prod.snd).filter isValid =
      (matchedAnswers message messages consumed).1.map Prod.snd := by
    refine filter_eq_self.mpr ?_
    intro m hm
    exact isValid_of_role (by rw [htool m hm]; decide)
  unfold keptRepair
  rw [repairFrom, headD_cons, if_neg Bool.false_ne_true]
  dsimp only
  rw [if_neg h, filter_cons, filter_append]
  unfold matchedAnswers at hvalid ⊢
  rw [tail_cons]
  unfold chatToolMessageMatches
  rw [hvalid]
  split
  next => rfl
  next => rfl

theorem matchedAnswers_claimed (message : ChatRequestMessage)
    (hs : Sound answeredId messages consumed) :
    Claimed answeredId message.assistantToolCallIds messages consumed
      (matchedAnswers message messages consumed).2 (matchedAnswers message messages consumed).1 := hs.claimAll _

theorem matchedAnswers_nil (hsane : message.Sane) (hs : Sound answeredId messages consumed)
    (hvalid : ¬ (message.filterAssistantToolCalls
      ((matchedAnswers message messages consumed).1.map Prod.fst)).isValid = true) :
    (matchedAnswers message messages consumed).1 = [] := by
  have hclaimed := matchedAnswers_claimed message hs
  have hsublist := hclaimed.sublist
  rw [assistantToolCallIds_eq hsane] at hsublist
  by_contra hne
  obtain ⟨p, hp⟩ := exists_mem_of_ne_nil _ hne
  have hmem : p.1 ∈ (matchedAnswers message messages consumed).1.map Prod.fst := mem_map_of_mem hp
  have hcall := (mem_filter.mp (hsublist.subset hmem)).1
  refine hvalid (isValid_of_callIds ?_)
  rw [filterAssistantToolCalls_callIds]
  exact ne_nil_of_mem (mem_filter.mpr ⟨hcall, decide_eq_true hmem⟩)

theorem keptRepair_head (codec : JsonCodec) (hsane : ∀ m ∈ messages, m.Sane)
    (hs : Sound answeredId messages consumed) :
    ∀ m, (keptRepair codec messages consumed).head? = some m → m.role ≠ "tool" := by
  induction messages generalizing consumed with
  | nil => exact fun m hm => nomatch hm
  | cons message messages ih =>
    obtain ⟨flag, flags, rfl⟩ := exists_cons_of_length_eq_add_one hs.length
    have hrest := fun m hm => hsane m (mem_cons_of_mem message hm)
    have hmessage := hsane message mem_cons_self
    cases flag with
    | true =>
      exact ih hrest hs.tail
    | false =>
      by_cases hids : message.assistantToolCallIds = []
      · rw [keptRepair_plain hids]
        intro m hm
        split at hm
        next =>
          rw [← Option.some.inj hm]
          exact (by decide : "user" ≠ "tool")
        next hrole =>
          split at hm
          next =>
            rw [← Option.some.inj hm]
            exact hrole
          next => exact ih hrest hs.tail m hm
      · have hclaimed := matchedAnswers_claimed message hs.tail
        rw [keptRepair_turn hids (answers_role hclaimed.keys).1]
        dsimp only
        intro m hm
        split at hm
        next =>
          have hassistant : message.role = "assistant" := by
            by_contra hrole
            exact hids (if_neg hrole)
          rw [← Option.some.inj hm, (filterAssistantToolCalls_role message _).1, hassistant]
          decide
        next hvalid =>
          rw [matchedAnswers_nil hmessage hs.tail hvalid] at hm
          exact ih hrest hclaimed.sound m hm

theorem callIds_matched_iff (hsane : message.Sane) (hs : Sound answeredId messages consumed) :
    (message.filterAssistantToolCalls ((matchedAnswers message messages consumed).1.map Prod.fst)).callIds =
        (matchedAnswers message messages consumed).1.map Prod.fst ↔
      ∀ id, id ≠ "" → (flagsOf answeredId id messages consumed).count false = 0 ∨
        message.callIds.count id ≤ (flagsOf answeredId id messages consumed).count false := by
  have hclaimed := matchedAnswers_claimed message hs
  have hids := assistantToolCallIds_eq hsane
  have hsublist := hclaimed.sublist
  have hcount := hclaimed.count
  rw [hids] at hsublist hcount
  have hcalls : ∀ id, id ≠ "" → (message.callIds.filter fun id => decide (id ≠ "")).count id =
      message.callIds.count id := fun id hid => count_filter (by simpa using hid)
  rw [filterAssistantToolCalls_callIds, filter_mem_eq_iff (hsublist.trans filter_sublist)]
  constructor
  · intro h id hid
    by_cases hfound : id ∈ (matchedAnswers message messages consumed).1.map Prod.fst
    · have hle := h id hfound
      rw [hcount, hcalls id hid] at hle
      omega
    · have hzero := count_eq_zero.mpr hfound
      rw [hcount, hcalls id hid] at hzero
      omega
  · intro h id hfound
    have hid : id ≠ "" := of_decide_eq_true (mem_filter.mp (hsublist.subset hfound)).2
    have hpos := count_pos_iff.mpr hfound
    have hle := h id hid
    rw [hcount, hcalls id hid] at hpos ⊢
    omega

section

variable {owed owed' : String → Nat} {es : List (Entry String)}

theorem allAnswered_congr (h : ∀ id, id ≠ "" → owed id = owed' id) : AllAnswered owed es ↔ AllAnswered owed' es := by
  refine and_congr_right' ?_
  constructor
  · intro hall id hid
    rw [← h id hid]
    exact hall id hid
  · intro hall id hid
    rw [h id hid]
    exact hall id hid

theorem allAnswered_answer (id : String) :
    AllAnswered owed (.answer id :: es) ↔ AllAnswered (fun k => if id = k then owed k - 1 else owed k) es := by
  have hsplit : ∀ k, Answered k (owed k) (.answer id :: es) ↔
      Answered k (if id = k then owed k - 1 else owed k) es := by
    intro k
    rw [Answered]
    split
    next => exact Iff.rfl
    next => exact Iff.rfl
  unfold AllAnswered AllNamed
  simp [hsplit]

theorem allAnswered_turn (ids : List String) :
    AllAnswered owed (.turn ids :: es) ↔
      (∃ id ∈ ids, id ≠ "") ∧
      (∀ id, id ≠ "" → es.count (.answer id) - owed id = 0 ∨ ids.count id ≤ es.count (.answer id) - owed id) ∧
      AllAnswered (fun id => owed id + min (ids.count id) (es.count (.answer id) - owed id)) es := by
  constructor
  · rintro ⟨hnamed, hanswered⟩
    refine ⟨hnamed ids mem_cons_self, fun id hid => (hanswered id hid).1, ?_, fun id hid => (hanswered id hid).2⟩
    exact fun ids' h => hnamed ids' (mem_cons_of_mem _ h)
  · rintro ⟨hfirst, hfree, hnamed, hanswered⟩
    refine ⟨fun ids' h => ?_, fun id hid => ⟨hfree id hid, hanswered id hid⟩⟩
    rcases mem_cons.mp h with heq | h
    · rw [Entry.turn.inj heq]
      exact hfirst
    · exact hnamed ids' h

end

theorem entries_cons_none (h : message.entry = none) : entries (message :: messages) = entries messages :=
  filterMap_cons_none h

theorem entries_cons_some {e : Entry String} (h : message.entry = some e) :
    entries (message :: messages) = e :: entries messages := filterMap_cons_some h

theorem ChatRequestMessage.Sane.toolCalls_tool (hsane : message.Sane) (hrole : message.role = "tool") : message.toolCalls = none := by
  cases hcalls : message.toolCalls with
  | none => rfl
  | some toolCalls =>
    have hassistant := (hsane.calls toolCalls hcalls).1
    rw [hrole] at hassistant
    exact absurd hassistant (by decide)

variable {k : String}

theorem ChatRequestMessage.Sane.entry_answer (hsane : message.Sane) (hk : message.answeredId = some k) :
    message.entry = some (.answer k) := by
  have hrole : message.role = "tool" := by
    by_contra hrole
    rw [answeredId, if_neg hrole] at hk
    cases hk
  rw [entry, hsane.toolCalls_tool hrole, hk]
  rfl

def taken (messages : List ChatRequestMessage) (consumed : List Bool) (id : String) : Nat :=
  (flagsOf answeredId id messages consumed).count true

theorem taken_cons_self (hk : message.answeredId = some k) (flag : Bool) :
    taken (message :: messages) (flag :: consumed) k =
      taken messages consumed k + if flag then 1 else 0 := by
  unfold taken
  rw [flagsOf, if_pos hk]
  cases flag with
  | true => exact count_cons_self
  | false => exact count_cons_of_ne (by decide)

theorem taken_cons_of_ne (hk : message.answeredId ≠ some k) (flag : Bool) :
    taken (message :: messages) (flag :: consumed) k = taken messages consumed k := by
  unfold taken
  rw [flagsOf, if_neg hk]

/-- The repaired messages are in order exactly if every turn has a call with an id and, for each id, as many answers
as calls, or none. -/
def InOrderIff (codec : JsonCodec) (messages : List ChatRequestMessage) (consumed : List Bool) : Prop :=
  TurnsInOrder [] (keptRepair codec messages consumed) ↔ AllAnswered (taken messages consumed) (entries messages)

section

variable (ih : InOrderIff codec messages consumed)
include ih

theorem InOrderIff.skipped (hsane : message.Sane)
    (hk : message.answeredId = some k) : InOrderIff codec (message :: messages) (true :: consumed) := by
  unfold InOrderIff at ih ⊢
  rw [keptRepair_consumed, ih, entries_cons_some (hsane.entry_answer hk), allAnswered_answer]
  refine allAnswered_congr fun id _ => ?_
  by_cases hid : k = id
  · rw [if_pos hid, ← hid, taken_cons_self hk]
    rfl
  · rw [if_neg hid, taken_cons_of_ne (by simpa [hk] using hid)]

theorem InOrderIff.orphan (hsane : message.Sane)
    (hs : Sound answeredId (message :: messages) (false :: consumed))
    (hrole : message.role = "tool") : InOrderIff codec (message :: messages) (false :: consumed) := by
  have hids : message.assistantToolCallIds = [] := if_neg (by rw [hrole]; decide)
  have horphan : TurnsInOrder [] (message.orphanChatToolMessage codec :: keptRepair codec messages consumed) ↔
      TurnsInOrder [] (keptRepair codec messages consumed) := and_iff_right (show "user" ≠ "tool" by decide)
  unfold InOrderIff at ih ⊢
  rw [keptRepair_plain hids, if_pos hrole, horphan, ih]
  cases hk : message.answeredId with
  | none =>
    have hnone : message.entry = none := by
      rw [entry, hsane.toolCalls_tool hrole, hk]
      rfl
    rw [entries_cons_none hnone]
    exact allAnswered_congr fun id _ => (taken_cons_of_ne (by simp [hk]) false).symm
  | some k =>
    rw [entries_cons_some (hsane.entry_answer hk), allAnswered_answer]
    refine allAnswered_congr fun id _ => ?_
    by_cases hid : k = id
    · have hfirst := hs.first k
      rw [flagsOf, if_pos hk] at hfirst
      have hzero : taken messages consumed k = 0 := hfirst.count_true
      rw [if_pos hid, ← hid, taken_cons_self hk, hzero]
      rfl
    · rw [if_neg hid, taken_cons_of_ne (by simpa [hk] using hid)]

theorem InOrderIff.plain (hrole : message.role ≠ "tool")
    (hcalls : message.toolCalls = none) : InOrderIff codec (message :: messages) (false :: consumed) := by
  have hanswered : message.answeredId = none := if_neg hrole
  have hcallIds : message.callIds = [] := by
    rw [callIds, hcalls]
    rfl
  have hids : message.assistantToolCallIds = [] := by
    rw [assistantToolCallIds, hcalls]
    split
    next => rfl
    next => rfl
  have hnone : message.entry = none := by
    rw [entry, hcalls, hanswered]
    rfl
  have hplain : TurnsInOrder [] (message :: keptRepair codec messages consumed) ↔
      TurnsInOrder [] (keptRepair codec messages consumed) := by rw [TurnsInOrder, hcallIds, and_iff_right hrole]
  unfold InOrderIff at ih ⊢
  rw [keptRepair_plain hids, if_neg hrole, entries_cons_none hnone,
    ← allAnswered_congr fun id _ => (taken_cons_of_ne (by simp [hanswered]) false).symm, ← ih]
  split
  next => exact hplain
  next => exact Iff.rfl

end

theorem InOrderIff.unnamed (hsane : message.Sane) (hrest : ∀ m ∈ messages, m.Sane)
    (hs : Sound answeredId messages consumed) {toolCalls : List FunctionToolCall}
    (hcalls : message.toolCalls = some toolCalls) (hids : message.assistantToolCallIds = []) :
    InOrderIff codec (message :: messages) (false :: consumed) := by
  have hcallIds := callIds_ne_nil hsane hcalls
  have hrole : message.role ≠ "tool" := by
    rw [(hsane.calls toolCalls hcalls).1]
    decide
  have hsome : message.entry = some (.turn message.callIds) := by rw [entry, hcalls]
  unfold InOrderIff
  rw [keptRepair_plain hids, if_neg hrole, if_pos (isValid_of_callIds hcallIds), entries_cons_some hsome,
    allAnswered_turn]
  refine iff_of_false (fun h => ?_) (fun h => ?_)
  · have hturn := turnsInOrder_no_answer message.callIds (keptRepair_head codec hrest hs)
    exact hcallIds (hturn.mp h.2).1
  · obtain ⟨id, hid, hne⟩ := h.1
    rw [assistantToolCallIds_eq hsane] at hids
    exact filter_eq_nil_iff.mp hids id hid (decide_eq_true hne)

theorem InOrderIff.turn (hsane : message.Sane) (hrest : ∀ m ∈ messages, m.Sane)
    (hs : Sound answeredId messages consumed)
    (ih : InOrderIff codec messages (matchedAnswers message messages consumed).2)
    (hids : message.assistantToolCallIds ≠ []) : InOrderIff codec (message :: messages) (false :: consumed) := by
  have hclaimed := matchedAnswers_claimed message hs
  obtain ⟨hroles, htoolCallIds⟩ := answers_role hclaimed.keys
  have hassistant : message.role = "assistant" := by
    by_contra hrole
    exact hids (if_neg hrole)
  have hanswered : message.answeredId = none := if_neg (by rw [hassistant]; decide)
  obtain ⟨named, hnamed⟩ := exists_mem_of_ne_nil _ hids
  rw [assistantToolCallIds_eq hsane] at hnamed
  obtain ⟨hmem, hne⟩ := mem_filter.mp hnamed
  have hsome : message.entry = some (.turn message.callIds) := by
    rw [entry]
    cases hcalls : message.toolCalls with
    | none =>
      rw [callIds, hcalls] at hmem
      cases hmem
    | some toolCalls => rfl
  -- what is left of the answers
  have hfree : ∀ id, (entries messages).count (.answer id) - taken (message :: messages) (false :: consumed) id =
      (flagsOf answeredId id messages consumed).count false := by
    intro id
    rw [taken_cons_of_ne (by simp [hanswered]), count_answers hrest, ← count_flagsOf hs.length, taken]
    omega
  have htaken : ∀ id, id ≠ "" → taken messages (matchedAnswers message messages consumed).2 id =
      taken (message :: messages) (false :: consumed) id + min (message.callIds.count id)
        ((entries messages).count (.answer id) - taken (message :: messages) (false :: consumed) id) := by
    intro id hid
    have hcount := hclaimed.count id
    rw [assistantToolCallIds_eq hsane, count_filter (by simpa using hid)] at hcount
    rw [hfree, taken_cons_of_ne (by simp [hanswered]), taken, hclaimed.taken, hcount]
    rfl
  have hblock := turnsInOrder_answers (message.filterAssistantToolCalls
    ((matchedAnswers message messages consumed).1.map Prod.fst)).callIds hroles htoolCallIds
    (keptRepair_head codec hrest hclaimed.sound)
  have hlist : TurnsInOrder [] (keptRepair codec (message :: messages) (false :: consumed)) ↔
      (message.filterAssistantToolCalls ((matchedAnswers message messages consumed).1.map Prod.fst)).callIds =
          (matchedAnswers message messages consumed).1.map Prod.fst ∧
        TurnsInOrder [] (keptRepair codec messages (matchedAnswers message messages consumed).2) := by
    rw [keptRepair_turn hids hroles]
    dsimp only
    split
    next =>
      have hrole : (message.filterAssistantToolCalls
          ((matchedAnswers message messages consumed).1.map Prod.fst)).role ≠ "tool" := by
        rw [(filterAssistantToolCalls_role message _).1, hassistant]
        decide
      rw [singleton_append, TurnsInOrder, and_iff_right hrole, hblock]
    next hvalid =>
      have hnil := matchedAnswers_nil hsane hs hvalid
      have hcallIds : (message.filterAssistantToolCalls
          ((matchedAnswers message messages consumed).1.map Prod.fst)).callIds = [] := by
        by_contra hne'
        exact hvalid (isValid_of_callIds hne')
      rw [hcallIds, hnil]
      exact (and_iff_right rfl).symm
  unfold InOrderIff at ih ⊢
  rw [hlist, callIds_matched_iff hsane hs, ih, entries_cons_some hsome, allAnswered_turn,
    allAnswered_congr htaken]
  simp only [hfree]
  exact (and_iff_right ⟨named, hmem, of_decide_eq_true hne⟩).symm

theorem mem_repairFrom {m : ChatRequestMessage} (hs : Sound answeredId messages consumed)
    (hm : m ∈ repairFrom codec messages consumed) :
    m ∈ messages ∨ ∃ m₀ ∈ messages, m₀.role = "tool" ∧ m = m₀.orphanChatToolMessage codec ∨
      m₀.role = "assistant" ∧ ∃ ids, m = m₀.filterAssistantToolCalls ids := by
  induction messages generalizing consumed with
  | nil => cases hm
  | cons message messages ih =>
    obtain ⟨flag, flags, rfl⟩ := exists_cons_of_length_eq_add_one hs.length
    have hlater : ∀ flags', Sound answeredId messages flags' → m ∈ repairFrom codec messages flags' →
        m ∈ message :: messages ∨ ∃ m₀ ∈ message :: messages,
          m₀.role = "tool" ∧ m = m₀.orphanChatToolMessage codec ∨
          m₀.role = "assistant" ∧ ∃ ids, m = m₀.filterAssistantToolCalls ids := by
      intro flags' hs' hm'
      rcases ih hs' hm' with h | ⟨m₀, hm₀, h⟩
      · exact .inl (mem_cons_of_mem message h)
      · exact .inr ⟨m₀, mem_cons_of_mem message hm₀, h⟩
    cases flag with
    | true => exact hlater flags hs.tail hm
    | false =>
      rw [repairFrom, headD_cons, if_neg Bool.false_ne_true] at hm
      dsimp only at hm
      split at hm
      next =>
        rcases mem_cons.mp hm with rfl | hm
        · split
          next hrole => exact .inr ⟨message, mem_cons_self, .inl ⟨hrole, rfl⟩⟩
          next => exact .inl mem_cons_self
        · exact hlater flags hs.tail hm
      next hids =>
        have hclaimed := matchedAnswers_claimed message hs.tail
        rcases mem_cons.mp hm with rfl | hm
        · have hassistant : message.role = "assistant" := by
            by_contra hrole
            exact hids (if_neg hrole)
          exact .inr ⟨message, mem_cons_self, .inr ⟨hassistant, _, rfl⟩⟩
        · rcases mem_append.mp hm with hm | hm
          · have hleft := hclaimed.perm.symm.subset (mem_append_left _ hm)
            exact .inl (mem_cons_of_mem message ((unclaimed_sublist messages flags).subset hleft))
          · exact hlater _ hclaimed.sound hm

theorem repairFrom_sources (hsane : ∀ m ∈ messages, m.Sane)
    (hs : Sound answeredId messages consumed) :
    ((repairFrom codec messages consumed).filterMap source).Perm
      ((unclaimed messages consumed).filterMap source) := by
  induction messages generalizing consumed with
  | nil => exact List.Perm.refl _
  | cons message messages ih =>
    obtain ⟨flag, flags, rfl⟩ := exists_cons_of_length_eq_add_one hs.length
    have hrest := fun m hm => hsane m (mem_cons_of_mem message hm)
    cases flag with
    | true => exact ih hrest hs.tail
    | false =>
      rw [repairFrom, headD_cons, if_neg Bool.false_ne_true, unclaimed, if_neg Bool.false_ne_true]
      dsimp only
      split
      next =>
        have hsource : (if message.role = "tool" then message.orphanChatToolMessage codec else message).source =
            message.source := by
          split
          next => rfl
          next => rfl
        rw [filterMap_cons, filterMap_cons, hsource]
        cases message.source with
        | none => exact ih hrest hs.tail
        | some j => exact (ih hrest hs.tail).cons j
      next =>
        have hclaimed := matchedAnswers_claimed message hs.tail
        have hbehind : (((matchedAnswers message messages flags).1.map Prod.snd ++
            repairFrom codec messages (matchedAnswers message messages flags).2).filterMap
              source).Perm ((unclaimed messages flags).filterMap source) := by
          have hmoved := hclaimed.perm.symm.filterMap source
          rw [filterMap_append] at hmoved ⊢
          exact ((ih hrest hclaimed.sound).append_left _).trans hmoved
        have hsource := (filterAssistantToolCalls_role message
          ((matchedAnswers message messages flags).1.map Prod.fst)).2
        rw [filterMap_cons, filterMap_cons]
        cases hj : message.source with
        | none =>
          rw [hj] at hsource
          unfold matchedAnswers at hsource hbehind
          rw [tail_cons]
          unfold chatToolMessageMatches
          rw [hsource]
          exact hbehind
        | some j =>
          rw [hj] at hsource
          unfold matchedAnswers at hsource hbehind
          rw [tail_cons]
          unfold chatToolMessageMatches
          rw [hsource]
          exact hbehind.cons j

variable (codec) in
theorem keptRepair_sources (hsane : ∀ m ∈ messages, m.Sane)
    (hs : Sound answeredId messages consumed) :
    ((keptRepair codec messages consumed).filterMap source).Perm
      ((unclaimed messages consumed).filterMap source) := by
  have hkept : (keptRepair codec messages consumed).filterMap source =
      (repairFrom codec messages consumed).filterMap source := by
    unfold keptRepair
    rw [filterMap_filter]
    refine filterMap_congr ?_
    intro m hm
    split
    next => rfl
    next hvalid =>
      have hassistant : m.role = "assistant" := by
        by_contra hrole
        exact hvalid (isValid_of_role hrole)
      by_contra hne
      rcases mem_repairFrom hs hm with hm | ⟨m₀, hm₀, ⟨_, rfl⟩ | ⟨hrole, ids, rfl⟩⟩
      · exact (hsane m hm).source (Ne.symm hne) hassistant
      · exact absurd hassistant (show "user" ≠ "assistant" by decide)
      · rw [(filterAssistantToolCalls_role m₀ ids).2] at hne
        exact (hsane m₀ hm₀).source (Ne.symm hne) hrole
  rw [hkept]
  exact repairFrom_sources hsane hs

theorem inOrderIff (codec : JsonCodec) (hsane : ∀ m ∈ messages, m.Sane)
    (hs : Sound answeredId messages consumed) : InOrderIff codec messages consumed := by
  induction messages generalizing consumed with
  | nil => exact iff_of_true rfl ⟨fun _ h => absurd h not_mem_nil, fun _ _ => trivial⟩
  | cons message messages ih =>
    obtain ⟨flag, flags, rfl⟩ := exists_cons_of_length_eq_add_one hs.length
    have hrest := fun m hm => hsane m (mem_cons_of_mem message hm)
    have hmessage := hsane message mem_cons_self
    cases flag with
    | true =>
      obtain ⟨k, hk⟩ := hs.answers (message, true) mem_cons_self rfl
      exact InOrderIff.skipped (ih hrest hs.tail) hmessage hk
    | false =>
      by_cases hids : message.assistantToolCallIds = []
      · by_cases hrole : message.role = "tool"
        · exact InOrderIff.orphan (ih hrest hs.tail) hmessage hs hrole
        · cases hcalls : message.toolCalls with
          | none => exact InOrderIff.plain (ih hrest hs.tail) hrole hcalls
          | some toolCalls => exact .unnamed hmessage hrest hs.tail hcalls hids
      · exact .turn hmessage hrest hs.tail (ih hrest (matchedAnswers_claimed message hs.tail).sound) hids

end

end MochiPort

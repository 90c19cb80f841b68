import MochiPort.ChatStream

namespace MochiPort

open ItemLedger ResponsesStreamState Table

theorem itemsAfter_concat {events : List StreamEvent} {event : StreamEvent}
    {l m : ItemLedger.State (Option String)} (h : itemsAfter events = some l)
    (hstep : step l event.event.itemAct = some m) : itemsAfter (events ++ [event]) = some m := by
  rw [itemsAfter, List.map_append]
  exact Runs.run_append_eq_some.mpr ⟨l, h, by simp [hstep]⟩

theorem toolDeltaEvent_cases (codec : JsonCodec) (tc : ToolCallState) (rawDelta : String) :
    ∃ emittedInput, (toolDeltaEvent codec tc rawDelta).1 = { tc with customEmittedInput := emittedInput } ∧
      ((toolDeltaEvent codec tc rawDelta).2 = none ∧ tc.target.kind ≠ .function ∨
        (∃ delta, (toolDeltaEvent codec tc rawDelta).2 =
          some (.customToolCallInputDelta tc.itemId tc.outputIndex delta)) ∧ tc.target.kind = .custom ∨
        (toolDeltaEvent codec tc rawDelta).2 =
          some (.functionCallArgumentsDelta tc.itemId tc.outputIndex rawDelta) ∧ tc.target.kind = .function) := by
  cases hkind : tc.target.kind with
  | function | toolSearch => exact ⟨tc.customEmittedInput, by simp [toolDeltaEvent, hkind]⟩
  | custom =>
    simp only [toolDeltaEvent, hkind]
    split
    next => exact ⟨tc.customEmittedInput, rfl, .inl ⟨rfl, by decide⟩⟩
    next input _ =>
      generalize (if tc.customEmittedInput.toList <+: input.toList then _ else input) = delta
      by_cases hdelta : delta = ""
      · rw [if_pos hdelta]
        exact ⟨tc.customEmittedInput, rfl, .inl ⟨rfl, by decide⟩⟩
      · rw [if_neg hdelta]
        exact ⟨input, rfl, .inr (.inl ⟨⟨delta, rfl⟩, trivial⟩)⟩

namespace ResponsesStreamState

structure ActiveItem where
  index : Nat
  id : String
  text : String

def activeItem (s : ResponsesStreamState) : Option ActiveItem :=
  if s.messageItemStarted then some ⟨s.messageOutputIndex, s.messageItemId, s.accumulatedText⟩
  else if s.reasoningItemStarted then some ⟨s.reasoningOutputIndex, s.reasoningItemId, s.accumulatedReasoning⟩
  else none

/-- The events are numbered, and their items make up a ledger. -/
structure Logged (s : ResponsesStreamState) (l : ItemLedger.State (Option String)) : Prop where
  numbered : s.emitted.map StreamEvent.sequenceNumber = List.range s.sequenceNumber
  read : itemsAfter s.emitted = some l

structure Coherent (s : ResponsesStreamState) : Prop where
  apart : s.messageItemStarted = true → s.reasoningItemStarted = false
  freshText : s.messageItemStarted = false → s.accumulatedText = "" ∧ s.contentPartStarted = false
  freshReasoning : s.reasoningItemStarted = false → s.accumulatedReasoning = "" ∧ s.reasoningSummaryPart = false

/-- The open items of the ledger are those that the state remembers. -/
structure Tracked (s : ResponsesStreamState) (l : ItemLedger.State (Option String)) : Prop
    extends Logged s l, Coherent s where
  next : l.nextIndex = s.outputIndex
  active : ∀ a, s.activeItem = some a → l.opened.lookup a.index = some ⟨some a.id, true, a.text⟩
  calls : ∀ index tc, s.toolCalls.lookup index = some tc → ∃ text,
    l.opened.lookup tc.outputIndex = some ⟨some tc.itemId, false, text⟩ ∧
      (tc.target.kind = .function → text = tc.arguments)
  only : ∀ i item, l.opened.lookup i = some item →
    (∃ a, s.activeItem = some a ∧ a.index = i) ∨
      ∃ index tc, s.toolCalls.lookup index = some tc ∧ tc.outputIndex = i
  separate : ∀ i j a b, s.toolCalls.lookup i = some a → s.toolCalls.lookup j = some b →
    a.outputIndex = b.outputIndex → i = j

variable {s s' : ResponsesStreamState} {l m : ItemLedger.State (Option String)}

theorem Logged.emit (h : Logged s l) (event : ResponseEvent) (hstep : step l event.itemAct = some m) :
    Logged (s.emit event) m := by
  constructor
  · have hnumbered := h.numbered
    simp only [ResponsesStreamState.emit, List.map_append, hnumbered, List.range_succ]
    rfl
  · exact itemsAfter_concat h.read hstep

theorem Tracked.lt (ht : Tracked s l) {i : Nat} {item : OpenItem (Option String)}
    (h : l.opened.lookup i = some item) : i < s.outputIndex := by
  have haccounted := accounted_of_run ht.read
  exact ht.next ▸ haccounted.lt h

theorem Tracked.no_exclusive (ht : Tracked s l) (h : s.activeItem = none) :
    ∀ i item, l.opened.lookup i = some item → item.exclusive = false := by
  intro i item hitem
  rcases ht.only i item hitem with ⟨a, ha, _⟩ | ⟨index, tc, htc, rfl⟩
  · rw [h] at ha
    cases ha
  · obtain ⟨text, hlookup, _⟩ := ht.calls index tc htc
    rw [hlookup] at hitem
    cases Option.some.inj hitem
    rfl

variable {a : ActiveItem} {index : Nat}

section

variable (ht : Tracked s l)
include ht

theorem Tracked.active_ne_call {tc : ToolCallState} (ha : s.activeItem = some a)
    (htc : s.toolCalls.lookup index = some tc) : tc.outputIndex ≠ a.index := by
  intro heq
  obtain ⟨text, hlookup, _⟩ := ht.calls index tc htc
  rw [heq, ht.active a ha] at hlookup
  have hexclusive := congrArg OpenItem.exclusive (Option.some.inj hlookup)
  exact Bool.noConfusion hexclusive

theorem Tracked.closeActive (ha : s.activeItem = some a)
    (hlogged : Logged s' ⟨l.nextIndex, l.opened.erase a.index⟩) (hcoherent : Coherent s')
    (hnext : s'.outputIndex = s.outputIndex) (hcalls : s'.toolCalls = s.toolCalls) (hactive : s'.activeItem = none) :
    Tracked s' ⟨l.nextIndex, l.opened.erase a.index⟩ := by
  refine ⟨hlogged, hcoherent, ?_, ?_, ?_, ?_, ?_⟩
  · exact ht.next.trans hnext.symm
  · intro b hb
    rw [hactive] at hb
    cases hb
  · intro index tc htc
    rw [hcalls] at htc
    obtain ⟨text, hlookup, htext⟩ := ht.calls index tc htc
    exact ⟨text, by rw [AList.lookup_erase_ne (ht.active_ne_call ha htc)]; exact hlookup, htext⟩
  · intro i item hitem
    obtain ⟨hne, hitem⟩ := of_lookup_erase hitem
    rw [hactive, hcalls]
    rcases ht.only i item hitem with ⟨b, hb, hi⟩ | hcall
    · rw [ha] at hb
      cases Option.some.inj hb
      exact absurd hi.symm hne
    · exact .inr hcall
  · intro i j b c hi hj
    rw [hcalls] at hi hj
    exact ht.separate i j b c hi hj

theorem Tracked.openActive {id : String} (hnone : s.activeItem = none)
    (hlogged : Logged s' ⟨l.nextIndex + 1, l.opened.insert l.nextIndex ⟨some id, true, ""⟩⟩)
    (hcoherent : Coherent s') (hnext : s'.outputIndex = s.outputIndex + 1) (hcalls : s'.toolCalls = s.toolCalls)
    (hactive : s'.activeItem = some ⟨s.outputIndex, id, ""⟩) :
    Tracked s' ⟨l.nextIndex + 1, l.opened.insert l.nextIndex ⟨some id, true, ""⟩⟩ := by
  have hfresh : ∀ i item, l.opened.lookup i = some item → i ≠ l.nextIndex := by
    intro i item hitem
    have hlt := ht.lt hitem
    have hl := ht.next
    omega
  refine ⟨hlogged, hcoherent, ?_, ?_, ?_, ?_, ?_⟩
  · rw [hnext, ← ht.next]
  · intro a ha
    rw [hactive] at ha
    cases Option.some.inj ha
    rw [← ht.next, AList.lookup_insert]
  · intro index tc htc
    rw [hcalls] at htc
    obtain ⟨text, hlookup, htext⟩ := ht.calls index tc htc
    exact ⟨text, by rw [AList.lookup_insert_ne (hfresh _ _ hlookup)]; exact hlookup, htext⟩
  · intro i item hitem
    rw [hactive, hcalls]
    rcases of_lookup_insert hitem with ⟨rfl, _⟩ | ⟨_, hitem⟩
    · exact .inl ⟨_, rfl, ht.next.symm⟩
    · rcases ht.only i item hitem with ⟨b, hb, _⟩ | hcall
      · rw [hnone] at hb
        cases hb
      · exact .inr hcall
  · intro i j b c hi hj
    rw [hcalls] at hi hj
    exact ht.separate i j b c hi hj

theorem Tracked.growActive {piece : String} (ha : s.activeItem = some a)
    (hlogged : Logged s' ⟨l.nextIndex, l.opened.insert a.index ⟨some a.id, true, a.text ++ piece⟩⟩)
    (hcoherent : Coherent s') (hnext : s'.outputIndex = s.outputIndex) (hcalls : s'.toolCalls = s.toolCalls)
    (hactive : s'.activeItem = some ⟨a.index, a.id, a.text ++ piece⟩) :
    Tracked s' ⟨l.nextIndex, l.opened.insert a.index ⟨some a.id, true, a.text ++ piece⟩⟩ := by
  refine ⟨hlogged, hcoherent, ?_, ?_, ?_, ?_, ?_⟩
  · exact ht.next.trans hnext.symm
  · intro b hb
    rw [hactive] at hb
    cases Option.some.inj hb
    exact AList.lookup_insert ..
  · intro index tc htc
    rw [hcalls] at htc
    obtain ⟨text, hlookup, htext⟩ := ht.calls index tc htc
    exact ⟨text, by rw [AList.lookup_insert_ne (ht.active_ne_call ha htc)]; exact hlookup, htext⟩
  · intro i item hitem
    rw [hactive, hcalls]
    rcases of_lookup_insert hitem with ⟨rfl, _⟩ | ⟨_, hitem⟩
    · exact .inl ⟨_, rfl, rfl⟩
    · rcases ht.only i item hitem with ⟨b, hb, hi⟩ | hcall
      · rw [ha] at hb
        cases Option.some.inj hb
        exact .inl ⟨_, rfl, hi⟩
      · exact .inr hcall
  · intro i j b c hi hj
    rw [hcalls] at hi hj
    exact ht.separate i j b c hi hj

theorem Tracked.keep (hlogged : Logged s' l) (hcoherent : Coherent s')
    (hnext : s'.outputIndex = s.outputIndex) (hcalls : s'.toolCalls = s.toolCalls)
    (hactive : s'.activeItem = s.activeItem) : Tracked s' l := by
  refine ⟨hlogged, hcoherent, ht.next.trans hnext.symm, ?_, ?_, ?_, ?_⟩
  · rw [hactive]; exact ht.active
  · rw [hcalls]; exact ht.calls
  · rw [hactive, hcalls]; exact ht.only
  · rw [hcalls]; exact ht.separate

end

theorem Coherent.not_message (hc : Coherent s) (h : s.reasoningItemStarted = true) : s.messageItemStarted = false := by
  cases hm : s.messageItemStarted with
  | false => rfl
  | true =>
    rw [hc.apart hm] at h
    cases h

theorem activeItem_of_message (h : s.messageItemStarted = true) :
    s.activeItem = some ⟨s.messageOutputIndex, s.messageItemId, s.accumulatedText⟩ := by
  simp [activeItem, h]

theorem activeItem_of_reasoning (hc : Coherent s) (h : s.reasoningItemStarted = true) :
    s.activeItem = some ⟨s.reasoningOutputIndex, s.reasoningItemId, s.accumulatedReasoning⟩ := by
  simp [activeItem, hc.not_message h, h]

theorem activeItem_of_none (hm : s.messageItemStarted = false) (hr : s.reasoningItemStarted = false) :
    s.activeItem = none := by
  simp [activeItem, hm, hr]

section

variable (ht : Tracked s l)
include ht

theorem Tracked.step_mention (ha : s.activeItem = some a) (whole : Option String)
    (hwhole : ∀ text, whole = some text → text = a.text) :
    ItemLedger.step l (.mention a.index (some a.id) whole) = some l := by
  refine ItemLedger.step_mention (ht.active a ha) ?_
  cases whole with
  | none => rfl
  | some text => exact decide_eq_true (hwhole text rfl)

theorem Tracked.step_done (ha : s.activeItem = some a) :
    ItemLedger.step l (.done a.index (some a.id) (some a.text)) = some ⟨l.nextIndex, l.opened.erase a.index⟩ :=
  ItemLedger.step_done (ht.active a ha) (decide_eq_true rfl)

theorem Tracked.closeReasoningItem :
    ∃ m, Tracked s.closeReasoningItem m ∧ s.closeReasoningItem.reasoningItemStarted = false := by
  by_cases hstarted : s.reasoningItemStarted = true
  · have hmessage := ht.not_message hstarted
    have ha := activeItem_of_reasoning ht.toCoherent hstarted
    have hmention := ht.step_mention ha (some s.accumulatedReasoning) fun _ h => (Option.some.inj h).symm
    have htextDone := ht.toLogged.emit (.reasoningSummaryTextDone _ _ _) hmention
    have hpartDone := htextDone.emit (.reasoningSummaryPartDone _ _ _) hmention
    have hitemDone := hpartDone.emit (.outputItemDone s.reasoningOutputIndex
      { itemType := .reasoning, id := some s.reasoningItemId, status := some "completed",
        summary := some [⟨"summary_text", s.accumulatedReasoning⟩] }) (ht.step_done ha)
    simp only [ResponsesStreamState.closeReasoningItem, hstarted]
    refine ⟨_, ht.closeActive ha ⟨hitemDone.numbered, hitemDone.read⟩ ⟨?_, ?_, ?_⟩ rfl rfl ?_, rfl⟩
    · exact fun _ => rfl
    · exact ht.freshText
    · exact fun _ => ⟨rfl, rfl⟩
    · exact activeItem_of_none hmessage rfl
  · have hidle : s.reasoningItemStarted = false := Bool.eq_false_iff.mpr hstarted
    simp only [ResponsesStreamState.closeReasoningItem, hidle]
    exact ⟨l, ht, hidle⟩

theorem Tracked.closeContentPart (hstarted : s.messageItemStarted = true) : Tracked s.closeContentPart l := by
  have ha := activeItem_of_message hstarted
  have hmention := ht.step_mention ha (some s.accumulatedText) fun _ h => (Option.some.inj h).symm
  by_cases hpart : s.contentPartStarted = true
  · have htextDone := ht.toLogged.emit (.outputTextDone _ _ s.contentIndex _) hmention
    have hpartDone := htextDone.emit (.contentPartDone _ _ s.contentIndex (.outputText s.accumulatedText)) hmention
    simp only [ResponsesStreamState.closeContentPart, hpart]
    refine ht.keep ⟨hpartDone.numbered, hpartDone.read⟩ ⟨ht.apart, ?_, ht.freshReasoning⟩ rfl rfl rfl
    exact fun h => ⟨(ht.freshText h).1, rfl⟩
  · have hidle : s.contentPartStarted = false := Bool.eq_false_iff.mpr hpart
    simp only [ResponsesStreamState.closeContentPart, hidle]
    exact ht

omit ht in
theorem closeContentPart_contentPartStarted : s.closeContentPart.contentPartStarted = false := by
  by_cases hpart : s.contentPartStarted = true
  · simp [closeContentPart, hpart]
  · simp [closeContentPart, hpart]

omit ht in
theorem closeContentPart_messageItemStarted : s.closeContentPart.messageItemStarted = s.messageItemStarted := by
  unfold closeContentPart
  split
  next => rfl
  next => rfl

theorem Tracked.closeMessageItem :
    ∃ m, Tracked s.closeMessageItem m ∧ s.closeMessageItem.messageItemStarted = false := by
  by_cases hstarted : s.messageItemStarted = true
  · have hpart := ht.closeContentPart hstarted
    have hstill := closeContentPart_messageItemStarted.trans hstarted
    have ha := activeItem_of_message hstill
    have hitemDone := hpart.toLogged.emit (.outputItemDone s.closeContentPart.messageOutputIndex
      { itemType := .message, id := some s.closeContentPart.messageItemId, role := some "assistant",
        status := some "completed", content := some (.parts [.outputText s.closeContentPart.accumulatedText]) })
      (hpart.step_done ha)
    simp only [ResponsesStreamState.closeMessageItem, hstarted]
    refine ⟨_, hpart.closeActive ha ⟨hitemDone.numbered, hitemDone.read⟩ ⟨?_, ?_, ?_⟩ rfl rfl ?_, rfl⟩
    · exact fun h => nomatch h
    · exact fun _ => ⟨rfl, closeContentPart_contentPartStarted⟩
    · exact hpart.freshReasoning
    · exact activeItem_of_none rfl (hpart.apart hstill)
  · have hidle : s.messageItemStarted = false := Bool.eq_false_iff.mpr hstarted
    simp only [ResponsesStreamState.closeMessageItem, hidle]
    exact ⟨l, ht, hidle⟩

theorem Tracked.step_added (id : String) (hnone : s.activeItem = none) :
    ItemLedger.step l (.added s.outputIndex (some id) true) =
      some ⟨l.nextIndex + 1, l.opened.insert l.nextIndex ⟨some id, true, ""⟩⟩ := by
  rw [← ht.next]
  exact ItemLedger.step_added (some id) fun _ => ht.no_exclusive hnone

section

variable (ext : Externals)

theorem Tracked.startReasoningItem (hidle : s.messageItemStarted = false) :
    ∃ m, Tracked (s.startReasoningItem ext) m ∧ (s.startReasoningItem ext).reasoningItemStarted = true := by
  by_cases hstarted : s.reasoningItemStarted = true
  · rw [ResponsesStreamState.startReasoningItem, if_pos hstarted]
    exact ⟨l, ht, hstarted⟩
  · have hfree : s.reasoningItemStarted = false := Bool.eq_false_iff.mpr hstarted
    have hnone := activeItem_of_none hidle hfree
    have hadded := ht.toLogged.emit (.outputItemAdded s.outputIndex
      { itemType := .reasoning, id := some (ext.itemId s.generated), status := some "in_progress",
        summary := some [] }) (ht.step_added (ext.itemId s.generated) hnone)
    rw [ResponsesStreamState.startReasoningItem, if_neg hstarted]
    refine ⟨_, ht.openActive hnone ⟨hadded.numbered, hadded.read⟩ ⟨?_, ?_, ?_⟩ rfl rfl ?_, rfl⟩
    · exact fun h => absurd (hidle.symm.trans h) (by decide)
    · exact ht.freshText
    · exact fun h => nomatch h
    · simp [activeItem, ResponsesStreamState.emit, hidle, (ht.freshReasoning hfree).1]

theorem Tracked.startSummaryPart (hstarted : s.reasoningItemStarted = true) :
    Tracked s.startSummaryPart l ∧ s.startSummaryPart.reasoningItemStarted = true := by
  by_cases hpart : s.reasoningSummaryPart = true
  · rw [ResponsesStreamState.startSummaryPart, if_pos hpart]
    exact ⟨ht, hstarted⟩
  · have ha := activeItem_of_reasoning ht.toCoherent hstarted
    have hadded := ht.toLogged.emit (.reasoningSummaryPartAdded _ _)
      (ht.step_mention ha none fun _ h => nomatch h)
    rw [ResponsesStreamState.startSummaryPart, if_neg hpart]
    refine ⟨ht.keep ⟨hadded.numbered, hadded.read⟩ ⟨ht.apart, ht.freshText, ?_⟩ rfl rfl rfl, hstarted⟩
    exact fun h => absurd (hstarted.symm.trans h) (by decide)

theorem Tracked.step_delta (ha : s.activeItem = some a) (piece : String) :
    ItemLedger.step l (.delta a.index (some a.id) piece) =
      some ⟨l.nextIndex, l.opened.insert a.index ⟨some a.id, true, a.text ++ piece⟩⟩ :=
  ItemLedger.step_delta (ht.active a ha) piece

theorem Tracked.handleReasoningDelta (text : String) : ∃ m, Tracked (s.handleReasoningDelta ext text) m := by
  obtain ⟨l₁, ht₁, hidle⟩ := ht.closeMessageItem
  obtain ⟨l₂, ht₂, hstarted⟩ := ht₁.startReasoningItem ext hidle
  obtain ⟨ht₃, hstarted⟩ := ht₂.startSummaryPart hstarted
  have ha := activeItem_of_reasoning ht₃.toCoherent hstarted
  have hdelta := ht₃.toLogged.emit (.reasoningSummaryTextDelta _ _ text) (ht₃.step_delta ha text)
  refine ⟨_, ht₃.growActive ha ⟨hdelta.numbered, hdelta.read⟩ ⟨ht₃.apart, ht₃.freshText, ?_⟩ rfl rfl ?_⟩
  · exact fun h => absurd (hstarted.symm.trans h) (by decide)
  · exact (activeItem_of_reasoning ⟨ht₃.apart, ht₃.freshText, fun h => absurd (hstarted.symm.trans h) (by decide)⟩
      hstarted)

theorem Tracked.startMessageItem (hidle : s.reasoningItemStarted = false) :
    ∃ m, Tracked (s.startMessageItem ext) m ∧ (s.startMessageItem ext).messageItemStarted = true := by
  by_cases hstarted : s.messageItemStarted = true
  · rw [ResponsesStreamState.startMessageItem, if_pos hstarted]
    exact ⟨l, ht, hstarted⟩
  · have hfree : s.messageItemStarted = false := Bool.eq_false_iff.mpr hstarted
    have hnone := activeItem_of_none hfree hidle
    have hadded := ht.toLogged.emit (.outputItemAdded s.outputIndex
      { itemType := .message, id := some (ext.itemId s.generated), role := some "assistant",
        status := some "in_progress", content := some (.parts []) }) (ht.step_added (ext.itemId s.generated) hnone)
    rw [ResponsesStreamState.startMessageItem, if_neg hstarted]
    refine ⟨_, ht.openActive hnone ⟨hadded.numbered, hadded.read⟩ ⟨?_, ?_, ?_⟩ rfl rfl ?_, rfl⟩
    · exact fun _ => hidle
    · exact fun h => nomatch h
    · exact ht.freshReasoning
    · simp [activeItem, ResponsesStreamState.emit, (ht.freshText hfree).1]

theorem Tracked.startContentPart (hstarted : s.messageItemStarted = true) :
    Tracked s.startContentPart l ∧ s.startContentPart.messageItemStarted = true := by
  by_cases hpart : s.contentPartStarted = true
  · rw [ResponsesStreamState.startContentPart, if_pos hpart]
    exact ⟨ht, hstarted⟩
  · have ha := activeItem_of_message hstarted
    have hadded := ht.toLogged.emit (.contentPartAdded _ _ s.contentIndex)
      (ht.step_mention ha none fun _ h => nomatch h)
    rw [ResponsesStreamState.startContentPart, if_neg hpart]
    refine ⟨ht.keep ⟨hadded.numbered, hadded.read⟩ ⟨ht.apart, ?_, ht.freshReasoning⟩ rfl rfl rfl, hstarted⟩
    exact fun h => absurd (hstarted.symm.trans h) (by decide)

theorem Tracked.handleContentDelta (text : String) : ∃ m, Tracked (s.handleContentDelta ext text) m := by
  obtain ⟨l₁, ht₁, hidle⟩ := ht.closeReasoningItem
  obtain ⟨l₂, ht₂, hstarted⟩ := ht₁.startMessageItem ext hidle
  obtain ⟨ht₃, hstarted⟩ := ht₂.startContentPart hstarted
  have ha := activeItem_of_message hstarted
  have hdelta := ht₃.toLogged.emit (.outputTextDelta _ _
    ((s.closeReasoningItem.startMessageItem ext).startContentPart).contentIndex text) (ht₃.step_delta ha text)
  refine ⟨_, ht₃.growActive ha ⟨hdelta.numbered, hdelta.read⟩ ⟨ht₃.apart, ?_, ht₃.freshReasoning⟩ rfl rfl ?_⟩
  · exact fun h => absurd (hstarted.symm.trans h) (by decide)
  · exact activeItem_of_message hstarted

end

theorem Tracked.openCall (call : ToolCallState) (hindex : s.toolCalls.lookup index = none)
    (houtput : call.outputIndex = s.outputIndex) (harguments : call.arguments = "")
    (hlogged : Logged s' ⟨l.nextIndex + 1, l.opened.insert l.nextIndex ⟨some call.itemId, false, ""⟩⟩)
    (hcoherent : Coherent s') (hnext : s'.outputIndex = s.outputIndex + 1)
    (hcalls : s'.toolCalls = s.toolCalls.insert index call) (hactive : s'.activeItem = s.activeItem) :
    Tracked s' ⟨l.nextIndex + 1, l.opened.insert l.nextIndex ⟨some call.itemId, false, ""⟩⟩ := by
  have hnew : call.outputIndex = l.nextIndex := houtput.trans ht.next.symm
  have hfresh : ∀ i item, l.opened.lookup i = some item → i ≠ l.nextIndex := by
    intro i item hitem
    have hlt := ht.lt hitem
    omega
  have hother : ∀ i a, s.toolCalls.lookup i = some a → a.outputIndex ≠ l.nextIndex := by
    intro i a hi
    obtain ⟨text, hlookup, _⟩ := ht.calls i a hi
    exact hfresh _ _ hlookup
  refine ⟨hlogged, hcoherent, ?_, ?_, ?_, ?_, ?_⟩
  · rw [hnext, ← ht.next]
  · intro a ha
    rw [hactive] at ha
    have hlookup := ht.active a ha
    rw [AList.lookup_insert_ne (hfresh _ _ hlookup)]
    exact hlookup
  · intro i a hi
    rw [hcalls] at hi
    rcases of_lookup_insert hi with ⟨rfl, rfl⟩ | ⟨_, hi⟩
    · exact ⟨"", by rw [hnew, AList.lookup_insert], fun _ => harguments.symm⟩
    · obtain ⟨text, hlookup, htext⟩ := ht.calls i a hi
      exact ⟨text, by rw [AList.lookup_insert_ne (hother i a hi)]; exact hlookup, htext⟩
  · intro i item hitem
    rw [hactive, hcalls]
    rcases of_lookup_insert hitem with ⟨rfl, _⟩ | ⟨_, hitem⟩
    · exact .inr ⟨index, call, AList.lookup_insert .., hnew⟩
    · rcases ht.only i item hitem with hactive | ⟨j, b, hj, hb⟩
      · exact .inl hactive
      · have hne : j ≠ index := by
          intro he
          rw [he, hindex] at hj
          cases hj
        exact .inr ⟨j, b, by rw [AList.lookup_insert_ne hne]; exact hj, hb⟩
  · intro i j a b hi hj hab
    rw [hcalls] at hi hj
    rcases of_lookup_insert hi with ⟨hik, hak⟩ | ⟨_, hi'⟩
    · rcases of_lookup_insert hj with ⟨hjk, _⟩ | ⟨_, hj'⟩
      · exact hik.trans hjk.symm
      · rw [hak] at hab
        exact absurd (hab.symm.trans hnew) (hother j b hj')
    · rcases of_lookup_insert hj with ⟨_, hbk⟩ | ⟨_, hj'⟩
      · rw [hbk] at hab
        exact absurd (hab.trans hnew) (hother i a hi')
      · exact ht.separate i j a b hi' hj' hab

theorem Tracked.setCall {call : ToolCallState} (next : ToolCallState) (text : String)
    (hcall : s.toolCalls.lookup index = some call) (houtput : next.outputIndex = call.outputIndex)
    (hid : next.itemId = call.itemId) (htext : next.target.kind = .function → text = next.arguments)
    (hlogged : Logged s' m) (hcoherent : Coherent s') (hindex : m.nextIndex = l.nextIndex)
    (hopened : ∀ i, m.opened.lookup i =
      if i = call.outputIndex then some ⟨some call.itemId, false, text⟩ else l.opened.lookup i)
    (hnext : s'.outputIndex = s.outputIndex) (hcalls : s'.toolCalls = s.toolCalls.insert index next)
    (hactive : s'.activeItem = s.activeItem) : Tracked s' m := by
  refine ⟨hlogged, hcoherent, ?_, ?_, ?_, ?_, ?_⟩
  · rw [hindex, hnext, ht.next]
  · intro a ha
    rw [hactive] at ha
    rw [hopened, if_neg (ht.active_ne_call ha hcall).symm]
    exact ht.active a ha
  · intro i a hi
    rw [hcalls] at hi
    rcases of_lookup_insert hi with ⟨_, rfl⟩ | ⟨hne, hi⟩
    · exact ⟨text, by rw [hopened, if_pos houtput, hid], htext⟩
    · obtain ⟨old, hlookup, hold⟩ := ht.calls i a hi
      have hother : a.outputIndex ≠ call.outputIndex := fun he => hne (ht.separate i index a call hi hcall he)
      exact ⟨old, by rw [hopened, if_neg hother]; exact hlookup, hold⟩
  · intro i item hitem
    rw [hactive, hcalls]
    by_cases hi : i = call.outputIndex
    · exact .inr ⟨index, next, AList.lookup_insert .., houtput.trans hi.symm⟩
    · rw [hopened, if_neg hi] at hitem
      rcases ht.only i item hitem with hactive | ⟨j, b, hj, hb⟩
      · exact .inl hactive
      · have hne : j ≠ index := by
          intro he
          rw [he, hcall] at hj
          cases Option.some.inj hj
          exact hi hb.symm
        exact .inr ⟨j, b, by rw [AList.lookup_insert_ne hne]; exact hj, hb⟩
  · intro i j a b hi hj hab
    rw [hcalls] at hi hj
    have hold : ∀ k c, (s.toolCalls.insert index next).lookup k = some c →
        ∃ d, s.toolCalls.lookup k = some d ∧ d.outputIndex = c.outputIndex := by
      intro k c hk
      rcases of_lookup_insert hk with ⟨rfl, rfl⟩ | ⟨_, hk⟩
      · exact ⟨call, hcall, houtput.symm⟩
      · exact ⟨c, hk, rfl⟩
    obtain ⟨a', hi', ha'⟩ := hold i a hi
    obtain ⟨b', hj', hb'⟩ := hold j b hj
    exact ht.separate i j a' b' hi' hj' (by rw [ha', hb', hab])

theorem Tracked.closeCall {call : ToolCallState} (hcall : s.toolCalls.lookup index = some call)
    (hlogged : Logged s' ⟨l.nextIndex, l.opened.erase call.outputIndex⟩) (hcoherent : Coherent s')
    (hnext : s'.outputIndex = s.outputIndex) (hcalls : s'.toolCalls = s.toolCalls.erase index)
    (hactive : s'.activeItem = s.activeItem) : Tracked s' ⟨l.nextIndex, l.opened.erase call.outputIndex⟩ := by
  refine ⟨hlogged, hcoherent, ?_, ?_, ?_, ?_, ?_⟩
  · exact ht.next.trans hnext.symm
  · intro a ha
    rw [hactive] at ha
    rw [AList.lookup_erase_ne (ht.active_ne_call ha hcall).symm]
    exact ht.active a ha
  · intro i a hi
    rw [hcalls] at hi
    obtain ⟨hne, hi⟩ := of_lookup_erase hi
    obtain ⟨text, hlookup, htext⟩ := ht.calls i a hi
    have hother : a.outputIndex ≠ call.outputIndex := fun he => hne (ht.separate i index a call hi hcall he)
    exact ⟨text, by rw [AList.lookup_erase_ne hother]; exact hlookup, htext⟩
  · intro i item hitem
    rw [hactive, hcalls]
    obtain ⟨hi, hitem⟩ := of_lookup_erase hitem
    rcases ht.only i item hitem with hactive | ⟨j, b, hj, hb⟩
    · exact .inl hactive
    · have hne : j ≠ index := by
        intro he
        rw [he, hcall] at hj
        cases Option.some.inj hj
        exact hi hb.symm
      exact .inr ⟨j, b, by rw [AList.lookup_erase_ne hne]; exact hj, hb⟩
  · intro i j a b hi hj
    rw [hcalls] at hi hj
    exact ht.separate i j a b (of_lookup_erase hi).2 (of_lookup_erase hj).2

end

section

variable (s)

theorem closeReasoningItem_toolCalls : s.closeReasoningItem.toolCalls = s.toolCalls := by
  unfold closeReasoningItem
  split
  next => rfl
  next => rfl

theorem closeReasoningItem_messageItemStarted : s.closeReasoningItem.messageItemStarted = s.messageItemStarted := by
  unfold closeReasoningItem
  split
  next => rfl
  next => rfl

theorem closeContentPart_toolCalls : s.closeContentPart.toolCalls = s.toolCalls := by
  unfold closeContentPart
  split
  next => rfl
  next => rfl

theorem closeContentPart_reasoningItemStarted : s.closeContentPart.reasoningItemStarted = s.reasoningItemStarted := by
  unfold closeContentPart
  split
  next => rfl
  next => rfl

theorem closeMessageItem_toolCalls : s.closeMessageItem.toolCalls = s.toolCalls := by
  unfold closeMessageItem
  split
  next => rfl
  next => exact closeContentPart_toolCalls s

theorem closeMessageItem_reasoningItemStarted : s.closeMessageItem.reasoningItemStarted = s.reasoningItemStarted := by
  unfold closeMessageItem
  split
  next => rfl
  next => exact closeContentPart_reasoningItemStarted s

end

theorem inProgressToolItem_id (itemId callId : String) (target : ToolCallTarget) :
    (inProgressToolItem itemId callId target).id = some itemId ∧
      (inProgressToolItem itemId callId target).isActive = false := by
  unfold inProgressToolItem
  cases target.kind with
  | function | toolSearch | custom => exact ⟨rfl, rfl⟩

theorem Tracked.startToolCall (ht : Tracked s l) (ext : Externals) (tc : JsonValue) :
    ∃ m, Tracked (s.startToolCall ext tc) m := by
  by_cases hopen : (s.toolCalls.lookup (toolCallIndex tc)).isSome = true
  · rw [ResponsesStreamState.startToolCall, if_pos hopen]
    exact ⟨l, ht⟩
  · obtain ⟨l₁, ht₁, _⟩ := ht.closeMessageItem
    obtain ⟨l₂, ht₂, _⟩ := ht₁.closeReasoningItem
    have hcalls := (closeReasoningItem_toolCalls s.closeMessageItem).trans (closeMessageItem_toolCalls s)
    have hindex : s.closeMessageItem.closeReasoningItem.toolCalls.lookup (toolCallIndex tc) = none := by
      rw [hcalls]
      exact Option.not_isSome_iff_eq_none.mp hopen
    obtain ⟨t, htdef⟩ : ∃ t, t = s.closeMessageItem.closeReasoningItem := ⟨_, rfl⟩
    rw [ResponsesStreamState.startToolCall, if_neg hopen]
    rw [← htdef] at ht₂ hindex ⊢
    have hitem := inProgressToolItem_id (ext.itemId t.generated) (toolCallId tc)
      (t.toolNameMap.decode (toolCallName tc))
    have hstep : ItemLedger.step l₂ (ResponseEvent.outputItemAdded t.outputIndex
        (inProgressToolItem (ext.itemId t.generated) (toolCallId tc)
          (t.toolNameMap.decode (toolCallName tc)))).itemAct =
        some ⟨l₂.nextIndex + 1, l₂.opened.insert l₂.nextIndex ⟨some (ext.itemId t.generated), false, ""⟩⟩ := by
      rw [ResponseEvent.itemAct, hitem.1, hitem.2, ← ht₂.next]
      exact ItemLedger.step_added _ fun h => nomatch h
    have hadded := ht₂.toLogged.emit _ hstep
    let call : ToolCallState :=
      { id := toolCallId tc, target := t.toolNameMap.decode (toolCallName tc), arguments := "",
        customEmittedInput := "", itemId := ext.itemId t.generated, outputIndex := t.outputIndex }
    exact ⟨_, ht₂.openCall call hindex rfl rfl ⟨hadded.numbered, hadded.read⟩
      ⟨ht₂.apart, ht₂.freshText, ht₂.freshReasoning⟩ rfl rfl rfl⟩

theorem Tracked.extendToolCall (ht : Tracked s l) (codec : JsonCodec) (index : Nat) (arguments : String) :
    ∃ m, Tracked (s.extendToolCall codec index arguments) m := by
  cases hcall : s.toolCalls.lookup index with
  | none =>
    rw [ResponsesStreamState.extendToolCall, hcall]
    exact ⟨l, ht⟩
  | some call =>
    obtain ⟨text, hlookup, htext⟩ := ht.calls index call hcall
    obtain ⟨emittedInput, hnext, hevent⟩ :=
      toolDeltaEvent_cases codec { call with arguments := call.arguments ++ arguments } arguments
    let next : ToolCallState :=
      { call with arguments := call.arguments ++ arguments, customEmittedInput := emittedInput }
    have hcoherent : Coherent s := ht.toCoherent
    rw [ResponsesStreamState.extendToolCall, hcall]
    dsimp only
    rw [hnext]
    rcases hevent with ⟨hnone, hkind⟩ | ⟨⟨delta, hdelta⟩, hkind⟩ | ⟨hdelta, hkind⟩
    · rw [hnone]
      have hopened : ∀ i, l.opened.lookup i =
          if i = call.outputIndex then some ⟨some call.itemId, false, text⟩ else l.opened.lookup i := by
        intro i
        split
        next hi => rw [hi, hlookup]
        next => rfl
      exact ⟨l, ht.setCall next text hcall rfl rfl (fun hf => absurd hf hkind) ⟨ht.numbered, ht.read⟩
        ⟨hcoherent.apart, hcoherent.freshText, hcoherent.freshReasoning⟩ rfl hopened rfl rfl rfl⟩
    · rw [hdelta]
      have hlogged := ht.toLogged.emit (.customToolCallInputDelta call.itemId call.outputIndex delta)
        (ItemLedger.step_delta hlookup delta)
      have hother : call.target.kind ≠ .function := fun hf => absurd (hkind.symm.trans hf) (by decide)
      exact ⟨_, ht.setCall next (text ++ delta) hcall rfl rfl (fun hf => absurd hf hother)
        ⟨hlogged.numbered, hlogged.read⟩ ⟨hcoherent.apart, hcoherent.freshText, hcoherent.freshReasoning⟩ rfl
        (lookup_insert_eq _ _ · _) rfl rfl rfl⟩
    · rw [hdelta]
      have hlogged := ht.toLogged.emit (.functionCallArgumentsDelta call.itemId call.outputIndex arguments)
        (ItemLedger.step_delta hlookup arguments)
      exact ⟨_, ht.setCall next (text ++ arguments) hcall rfl rfl
        (fun hf => congrArg (· ++ arguments) (htext hf)) ⟨hlogged.numbered, hlogged.read⟩
        ⟨hcoherent.apart, hcoherent.freshText, hcoherent.freshReasoning⟩ rfl
        (lookup_insert_eq _ _ · _) rfl rfl rfl⟩

theorem Tracked.handleToolCallDelta (ht : Tracked s l) (ext : Externals) (tc : JsonValue) :
    ∃ m, Tracked (s.handleToolCallDelta ext tc) m := by
  obtain ⟨l₁, ht₁⟩ := ht.startToolCall ext tc
  unfold ResponsesStreamState.handleToolCallDelta
  cases toolCallArguments tc with
  | none => exact ⟨l₁, ht₁⟩
  | some arguments => exact ht₁.extendToolCall ext.codec (toolCallIndex tc) arguments

section

variable (codec : JsonCodec)
include codec

theorem completedToolItem_id (itemId callId : String) (target : ToolCallTarget)
    (arguments : String) : (completedToolItem codec itemId callId target arguments).id = some itemId := by
  unfold completedToolItem
  cases target.kind with
  | function | toolSearch | custom => rfl

theorem completedToolItem_wholeText (itemId callId : String) (target : ToolCallTarget)
    (arguments : String) : (completedToolItem codec itemId callId target arguments).wholeText =
      if target.kind = .function then some arguments else none := by
  unfold completedToolItem
  cases target.kind with
  | function | toolSearch | custom => rfl

section

variable (s)

theorem closeToolCall_lookup (index a : Nat) :
    (s.closeToolCall codec index).toolCalls.lookup a = if a = index then none else s.toolCalls.lookup a := by
  cases hcall : s.toolCalls.lookup index with
  | none =>
    rw [closeToolCall, hcall]
    by_cases ha : a = index
    · rw [if_pos ha, ha, hcall]
    · rw [if_neg ha]
  | some call =>
    rw [closeToolCall, hcall, ← lookup_erase_eq]
    dsimp only
    cases call.target.kind with
    | function | toolSearch | custom => rfl

theorem closeToolCall_activeItem (index : Nat) : (s.closeToolCall codec index).activeItem = s.activeItem := by
  cases hcall : s.toolCalls.lookup index with
  | none => rw [closeToolCall, hcall]
  | some call =>
    rw [closeToolCall, hcall]
    dsimp only
    cases call.target.kind with
    | function | toolSearch | custom => rfl

end

omit codec in
theorem Tracked.closeToolCall (ht : Tracked s l) (codec : JsonCodec) (index : Nat) :
    ∃ m, Tracked (s.closeToolCall codec index) m := by
  cases hcall : s.toolCalls.lookup index with
  | none =>
    rw [ResponsesStreamState.closeToolCall, hcall]
    exact ⟨l, ht⟩
  | some call =>
    obtain ⟨text, hlookup, htext⟩ := ht.calls index call hcall
    have hcoherent : Coherent s := ht.toCoherent
    have hagrees : OpenItem.agrees ⟨some call.itemId, false, text⟩
        (completedToolItem codec call.itemId call.id call.target call.arguments).wholeText = true := by
      rw [completedToolItem_wholeText]
      split
      next hkind => exact decide_eq_true (htext hkind).symm
      next => rfl
    have hdone : ItemLedger.step l (ResponseEvent.outputItemDone call.outputIndex
        (completedToolItem codec call.itemId call.id call.target call.arguments)).itemAct =
        some ⟨l.nextIndex, l.opened.erase call.outputIndex⟩ := by
      rw [ResponseEvent.itemAct, completedToolItem_id]
      exact ItemLedger.step_done hlookup hagrees
    rw [ResponsesStreamState.closeToolCall, hcall]
    dsimp only
    cases hkind : call.target.kind with
    | function =>
      have hargs := ht.toLogged.emit (.functionCallArgumentsDone call.itemId call.outputIndex call.target.name
        call.arguments) (ItemLedger.step_mention hlookup (decide_eq_true (htext hkind).symm))
      have hlogged := hargs.emit _ hdone
      exact ⟨_, ht.closeCall hcall ⟨hlogged.numbered, hlogged.read⟩
        ⟨hcoherent.apart, hcoherent.freshText, hcoherent.freshReasoning⟩ rfl rfl rfl⟩
    | toolSearch =>
      have hlogged := ht.toLogged.emit _ hdone
      exact ⟨_, ht.closeCall hcall ⟨hlogged.numbered, hlogged.read⟩
        ⟨hcoherent.apart, hcoherent.freshText, hcoherent.freshReasoning⟩ rfl rfl rfl⟩
    | custom =>
      have hinput := ht.toLogged.emit (.customToolCallInputDone call.itemId call.outputIndex
        ((completedToolItem codec call.itemId call.id call.target call.arguments).input.getD ""))
        (ItemLedger.step_mention hlookup rfl)
      have hlogged := hinput.emit _ hdone
      exact ⟨_, ht.closeCall hcall ⟨hlogged.numbered, hlogged.read⟩
        ⟨hcoherent.apart, hcoherent.freshText, hcoherent.freshReasoning⟩ rfl rfl rfl⟩

omit codec in
theorem Tracked.foldl {α : Type*} {f : ResponsesStreamState → α → ResponsesStreamState}
    (hf : ∀ s l a, Tracked s l → ∃ m, Tracked (f s a) m) (ht : Tracked s l) (as : List α) :
    ∃ m, Tracked (as.foldl f s) m := by
  induction as generalizing s l with
  | nil => exact ⟨l, ht⟩
  | cons a as ih =>
    obtain ⟨m, hm⟩ := hf s l a ht
    exact ih hm

theorem closeToolCalls_fold_lookup (s : ResponsesStreamState) (indices : List Nat) (a : Nat) :
    (indices.foldl (closeToolCall codec) s).toolCalls.lookup a =
      if a ∈ indices then none else s.toolCalls.lookup a := by
  induction indices generalizing s with
  | nil => simp
  | cons index indices ih =>
    rw [List.foldl_cons, ih, closeToolCall_lookup]
    by_cases ha : a ∈ indices
    · rw [if_pos ha, if_pos (List.mem_cons_of_mem _ ha)]
    · simp [ha]

theorem closeToolCalls_toolCalls (s : ResponsesStreamState) : (s.closeToolCalls codec).toolCalls = ∅ := by
  refine eq_empty_iff.mpr ?_
  intro a
  rw [closeToolCalls, closeToolCalls_fold_lookup]
  split
  next => rfl
  next ha =>
    rw [List.mem_insertionSort] at ha
    exact AList.lookup_eq_none.mpr ha

theorem closeToolCalls_activeItem (s : ResponsesStreamState) : (s.closeToolCalls codec).activeItem = s.activeItem := by
  unfold closeToolCalls
  generalize s.toolCalls.keys.insertionSort (· ≤ ·) = indices
  induction indices generalizing s with
  | nil => rfl
  | cons index indices ih => rw [List.foldl_cons, ih, closeToolCall_activeItem]

end

def Idle (s : ResponsesStreamState) : Prop := s.activeItem = none ∧ s.toolCalls = ∅

section

variable (ht : Tracked s l)
include ht

theorem Tracked.opened_eq_empty_iff : l.opened = ∅ ↔ s.Idle := by
  constructor
  · intro hopened
    constructor
    · cases ha : s.activeItem with
      | none => rfl
      | some a =>
        have hlookup := ht.active a ha
        rw [hopened] at hlookup
        cases hlookup
    · refine eq_empty_iff.mpr ?_
      intro index
      cases hcall : s.toolCalls.lookup index with
      | none => rfl
      | some call =>
        obtain ⟨text, hlookup, _⟩ := ht.calls index call hcall
        rw [hopened] at hlookup
        cases hlookup
  · rintro ⟨hnone, hcalls⟩
    refine eq_empty_iff.mpr ?_
    intro i
    cases hitem : l.opened.lookup i with
    | none => rfl
    | some item =>
      rcases ht.only i item hitem with ⟨a, ha, _⟩ | ⟨index, call, hcall, _⟩
      · rw [hnone] at ha
        cases ha
      · rw [hcalls] at hcall
        cases hcall

theorem Tracked.finishOpenItems (codec : JsonCodec) :
    ∃ m, Tracked (s.finishOpenItems codec) m ∧ (s.finishOpenItems codec).Idle := by
  obtain ⟨l₁, ht₁, hreasoning⟩ := ht.closeReasoningItem
  obtain ⟨l₂, ht₂, hmessage⟩ := ht₁.closeMessageItem
  have hreasoning := (closeMessageItem_reasoningItemStarted s.closeReasoningItem).trans hreasoning
  obtain ⟨l₃, ht₃⟩ := ht₂.foldl (fun s l index h => h.closeToolCall codec index)
    (s.closeReasoningItem.closeMessageItem.toolCalls.keys.insertionSort (· ≤ ·))
  have hactive := closeToolCalls_activeItem codec s.closeReasoningItem.closeMessageItem
  have hcalls := closeToolCalls_toolCalls codec s.closeReasoningItem.closeMessageItem
  refine ⟨l₃, ht₃.keep ⟨ht₃.numbered, ht₃.read⟩ ⟨ht₃.apart, ht₃.freshText, ht₃.freshReasoning⟩ rfl rfl rfl, ?_, ?_⟩
  · exact hactive.trans (activeItem_of_none hmessage hreasoning)
  · exact hcalls

theorem Tracked.emitOther (event : ResponseEvent) (hother : event.itemAct = .other)
    (hlogged : s'.emitted = (s.emit event).emitted ∧ s'.sequenceNumber = (s.emit event).sequenceNumber)
    (hcoherent : Coherent s') (hnext : s'.outputIndex = s.outputIndex) (hcalls : s'.toolCalls = s.toolCalls)
    (hactive : s'.activeItem = s.activeItem) : Tracked s' l := by
  have hemit := ht.toLogged.emit event (m := l) (by rw [hother]; rfl)
  refine ht.keep ⟨?_, ?_⟩ hcoherent hnext hcalls hactive
  · rw [hlogged.1, hlogged.2]; exact hemit.numbered
  · rw [hlogged.1]; exact hemit.read

theorem Tracked.emitResponseCompleted : Tracked s.emitResponseCompleted l := by
  have hcoherent : Coherent s.emitResponseCompleted := ⟨ht.apart, ht.freshText, ht.freshReasoning⟩
  refine ht.emitOther _ ?_ ⟨rfl, rfl⟩ hcoherent rfl rfl rfl
  split
  next => rfl
  next => rfl

theorem Tracked.emitResponseFailed (message : String) : Tracked (s.emitResponseFailed message) l := by
  have hcoherent : Coherent (s.emitResponseFailed message) := ⟨ht.apart, ht.freshText, ht.freshReasoning⟩
  exact ht.emitOther _ rfl ⟨rfl, rfl⟩ hcoherent rfl rfl rfl

theorem Tracked.handleFinish (codec : JsonCodec) :
    ∃ m, Tracked (s.handleFinish codec) m ∧ (s.handleFinish codec).Idle := by
  obtain ⟨m, hm, hidle⟩ := ht.finishOpenItems codec
  unfold ResponsesStreamState.handleFinish
  dsimp only
  split
  next => exact ⟨m, hm.emitResponseCompleted, hidle⟩
  next => exact ⟨m, hm, hidle⟩

theorem Tracked.handleStart (chunk : JsonValue) : Tracked (s.handleStart chunk) l := by
  by_cases hstarted : s.hasStarted = true
  · rw [ResponsesStreamState.handleStart, if_pos hstarted]
    exact ht
  · rw [ResponsesStreamState.handleStart, if_neg hstarted]
    have hcreated : Tracked (emitResponseCreated { s with
        hasStarted := true
        responseId := ((chunk.get "id").bind JsonValue.asStr).getD s.responseId
        model := ((chunk.get "model").bind JsonValue.asStr).getD s.model
        createdAt := ((chunk.get "created").bind JsonValue.asI64).getD s.createdAt }) l :=
      ht.emitOther (.created _) rfl ⟨rfl, rfl⟩ ⟨ht.apart, ht.freshText, ht.freshReasoning⟩ rfl rfl rfl
    exact hcreated.emitOther (.inProgress _) rfl ⟨rfl, rfl⟩
      ⟨hcreated.apart, hcreated.freshText, hcreated.freshReasoning⟩ rfl rfl rfl

theorem Tracked.handleUsage (usage : Option Usage) : Tracked (s.handleUsage usage) l := by
  cases usage with
  | none => exact ht
  | some usage =>
    have hset : Tracked { s with usage := some usage } l :=
      ht.keep ⟨ht.numbered, ht.read⟩ ⟨ht.apart, ht.freshText, ht.freshReasoning⟩ rfl rfl rfl
    unfold ResponsesStreamState.handleUsage
    dsimp only
    split
    next => exact hset.emitResponseCompleted
    next => exact hset

theorem Tracked.handleDelta (ext : Externals) (delta : JsonValue) : ∃ m, Tracked (s.handleDelta ext delta) m := by
  unfold ResponsesStreamState.handleDelta
  cases deltaReasoning delta with
  | none =>
    cases deltaContent delta with
    | none => exact ht.foldl (fun s l tc h => h.handleToolCallDelta ext tc) _
    | some content =>
      obtain ⟨l₂, ht₂⟩ := ht.handleContentDelta ext content
      exact ht₂.foldl (fun s l tc h => h.handleToolCallDelta ext tc) _
  | some reasoning =>
    obtain ⟨l₁, ht₁⟩ := ht.handleReasoningDelta ext reasoning
    cases deltaContent delta with
    | none => exact ht₁.foldl (fun s l tc h => h.handleToolCallDelta ext tc) _
    | some content =>
      obtain ⟨l₂, ht₂⟩ := ht₁.handleContentDelta ext content
      exact ht₂.foldl (fun s l tc h => h.handleToolCallDelta ext tc) _

theorem Tracked.handleFinishReason (codec : JsonCodec) (reason : Option String) :
    ∃ m, Tracked (s.handleFinishReason codec reason) m := by
  cases reason with
  | none => exact ⟨l, ht⟩
  | some reason =>
    have hset : Tracked { s with finishReason := some reason } l :=
      ht.keep ⟨ht.numbered, ht.read⟩ ⟨ht.apart, ht.freshText, ht.freshReasoning⟩ rfl rfl rfl
    obtain ⟨m, hm, _⟩ := hset.handleFinish codec
    exact ⟨m, hm⟩

theorem Tracked.processChunk (ext : Externals) (chunk : JsonValue) : ∃ m, Tracked (s.processChunk ext chunk) m := by
  have ht₁ := ht.handleStart chunk
  unfold ResponsesStreamState.processChunk
  cases chunkChoice chunk with
  | none => exact ⟨l, ht₁.handleUsage _⟩
  | some choice =>
    obtain ⟨l₂, ht₂⟩ := ht₁.handleDelta ext (choiceDelta choice)
    obtain ⟨l₃, ht₃⟩ := ht₂.handleFinishReason ext.codec (choiceFinishReason choice)
    exact ⟨l₃, ht₃.handleUsage _⟩

end

theorem tracked_new (responseId model : String) (createdAt : Int) (toolNameMap : ToolNameMap) :
    Tracked (new responseId model createdAt toolNameMap) start := by
  refine ⟨⟨rfl, rfl⟩, ⟨?_, fun _ => ⟨rfl, rfl⟩, fun _ => ⟨rfl, rfl⟩⟩, rfl, ?_, ?_, ?_, ?_⟩
  · exact fun h => nomatch h
  · exact fun a h => nomatch h
  · exact fun index tc h => nomatch h
  · exact fun i item h => nomatch h
  · exact fun i j a b h => nomatch h

end ResponsesStreamState

end MochiPort

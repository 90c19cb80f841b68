import MochiPort.ChatStreamItems

namespace MochiPort

open List Option ResponseItem

/-- An item without the fields in which the two converters may differ. -/
def ResponseItem.strip (item : ResponseItem) : ResponseItem := { item with id := none, encryptedContent := none }

def reasoningItem (text : String) : ResponseItem :=
  { itemType := .reasoning, status := some "completed", summary := some [⟨"summary_text", text⟩] }

def messageItem (text : String) : ResponseItem :=
  { itemType := .message, role := some "assistant", content := some (.parts [.outputText text]),
    status := some "completed" }

def reasoningItems (text : String) : List ResponseItem := if text = "" then [] else [reasoningItem text]

def messageItems (text : String) : List ResponseItem := if text = "" then [] else [messageItem text]

namespace ResponsesStreamState

/-- An item is open as long as it has text. -/
structure Content (s : ResponsesStreamState) : Prop where
  reasoning : s.reasoningItemStarted = true ↔ s.accumulatedReasoning ≠ ""
  message : s.messageItemStarted = true ↔ s.accumulatedText ≠ ""
  apart : s.messageItemStarted = true → s.reasoningItemStarted = false

/-- The items that are done, and the text that is still open. -/
def shown (s : ResponsesStreamState) : List ResponseItem :=
  s.completedOutput.map strip ++ reasoningItems s.accumulatedReasoning ++
    messageItems s.accumulatedText

variable {s s' : ResponsesStreamState}

theorem Content.reasoning_empty (hc : Content s) (h : s.reasoningItemStarted = false) :
    s.accumulatedReasoning = "" := by
  by_contra hne
  rw [hc.reasoning.mpr hne] at h
  cases h

theorem Content.text_empty (hc : Content s) (h : s.messageItemStarted = false) : s.accumulatedText = "" := by
  by_contra hne
  rw [hc.message.mpr hne] at h
  cases h

structure Kept (s s' : ResponsesStreamState) : Prop where
  shown : s'.shown = s.shown
  content : Content s'
  toolCalls : s'.toolCalls = s.toolCalls

theorem closeReasoningItem_output (h : s.reasoningItemStarted = true) :
    s.closeReasoningItem.completedOutput.map strip =
      s.completedOutput.map strip ++ [reasoningItem s.accumulatedReasoning] := by
  simp only [closeReasoningItem, h, emit, Bool.not_true, Bool.false_eq_true, if_false, map_append]
  rfl

theorem Content.closeReasoningItem (hc : Content s) :
    Kept s s.closeReasoningItem ∧ s.closeReasoningItem.accumulatedReasoning = "" ∧
      s.closeReasoningItem.accumulatedText = s.accumulatedText ∧
      s.closeReasoningItem.completedOutput.map strip =
        s.completedOutput.map strip ++ reasoningItems s.accumulatedReasoning := by
  by_cases hstarted : s.reasoningItemStarted = true
  · have hdone : s.closeReasoningItem.completedOutput.map strip =
        s.completedOutput.map strip ++ reasoningItems s.accumulatedReasoning := by
      rw [closeReasoningItem_output hstarted, reasoningItems, if_neg (hc.reasoning.mp hstarted)]
    have hclosed : s.closeReasoningItem.accumulatedReasoning = "" ∧
        s.closeReasoningItem.accumulatedText = s.accumulatedText ∧
        s.closeReasoningItem.reasoningItemStarted = false ∧ s.closeReasoningItem.toolCalls = s.toolCalls := by
      simp only [ResponsesStreamState.closeReasoningItem, hstarted]
      exact ⟨rfl, rfl, rfl, rfl⟩
    obtain ⟨hreasoning, htext, hflag, hcalls⟩ := hclosed
    have hmessage := closeReasoningItem_messageItemStarted s
    refine ⟨⟨?_, ⟨?_, ?_, fun _ => hflag⟩, hcalls⟩, hreasoning, htext, hdone⟩
    · rw [ResponsesStreamState.shown, ResponsesStreamState.shown, hdone, hreasoning, htext]
      simp [reasoningItems]
    · simp [hflag, hreasoning]
    · rw [hmessage, htext]
      exact hc.message
  · have hidle : s.reasoningItemStarted = false := Bool.eq_false_iff.mpr hstarted
    have hempty := hc.reasoning_empty hidle
    simp only [ResponsesStreamState.closeReasoningItem, hidle]
    exact ⟨⟨rfl, hc, rfl⟩, hempty, rfl, by simp [hempty, reasoningItems]⟩

theorem closeContentPart_frame (s : ResponsesStreamState) :
    s.closeContentPart.completedOutput = s.completedOutput ∧
      s.closeContentPart.accumulatedText = s.accumulatedText ∧
      s.closeContentPart.accumulatedReasoning = s.accumulatedReasoning := by
  unfold closeContentPart
  split
  next => exact ⟨rfl, rfl, rfl⟩
  next => exact ⟨rfl, rfl, rfl⟩

theorem closeMessageItem_output (h : s.messageItemStarted = true) :
    s.closeMessageItem.completedOutput.map strip =
      s.completedOutput.map strip ++ [messageItem s.accumulatedText] := by
  obtain ⟨houtput, htext, _⟩ := closeContentPart_frame s
  simp only [closeMessageItem, h, emit, Bool.not_true, Bool.false_eq_true, if_false, map_append, houtput, htext]
  rfl

theorem Content.closeMessageItem (hc : Content s) :
    Kept s s.closeMessageItem ∧ s.closeMessageItem.accumulatedText = "" ∧
      s.closeMessageItem.accumulatedReasoning = s.accumulatedReasoning := by
  by_cases hstarted : s.messageItemStarted = true
  · have hdone := closeMessageItem_output hstarted
    have hclosed : s.closeMessageItem.accumulatedText = "" ∧ s.closeMessageItem.messageItemStarted = false ∧
        s.closeMessageItem.accumulatedReasoning = s.accumulatedReasoning := by
      obtain ⟨_, _, hframe⟩ := closeContentPart_frame s
      simp only [ResponsesStreamState.closeMessageItem, hstarted]
      exact ⟨rfl, rfl, hframe⟩
    obtain ⟨htext, hflag, hreasoning⟩ := hclosed
    have hidle := hc.apart hstarted
    have hstill := closeMessageItem_reasoningItemStarted s
    refine ⟨⟨?_, ⟨?_, ?_, ?_⟩, closeMessageItem_toolCalls s⟩, htext, hreasoning⟩
    · have hempty := hc.reasoning_empty hidle
      have hne := hc.message.mp hstarted
      rw [ResponsesStreamState.shown, ResponsesStreamState.shown, hdone, hreasoning, htext, hempty]
      simp [reasoningItems, messageItems, hne]
    · rw [hstill, hreasoning]
      exact hc.reasoning
    · simp [hflag, htext]
    · exact fun h => Bool.noConfusion (hflag.symm.trans h)
  · have hidle : s.messageItemStarted = false := Bool.eq_false_iff.mpr hstarted
    have hempty := hc.text_empty hidle
    simp only [ResponsesStreamState.closeMessageItem, hidle]
    exact ⟨⟨rfl, hc, rfl⟩, hempty, rfl⟩

theorem Kept.trans {s'' : ResponsesStreamState} (h : Kept s s') (h' : Kept s' s'') : Kept s s'' :=
  ⟨h'.shown.trans h.shown, h'.content, h'.toolCalls.trans h.toolCalls⟩

theorem append_ne_empty (a : String) {b : String} (h : b ≠ "") : a ++ b ≠ "" := by
  intro hab
  have hlist := congrArg String.toList hab
  rw [String.toList_append] at hlist
  exact h (String.toList_inj.mp (append_eq_nil_iff.mp hlist).2)

structure SameOutput (s s' : ResponsesStreamState) : Prop where
  completedOutput : s'.completedOutput = s.completedOutput
  accumulatedReasoning : s'.accumulatedReasoning = s.accumulatedReasoning
  accumulatedText : s'.accumulatedText = s.accumulatedText
  toolCalls : s'.toolCalls = s.toolCalls

theorem startReasoningItem_output (ext : Externals) (s : ResponsesStreamState) :
    SameOutput s (s.startReasoningItem ext) ∧
      (s.startReasoningItem ext).messageItemStarted = s.messageItemStarted := by
  unfold startReasoningItem
  split
  next => exact ⟨⟨rfl, rfl, rfl, rfl⟩, rfl⟩
  next => exact ⟨⟨rfl, rfl, rfl, rfl⟩, rfl⟩

theorem startSummaryPart_output (s : ResponsesStreamState) :
    SameOutput s s.startSummaryPart ∧ s.startSummaryPart.messageItemStarted = s.messageItemStarted := by
  unfold startSummaryPart
  split
  next => exact ⟨⟨rfl, rfl, rfl, rfl⟩, rfl⟩
  next => exact ⟨⟨rfl, rfl, rfl, rfl⟩, rfl⟩

theorem startMessageItem_output (ext : Externals) (s : ResponsesStreamState) :
    SameOutput s (s.startMessageItem ext) ∧
      (s.startMessageItem ext).reasoningItemStarted = s.reasoningItemStarted := by
  unfold startMessageItem
  split
  next => exact ⟨⟨rfl, rfl, rfl, rfl⟩, rfl⟩
  next => exact ⟨⟨rfl, rfl, rfl, rfl⟩, rfl⟩

theorem startContentPart_output (s : ResponsesStreamState) :
    SameOutput s s.startContentPart ∧ s.startContentPart.reasoningItemStarted = s.reasoningItemStarted := by
  unfold startContentPart
  split
  next => exact ⟨⟨rfl, rfl, rfl, rfl⟩, rfl⟩
  next => exact ⟨⟨rfl, rfl, rfl, rfl⟩, rfl⟩

variable {fragment : String}

theorem Content.handleReasoningDelta (hc : Content s) (htext : s.accumulatedText = "") (ext : Externals)
    (hfragment : fragment ≠ "") :
    Content (s.handleReasoningDelta ext fragment) ∧
      (s.handleReasoningDelta ext fragment).completedOutput = s.completedOutput ∧
      (s.handleReasoningDelta ext fragment).accumulatedReasoning = s.accumulatedReasoning ++ fragment ∧
      (s.handleReasoningDelta ext fragment).accumulatedText = "" ∧
      (s.handleReasoningDelta ext fragment).toolCalls = s.toolCalls := by
  have hidle : s.messageItemStarted = false := by
    cases hm : s.messageItemStarted with
    | false => rfl
    | true => exact absurd htext (hc.message.mp hm)
  have hclosed : s.closeMessageItem = s := by
    simp only [ResponsesStreamState.closeMessageItem, hidle]
    rfl
  obtain ⟨hitem, hitemFlag⟩ := startReasoningItem_output ext s
  obtain ⟨hpart, hpartFlag⟩ := startSummaryPart_output (s.startReasoningItem ext)
  have hstarted : (s.startReasoningItem ext).startSummaryPart.reasoningItemStarted = true :=
    (startSummaryPart_reasoningItemStarted _).trans (startReasoningItem_reasoningItemStarted ext s)
  have hmessage := hpartFlag.trans (hitemFlag.trans hidle)
  have hreasoning := hpart.accumulatedReasoning.trans hitem.accumulatedReasoning
  have htext' := hpart.accumulatedText.trans (hitem.accumulatedText.trans htext)
  unfold ResponsesStreamState.handleReasoningDelta
  rw [hclosed]
  refine ⟨⟨?_, ?_, ?_⟩, ?_, ?_, htext', ?_⟩
  · exact iff_of_true hstarted (append_ne_empty _ hfragment)
  · exact iff_of_false (by simp [emit, hmessage]) (by simp [emit, htext'])
  · exact fun h => Bool.noConfusion (hmessage.symm.trans h)
  · exact hpart.completedOutput.trans hitem.completedOutput
  · exact congrArg (· ++ fragment) hreasoning
  · exact hpart.toolCalls.trans hitem.toolCalls

theorem Content.handleContentDelta (hc : Content s) (ext : Externals) (hfragment : fragment ≠ "") :
    Content (s.handleContentDelta ext fragment) ∧
      (s.handleContentDelta ext fragment).completedOutput.map strip =
        s.completedOutput.map strip ++ reasoningItems s.accumulatedReasoning ∧
      (s.handleContentDelta ext fragment).accumulatedReasoning = "" ∧
      (s.handleContentDelta ext fragment).accumulatedText = s.accumulatedText ++ fragment ∧
      (s.handleContentDelta ext fragment).toolCalls = s.toolCalls := by
  obtain ⟨hkept, hreasoning, htext, houtput⟩ := hc.closeReasoningItem
  have hidle : s.closeReasoningItem.reasoningItemStarted = false := by
    cases hr : s.closeReasoningItem.reasoningItemStarted with
    | false => rfl
    | true => exact absurd hreasoning (hkept.content.reasoning.mp hr)
  obtain ⟨hitem, hitemFlag⟩ := startMessageItem_output ext s.closeReasoningItem
  obtain ⟨hpart, hpartFlag⟩ := startContentPart_output (s.closeReasoningItem.startMessageItem ext)
  have hstarted : (s.closeReasoningItem.startMessageItem ext).startContentPart.messageItemStarted = true :=
    (startContentPart_messageItemStarted _).trans (startMessageItem_messageItemStarted ext _)
  have hflag := hpartFlag.trans (hitemFlag.trans hidle)
  have hreasoning' := hpart.accumulatedReasoning.trans (hitem.accumulatedReasoning.trans hreasoning)
  unfold ResponsesStreamState.handleContentDelta
  refine ⟨⟨?_, ?_, ?_⟩, ?_, hreasoning', ?_, ?_⟩
  · exact iff_of_false (by simp [emit, hflag]) (by simp [emit, hreasoning'])
  · exact iff_of_true hstarted (append_ne_empty _ hfragment)
  · exact fun _ => hflag
  · exact (congrArg (List.map strip) (hpart.completedOutput.trans hitem.completedOutput)).trans houtput
  · exact congrArg (· ++ fragment) (hpart.accumulatedText.trans (hitem.accumulatedText.trans htext))
  · exact hpart.toolCalls.trans (hitem.toolCalls.trans hkept.toolCalls)

def callView (call : ToolCallState) : String × ToolCallTarget × String := (call.id, call.target, call.arguments)

def entryArguments (tc : JsonValue) : String := (toolCallArguments tc).getD ""

/-- What the entries of one index say: the first one names the call, all of them make up its arguments. -/
def entriesView (toolNameMap : ToolNameMap) : List JsonValue → Option (String × ToolCallTarget × String)
  | [] => none
  | tc :: tcs =>
    some (toolCallId tc, toolNameMap.decode (toolCallName tc), String.join ((tc :: tcs).map entryArguments))

theorem entriesView_concat (toolNameMap : ToolNameMap) (tcs : List JsonValue) (tc : JsonValue) :
    entriesView toolNameMap (tcs ++ [tc]) =
      some (((entriesView toolNameMap tcs).getD (toolCallId tc, toolNameMap.decode (toolCallName tc), "")).1,
        ((entriesView toolNameMap tcs).getD (toolCallId tc, toolNameMap.decode (toolCallName tc), "")).2.1,
        ((entriesView toolNameMap tcs).getD (toolCallId tc, toolNameMap.decode (toolCallName tc), "")).2.2 ++
          entryArguments tc) := by
  cases tcs with
  | nil => simp [entriesView]
  | cons first rest => simp [entriesView, String.append_assoc]

theorem Content.startToolCall (hc : Content s) (ext : Externals) (tc : JsonValue) :
    Content (s.startToolCall ext tc) ∧ (s.startToolCall ext tc).shown = s.shown ∧
      ∀ k, ((s.startToolCall ext tc).toolCalls.lookup k).map callView =
        if k = toolCallIndex tc then
          some (((s.toolCalls.lookup k).map callView).getD
            (toolCallId tc, s.toolNameMap.decode (toolCallName tc), ""))
        else (s.toolCalls.lookup k).map callView := by
  unfold ResponsesStreamState.startToolCall
  split
  next hopen =>
    refine ⟨hc, rfl, fun k => ?_⟩
    split
    next hk =>
      obtain ⟨call, hcall⟩ := isSome_iff_exists.mp hopen
      rw [hk, hcall]
      rfl
    next => rfl
  next hopen =>
    have hnone : s.toolCalls.lookup (toolCallIndex tc) = none := not_isSome_iff_eq_none.mp hopen
    obtain ⟨hkept₁, _, _⟩ := hc.closeMessageItem
    obtain ⟨hkept₂, _, _, _⟩ := hkept₁.content.closeReasoningItem
    have hkept := hkept₁.trans hkept₂
    have hnames := ((closeMessageItem_continues s).trans (closeReasoningItem_continues _)).toolNameMap
    refine ⟨⟨hkept.content.reasoning, hkept.content.message, hkept.content.apart⟩, hkept.shown, fun k => ?_⟩
    have hcalls := hkept.toolCalls
    rw [Table.lookup_insert_eq]
    split
    next hk =>
      rw [hk, hnone]
      simp only [callView, map_some, map_none, getD_none, hnames]
    next => exact congrArg (fun calls : Table Nat ToolCallState => (calls.lookup k).map callView) hcalls

section

variable (codec : JsonCodec)

theorem extendToolCall_output {index : Nat} {call : ToolCallState} (arguments : String)
    (h : s.toolCalls.lookup index = some call) :
    (s.extendToolCall codec index arguments).shown = s.shown ∧
      (Content s → Content (s.extendToolCall codec index arguments)) ∧
      ∀ k, ((s.extendToolCall codec index arguments).toolCalls.lookup k).map callView =
        if k = index then some (call.id, call.target, call.arguments ++ arguments)
        else (s.toolCalls.lookup k).map callView := by
  obtain ⟨emittedInput, hnext, _⟩ :=
    toolDeltaEvent_cases codec { call with arguments := call.arguments ++ arguments } arguments
  rw [extendToolCall, h]
  dsimp only
  rw [hnext]
  have hcalls : ∀ k, ((s.toolCalls.insert index
      { call with arguments := call.arguments ++ arguments, customEmittedInput := emittedInput }).lookup k).map
        callView =
      if k = index then some (call.id, call.target, call.arguments ++ arguments)
      else (s.toolCalls.lookup k).map callView := by
    intro k
    rw [Table.lookup_insert_eq]
    split
    next => rfl
    next => rfl
  split
  next => exact ⟨rfl, fun hc => ⟨hc.reasoning, hc.message, hc.apart⟩, hcalls⟩
  next => exact ⟨rfl, fun hc => ⟨hc.reasoning, hc.message, hc.apart⟩, hcalls⟩

theorem Content.handleToolCallDelta (hc : Content s) (ext : Externals) (tc : JsonValue) :
    Content (s.handleToolCallDelta ext tc) ∧ (s.handleToolCallDelta ext tc).shown = s.shown ∧
      ∀ k, ((s.handleToolCallDelta ext tc).toolCalls.lookup k).map callView =
        if k = toolCallIndex tc then
          let view := ((s.toolCalls.lookup k).map callView).getD
            (toolCallId tc, s.toolNameMap.decode (toolCallName tc), "")
          some (view.1, view.2.1, view.2.2 ++ entryArguments tc)
        else (s.toolCalls.lookup k).map callView := by
  obtain ⟨hc', hshown, hcalls⟩ := hc.startToolCall ext tc
  obtain ⟨call, hcall⟩ := isSome_iff_exists.mp (startToolCall_lookup ext s tc)
  have hview := hcalls (toolCallIndex tc)
  rw [hcall, if_pos rfl] at hview
  have hview := Option.some.inj hview
  unfold ResponsesStreamState.handleToolCallDelta entryArguments
  cases toolCallArguments tc with
  | none =>
    refine ⟨hc', hshown, fun k => ?_⟩
    rw [hcalls]
    split
    next => simp
    next => rfl
  | some arguments =>
    obtain ⟨hshown', hcontent, hcalls'⟩ := extendToolCall_output ext.codec arguments hcall
    refine ⟨hcontent hc', hshown'.trans hshown, fun k => ?_⟩
    rw [hcalls']
    split
    next hk =>
      rw [hk, ← hview]
      rfl
    next hk => rw [hcalls, if_neg hk]

def viewItem (codec : JsonCodec) (view : String × ToolCallTarget × String) : ResponseItem :=
  (completedToolItem codec "" view.1 view.2.1 view.2.2).strip

theorem strip_completedToolItem (itemId callId : String) (target : ToolCallTarget)
    (arguments : String) :
    (completedToolItem codec itemId callId target arguments).strip = viewItem codec (callId, target, arguments) := by
  unfold viewItem completedToolItem
  cases target.kind with
  | function | toolSearch | custom => rfl

theorem closeToolCall_output (s : ResponsesStreamState) (index : Nat) :
    (s.closeToolCall codec index).completedOutput.map strip =
      s.completedOutput.map strip ++
        (((s.toolCalls.lookup index).map callView).map (viewItem codec)).toList := by
  cases hcall : s.toolCalls.lookup index with
  | none =>
    rw [closeToolCall, hcall]
    simp
  | some call =>
    have hitem := strip_completedToolItem codec call.itemId call.id call.target call.arguments
    have houtput : (s.closeToolCall codec index).completedOutput =
        s.completedOutput ++ [completedToolItem codec call.itemId call.id call.target call.arguments] := by
      rw [closeToolCall, hcall]
      dsimp only
      cases call.target.kind with
      | function | toolSearch | custom => rfl
    rw [houtput, map_append]
    exact congrArg (fun item => s.completedOutput.map strip ++ [item]) hitem

theorem foldl_closeToolCall_output (s : ResponsesStreamState) {indices : List Nat}
    (hnodup : indices.Nodup) :
    (indices.foldl (closeToolCall codec) s).completedOutput.map strip =
      s.completedOutput.map strip ++
        indices.filterMap fun k => ((s.toolCalls.lookup k).map callView).map (viewItem codec) := by
  induction indices generalizing s with
  | nil => simp
  | cons index indices ih =>
    obtain ⟨hnot, hnodup⟩ := nodup_cons.mp hnodup
    have hrest : (indices.filterMap fun k =>
        (((s.closeToolCall codec index).toolCalls.lookup k).map callView).map (viewItem codec)) =
        indices.filterMap fun k => ((s.toolCalls.lookup k).map callView).map (viewItem codec) := by
      refine filterMap_congr ?_
      intro k hk
      have hne : k ≠ index := by
        rintro rfl
        exact hnot hk
      rw [closeToolCall_lookup, if_neg hne]
    rw [foldl_cons, ih _ hnodup, closeToolCall_output, hrest, filterMap_cons, append_assoc]
    cases ((s.toolCalls.lookup index).map callView).map (viewItem codec) with
    | none | some item => rfl

end

theorem insertionSort_keys {V : Type*} {m : Table Nat V} {n : Nat} (h : ∀ k, (m.lookup k).isSome = true ↔ k < n) :
    m.keys.insertionSort (· ≤ ·) = List.range n := by
  have hmem : ∀ k, k ∈ m.keys.insertionSort (· ≤ ·) ↔ k ∈ List.range n := by
    intro k
    rw [mem_insertionSort, mem_range, ← h k]
    exact (AList.lookup_isSome (s := m)).symm
  have hnodup : (m.keys.insertionSort (· ≤ ·)).Nodup :=
    (perm_insertionSort (· ≤ ·) m.keys).nodup_iff.mpr m.nodupKeys
  have hperm := (perm_ext_iff_of_nodup hnodup nodup_range).mpr hmem
  exact hperm.eq_of_pairwise (fun a b _ _ hab hba => Nat.le_antisymm hab hba)
    (pairwise_insertionSort (· ≤ ·) m.keys) pairwise_le_range

/-- The stream after the fragments of a reasoning text, of a content and of tool calls, in this order. -/
structure Fed (s : ResponsesStreamState) (toolNameMap : ToolNameMap) (reasoning text : String)
    (entries : List JsonValue) : Prop where
  content : Content s
  shown : s.shown = reasoningItems reasoning ++ messageItems text
  calls : ∀ k, (s.toolCalls.lookup k).map callView =
    entriesView toolNameMap (entries.filter fun tc => toolCallIndex tc = k)
  names : s.toolNameMap = toolNameMap
  opened : entries = [] → s.accumulatedText = text ∧
    s.completedOutput.map strip ++ reasoningItems s.accumulatedReasoning = reasoningItems reasoning
  untouched : entries = [] → text = "" → s.completedOutput = [] ∧ s.accumulatedReasoning = reasoning

variable {toolNameMap : ToolNameMap} {reasoning text : String} {entries : List JsonValue}

theorem fed_new (responseId model : String) (createdAt : Int) (toolNameMap : ToolNameMap) :
    Fed (new responseId model createdAt toolNameMap) toolNameMap "" "" [] := by
  refine ⟨⟨?_, ?_, fun _ => rfl⟩, rfl, fun _ => rfl, rfl, fun _ => ⟨rfl, rfl⟩, fun _ _ => ⟨rfl, rfl⟩⟩
  · exact iff_of_false Bool.false_ne_true (fun h => h rfl)
  · exact iff_of_false Bool.false_ne_true (fun h => h rfl)

theorem Fed.reasoningFragment (hf : Fed s toolNameMap reasoning "" []) (ext : Externals) (hfragment : fragment ≠ "") :
    Fed (s.handleReasoningDelta ext fragment) toolNameMap (reasoning ++ fragment) "" [] := by
  obtain ⟨htext, _⟩ := hf.opened rfl
  obtain ⟨houtput, hreasoning⟩ := hf.untouched rfl rfl
  obtain ⟨hc, houtput', hreasoning', htext', hcalls'⟩ := hf.content.handleReasoningDelta htext ext hfragment
  have hnames := (handleReasoningDelta_continues ext s fragment).toolNameMap
  rw [houtput] at houtput'
  rw [hreasoning] at hreasoning'
  refine ⟨hc, ?_, ?_, hnames.trans hf.names, fun _ => ⟨htext', ?_⟩, fun _ _ => ⟨houtput', hreasoning'⟩⟩
  · rw [ResponsesStreamState.shown, houtput', hreasoning', htext']
    rfl
  · rw [hcalls']
    exact hf.calls
  · rw [houtput', hreasoning']
    rfl

theorem Fed.contentFragment (hf : Fed s toolNameMap reasoning text []) (ext : Externals) (hfragment : fragment ≠ "") :
    Fed (s.handleContentDelta ext fragment) toolNameMap reasoning (text ++ fragment) [] := by
  obtain ⟨htext, houtput⟩ := hf.opened rfl
  obtain ⟨hc, houtput', hreasoning', htext', hcalls'⟩ := hf.content.handleContentDelta ext hfragment
  have hnames := (handleContentDelta_continues ext s fragment).toolNameMap
  rw [houtput] at houtput'
  rw [htext] at htext'
  refine ⟨hc, ?_, ?_, hnames.trans hf.names, fun _ => ⟨htext', ?_⟩, fun _ h => ?_⟩
  · rw [ResponsesStreamState.shown, houtput', hreasoning', htext']
    simp [reasoningItems]
  · rw [hcalls']
    exact hf.calls
  · rw [houtput', hreasoning']
    simp [reasoningItems]
  · exact absurd h (append_ne_empty text hfragment)

section

variable (hf : Fed s toolNameMap reasoning text entries)
include hf

theorem Fed.entry (ext : Externals) (tc : JsonValue) :
    Fed (s.handleToolCallDelta ext tc) toolNameMap reasoning text (entries ++ [tc]) := by
  obtain ⟨hc, hshown, hcalls⟩ := hf.content.handleToolCallDelta ext tc
  have hnames := (handleToolCallDelta_continues ext s tc).toolNameMap
  refine ⟨hc, hshown.trans hf.shown, fun k => ?_, hnames.trans hf.names, fun h => ?_, fun h => ?_⟩
  · rw [hcalls, filter_append, hf.calls, hf.names]
    split
    next hk =>
      subst hk
      have hlast : [tc].filter (fun e => toolCallIndex e = toolCallIndex tc) = [tc] := by simp
      rw [hlast, entriesView_concat]
    next hk =>
      have hlast : [tc].filter (fun e => toolCallIndex e = k) = [] := by simp [Ne.symm hk]
      rw [hlast, append_nil]
  · exact absurd h (by simp)
  · exact absurd h (by simp)

theorem Fed.foldl_entry (ext : Externals) (tcs : List JsonValue) :
    Fed (tcs.foldl (handleToolCallDelta ext) s) toolNameMap reasoning text (entries ++ tcs) := by
  induction tcs generalizing s entries with
  | nil => rwa [append_nil]
  | cons tc tcs ih =>
    have hrest := ih (hf.entry ext tc)
    rwa [append_assoc] at hrest

theorem Fed.delta (ext : Externals) (delta : JsonValue)
    (hreasoning : deltaReasoning delta ≠ none → text = "" ∧ entries = [])
    (hcontent : deltaContent delta ≠ none → entries = []) :
    Fed (s.handleDelta ext delta) toolNameMap (reasoning ++ (deltaReasoning delta).getD "")
      (text ++ (deltaContent delta).getD "") (entries ++ deltaToolCalls delta) := by
  have hnonempty : ∀ value, deltaReasoning delta = some value → value ≠ "" := fun value h =>
    of_decide_eq_true (filter_eq_some_iff.mp h).2
  have hnonempty' : ∀ value, deltaContent delta = some value → value ≠ "" := fun value h =>
    of_decide_eq_true (filter_eq_some_iff.mp h).2
  refine Fed.foldl_entry ?_ ext _
  cases hr : deltaReasoning delta with
  | none =>
    cases hc : deltaContent delta with
    | none => simpa using hf
    | some content =>
      have hentries := hcontent (by rw [hc]; exact some_ne_none content)
      subst hentries
      simpa using hf.contentFragment ext (hnonempty' content hc)
  | some fragment =>
    obtain ⟨htext, hentries⟩ := hreasoning (by rw [hr]; exact some_ne_none fragment)
    subst htext hentries
    have hf' := hf.reasoningFragment ext (hnonempty fragment hr)
    cases hc : deltaContent delta with
    | none => simpa using hf'
    | some content => simpa using hf'.contentFragment ext (hnonempty' content hc)

theorem Fed.finish (codec : JsonCodec) {n : Nat}
    (hn : ∀ k, (entriesView toolNameMap (entries.filter fun tc => toolCallIndex tc = k)).isSome = true ↔ k < n) :
    (s.finishOpenItems codec).completedOutput.map strip =
      reasoningItems reasoning ++ messageItems text ++ (List.range n).filterMap fun k =>
        (entriesView toolNameMap (entries.filter fun tc => toolCallIndex tc = k)).map (viewItem codec) := by
  obtain ⟨hkept₁, hreasoning, _, _⟩ := hf.content.closeReasoningItem
  obtain ⟨hkept₂, htext, hsame⟩ := hkept₁.content.closeMessageItem
  have hkept := hkept₁.trans hkept₂
  have hshown := hkept.shown.trans hf.shown
  rw [ResponsesStreamState.shown, htext, hsame, hreasoning] at hshown
  have hcalls : ∀ k, (s.closeReasoningItem.closeMessageItem.toolCalls.lookup k).map callView =
      entriesView toolNameMap (entries.filter fun tc => toolCallIndex tc = k) := by
    intro k
    rw [hkept.toolCalls]
    exact hf.calls k
  have hkeys : s.closeReasoningItem.closeMessageItem.toolCalls.keys.insertionSort (· ≤ ·) = List.range n := by
    refine insertionSort_keys ?_
    intro k
    rw [← hn k, ← hcalls k, isSome_map]
  have houtput := foldl_closeToolCall_output codec s.closeReasoningItem.closeMessageItem (nodup_range (n := n))
  rw [← hkeys] at houtput
  have houtput : (s.finishOpenItems codec).completedOutput.map strip =
      s.closeReasoningItem.closeMessageItem.completedOutput.map strip ++ _ := houtput
  rw [houtput, hkeys]
  simp only [hcalls]
  rw [← hshown]
  simp [reasoningItems, messageItems]

end

end ResponsesStreamState

end MochiPort

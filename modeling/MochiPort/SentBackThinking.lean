import MochiPort.PreparedHistory
import MochiPort.ThinkingRoundTrip

/-! Thinking that the client sends back. -/

namespace MochiPort

open AnthropicStreamState EncryptedContentScope Option ResponseItem

theorem filter_modify {α : Type} {p : α → Bool} {f : α → α} {l : List α} {i : Nat}
    (h : ∀ x, l[i]? = some x → p x = false ∧ p (f x) = false) : (l.modify i f).filter p = l.filter p := by
  induction l generalizing i with
  | nil => rw [List.modify_nil]
  | cons x l ih =>
    cases i with
    | zero =>
      obtain ⟨hx, hfx⟩ := h x rfl
      rw [List.modify_zero_cons, List.filter_cons, List.filter_cons, hx, hfx]
      rfl
    | succ i =>
      rw [List.modify_succ_cons, List.filter_cons, List.filter_cons, ih fun x hx => h x hx]

variable {output : List ResponseItem}

theorem attachWebSearchResult_reasoning (generatedId : String) (item : JsonValue) (allowOrphan : Bool)
    (hcall : ∀ item ∈ output.filter isReasoning, item.callId = none) :
    (attachWebSearchResult generatedId output item allowOrphan).1.filter isReasoning =
      output.filter isReasoning := by
  unfold attachWebSearchResult
  dsimp only
  split
  next i hfind =>
    obtain ⟨id, -, hi⟩ := bind_eq_some_iff.mp hfind
    obtain ⟨hlt, hid, -⟩ := List.findIdx?_eq_some_iff_getElem.mp hi
    have hmatch : output[i].callId = some id := of_decide_eq_true hid
    refine filter_modify ?_
    intro x hx
    rw [List.getElem?_eq_getElem hlt] at hx
    obtain rfl := Option.some.inj hx
    have hother : output[i].isReasoning = false := by
      refine Bool.eq_false_iff.mpr fun hreasoning => ?_
      have hnone := hcall output[i] (List.mem_filter.mpr ⟨List.getElem_mem hlt, hreasoning⟩)
      rw [hmatch] at hnone
      cases hnone
    exact ⟨hother, hother⟩
  next =>
    split
    next => rfl
    next => rw [List.filter_append]; exact List.append_nil _

variable {b : ThinkingBlock} {blocks : List ThinkingBlock}

variable {value : JsonValue}

section

variable (ext : AnthropicConverters)
include ext

theorem anthropicContentToResponseItem_other (generatedId : String) (map : ToolNameMap)
    (profile : AnthropicProviderProfile) (hthinking : stringMember value "type" ≠ some "thinking")
    (hredacted : stringMember value "type" ≠ some "redacted_thinking") :
    (anthropicContentToResponseItem ext generatedId map profile value).toList.filter isReasoning =
      [] := by
  refine List.filter_eq_nil_iff.mpr ?_
  intro item hitem
  have hitem := mem_toList.mp hitem
  unfold anthropicContentToResponseItem at hitem
  split at hitem
  next =>
    obtain ⟨text, -, rfl⟩ := map_eq_some_iff.mp hitem
    exact Bool.false_ne_true
  next htype => exact absurd htype hthinking
  next htype => exact absurd htype hredacted
  next =>
    dsimp only at hitem
    split at hitem
    next => rw [← Option.some.inj hitem]; exact Bool.false_ne_true
    next =>
      rw [← Option.some.inj hitem]
      unfold anthropicToolItem
      split
      next => exact Bool.false_ne_true
      next => exact Bool.false_ne_true
      next => exact Bool.false_ne_true
  next =>
    split at hitem
    next => cases hitem
    next => rw [← Option.some.inj hitem]; exact Bool.false_ne_true
  next => cases hitem

theorem anthropicContentToResponseItem_block (generatedId : String) (map : ToolNameMap)
    (profile : AnthropicProviderProfile) (h : b.WrittenAs value) :
    anthropicContentToResponseItem ext generatedId map profile value = some (b.toItem (some generatedId)) := by
  cases b with
  | thinking text signature =>
    obtain ⟨htype, rfl, hsignature⟩ := h
    simp [anthropicContentToResponseItem, htype, hsignature, ThinkingBlock.toItem, ThinkingBlock.summary,
      ThinkingBlock.state]
  | redactedThinking data =>
    obtain ⟨htype, hdata⟩ := h
    obtain ⟨member, hget, hstring⟩ := bind_eq_some_iff.mp hdata
    simp [anthropicContentToResponseItem, htype, hget, hstring, ThinkingBlock.toItem, ThinkingBlock.summary,
      ThinkingBlock.state]

theorem convertAnthropicBlock_other (map : ToolNameMap)
    (profile : AnthropicProviderProfile) (n : Nat) (hthinking : stringMember value "type" ≠ some "thinking")
    (hredacted : stringMember value "type" ≠ some "redacted_thinking")
    (hcall : ∀ item ∈ output.filter isReasoning, item.callId = none) :
    (convertAnthropicBlock ext map profile output (value, n)).filter isReasoning =
      output.filter isReasoning := by
  have hitem := anthropicContentToResponseItem_other ext (ext.itemId n) map profile hthinking hredacted
  have hsame : ∀ done : List ResponseItem × Bool,
      done.1.filter isReasoning = output.filter isReasoning →
      (if done.2 then done.1
        else done.1 ++ (anthropicContentToResponseItem ext (ext.itemId n) map profile value).toList).filter
          isReasoning = output.filter isReasoning := by
    intro done hdone
    split
    next => exact hdone
    next => rw [List.filter_append, hdone, hitem, List.append_nil]
  unfold convertAnthropicBlock
  split
  next => exact attachWebSearchResult_reasoning _ value true hcall
  next =>
    split
    next => exact hsame _ (attachWebSearchResult_reasoning _ value false hcall)
    next => exact hsame (output, false) rfl

theorem convertAnthropicBlock_block (map : ToolNameMap)
    (profile : AnthropicProviderProfile) (n : Nat) (h : b.WrittenAs value) :
    convertAnthropicBlock ext map profile output (value, n) = output ++ [b.toItem (some (ext.itemId n))] := by
  have htype : stringMember value "type" = some "thinking" ∨ stringMember value "type" = some "redacted_thinking" := by
    cases b with
    | thinking text signature => exact .inl h.1
    | redactedThinking data => exact .inr h.1
  have hresult : stringMember value "type" ≠ some "web_search_tool_result" := by
    rcases htype with htype | htype
    · rw [htype]; decide
    · rw [htype]; decide
  have htool : stringMember value "type" ≠ some "tool_result" := by
    rcases htype with htype | htype
    · rw [htype]; decide
    · rw [htype]; decide
  unfold convertAnthropicBlock
  rw [if_neg hresult, anthropicContentToResponseItem_block ext _ map profile h]
  simp [htool]

theorem convertAnthropicContent_reasoning {values : List JsonValue} (map : ToolNameMap)
    (profile : AnthropicProviderProfile) (h : ThinkingContent values blocks) :
    ItemsOf blocks ((convertAnthropicContent ext values map profile).filter isReasoning) := by
  have hfold : ∀ (n : Nat) (output : List ResponseItem),
      (∀ item ∈ output.filter isReasoning, item.callId = none) →
      ∃ items, ItemsOf blocks items ∧
        ((values.zipIdx n).foldl (convertAnthropicBlock ext map profile) output).filter isReasoning =
          output.filter isReasoning ++ items := by
    induction h with
    | nil => exact fun n output _ => ⟨[], .nil, (List.append_nil _).symm⟩
    | @other value values blocks hthinking hredacted rest ih =>
      intro n output hcall
      have hsame := convertAnthropicBlock_other ext map profile n hthinking hredacted hcall
      rw [List.zipIdx_cons, List.foldl_cons, ← hsame]
      exact ih (n + 1) _ (by rw [hsame]; exact hcall)
    | @block value values b blocks hwritten rest ih =>
      intro n output hcall
      have hitem : (b.toItem (some (ext.itemId n))).isReasoning = true := rfl
      have houtput : (output ++ [b.toItem (some (ext.itemId n))]).filter isReasoning =
          output.filter isReasoning ++ [b.toItem (some (ext.itemId n))] := by
        rw [List.filter_append, List.filter_cons, hitem]
        rfl
      rw [List.zipIdx_cons, List.foldl_cons, convertAnthropicBlock_block ext map profile n hwritten]
      obtain ⟨items, hitems, heq⟩ := ih (n + 1) (output ++ [b.toItem (some (ext.itemId n))]) (by
        rw [houtput]
        intro item hmem
        rcases List.mem_append.mp hmem with hmem | hmem
        · exact hcall item hmem
        · rw [List.mem_singleton.mp hmem]
          rfl)
      refine ⟨b.toItem (some (ext.itemId n)) :: items, .cons ⟨_, rfl⟩ hitems, ?_⟩
      rw [heq, houtput, List.append_assoc]
      rfl
  obtain ⟨items, hitems, heq⟩ := hfold 0 [] (fun item hitem => absurd hitem List.not_mem_nil)
  rw [convertAnthropicContent, heq]
  exact hitems

end

/-- What the client keeps of blocks of thinking: the items of a whole response, or those that a stream ended. -/
inductive Kept (scope : EncryptedContentScope) (blocks : List ThinkingBlock) :
    List (List (String × JsonValue)) → Prop
  | whole (ext : AnthropicConverters) (responseId : String) (now : Int) (response : JsonValue)
      (requestModel : String) (map : ToolNameMap) (profile : AnthropicProviderProfile) {values : List JsonValue}
      (hcontent : response.get "content" = some (.array values)) (h : ThinkingContent values blocks) :
      Kept scope blocks (((scopeAnthropicResponse scope (convertAnthropicResponse ext responseId now response
        requestModel map profile)).output.filter isReasoning).map toFields)
  | stream (ext : AnthropicConverters) (responseId model : String) (createdAt : Int) (map : ToolNameMap)
      (profile : AnthropicProviderProfile) {events : List JsonValue} (h : ThinkingStream events blocks) :
      Kept scope blocks ((doneReasonings (((events.foldl (processEvent ext)
        (new responseId model createdAt map profile)).handleDone ext).emitted)).map
          fun item => (encodeResponseObject item.toFields scope).1)

variable {scope : EncryptedContentScope} {sent : List (List (String × JsonValue))}

theorem scopeReasoningItem_isReasoning (item : ResponseItem) :
    (scopeReasoningItem scope item).isReasoning = item.isReasoning := by
  unfold scopeReasoningItem
  split
  next => rfl
  next =>
    split
    next => rfl
    next =>
      split
      next => rfl
      next => rfl

variable {items : List ResponseItem}

theorem ItemsOf.carries {toObject : ResponseItem → List (String × JsonValue)} (h : ItemsOf blocks items)
    (hblocks : ∀ b ∈ blocks, b.Scopable)
    (hobject : ∀ b : ThinkingBlock, b.Scopable → ∀ id, b.Carries scope (toObject (b.toItem id))) :
    List.Forall₂ (ThinkingBlock.Carries scope) blocks (items.map toObject) := by
  induction h with
  | nil => exact .nil
  | @cons b item blocks items hitem rest ih =>
    obtain ⟨id, rfl⟩ := hitem
    exact .cons (hobject b (hblocks b List.mem_cons_self) id)
      (ih fun b hb => hblocks b (List.mem_cons_of_mem _ hb))

theorem Kept.carries (h : Kept scope blocks sent) (hprotocol : scope.protocol = "anthropic")
    (hblocks : ∀ b ∈ blocks, b.Scopable) : List.Forall₂ (ThinkingBlock.Carries scope) blocks sent := by
  cases h with
  | @whole ext responseId now response requestModel map profile values hcontent h =>
    have hitems := convertAnthropicContent_reasoning ext map profile h
    have houtput : (convertAnthropicResponse ext responseId now response requestModel map profile).output =
        convertAnthropicContent ext values map profile := by
      simp only [convertAnthropicResponse, hcontent, bind_some, JsonValue.asArray, map_some,
        getD_some]
    have hfilter : ∀ items : List ResponseItem,
        ((items.map (scopeReasoningItem scope)).filter isReasoning).map toFields =
          (items.filter isReasoning).map fun item => (scopeReasoningItem scope item).toFields := by
      intro items
      rw [List.filter_map, List.map_map]
      congr 2
      funext item
      exact scopeReasoningItem_isReasoning item
    rw [scopeAnthropicResponse, houtput, hfilter]
    exact hitems.carries hblocks fun b hb id => carries_scopeReasoningItem hb id
  | stream ext responseId model createdAt map profile h =>
    have hitems := doneReasonings_handleDone h (fun b hb => (hblocks b hb).nonempty) ext
      (s := new responseId model createdAt map profile) rfl
    exact hitems.carries hblocks fun b hb id => carries_encodeResponseObject hb hprotocol id

variable {object : List (String × JsonValue)}

theorem ThinkingBlock.Carries.markedIn (h : b.Carries scope object)
    (hs : scope.Readable) (hb : b.Scopable) : ∃ content, MarkedIn scope (.object object) content := by
  have hencode : scope.encodeAnthropic b.kind b.state = scope.encode (b.kind.marker ++ ":" ++ b.state) := by
    rw [encodeAnthropic, if_neg (by rw [hb.unmarked]; exact Bool.false_ne_true)]
  refine ⟨b.kind.marker ++ ":" ++ b.state, ⟨object, rfl, ?_, ?_⟩, hs, kind_not_marked _ _⟩
  · rw [isProviderPrivateItem, h.type_eq]
    rfl
  · rw [h.content_eq, hencode]

/-- The history has the objects of the client, in order, among items of other types. -/
def SentIn (sent : List (List (String × JsonValue))) (input : List ResponseItem) : Prop :=
  List.Forall₂ ReadFrom sent (input.filter isReasoning)

theorem filterMap_reasoning_same (hs : scope.Readable) (hprotocol : scope.protocol = "anthropic")
    (hblocks : ∀ b ∈ blocks, b.Scopable) (hcarries : List.Forall₂ (ThinkingBlock.Carries scope) blocks sent)
    (hread : List.Forall₂ ReadFrom sent items) :
    List.Forall₂ (fun item block => item.itemType = .reasoning ∧
      anthropicReasoningBlock (some scope) item = some block) items (blocks.map ThinkingBlock.toAnthropicBlock) := by
  induction hcarries generalizing items with
  | nil =>
    cases hread
    exact .nil
  | @cons b object blocks sent hobject rest ih =>
    cases hread with
    | cons hitem hrest =>
      have hb := hblocks b List.mem_cons_self
      exact .cons ⟨(hobject.read hitem).1, anthropicReasoningBlock_same hs hprotocol hb hobject hitem⟩
        (ih (fun b hb => hblocks b (List.mem_cons_of_mem _ hb)) hrest)

theorem filterMap_reasoning_other {other : EncryptedContentScope} (hs : scope.Readable)
    (hblocks : ∀ b ∈ blocks, b.Scopable) (hcarries : List.Forall₂ (ThinkingBlock.Carries scope) blocks sent)
    (hread : List.Forall₂ ReadFrom sent items) (hne : other ≠ scope) :
    items.filterMap (anthropicReasoningBlock (some other)) = [] := by
  induction hcarries generalizing items with
  | nil =>
    cases hread
    rfl
  | @cons b object blocks sent hobject rest ih =>
    cases hread with
    | cons hitem hrest =>
      have hb := hblocks b List.mem_cons_self
      rw [List.filterMap_cons, anthropicReasoningBlock_other hs hb hobject hitem hne]
      exact ih (fun b hb => hblocks b (List.mem_cons_of_mem _ hb)) hrest

theorem filterMap_of_forall₂ {α β : Type} {p : α → Prop} {f : α → Option β} {items : List α} {made : List β}
    (h : List.Forall₂ (fun item block => p item ∧ f item = some block) items made) : items.filterMap f = made := by
  induction h with
  | nil => rfl
  | cons hitem rest ih => rw [List.filterMap_cons, hitem.2, ih]

/-- What is left of a request that another provider gets. -/
structure KeptApart (sent : List (List (String × JsonValue))) (value left : JsonValue) : Prop where
  noState : ∀ object ∈ sent, ∀ item ∈ historyItems left,
    item.get "encrypted_content" ≠ object.lookup "encrypted_content"
  stripped : (∀ item ∈ historyItems value, ∃ object ∈ sent, item = .object object) →
    ∀ item ∈ historyItems left, item.get "encrypted_content" = none
  noMarker : ∀ item ∈ historyItems left, hasMarker item = false
  unmarked : ((historyItems value).filter fun item => !hasMarker item).Sublist (historyItems left)
  rest : ∀ key, key ≠ "input" → left.get key = value.get key

theorem exists_carried (hcarries : List.Forall₂ (ThinkingBlock.Carries scope) blocks sent)
    (hobject : object ∈ sent) : ∃ b ∈ blocks, b.Carries scope object := by
  induction hcarries with
  | nil => cases hobject
  | @cons b first blocks sent hfirst rest ih =>
    rcases List.mem_cons.mp hobject with rfl | hobject
    · exact ⟨b, List.mem_cons_self, hfirst⟩
    · obtain ⟨c, hc, hcarried⟩ := ih hobject
      exact ⟨c, List.mem_cons_of_mem _ hc, hcarried⟩

theorem keptApart_prepare {other : EncryptedContentScope} (hs : scope.Readable) (hblocks : ∀ b ∈ blocks, b.Scopable)
    (hcarries : List.Forall₂ (ThinkingBlock.Carries scope) blocks sent) (hvalue : MarkedOnce (historyItems value))
    (hne : other ≠ scope) : KeptApart sent value (prepareResponsesRequest value other).1 := by
  have hunmarked : ∀ item ∈ historyItems (prepareResponsesRequest value other).1, hasMarker item = false :=
    historyItems_unmarked hvalue
  have hleaves := leaves_prepareResponsesRequest other value
  refine ⟨?_, ?_, hunmarked, unmarked_sublist other value, fun _ hkey => hleaves.get_eq hkey⟩
  · intro object hobject item hitem hsame
    obtain ⟨b, hb, hcarried⟩ := exists_carried hcarries hobject
    have hmarker : hasMarker item = true := by
      have hmember : stringMember item "encrypted_content" = some (scope.encodeAnthropic b.kind b.state) := by
        rw [stringMember, hsame, hcarried.content_eq]
        rfl
      rw [hasMarker, hmember, any_some,
        encodeAnthropic_of_unmarked (hblocks b hb).unmarked]
      exact startsWithMarker_append _
    rw [hunmarked item hitem] at hmarker
    cases hmarker
  · intro hsent prepared hprepared
    rw [hleaves.historyItems_eq] at hprepared
    obtain ⟨item, hitem, hleft⟩ := List.mem_filterMap.mp hprepared
    obtain ⟨object, hobject, rfl⟩ := hsent item hitem
    obtain ⟨b, hb, hcarried⟩ := exists_carried hcarries hobject
    obtain ⟨content, hmarked⟩ := hcarried.markedIn hs (hblocks b hb)
    exact preparedItem_of_foreign hmarked hne prepared hleft

/-- Thinking comes back to the scope it was written for, and to no other one. -/
theorem thinking_round_trip (sha256 : List UInt8 → Vector UInt8 32) {provider : ProviderConfig}
    (hprovider : provider.providerType = .anthropicMessages) (hblocks : ∀ b ∈ blocks, b.Scopable)
    (h : Kept (forProvider sha256 provider) blocks sent) :
    (∀ (ext : AnthropicExternals) (map next : ToolNameMap) (input : List ResponseItem)
        (messages : List AnthropicMessage),
      ext.encryptedContentScope = some (forProvider sha256 provider) → SentIn sent input →
      buildAnthropicMessages ext input map = .ok (next, messages) →
      thinkingBlocks messages = blocks.map ThinkingBlock.toAnthropicBlock) ∧
    (∀ (ext : AnthropicExternals) (map : ToolNameMap) (input : List ResponseItem),
      ext.encryptedContentScope = some (forProvider sha256 provider) →
      List.Forall₂ ReadFrom sent input → blocks ≠ [] →
      buildAnthropicMessages ext input map =
        .ok (map, [⟨.assistant, blocks.map ThinkingBlock.toAnthropicBlock⟩])) ∧
    (∀ (ext : AnthropicExternals) (other : EncryptedContentScope) (map next : ToolNameMap)
        (input : List ResponseItem) (messages : List AnthropicMessage),
      ext.encryptedContentScope = some other → other ≠ forProvider sha256 provider →
      SentIn sent input → buildAnthropicMessages ext input map = .ok (next, messages) →
      thinkingBlocks messages = []) ∧
    (∀ (other : EncryptedContentScope) (value : JsonValue),
      other ≠ forProvider sha256 provider → MarkedOnce (historyItems value) →
      KeptApart sent value (prepareResponsesRequest value other).1 ∧
      (prepareResponsesRequest (prepareResponsesRequest value other).1 other).1 =
        (prepareResponsesRequest value other).1) := by
  have hs := forProvider_readable sha256 provider
  have hprotocol : (forProvider sha256 provider).protocol = "anthropic" := by
    rw [forProvider, hprovider]
    rfl
  have hcarries := h.carries hprotocol hblocks
  refine ⟨?_, ?_, ?_, ?_⟩
  · intro ext map next input messages hscope hinput hbuild
    rw [thinkingBlocks_build hbuild, hscope]
    exact filterMap_of_forall₂ (filterMap_reasoning_same hs hprotocol hblocks hcarries hinput)
  · intro ext map input hscope hinput hne
    have hmade := filterMap_reasoning_same hs hprotocol hblocks hcarries hinput
    rw [← hscope] at hmade
    exact buildAnthropicMessages_reasoning hmade (mt List.map_eq_nil_iff.mp hne) map
  · intro ext other map next input messages hscope hne hinput hbuild
    rw [thinkingBlocks_build hbuild, hscope]
    exact filterMap_reasoning_other hs hblocks hcarries hinput hne
  · intro other value hne hvalue
    exact ⟨keptApart_prepare hs hblocks hcarries hvalue hne, prepareResponsesRequest_twice hvalue⟩

def signedThinking : JsonValue :=
  .object [("type", .string "thinking"), ("thinking", .string ""), ("signature", .string "sig")]

def redactedData : JsonValue := .object [("type", .string "redacted_thinking"), ("data", .string "abc")]

def thinkingAnswer : JsonValue := .object [("content", .array [signedThinking, redactedData])]

def silentBlocks : List ThinkingBlock := [.thinking "" "sig", .redactedThinking "abc"]

def zeroHash : List UInt8 → Vector UInt8 32 := fun _ => Vector.replicate 32 0

def claudeScope : EncryptedContentScope :=
  forProvider zeroHash { name := "claude", providerType := .anthropicMessages }

def thinkingItems : List ResponseItem :=
  (scopeAnthropicResponse claudeScope
    (convertAnthropicResponse plainConverters "r" 0 thinkingAnswer "m" .empty .anthropic)).output.filter
      isReasoning

theorem thinking_round_trip_silent :
    buildAnthropicMessages ⟨plainConverters.codec, zeroHash, some claudeScope⟩ thinkingItems .empty =
      .ok (.empty, [⟨.assistant, [.thinking "" "sig", .redactedThinking "abc"]⟩]) := by
  have hcontent : ThinkingContent [signedThinking, redactedData] silentBlocks :=
    .block ⟨rfl, rfl, rfl⟩ (.block ⟨rfl, rfl⟩ .nil)
  have hblocks : ∀ b ∈ silentBlocks, b.Scopable := by
    intro b hb
    rcases List.mem_cons.mp hb with rfl | hb
    · exact ⟨by decide, by decide⟩
    · rw [List.mem_singleton.mp hb]
      exact ⟨by decide, by decide⟩
  have hkept : Kept claudeScope silentBlocks (thinkingItems.map toFields) :=
    .whole plainConverters "r" 0 thinkingAnswer "m" .empty .anthropic rfl hcontent
  have hread : List.Forall₂ ReadFrom (thinkingItems.map toFields) thinkingItems := by
    rw [List.forall₂_map_left_iff]
    exact List.forall₂_same.mpr fun _ _ _ => rfl
  exact (thinking_round_trip zeroHash rfl hblocks hkept).2.1 _ .empty thinkingItems rfl hread
    (List.cons_ne_nil _ _)

end MochiPort

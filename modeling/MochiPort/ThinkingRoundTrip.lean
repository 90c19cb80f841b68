import MochiPort.AnthropicMessages
import MochiPort.ThinkingStreams

/-! The state of Anthropic thinking on its way to the client and back. -/

namespace MochiPort

open AnthropicItemKind List ThinkingBlock

def scopeReasoningItem (scope : EncryptedContentScope) (item : ResponseItem) : ResponseItem :=
  if item.itemType ≠ .reasoning then item
  else
    match item.encryptedContent with
    | none => item
    | some encryptedContent =>
      if encryptedContent = "" then item
      else
        let kind := if item.summary.isSome then AnthropicEncryptedContentKind.thinking else .redactedThinking
        { item with encryptedContent := some (scope.encodeAnthropic kind encryptedContent) }

def scopeAnthropicResponse (scope : EncryptedContentScope) (response : ResponseObject) : ResponseObject :=
  { response with output := response.output.map (scopeReasoningItem scope) }

namespace ThinkingBlock

/-- Its state is marked by the gateway, and can be told from what the gateway has marked before. -/
structure Scopable (b : ThinkingBlock) : Prop where
  nonempty : b.state ≠ ""
  unmarked : startsWithMarker b.state = false

def WrittenAs (b : ThinkingBlock) (value : JsonValue) : Prop :=
  match b with
  | thinking text signature =>
    stringMember value "type" = some "thinking" ∧ (stringMember value "thinking").getD "" = text ∧
      stringMember value "signature" = some signature
  | redactedThinking data =>
    stringMember value "type" = some "redacted_thinking" ∧ stringMember value "data" = some data

def toAnthropicBlock : ThinkingBlock → AnthropicBlock
  | thinking text signature => .thinking text signature
  | redactedThinking data => .redactedThinking data

structure Carries (scope : EncryptedContentScope) (b : ThinkingBlock) (object : List (String × JsonValue)) : Prop where
  type_eq : object.lookup "type" = some (.string "reasoning")
  summary_eq : object.lookup "summary" = b.summary.map fun parts => .array (parts.map SummaryPart.toJson)
  content_eq : object.lookup "encrypted_content" = some (.string (scope.encodeAnthropic b.kind b.state))

end ThinkingBlock

/-- The content of a message and its blocks of thinking, among blocks of other types. -/
inductive ThinkingContent : List JsonValue → List ThinkingBlock → Prop
  | nil : ThinkingContent [] []
  | other {value : JsonValue} {values : List JsonValue} {blocks : List ThinkingBlock}
      (hthinking : stringMember value "type" ≠ some "thinking")
      (hredacted : stringMember value "type" ≠ some "redacted_thinking") (rest : ThinkingContent values blocks) :
      ThinkingContent (value :: values) blocks
  | block {value : JsonValue} {values : List JsonValue} {b : ThinkingBlock} {blocks : List ThinkingBlock}
      (h : b.WrittenAs value) (rest : ThinkingContent values blocks) :
      ThinkingContent (value :: values) (b :: blocks)

variable {scope other : EncryptedContentScope} {b : ThinkingBlock} {blocks : List ThinkingBlock}

theorem ThinkingBlock.summary_isSome (b : ThinkingBlock) :
    b.kind = if b.summary.isSome then AnthropicEncryptedContentKind.thinking else .redactedThinking := by
  cases b with
  | thinking text signature | redactedThinking data => rfl

theorem carries_scopeReasoningItem (hb : b.Scopable) (id : Option String) :
    b.Carries scope (scopeReasoningItem scope (b.toItem id)).toFields := by
  have hscoped : scopeReasoningItem scope (b.toItem id) =
      { b.toItem id with encryptedContent := some (scope.encodeAnthropic b.kind b.state) } := by
    rw [b.summary_isSome]
    simp only [scopeReasoningItem, toItem, ne_eq, not_true_eq_false, if_false, if_neg hb.nonempty]
    rfl
  rw [hscoped]
  exact ⟨rfl, toFields_summary _, toFields_encryptedContent _⟩

theorem carries_encodeResponseObject (hb : b.Scopable) (hprotocol : scope.protocol = "anthropic")
    (id : Option String) : b.Carries scope (encodeResponseObject (b.toItem id).toFields scope).1 := by
  have htype : (b.toItem id).toFields.lookup "type" = some (.string "reasoning") := rfl
  have hsummary := toFields_summary (b.toItem id)
  have hcontent : (b.toItem id).toFields.lookup "encrypted_content" = some (.string b.state) :=
    toFields_encryptedContent (b.toItem id)
  have hprivate : isProviderPrivateItem (b.toItem id).toFields = true := by
    rfl
  have hkind : (if ((b.toItem id).toFields.lookup "summary").any (· ≠ .null) then
      AnthropicEncryptedContentKind.thinking else .redactedThinking) = b.kind := by
    rw [hsummary]
    cases b with
    | thinking text signature | redactedThinking data => rfl
  have hencode : (encodeResponseObject (b.toItem id).toFields scope).1 =
      insertField "encrypted_content" (.string (scope.encodeAnthropic b.kind b.state)) (b.toItem id).toFields := by
    rw [encodeResponseObject, if_neg (by simp [hprotocol, hprivate])]
    rw [hkind, hcontent]
    dsimp only [Option.bind_some, JsonValue.asStr]
    rw [if_neg (by simp [hb.nonempty, hb.unmarked])]
  rw [hencode]
  refine ⟨?_, ?_, lookup_insertField_self _⟩
  · rw [lookup_insertField_of_ne _ (by decide)]
    exact htype
  · rw [lookup_insertField_of_ne _ (by decide)]
    exact hsummary

/-- The item that is read from an object of the client. -/
def ReadFrom (object : List (String × JsonValue)) (item : ResponseItem) : Prop :=
  ∀ key, item.toFields.lookup key = object.lookup key

variable {item : ResponseItem} {object : List (String × JsonValue)}

theorem ThinkingBlock.Carries.read (h : b.Carries scope object) (hread : ReadFrom object item) :
    item.itemType = .reasoning ∧ item.summary = b.summary ∧
      item.encryptedContent = some (scope.encodeAnthropic b.kind b.state) := by
  refine ⟨?_, ?_, ?_⟩
  · have htype := (toFields_type item).symm.trans ((hread "type").trans h.type_eq)
    exact wireName_reasoning (JsonValue.string.inj (Option.some.inj htype))
  · have hsummary := (toFields_summary item).symm.trans ((hread "summary").trans h.summary_eq)
    refine Option.map_injective ?_ hsummary
    intro a b hab
    exact map_injective_iff.mpr SummaryPart.toJson_injective (JsonValue.array.inj hab)
  · have hcontent := (toFields_encryptedContent item).symm.trans ((hread "encrypted_content").trans h.content_eq)
    obtain ⟨content, hitem, hstring⟩ := Option.map_eq_some_iff.mp hcontent
    rw [hitem, JsonValue.string.inj hstring]

theorem anthropicReasoningBlock_same (hs : scope.Readable) (hprotocol : scope.protocol = "anthropic")
    (hb : b.Scopable) (h : b.Carries scope object) (hread : ReadFrom object item) :
    anthropicReasoningBlock (some scope) item = some b.toAnthropicBlock := by
  obtain ⟨-, hsummary, hcontent⟩ := h.read hread
  have hdecode := EncryptedContentScope.decodeAnthropic_encodeAnthropic hs hprotocol hb.unmarked b.kind
  simp only [anthropicReasoningBlock, Option.bind_some, hcontent, hdecode, if_neg hb.nonempty, hsummary]
  cases b with
  | thinking text signature =>
    by_cases htext : text = ""
    · simp [ThinkingBlock.kind, summary, ThinkingBlock.toAnthropicBlock, state, htext]
    · simp [ThinkingBlock.kind, summary, ThinkingBlock.toAnthropicBlock, state, htext]
  | redactedThinking data => rfl

theorem anthropicReasoningBlock_other (hs : scope.Readable) (hb : b.Scopable) (h : b.Carries scope object)
    (hread : ReadFrom object item) (hne : other ≠ scope) : anthropicReasoningBlock (some other) item = none := by
  obtain ⟨-, -, hcontent⟩ := h.read hread
  have hdecode := EncryptedContentScope.decodeAnthropic_of_ne hs hb.unmarked b.kind hne
  simp only [anthropicReasoningBlock, Option.bind_some, hcontent, hdecode]

def AnthropicBlock.isThinking : AnthropicBlock → Bool
  | .thinking _ _ => true
  | .redactedThinking _ => true
  | _ => false

def thinkingBlocks (messages : List AnthropicMessage) : List AnthropicBlock :=
  (messages.flatMap AnthropicMessage.content).filter AnthropicBlock.isThinking

theorem filter_appendToolResultBlock (target : List AnthropicBlock) (id : String) (content : ToolResultContent) :
    (appendToolResultBlock target id content).filter AnthropicBlock.isThinking =
      target.filter AnthropicBlock.isThinking := by
  cases hfind : target.findIdx? fun existing => existing.resultId = some id with
  | none =>
    rw [appendToolResultBlock_new content hfind, filter_append, filter_cons, if_neg (by exact Bool.false_ne_true),
      ← filter_append, takeWhile_append_dropWhile]
  | some i =>
    rw [appendToolResultBlock, hfind]
    clear hfind
    dsimp only
    induction target generalizing i with
    | nil => rw [modify_nil]
    | cons block target ih =>
      cases i with
      | zero =>
        cases block with
        | toolResult id current => rfl
        | _ => rfl
      | succ i => rw [modify_succ_cons, filter_cons, filter_cons, ih i]

theorem filter_appendContentBlocks (target content : List AnthropicBlock) (mode : MergeMode) :
    (appendContentBlocks target content mode).filter AnthropicBlock.isThinking =
      target.filter AnthropicBlock.isThinking ++ content.filter AnthropicBlock.isThinking := by
  have hfold : ∀ (content target : List AnthropicBlock),
      (content.foldl appendIfToolResult target).filter AnthropicBlock.isThinking =
        target.filter AnthropicBlock.isThinking := by
    intro content
    induction content with
    | nil => exact fun _ => rfl
    | cons block content ih =>
      intro target
      rw [foldl_cons, ih]
      cases block with
      | toolResult id content => exact filter_appendToolResultBlock target id content
      | _ => rfl
  have hrest : (content.filter fun block => !block.isToolResultBlock).filter AnthropicBlock.isThinking =
      content.filter AnthropicBlock.isThinking := by
    rw [filter_filter]
    congr 1
    funext block
    cases block <;> rfl
  cases mode with
  | toolResult => rw [appendContentBlocks, filter_append, hfold, hrest]
  | none | assistantContent | toolUse => exact filter_append ..

theorem thinkingBlocks_push (messages : List AnthropicMessage) (push : AnthropicPush) :
    thinkingBlocks (pushAnthropicMessage messages push) =
      thinkingBlocks messages ++ push.content.filter AnthropicBlock.isThinking := by
  unfold pushAnthropicMessage
  split
  next hnil => rw [hnil, filter_nil, append_nil]
  next =>
    split
    next last hlast =>
      split
      next =>
        have hmessages : messages = messages.dropLast ++ [last] := by
          obtain ⟨before, rfl⟩ := List.getLast?_eq_some_iff.mp hlast
          rw [dropLast_concat]
        nth_rewrite 2 [hmessages]
        simp [thinkingBlocks, filter_appendContentBlocks]
      next => simp [thinkingBlocks]
    next => simp [thinkingBlocks]

theorem thinkingBlocks_foldl (pushes : List AnthropicPush) (messages : List AnthropicMessage) :
    thinkingBlocks (pushes.foldl pushAnthropicMessage messages) =
      thinkingBlocks messages ++ pushes.flatMap fun push => push.content.filter AnthropicBlock.isThinking := by
  induction pushes generalizing messages with
  | nil => simp
  | cons push pushes ih => rw [foldl_cons, ih, thinkingBlocks_push, flatMap_cons, append_assoc]

theorem filter_isThinking_eq_nil {content : List AnthropicBlock} (h : ∀ block ∈ content, block.isThinking = false) :
    content.filter AnthropicBlock.isThinking = [] :=
  filter_eq_nil_iff.mpr fun block hblock => by rw [h block hblock]; exact Bool.false_ne_true

variable {block : AnthropicBlock}

theorem textBlock_isThinking {text : String} (h : textBlock text = some block) : block.isThinking = false := by
  unfold textBlock at h
  split at h
  next => cases h
  next => rw [← Option.some.inj h]; rfl

theorem imageBlock_isThinking {imageUrl : String} (h : imageBlock imageUrl = some block) :
    block.isThinking = false := by
  obtain ⟨dataUrl, -, h⟩ := Option.bind_eq_some_iff.mp h
  obtain ⟨parts, -, rfl⟩ := Option.map_eq_some_iff.mp h
  rfl

theorem anthropicContentBlocks_isThinking (item : ResponseItem) :
    ∀ block ∈ anthropicContentBlocks item, block.isThinking = false := by
  intro block hblock
  unfold anthropicContentBlocks at hblock
  split at hblock
  next => exact textBlock_isThinking (Option.mem_toList.mp hblock)
  next =>
    obtain ⟨part, -, hpart⟩ := mem_filterMap.mp hblock
    unfold contentPartToAnthropic at hpart
    split at hpart
    next => exact textBlock_isThinking hpart
    next =>
      split at hpart
      next => exact imageBlock_isThinking hpart
      next => cases hpart
  next =>
    split at hblock
    next => exact textBlock_isThinking (Option.mem_toList.mp hblock)
    next =>
      obtain ⟨imageUrl, -, himage⟩ := Option.bind_eq_some_iff.mp (Option.mem_toList.mp hblock)
      exact imageBlock_isThinking himage

theorem toolOutputContent_isThinking (codec : JsonCodec) (item : ResponseItem) :
    ∀ block ∈ (toolOutputContent codec item).2, block.isThinking = false := by
  have houtput : ∀ output, ∀ block ∈ (functionCallOutputToAnthropicContent output).2, block.isThinking = false := by
    intro output block hblock
    unfold functionCallOutputToAnthropicContent at hblock
    split at hblock
    next => cases hblock
    next =>
      split at hblock
      next => cases hblock
      next =>
        obtain ⟨item, -, hitem⟩ := mem_filterMap.mp hblock
        split at hitem
        next => exact imageBlock_isThinking hitem
        next => cases hitem
  unfold toolOutputContent
  split
  next => exact fun block hblock => absurd hblock not_mem_nil
  next =>
    cases item.output with
    | none => exact fun block hblock => absurd hblock not_mem_nil
    | some output => exact houtput output

theorem anthropicReasoningBlock_isThinking {scope : Option EncryptedContentScope}
    (h : anthropicReasoningBlock scope item = some block) : block.isThinking = true := by
  obtain ⟨scope, -, h⟩ := Option.bind_eq_some_iff.mp h
  obtain ⟨content, -, h⟩ := Option.bind_eq_some_iff.mp h
  split at h
  next => cases h
  next =>
    split at h
    next => cases h
    next =>
      split at h
      next =>
        obtain ⟨parts, -, rfl⟩ := Option.map_eq_some_iff.mp h
        rfl
      next =>
        rw [← Option.some.inj h]
        rfl

def reasoningBlocks (ext : AnthropicExternals) (item : ResponseItem) : List AnthropicBlock :=
  if item.isReasoning then (anthropicReasoningBlock ext.encryptedContentScope item).toList else []

variable {ext : AnthropicExternals} {map next : ToolNameMap}

theorem itemPushes_thinking {index : Nat} {pushes : List AnthropicPush}
    (h : itemPushes ext index map item = .ok (next, pushes)) :
    (pushes.flatMap fun push => push.content.filter AnthropicBlock.isThinking) = reasoningBlocks ext item := by
  have hnot : item.itemType ≠ .reasoning → reasoningBlocks ext item = [] := by
    intro htype
    simp [reasoningBlocks, ResponseItem.isReasoning, htype]
  have hkind : item.itemType.anthropicKind ≠ .reasoning → item.itemType ≠ .reasoning :=
    mt fun htype => by rw [htype]; rfl
  unfold itemPushes at h
  split at h
  next hmessage =>
    obtain ⟨-, rfl⟩ := Prod.mk.inj (Except.ok.inj h)
    rw [hnot (hkind (by rw [hmessage]; exact fun h => noConfusion h))]
    simp [messagePush, filter_isThinking_eq_nil (anthropicContentBlocks_isThinking item)]
  next hreasoning =>
    have htype : item.itemType = .reasoning := by
      unfold ItemType.anthropicKind at hreasoning
      split at hreasoning
      all_goals first | assumption | cases hreasoning
    obtain ⟨-, rfl⟩ := Prod.mk.inj (Except.ok.inj h)
    rw [reasoningBlocks, ResponseItem.isReasoning, htype]
    cases hblock : anthropicReasoningBlock ext.encryptedContentScope item with
    | none => rfl
    | some block => simp [anthropicReasoningBlock_isThinking hblock]
  next houtput =>
    rw [hnot (hkind (by rw [houtput]; exact fun h => noConfusion h))]
    split at h
    next => cases h
    next =>
      obtain ⟨u, -, heq⟩ := map_eq_ok h
      obtain ⟨-, rfl⟩ := Prod.mk.inj heq
      simp [outputPush, AnthropicBlock.isThinking, filter_isThinking_eq_nil (toolOutputContent_isThinking ext.codec item)]
  next hcall =>
    rw [hnot (hkind (by rw [hcall]; exact fun h => noConfusion h))]
    obtain ⟨⟨next', block⟩, hblock, heq⟩ := map_eq_ok h
    obtain ⟨-, rfl⟩ := Prod.mk.inj heq
    cases block with
    | none => rfl
    | some block =>
      obtain ⟨-, name, input, rfl⟩ := responseToolCall_some hblock
      rfl
  next hsearch =>
    obtain ⟨-, rfl⟩ := Prod.mk.inj (Except.ok.inj h)
    rw [hnot (hkind (by rw [hsearch]; exact fun h => noConfusion h))]
    unfold searchPushes webSearchCallHistoryToAnthropic
    dsimp only
    split
    next hpair =>
      split at hpair
      next => cases hpair
      next =>
        obtain ⟨rfl, rfl⟩ := Prod.mk.inj (Option.some.inj hpair)
        simp [filter_map, Function.comp_def, AnthropicBlock.isThinking]
    next => rfl
  next hignored =>
    obtain ⟨-, rfl⟩ := Prod.mk.inj (Except.ok.inj h)
    rw [hnot (hkind (by rw [hignored]; exact fun h => noConfusion h))]
    rfl

variable {items : List ResponseItem}

theorem thinkingBlocks_pushItems {index : Nat} {messages messages' : List AnthropicMessage}
    (h : pushItems ext index map messages items = .ok (next, messages')) :
    thinkingBlocks messages' = thinkingBlocks messages ++ items.flatMap (reasoningBlocks ext) := by
  induction items generalizing index map messages with
  | nil =>
    obtain ⟨-, rfl⟩ := Prod.mk.inj (Except.ok.inj h)
    simp
  | cons item items ih =>
    rw [pushItems] at h
    split at h
    next => cases h
    next map' pushes hpushes =>
      rw [ih h, thinkingBlocks_foldl, itemPushes_thinking hpushes, flatMap_cons, append_assoc]

theorem thinkingBlocks_build {input : List ResponseItem} {messages : List AnthropicMessage}
    (h : buildAnthropicMessages ext input map = .ok (next, messages)) :
    thinkingBlocks messages =
      (input.filter ResponseItem.isReasoning).filterMap (anthropicReasoningBlock ext.encryptedContentScope) := by
  have hitems : ∀ items : List ResponseItem, items.flatMap (reasoningBlocks ext) =
      (items.filter ResponseItem.isReasoning).filterMap (anthropicReasoningBlock ext.encryptedContentScope) := by
    intro items
    induction items with
    | nil => rfl
    | cons item items ih =>
      rw [flatMap_cons, ih, filter_cons, reasoningBlocks]
      split
      next =>
        rw [filterMap_cons]
        cases anthropicReasoningBlock ext.encryptedContentScope item with
        | none | some block => rfl
      next => rfl
  unfold buildAnthropicMessages at h
  split at h
  next => cases h
  next hpush =>
    split at h
    next => cases h
    next =>
      obtain ⟨-, rfl⟩ := Prod.mk.inj (Except.ok.inj h)
      rw [thinkingBlocks_pushItems hpush, hitems]
      rfl

theorem pushItems_reasoning {made : List AnthropicBlock}
    (h : List.Forall₂ (fun item block => item.itemType = .reasoning ∧
      anthropicReasoningBlock ext.encryptedContentScope item = some block) items made) (index : Nat)
    (map : ToolNameMap) (done : List AnthropicBlock) :
    pushItems ext index map [⟨.assistant, done⟩] items = .ok (map, [⟨.assistant, done ++ made⟩]) := by
  induction h generalizing index done with
  | nil => rw [append_nil]; rfl
  | @cons item block items made hitem rest ih =>
    have hpushes : itemPushes ext index map item = .ok (map, [⟨.assistant, [block], .assistantContent⟩]) := by
      simp [itemPushes, hitem.1, hitem.2, ItemType.anthropicKind]
    have hpush : pushAnthropicMessage [⟨.assistant, done⟩] ⟨.assistant, [block], .assistantContent⟩ =
        [⟨.assistant, done ++ [block]⟩] := by
      simp [pushAnthropicMessage, shouldMergeWithMessage, appendContentBlocks]
    rw [pushItems, hpushes]
    dsimp only
    rw [foldl_cons, foldl_nil, hpush, ih, append_assoc]
    rfl

theorem buildAnthropicMessages_reasoning {made : List AnthropicBlock}
    (h : List.Forall₂ (fun item block => item.itemType = .reasoning ∧
      anthropicReasoningBlock ext.encryptedContentScope item = some block) items made) (hne : made ≠ [])
    (map : ToolNameMap) : buildAnthropicMessages ext items map = .ok (map, [⟨.assistant, made⟩]) := by
  cases h with
  | nil => exact absurd rfl hne
  | @cons item block items made hitem rest =>
    have hpushes : itemPushes ext 0 map item = .ok (map, [⟨.assistant, [block], .assistantContent⟩]) := by
      simp [itemPushes, hitem.1, hitem.2, ItemType.anthropicKind]
    have hrest := pushItems_reasoning rest 1 map [block]
    rw [buildAnthropicMessages, pushItems, hpushes]
    dsimp only
    have hpush : [(⟨.assistant, [block], .assistantContent⟩ : AnthropicPush)].foldl pushAnthropicMessage [] =
        [⟨.assistant, [block]⟩] := rfl
    rw [hpush, hrest]
    rfl

end MochiPort

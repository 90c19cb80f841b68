import MochiPort.ResponsesCompat

namespace MochiPort

open JsonRewriting
open MessageParts (insertMissing)

section

variable {codec : JsonCodec} {scope : EncryptedContentScope} {encryptedContentScope : Option EncryptedContentScope}
  {toolNames : ToolNameMap} {names : Option ToolNameMap} {object object' : List (String × JsonValue)}
  {target : ToolCallTarget}

def ToolCallKind.callType : ToolCallKind → String
  | .function => "function_call"
  | .custom => "custom_tool_call"
  | .toolSearch => "tool_search_call"

theorem restoreProviderToolCall_of_none (h : calledTarget toolNames object = none) :
    restoreProviderToolCall codec object toolNames = (object, false) := by rw [restoreProviderToolCall, h]

theorem restoreProviderToolCall_function (h : calledTarget toolNames object = some target)
    (hkind : target.kind = .function) :
    restoreProviderToolCall codec object toolNames = setTargetNames object target := by
  rw [restoreProviderToolCall, h]
  dsimp only
  rw [hkind]

theorem textAt_insertMissing_of_ne {key k : String} (hne : k ≠ key) (value : JsonValue)
    (object : List (String × JsonValue)) : textAt (insertMissing key value object) k = textAt object k := by
  unfold insertMissing
  split
  next => rfl
  next => exact textAt_insert_of_ne hne value object

theorem restoreProviderToolCall_retypes (h : calledTarget toolNames object = some target)
    (hkind : target.kind ≠ .function) :
    textAt (restoreProviderToolCall codec object toolNames).1 "type" = some target.kind.callType ∧
      (restoreProviderToolCall codec object toolNames).2 = true := by
  have htype := calledTarget_type h
  have hset : textAt (setTargetNames object target).1 "type" = some "function_call" := by
    rw [← htype, textAt, lookup_setTargetNames object target (by decide) (by decide)]
    rfl
  have hretyped : ∀ callType, callType ≠ "function_call" →
      (setStringField (setTargetNames object target).1 "type" callType).2 = true := by
    intro callType hne
    refine Bool.not_eq_false _ ▸ fun hfalse => hne ?_
    have hsame := setStringField_changed.mp hfalse
    exact Option.some.inj (hsame.symm.trans hset)
  unfold restoreProviderToolCall
  rw [h]
  dsimp only
  cases hcase : target.kind with
  | function => exact absurd hcase hkind
  | custom =>
    dsimp only
    have htext := textAt_set_self (setTargetNames object target).1 "type" "custom_tool_call"
    split
    next =>
      refine ⟨?_, rfl⟩
      rw [textAt_insert_of_ne (by decide), textAt_remove_of_ne (by decide)]
      exact htext
    next =>
      refine ⟨(textAt_insertMissing_of_ne (by decide) _ _).trans htext, ?_⟩
      rw [hretyped "custom_tool_call" (by decide), Bool.or_true]
  | toolSearch =>
    dsimp only
    have htext := textAt_set_self (setTargetNames object target).1 "type" "tool_search_call"
    have hkept : textAt (removeField "namespace" (removeField "name" (setStringField (setStringField
        (setTargetNames object target).1 "type" "tool_search_call").1 "execution" "client").1)) "type" =
        some "tool_search_call" := by
      rw [textAt_remove_of_ne (by decide), textAt_remove_of_ne (by decide), textAt_set_of_ne (by decide)]
      exact htext
    split
    next =>
      refine ⟨?_, rfl⟩
      rw [textAt_insert_of_ne (by decide), textAt_remove_of_ne (by decide)]
      exact hkept
    next =>
      refine ⟨hkept, ?_⟩
      rw [hretyped "tool_search_call" (by decide), Bool.or_true, Bool.true_or]

theorem restoreProviderToolCall_changed :
    (restoreProviderToolCall codec object toolNames).2 = false ↔
      ∀ target, calledTarget toolNames object = some target → target.kind = .function ∧ HasNames target object := by
  cases hcalled : calledTarget toolNames object with
  | none =>
    rw [restoreProviderToolCall_of_none hcalled]
    exact iff_of_true rfl fun target htarget => nomatch htarget
  | some target =>
    by_cases hkind : target.kind = .function
    · rw [restoreProviderToolCall_function hcalled hkind, setTargetNames_changed]
      constructor
      · intro hnames t ht
        rw [← Option.some.inj ht]
        exact ⟨hkind, hnames⟩
      · intro hall
        exact (hall target rfl).2
    · rw [(restoreProviderToolCall_retypes hcalled hkind).2]
      exact iff_of_false Bool.noConfusion fun hall => hkind (hall target rfl).1

theorem restoreProviderToolCall_unchanged (h : (restoreProviderToolCall codec object toolNames).2 = false) :
    (restoreProviderToolCall codec object toolNames).1 = object := by
  cases hcalled : calledTarget toolNames object with
  | none => rw [restoreProviderToolCall_of_none hcalled]
  | some target =>
    obtain ⟨hkind, hnames⟩ := restoreProviderToolCall_changed.mp h target hcalled
    rw [restoreProviderToolCall_function hcalled hkind]
    exact setTargetNames_unchanged hnames

/-- The scope looks for the state of a private item. -/
def encodes (scope : EncryptedContentScope) (object : List (String × JsonValue)) : Bool :=
  scope.protocol = "anthropic" && isProviderPrivateItem object &&
    (textAt object "encrypted_content").any fun content => content ≠ "" && !startsWithMarker content

section

variable (object)

theorem encodeResponseObject_changed (scope : EncryptedContentScope) :
    (encodeResponseObject object scope).2 = encodes scope object := by
  unfold encodeResponseObject encodes textAt
  by_cases hprotocol : scope.protocol = "anthropic"
  · cases hprivate : isProviderPrivateItem object with
    | false => simp [hprotocol]
    | true =>
      cases hcontent : (object.lookup "encrypted_content").bind JsonValue.asStr with
      | none => simp [hprotocol]
      | some content =>
        by_cases hempty : content = ""
        · simp [hprotocol, hempty]
        · cases hmarked : startsWithMarker content with
          | true => simp [hprotocol, hmarked]
          | false => simp [hprotocol, hempty, hmarked]
  · simp [hprotocol]

theorem encodeResponseObject_cases (scope : EncryptedContentScope) :
    encodeResponseObject object scope = (object, false) ∨
      ∃ content, startsWithMarker content = true ∧
        (encodeResponseObject object scope).1 = insertField "encrypted_content" (.string content) object := by
  unfold encodeResponseObject
  split
  next => exact .inl rfl
  next =>
    cases hcontent : (object.lookup "encrypted_content").bind JsonValue.asStr with
    | none => exact .inl rfl
    | some content =>
      dsimp only
      split
      next => exact .inl rfl
      next hunmarked =>
        have hmarked : startsWithMarker content = false := by
          cases h : startsWithMarker content with
          | true => exact absurd (by rw [h, Bool.or_true]) hunmarked
          | false => rfl
        refine .inr ⟨_, ?_, rfl⟩
        rw [EncryptedContentScope.encodeAnthropic_of_unmarked hmarked]
        exact startsWithMarker_append _

end

variable {key : String}

theorem encodeForScope_lookup (hne : key ≠ "encrypted_content") (object : List (String × JsonValue)) :
    (encodeForScope encryptedContentScope object).1.lookup key = object.lookup key := by
  cases encryptedContentScope with
  | none => rfl
  | some scope =>
    change (encodeResponseObject object scope).1.lookup key = object.lookup key
    rcases encodeResponseObject_cases object scope with h | ⟨content, _, h⟩
    · rw [h]
    · rw [h, lookup_insertField_of_ne _ hne]

theorem encodeForScope_unchanged (h : (encodeForScope encryptedContentScope object).2 = false) :
    (encodeForScope encryptedContentScope object).1 = object := by
  cases encryptedContentScope with
  | none => rfl
  | some scope =>
    change (encodeResponseObject object scope).2 = false at h
    change (encodeResponseObject object scope).1 = object
    unfold encodeResponseObject at h ⊢
    split
    next => rfl
    next hscoped =>
      rw [if_neg hscoped] at h
      dsimp only at h ⊢
      split
      next => rfl
      next hcontent =>
        rw [hcontent] at h
        dsimp only at h
        split
        next => rfl
        next hunmarked =>
          rw [if_neg hunmarked] at h
          cases h

theorem encodeForScope_changed (object : List (String × JsonValue)) :
    (encodeForScope encryptedContentScope object).2 = encryptedContentScope.any fun scope => encodes scope object := by
  cases encryptedContentScope with
  | none => rfl
  | some scope => exact encodeResponseObject_changed object scope

theorem encodes_of_not_private (h : isProviderPrivateItem object = false) : encodes scope object = false := by
  rw [encodes, h, Bool.and_false, Bool.false_and]

theorem encodes_again (object : List (String × JsonValue)) (scope : EncryptedContentScope) :
    encodes scope (encodeResponseObject object scope).1 = false := by
  rcases encodeResponseObject_cases object scope with h | ⟨content, hmarked, h⟩
  · rw [← encodeResponseObject_changed, h, h]
  · rw [h, encodes, textAt_insert_self, Option.any_some, hmarked, Bool.not_true, Bool.and_false, Bool.and_false]

theorem removeExecNamespace_unchanged (h : (removeExecNamespace object).2 = false) :
    (removeExecNamespace object).1 = object := by
  unfold removeExecNamespace at h ⊢
  split
  next hexec =>
    rw [if_pos hexec] at h
    cases h
  next => rfl

theorem removeExecNamespace_changed : (removeExecNamespace object).2 = duplicateExecNamespace object := by
  unfold removeExecNamespace
  split
  next hexec => exact hexec.symm
  next hother => exact (Bool.eq_false_iff.mpr hother).symm

theorem duplicateExecNamespace_again (object : List (String × JsonValue)) :
    duplicateExecNamespace (removeExecNamespace object).1 = false := by
  unfold removeExecNamespace
  split
  next =>
    unfold duplicateExecNamespace
    dsimp only
    rw [lookup_removeField_self, Option.bind_none, Option.any_none, Bool.and_false]
  next hother => exact Bool.eq_false_iff.mpr hother

theorem duplicateExecNamespace_type (h : duplicateExecNamespace object = true) :
    textAt object "type" = some "custom_tool_call" := by
  exact of_decide_eq_true ((Bool.and_eq_true ..).mp ((Bool.and_eq_true ..).mp h).1).1

theorem restoreNamedCall_unchanged (h : (restoreNamedCall codec names object).2 = false) :
    (restoreNamedCall codec names object).1 = object := by
  cases names with
  | none => rfl
  | some toolNames => exact restoreProviderToolCall_unchanged h

theorem normalizeObject_changed :
    (normalizeObject codec encryptedContentScope names object).2 = false ↔
      (encodeForScope encryptedContentScope object).2 = false ∧ (restoreNamedCall codec names object).2 = false ∧
        duplicateExecNamespace object = false := by
  unfold normalizeObject
  rw [Bool.or_eq_false_iff, Bool.or_eq_false_iff, removeExecNamespace_changed, and_assoc]
  constructor
  · rintro ⟨hencoded, hrestored, hexec⟩
    rw [encodeForScope_unchanged hencoded] at hrestored hexec
    rw [restoreNamedCall_unchanged hrestored] at hexec
    exact ⟨hencoded, hrestored, hexec⟩
  · rintro ⟨hencoded, hrestored, hexec⟩
    rw [encodeForScope_unchanged hencoded, restoreNamedCall_unchanged hrestored]
    exact ⟨hencoded, hrestored, hexec⟩

theorem normalizeObject_unchanged (h : (normalizeObject codec encryptedContentScope names object).2 = false) :
    (normalizeObject codec encryptedContentScope names object).1 = object := by
  obtain ⟨hencoded, hrestored, hexec⟩ := normalizeObject_changed.mp h
  unfold normalizeObject
  dsimp only
  rw [encodeForScope_unchanged hencoded, restoreNamedCall_unchanged hrestored]
  exact removeExecNamespace_unchanged (removeExecNamespace_changed.trans hexec)

theorem normalizeObject_same (hsame : SameTexts object object') :
    (normalizeObject codec encryptedContentScope names object).2 =
      (normalizeObject codec encryptedContentScope names object').2 := by
  have htext : ∀ key, textAt object key = textAt object' key := hsame.text
  have hencodes : ∀ scope, encodes scope object = encodes scope object' := by
    intro scope
    have hprivate : isProviderPrivateItem object = isProviderPrivateItem object' :=
      congrArg (Option.any _) (htext "type")
    rw [encodes, encodes, htext, hprivate]
  have hexec : duplicateExecNamespace object = duplicateExecNamespace object' := by
    unfold duplicateExecNamespace
    rw [hsame.text "type"]
    dsimp only
    rw [hsame.text "name", hsame.text "namespace"]
  have hnames : ∀ target, HasNames target object ↔ HasNames target object' := by
    intro target
    constructor
    · intro h
      exact ⟨(htext _).symm.trans h.name, fun ns hns => (htext _).symm.trans (h.present ns hns),
        fun hnone => (hsame.present _).symm.trans (h.absent hnone)⟩
    · intro h
      exact ⟨(htext _).trans h.name, fun ns hns => (htext _).trans (h.present ns hns),
        fun hnone => (hsame.present _).trans (h.absent hnone)⟩
  have hrestored : (restoreNamedCall codec names object).2 = false ↔ (restoreNamedCall codec names object').2 = false := by
    cases names with
    | none => exact Iff.rfl
    | some toolNames =>
      change (restoreProviderToolCall codec object toolNames).2 = false ↔
        (restoreProviderToolCall codec object' toolNames).2 = false
      rw [restoreProviderToolCall_changed, restoreProviderToolCall_changed,
        calledTarget_congr (htext "type") (htext "name")]
      simp only [hnames]
  refine Bool.eq_iff_iff.mpr (not_iff_not.mp ?_)
  rw [Bool.not_eq_true, Bool.not_eq_true, normalizeObject_changed, normalizeObject_changed, encodeForScope_changed,
    encodeForScope_changed, hexec, hrestored]
  simp only [hencodes]

/-- A call that is restored as one of a function has the name of no other tool. -/
def SettledCall (names : Option ToolNameMap) (object : List (String × JsonValue)) : Prop :=
  ∀ toolNames target, names = some toolNames → calledTarget toolNames object = some target →
    target.kind = .function → toolNames.hasEncoded target.name = true → toolNames.decode target.name = target

theorem textAt_removeExecNamespace (hne : key ≠ "namespace") (object : List (String × JsonValue)) :
    textAt (removeExecNamespace object).1 key = textAt object key := by
  unfold removeExecNamespace
  split
  next => exact textAt_remove_of_ne hne object
  next => rfl

theorem removeExecNamespace_function (h : textAt object "type" = some "function_call") :
    (removeExecNamespace object).1 = object := by
  refine removeExecNamespace_unchanged (removeExecNamespace_changed.trans (Bool.eq_false_iff.mpr fun hexec => ?_))
  have hcustom := duplicateExecNamespace_type hexec
  rw [h] at hcustom
  exact absurd hcustom (by decide)

section

variable (object)

theorem restoreProviderToolCall_type (toolNames : ToolNameMap) :
    (restoreProviderToolCall codec object toolNames).1 = object ∨
      ∃ kind : ToolCallKind,
        textAt (restoreProviderToolCall codec object toolNames).1 "type" = some kind.callType := by
  cases hcalled : calledTarget toolNames object with
  | none =>
    rw [restoreProviderToolCall_of_none hcalled]
    exact .inl rfl
  | some target =>
    refine .inr ⟨target.kind, ?_⟩
    by_cases hkind : target.kind = .function
    · rw [restoreProviderToolCall_function hcalled hkind, hkind, textAt,
        lookup_setTargetNames _ _ (by decide) (by decide)]
      exact calledTarget_type hcalled
    · exact (restoreProviderToolCall_retypes hcalled hkind).1

theorem normalizeObject_type :
    (normalizeObject codec encryptedContentScope names object).1 = (encodeForScope encryptedContentScope object).1 ∨
      ∃ kind : ToolCallKind,
        textAt (normalizeObject codec encryptedContentScope names object).1 "type" = some kind.callType := by
  have hrestored : ∀ restored : List (String × JsonValue),
      (restored = (encodeForScope encryptedContentScope object).1 ∨
        ∃ kind : ToolCallKind, textAt restored "type" = some kind.callType) →
      (removeExecNamespace restored).1 = (encodeForScope encryptedContentScope object).1 ∨
        ∃ kind : ToolCallKind, textAt (removeExecNamespace restored).1 "type" = some kind.callType := by
    rintro restored (hsame | ⟨kind, hkind⟩)
    · cases hexec : duplicateExecNamespace restored with
      | true =>
        refine .inr ⟨.custom, ?_⟩
        rw [textAt_removeExecNamespace (by decide)]
        exact duplicateExecNamespace_type hexec
      | false =>
        rw [removeExecNamespace_unchanged (removeExecNamespace_changed.trans hexec)]
        exact .inl hsame
    · refine .inr ⟨kind, ?_⟩
      rwa [textAt_removeExecNamespace (by decide)]
  refine hrestored _ ?_
  cases names with
  | none => exact .inl rfl
  | some toolNames => exact restoreProviderToolCall_type _ toolNames

theorem encodeForScope_again :
    (encodeForScope encryptedContentScope
      (normalizeObject codec encryptedContentScope names object).1).2 = false := by
  rw [encodeForScope_changed]
  cases encryptedContentScope with
  | none => rfl
  | some scope =>
    rcases @normalizeObject_type codec (some scope) names object with hsame | ⟨kind, hkind⟩
    · rw [hsame]
      exact encodes_again object scope
    · apply encodes_of_not_private
      unfold textAt at hkind
      rw [isProviderPrivateItem, hkind, Option.any_some]
      cases kind with
      | _ => decide

theorem restoreProviderToolCall_again_iff (toolNames : ToolNameMap) :
    (restoreProviderToolCall codec
        (removeExecNamespace (restoreProviderToolCall codec object toolNames).1).1 toolNames).2 = false ↔
      ∀ target, calledTarget toolNames object = some target → target.kind = .function →
        toolNames.hasEncoded target.name = true → toolNames.decode target.name = target := by
  rw [restoreProviderToolCall_changed]
  cases hcalled : calledTarget toolNames object with
  | none =>
    have hnone : calledTarget toolNames (removeExecNamespace object).1 = none := by
      rw [← hcalled]
      exact calledTarget_congr (textAt_removeExecNamespace (by decide) object)
        (textAt_removeExecNamespace (by decide) object)
    rw [restoreProviderToolCall_of_none hcalled, hnone]
    exact iff_of_true (fun target htarget => nomatch htarget) fun target htarget => nomatch htarget
  | some target =>
    by_cases hkind : target.kind = .function
    · have htype : textAt (setTargetNames object target).1 "type" = some "function_call" := by
        rw [← calledTarget_type hcalled, textAt, lookup_setTargetNames _ _ (by decide) (by decide)]
        rfl
      have hnames := setTargetNames_hasNames object target
      rw [restoreProviderToolCall_function hcalled hkind, removeExecNamespace_function htype,
        calledTarget_of_name htype hnames.name]
      constructor
      · intro hall t ht _ hknown
        cases Option.some.inj ht
        obtain ⟨hkind', hnames'⟩ := hall _ (if_pos hknown)
        exact hnames.same hnames' (hkind'.trans hkind.symm)
      · intro hsettled t ht
        split at ht
        next hknown =>
          rw [← Option.some.inj ht, hsettled target rfl hkind hknown]
          exact ⟨hkind, hnames⟩
        next => cases ht
    · have htype : textAt (removeExecNamespace (restoreProviderToolCall codec object toolNames).1).1 "type" ≠
          some "function_call" := by
        rw [textAt_removeExecNamespace (by decide), (restoreProviderToolCall_retypes hcalled hkind).1]
        intro hsame
        cases hcase : target.kind with
        | function => exact hkind hcase
        | custom | toolSearch =>
          rw [hcase] at hsame
          exact absurd hsame (by decide)
      rw [calledTarget_of_type htype]
      refine iff_of_true (fun t ht => nomatch ht) fun t ht hkind' => ?_
      cases Option.some.inj ht
      exact absurd hkind' hkind

theorem normalizeObject_again_iff :
    (normalizeObject codec encryptedContentScope names (normalizeObject codec encryptedContentScope names object).1).2 =
      false ↔ SettledCall names object := by
  have hexec : duplicateExecNamespace (normalizeObject codec encryptedContentScope names object).1 = false :=
    duplicateExecNamespace_again _
  rw [normalizeObject_changed, iff_of_true (encodeForScope_again object) trivial, true_and,
    iff_of_true hexec trivial, and_true]
  cases names with
  | none => exact iff_of_true rfl fun toolNames target hnames => nomatch hnames
  | some toolNames =>
    have hcalled : calledTarget toolNames (encodeForScope encryptedContentScope object).1 =
        calledTarget toolNames object := by
      apply calledTarget_congr
      · rw [textAt, encodeForScope_lookup (by decide)]
        rfl
      · rw [textAt, encodeForScope_lookup (by decide)]
        rfl
    have hagain := @restoreProviderToolCall_again_iff codec (encodeForScope encryptedContentScope object).1 toolNames
    rw [hcalled] at hagain
    refine hagain.trans ⟨fun h names target hnames => ?_, fun h target => h toolNames target rfl⟩
    rw [← Option.some.inj hnames]
    exact h target

end

/-- Every member is a string or lighter than the bound. -/
def Lighter (bound : Nat) (object : List (String × JsonValue)) : Prop :=
  ∀ field ∈ object, field.2.asStr.isSome ∨ field.2.weight < bound

variable {value : JsonValue}

theorem mem_insertField {field : String × JsonValue} (h : field ∈ insertField key value object) :
    field = (key, value) ∨ field ∈ object := by
  induction object with
  | nil => exact .inl (List.mem_singleton.mp h)
  | cons first object ih =>
    obtain ⟨k, v⟩ := first
    rw [insertField] at h
    split at h
    next =>
      rcases List.mem_cons.mp h with hfirst | hrest
      · exact .inl hfirst
      · exact .inr (List.mem_cons_of_mem _ hrest)
    next =>
      rcases List.mem_cons.mp h with hfirst | hrest
      · exact .inr (hfirst ▸ List.mem_cons_self)
      · exact (ih hrest).imp_right (List.mem_cons_of_mem _)

variable {bound : Nat}

section

variable (h : Lighter bound object)
include h

theorem Lighter.insert (key : String) (hvalue : value.asStr.isSome ∨ value.weight < bound) :
    Lighter bound (insertField key value object) := by
  intro field hfield
  rcases mem_insertField hfield with rfl | hfield
  · exact hvalue
  · exact h field hfield

theorem Lighter.insertString (key text : String) :
    Lighter bound (insertField key (.string text) object) := h.insert key (.inl rfl)

theorem Lighter.remove (key : String) : Lighter bound (removeField key object) :=
  fun field hfield => h field (List.mem_of_mem_filter hfield)

theorem Lighter.set (key value : String) : Lighter bound (setStringField object key value).1 := by
  unfold setStringField
  split
  next => exact h
  next => exact h.insertString key value

theorem Lighter.setTargetNames (target : ToolCallTarget) : Lighter bound (setTargetNames object target).1 := by
  unfold MochiPort.setTargetNames
  cases target.nameSpace with
  | some nameSpace => exact (h.set "name" target.name).set "namespace" nameSpace
  | none => exact (h.set "name" target.name).remove "namespace"

end

theorem weightFields_insertField (value : JsonValue) {old : JsonValue} (h : object.lookup key = some old)
    (hle : value.weight ≤ old.weight) :
    JsonValue.weightFields (insertField key value object) ≤ JsonValue.weightFields object := by
  induction object with
  | nil => cases h
  | cons first object ih =>
    obtain ⟨k, v⟩ := first
    rw [insertField]
    split
    next hk =>
      rw [hk, List.lookup_cons_self] at h
      cases h
      rw [JsonValue.weightFields, JsonValue.weightFields, hk]
      omega
    next hk =>
      have hne : (key == k) = false := beq_eq_false_iff_ne.mpr fun he => hk he.symm
      rw [List.lookup_cons, hne] at h
      have hrest := ih h
      rw [JsonValue.weightFields, JsonValue.weightFields]
      omega

theorem normalizeIntegralToolSearchLimit_weight (arguments : JsonValue) :
    (normalizeIntegralToolSearchLimit arguments).weight ≤ arguments.weight := by
  unfold normalizeIntegralToolSearchLimit
  split
  next fields =>
    split
    next number hlimit =>
      split
      next limit _ =>
        have hle := weightFields_insertField (.number (.int limit)) hlimit (Nat.le_refl _)
        rw [JsonValue.weight, JsonValue.weight]
        omega
      next => exact Nat.le_refl _
    next => exact Nat.le_refl _
  next => exact Nat.le_refl _

section

variable (hcodec : ∀ text value, codec.parse text = some value → value.weight ≤ text.length)
include hcodec

theorem toolSearchArguments_weight (arguments : JsonValue) :
    (toolSearchArguments codec arguments).weight ≤ arguments.weight := by
  refine (normalizeIntegralToolSearchLimit_weight _).trans ?_
  split
  next text =>
    cases hparse : codec.parse text with
    | none => exact Nat.le_refl _
    | some value =>
      have hle := hcodec text value hparse
      rw [Option.getD_some, JsonValue.weight]
      omega
  next => exact Nat.le_refl _

theorem restoreProviderToolCall_lighter (h : Lighter bound object)
    (harguments : ∀ arguments, object.lookup "arguments" = some arguments → arguments.weight < bound)
    (toolNames : ToolNameMap) : Lighter bound (restoreProviderToolCall codec object toolNames).1 := by
  unfold restoreProviderToolCall
  cases hcalled : calledTarget toolNames object with
  | none => exact h
  | some target =>
    dsimp only
    have hnames := h.setTargetNames target
    cases target.kind with
    | function => exact hnames
    | custom =>
      have hcustom := hnames.set "type" "custom_tool_call"
      dsimp only
      split
      next => exact (hcustom.remove "arguments").insertString "input" _
      next =>
        unfold insertMissing
        split
        next => exact hcustom
        next => exact hcustom.insertString "input" ""
    | toolSearch =>
      have hsearch := (((hnames.set "type" "tool_search_call").set "execution" "client").remove "name").remove
        "namespace"
      dsimp only
      split
      next arguments hlookup =>
        rw [lookup_removeField_of_ne (by decide), lookup_removeField_of_ne (by decide), lookup_set_of_ne (by decide),
          lookup_set_of_ne (by decide), lookup_setTargetNames _ _ (by decide) (by decide)] at hlookup
        refine (hsearch.remove "arguments").insert "arguments" (.inr ?_)
        have hle := toolSearchArguments_weight hcodec arguments
        have hlt := harguments arguments hlookup
        omega
      next => exact hsearch

omit hcodec in
theorem mem_of_lookup (h : object.lookup key = some value) : ∃ field ∈ object, field.2 = value := by
  induction object with
  | nil => cases h
  | cons first object ih =>
    obtain ⟨k, v⟩ := first
    rw [List.lookup_cons] at h
    split at h
    next =>
      exact ⟨(k, v), List.mem_cons_self, Option.some.inj h⟩
    next =>
      obtain ⟨field, hfield, hvalue⟩ := ih h
      exact ⟨field, List.mem_cons_of_mem _ hfield, hvalue⟩

theorem normalizeObject_lighter (object : List (String × JsonValue)) :
    Lighter (JsonValue.object object).weight (normalizeObject codec encryptedContentScope names object).1 := by
  have hobject : Lighter (JsonValue.object object).weight object := fun field hfield =>
    .inr (JsonValue.weight_lt_object hfield)
  have hencoded : Lighter (JsonValue.object object).weight (encodeForScope encryptedContentScope object).1 := by
    cases encryptedContentScope with
    | none => exact hobject
    | some scope =>
      change Lighter _ (encodeResponseObject object scope).1
      rcases encodeResponseObject_cases object scope with h | ⟨content, _, h⟩
      · rw [h]
        exact hobject
      · rw [h]
        exact hobject.insertString "encrypted_content" content
  have harguments : ∀ arguments, (encodeForScope encryptedContentScope object).1.lookup "arguments" = some arguments →
      arguments.weight < (JsonValue.object object).weight := by
    intro arguments hlookup
    rw [encodeForScope_lookup (by decide)] at hlookup
    obtain ⟨field, hfield, rfl⟩ := mem_of_lookup hlookup
    exact JsonValue.weight_lt_object hfield
  have hrestored : Lighter (JsonValue.object object).weight
      (restoreNamedCall codec names (encodeForScope encryptedContentScope object).1).1 := by
    cases names with
    | none => exact hencoded
    | some toolNames => exact restoreProviderToolCall_lighter hcodec hencoded harguments toolNames
  unfold normalizeObject removeExecNamespace
  dsimp only
  split
  next => exact hrestored.remove "namespace"
  next => exact hrestored

theorem normalizeObject_lawful (encryptedContentScope : Option EncryptedContentScope) (names : Option ToolNameMap) :
    Lawful (normalizeObject codec encryptedContentScope names) where
  unchanged _ h := normalizeObject_unchanged h
  same _ _ h := normalizeObject_same h
  shrinks object := normalizeObject_lighter hcodec object

end

end

/-- The rules are idempotent on a value exactly when no call of it, or of the arguments of its searches, is restored to a
function under the name of another tool. No text is shorter than what it says. -/
theorem normalized_again_iff {codec : JsonCodec}
    (hcodec : ∀ text value, codec.parse text = some value → value.weight ≤ text.length)
    (encryptedContentScope : Option EncryptedContentScope) (toolNames : Option ToolNameMap) (value : JsonValue) :
    ∃ result changed,
      normalizeResponseValueWithScopeAndToolNames codec encryptedContentScope toolNames value =
        some (result, changed) ∧
      (normalizeResponseValueWithScopeAndToolNames codec encryptedContentScope toolNames result = some (result, false) ↔
        ∀ object, Visits (normalizeObject codec encryptedContentScope toolNames) value object →
          SettledCall toolNames object) := by
  obtain ⟨result, changed, hresult, hagain⟩ :=
    rewritten_again_iff (normalizeObject_lawful hcodec encryptedContentScope toolNames) value
  refine ⟨result, changed, hresult, hagain.trans (forall_congr' fun object => ?_)⟩
  rw [normalizeObject_again_iff]

def bareObjectCodec : JsonCodec :=
  ⟨fun text => if text = "\x7b\x7d" then some (.object []) else none,
    fun value => if value = .object [] then "\x7b\x7d" else "null"⟩

theorem bareObjectCodec_weight (text : String) (value : JsonValue) (h : bareObjectCodec.parse text = some value) :
    value.weight ≤ text.length := by
  change (if text = "\x7b\x7d" then some (JsonValue.object []) else none) = some value at h
  split at h
  next htext =>
    cases h
    rw [htext]
    decide
  next => cases h

def functionCall (name : String) : JsonValue :=
  .object [("type", .string "function_call"), ("name", .string name), ("arguments", .string "\x7b\x7d")]

def searchNames : ToolNameMap := (ToolNameMap.empty.insert toolSearchName .toolSearch)

theorem normalized_search_call_again_iff :
    ∃ result changed,
      normalizeResponseValueWithScopeAndToolNames bareObjectCodec none (some searchNames)
        (functionCall toolSearchName) = some (result, changed) ∧
      (normalizeResponseValueWithScopeAndToolNames bareObjectCodec none (some searchNames) result =
          some (result, false) ↔
        ∀ object, Visits (normalizeObject bareObjectCodec none (some searchNames)) (functionCall toolSearchName)
          object → SettledCall (some searchNames) object) :=
  normalized_again_iff bareObjectCodec_weight none (some searchNames) (functionCall toolSearchName)

/-- A function of a namespace, and a custom tool of the same name. -/
def sharedNameCalls : List EncodeCall := [.encodeFunction (some "fs") "read", .encodeCustom "read"]

theorem restored_call_restored_again :
    ¬ ∀ (codec : JsonCodec) (sha256 : List UInt8 → Vector UInt8 32) (calls : List EncodeCall) (map : ToolNameMap)
        (names : List (ToolCallTarget × String)) (encryptedContentScope : Option EncryptedContentScope)
        (value : JsonValue),
        (∀ text value, codec.parse text = some value → value.weight ≤ text.length) →
        ToolNameMap.empty.encodeAll sha256 calls = some (map, names) →
        ∃ result changed,
          normalizeResponseValueWithScopeAndToolNames codec encryptedContentScope (some map) value =
            some (result, changed) ∧
          normalizeResponseValueWithScopeAndToolNames codec encryptedContentScope (some map) result =
            some (result, false) := by
  intro h
  have hnames := show ToolNameMap.empty.encodeAll (fun _ => Vector.replicate 32 0) sharedNameCalls = some (_, _) from rfl
  obtain ⟨result, changed, hresult, hagain⟩ := h bareObjectCodec _ sharedNameCalls _ _ none
    (functionCall "fs__codexns__read") bareObjectCodec_weight hnames
  have hfirst := hresult.symm.trans (show _ = some (_, _) from rfl)
  cases hfirst
  exact absurd hagain (by decide)

end MochiPort

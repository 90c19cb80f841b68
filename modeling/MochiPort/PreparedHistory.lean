import MochiPort.AnthropicResponses
import MochiPort.EncryptedContent

/-! What is left of a history when it is prepared for a provider of Responses. -/

namespace MochiPort

open EncryptedContentScope

variable {scope other : EncryptedContentScope}

def hasMarker (item : JsonValue) : Bool := (stringMember item "encrypted_content").any startsWithMarker

/-- What is left of an item, whatever the statistics. -/
def preparedItem (scope : EncryptedContentScope) (item : JsonValue) : Option JsonValue :=
  let prepared := (prepareInputItem scope false false {} item).2
  if prepared.2 then some prepared.1 else none

section

variable (scope)

theorem prepareInputItem_stats (stats : EncryptedContentStats) (item : JsonValue) :
    (prepareInputItem scope false false stats item).2 = (prepareInputItem scope false false {} item).2 := by
  unfold prepareInputItem
  split
  next => rfl
  next =>
    split
    next => rfl
    next =>
      dsimp only
      split
      next => rfl
      next =>
        rw [if_neg Bool.false_ne_true, if_neg Bool.false_ne_true]
        split
        next => rfl
        next => rfl
        next => rfl

theorem foldl_retainInputItem (items : List JsonValue) (done : EncryptedContentStats × List JsonValue) :
    (items.foldl (retainInputItem scope false false) done).2 = done.2 ++ items.filterMap (preparedItem scope) := by
  induction items generalizing done with
  | nil => exact (List.append_nil _).symm
  | cons item items ih =>
    have hstats := prepareInputItem_stats scope done.1 item
    have hstep : (retainInputItem scope false false done item).2 = done.2 ++ (preparedItem scope item).toList := by
      rw [retainInputItem, preparedItem, ← hstats]
      split
      next heq => rw [heq]; rfl
      next heq => rw [heq]; exact (List.append_nil _).symm
    rw [List.foldl_cons, ih, hstep, List.append_assoc, List.filterMap_cons]
    cases preparedItem scope item with
    | none | some prepared => rfl

end

theorem preparedItem_of_unmarked {item : JsonValue} (h : hasMarker item = false) :
    preparedItem scope item = some item := by
  have hkept : (prepareInputItem scope false false {} item).2 = (item, true) := by
    cases item with
    | object fields =>
      cases hcontent : (fields.lookup "encrypted_content").bind JsonValue.asStr with
      | none => simp [prepareInputItem, JsonValue.asObject, hcontent]
      | some content =>
        have hunmarked : startsWithMarker content = false := by
          have hmember : stringMember (.object fields) "encrypted_content" = some content := hcontent
          rwa [hasMarker, hmember, Option.any_some] at h
        have hdecode : scope.decode content = .unmarked := by
          rw [startsWithMarker, Option.isSome_eq_false_iff, Option.isNone_iff_eq_none] at hunmarked
          rw [decode, hunmarked]
        cases hprivate : isProviderPrivateItem fields with
        | false => simp [prepareInputItem, JsonValue.asObject, hprivate]
        | true => simp [prepareInputItem, JsonValue.asObject, hprivate, hcontent, hdecode]
    | _ => rfl
  rw [preparedItem, hkept]
  rfl

/-- The item has state that the gateway marked in a scope, once. -/
structure MarkedIn (scope : EncryptedContentScope) (item : JsonValue) (content : String) : Prop where
  isPrivate : ∃ fields, item = .object fields ∧ isProviderPrivateItem fields = true ∧
    fields.lookup "encrypted_content" = some (.string (scope.encode content))
  readable : scope.Readable
  unmarked : startsWithMarker content = false

def MarkedOnce (items : List JsonValue) : Prop :=
  ∀ item ∈ items, hasMarker item = true → ∃ scope content, MarkedIn scope item content

variable {fields : List (String × JsonValue)}

theorem hasMarker_of_lookup {content : Option String} (h : fields.lookup "encrypted_content" = content.map .string) :
    hasMarker (.object fields) = content.any startsWithMarker := by
  rw [hasMarker, stringMember, JsonValue.get, h]
  cases content with
  | none | some content => rfl

theorem removePrivateTransport_lookup (fields : List (String × JsonValue)) :
    (removePrivateTransport fields).1.lookup "encrypted_content" = none := by
  have hstripped : (removeField "status" (removeField "id" (removeField "encrypted_content" fields))).lookup
      "encrypted_content" = none := by
    rw [lookup_removeField_of_ne (by decide), lookup_removeField_of_ne (by decide), lookup_removeField_self]
  unfold removePrivateTransport
  dsimp only
  split
  next => rw [lookup_removeField_of_ne (by decide), hstripped]
  next => exact hstripped

theorem preparedItem_of_foreign {item : JsonValue} {content : String} (h : MarkedIn scope item content)
    (hne : other ≠ scope) : ∀ prepared ∈ preparedItem other item, prepared.get "encrypted_content" = none := by
  obtain ⟨fields, rfl, hprivate, hcontent⟩ := h.isPrivate
  have hdecode : other.decode (scope.encode content) = .foreign := by
    rw [encode_of_unmarked h.unmarked, decode_marked h.readable,
      if_neg hne]
  have hitem : preparedItem other (.object fields) =
      if (removePrivateTransport fields).2 then some (.object (removePrivateTransport fields).1) else none := by
    unfold preparedItem prepareInputItem
    dsimp only [JsonValue.asObject]
    rw [hprivate, hcontent]
    simp [JsonValue.asStr, hdecode]
  intro prepared hprepared
  rw [hitem] at hprepared
  split at hprepared
  next =>
    rw [← Option.some.inj hprepared]
    exact removePrivateTransport_lookup fields
  next => cases hprepared

theorem preparedItem_of_matching {content : String} (h : MarkedIn scope (.object fields) content) :
    preparedItem scope (.object fields) = some (.object (insertField "encrypted_content" (.string content) fields)) := by
  obtain ⟨_, heq, hprivate, hcontent⟩ := h.isPrivate
  obtain rfl := JsonValue.object.inj heq
  have hdecode : scope.decode (scope.encode content) = .matching content := by
    rw [encode_of_unmarked h.unmarked, decode_marked h.readable,
      if_pos rfl]
  unfold preparedItem prepareInputItem
  dsimp only [JsonValue.asObject]
  rw [hprivate, hcontent]
  simp [JsonValue.asStr, hdecode]

theorem preparedItem_unmarked {items : List JsonValue} (h : MarkedOnce items) {item prepared : JsonValue}
    (hitem : item ∈ items) (hprepared : preparedItem other item = some prepared) : hasMarker prepared = false := by
  cases hmarker : hasMarker item with
  | false =>
    rw [preparedItem_of_unmarked hmarker] at hprepared
    rw [← Option.some.inj hprepared]
    exact hmarker
  | true =>
    obtain ⟨scope, content, hmarked⟩ := h item hitem hmarker
    by_cases hother : other = scope
    · obtain ⟨fields, rfl, -, -⟩ := hmarked.isPrivate
      rw [hother, preparedItem_of_matching hmarked] at hprepared
      have hkept : (insertField "encrypted_content" (.string content) fields).lookup "encrypted_content" =
          (some content).map .string := lookup_insertField_self _
      rw [← Option.some.inj hprepared, hasMarker_of_lookup hkept]
      exact hmarked.unmarked
    · have hgone := preparedItem_of_foreign hmarked hother prepared hprepared
      rw [hasMarker, stringMember, hgone]
      rfl

def historyItems (value : JsonValue) : List JsonValue :=
  match value.get "input" with
  | some (.array items) => items
  | some (.object item) => [.object item]
  | _ => []

theorem preparedItem_object {prepared : JsonValue} (h : preparedItem scope (.object fields) = some prepared) :
    ∃ left, prepared = .object left := by
  have hitem : ∃ left, (prepareInputItem scope false false {} (.object fields)).2.1 = .object left := by
    unfold prepareInputItem
    dsimp only [JsonValue.asObject]
    split
    next => exact ⟨_, rfl⟩
    next =>
      split
      next => exact ⟨_, rfl⟩
      next =>
        rw [if_neg Bool.false_ne_true]
        split
        next => exact ⟨_, rfl⟩
        next => exact ⟨_, rfl⟩
        next => exact ⟨_, rfl⟩
  unfold preparedItem at h
  dsimp only at h
  split at h
  next =>
    rw [← Option.some.inj h]
    exact hitem
  next => cases h

theorem insertField_insertField (key : String) (value : JsonValue) (fields : List (String × JsonValue)) :
    insertField key value (insertField key value fields) = insertField key value fields := by
  induction fields with
  | nil => simp [insertField]
  | cons field fields ih =>
    obtain ⟨k, v⟩ := field
    by_cases hk : k = key
    · simp [insertField, hk]
    · simp [insertField, hk, ih]

inductive Leaves (scope : EncryptedContentScope) : JsonValue → JsonValue → Prop
  | untouched {value : JsonValue} (h : historyItems value = []) : Leaves scope value value
  | removed {body : List (String × JsonValue)}
      (h : (historyItems (.object body)).filterMap (preparedItem scope) = []) :
      Leaves scope (.object body) (.object (removeField "input" body))
  | array {body : List (String × JsonValue)} {items : List JsonValue}
      (hinput : body.lookup "input" = some (.array items)) (hne : items.filterMap (preparedItem scope) ≠ []) :
      Leaves scope (.object body)
        (.object (insertField "input" (.array (items.filterMap (preparedItem scope))) body))
  | single {body item left : List (String × JsonValue)} (hinput : body.lookup "input" = some (.object item))
      (h : preparedItem scope (.object item) = some (.object left)) :
      Leaves scope (.object body) (.object (insertField "input" (.object left) body))

variable {body item : List (String × JsonValue)} {items : List JsonValue} {value left : JsonValue}

theorem historyItems_array (hinput : body.lookup "input" = some (.array items)) :
    historyItems (.object body) = items := by
  rw [historyItems, JsonValue.get, hinput]

theorem historyItems_single (hinput : body.lookup "input" = some (.object item)) :
    historyItems (.object body) = [.object item] := by
  rw [historyItems, JsonValue.get, hinput]

theorem prepareResponsesRequest_array (hinput : body.lookup "input" = some (.array items)) :
    (prepareResponsesRequest (.object body) scope).1 =
      if items.filterMap (preparedItem scope) = [] then .object (removeField "input" body)
      else .object (insertField "input" (.array (items.filterMap (preparedItem scope))) body) := by
  have hkept := foldl_retainInputItem scope items ({}, [])
  rw [List.nil_append] at hkept
  simp only [prepareResponsesRequest, prepareInput, JsonValue.asObject, hinput, hkept]
  split
  next => rfl
  next => rfl

theorem prepareResponsesRequest_single (hinput : body.lookup "input" = some (.object item)) :
    (prepareResponsesRequest (.object body) scope).1 =
      ((preparedItem scope (.object item)).map fun left => JsonValue.object (insertField "input" left body)).getD
        (.object (removeField "input" body)) := by
  simp only [prepareResponsesRequest, prepareInput, JsonValue.asObject, hinput, preparedItem]
  split
  next heq => rw [heq]; rfl
  next heq => rw [heq]; rfl

theorem prepareResponsesRequest_other (harray : ∀ items, value.get "input" ≠ some (.array items))
    (hobject : ∀ item, value.get "input" ≠ some (.object item)) :
    (prepareResponsesRequest value scope).1 = value := by
  cases value with
  | object body =>
    simp only [prepareResponsesRequest, prepareInput, JsonValue.asObject]
    split
    next items hinput => exact absurd hinput (harray items)
    next item hinput => exact absurd hinput (hobject item)
    next => rfl
  | _ => rfl

theorem leaves_prepareResponsesRequest (scope : EncryptedContentScope) (value : JsonValue) :
    Leaves scope value (prepareResponsesRequest value scope).1 := by
  by_cases harray : ∃ items, value.get "input" = some (.array items)
  · obtain ⟨items, hinput⟩ := harray
    cases value with
    | object body =>
      rw [prepareResponsesRequest_array hinput]
      split
      next hnil => exact .removed (by rw [historyItems_array hinput]; exact hnil)
      next hne => exact .array hinput hne
    | _ => cases hinput
  · by_cases hobject : ∃ item, value.get "input" = some (.object item)
    · obtain ⟨item, hinput⟩ := hobject
      cases value with
      | object body =>
        rw [prepareResponsesRequest_single hinput]
        cases hitem : preparedItem scope (.object item) with
        | none =>
          refine .removed ?_
          rw [historyItems_single hinput, List.filterMap_cons, hitem]
          rfl
        | some prepared =>
          obtain ⟨left, rfl⟩ := preparedItem_object hitem
          exact .single hinput hitem
      | _ => cases hinput
    · rw [not_exists] at harray hobject
      rw [prepareResponsesRequest_other harray hobject]
      refine .untouched ?_
      rw [historyItems]
      split
      next items hinput => exact absurd hinput (harray items)
      next item hinput => exact absurd hinput (hobject item)
      next => rfl

theorem Leaves.historyItems_eq (h : Leaves scope value left) :
    historyItems left = (historyItems value).filterMap (preparedItem scope) := by
  cases h with
  | untouched h => rw [h]; rfl
  | removed h =>
    rw [h, historyItems, JsonValue.get, lookup_removeField_self]
  | array hinput hne =>
    rw [historyItems, JsonValue.get, lookup_insertField_self, historyItems, JsonValue.get, hinput]
  | single hinput h =>
    rw [historyItems, JsonValue.get, lookup_insertField_self, historyItems, JsonValue.get, hinput]
    simp [h]

theorem Leaves.get_eq (h : Leaves scope value left) {key : String} (hkey : key ≠ "input") :
    left.get key = value.get key := by
  cases h with
  | untouched h => rfl
  | removed h => exact lookup_removeField_of_ne hkey
  | array hinput hne | single hinput h => exact lookup_insertField_of_ne _ hkey

theorem filterMap_preparedItem_of_unmarked (h : ∀ item ∈ items, hasMarker item = false) :
    items.filterMap (preparedItem scope) = items := by
  induction items with
  | nil => rfl
  | cons item items ih =>
    rw [List.filterMap_cons, preparedItem_of_unmarked (h item List.mem_cons_self)]
    rw [ih fun item hitem => h item (List.mem_cons_of_mem _ hitem)]

theorem historyItems_unmarked (h : MarkedOnce (historyItems value)) :
    ∀ item ∈ historyItems (prepareResponsesRequest value scope).1, hasMarker item = false := by
  intro prepared hprepared
  rw [(leaves_prepareResponsesRequest scope value).historyItems_eq] at hprepared
  obtain ⟨item, hitem, heq⟩ := List.mem_filterMap.mp hprepared
  exact preparedItem_unmarked h hitem heq

theorem prepareResponsesRequest_twice (h : MarkedOnce (historyItems value)) :
    (prepareResponsesRequest (prepareResponsesRequest value scope).1 scope).1 =
      (prepareResponsesRequest value scope).1 := by
  have hunmarked : ∀ item ∈ historyItems (prepareResponsesRequest value scope).1, hasMarker item = false :=
    historyItems_unmarked h
  have hleaves := leaves_prepareResponsesRequest scope value
  generalize hleft : (prepareResponsesRequest value scope).1 = left at hunmarked hleaves
  cases hleaves with
  | untouched hnone => exact hleft
  | @removed body hnone =>
    have habsent : ∀ input, (JsonValue.object (removeField "input" body)).get "input" ≠ some input := by
      intro input hinput
      rw [JsonValue.get, lookup_removeField_self] at hinput
      cases hinput
    exact prepareResponsesRequest_other (fun _ => habsent _) (fun _ => habsent _)
  | @array body items hinput hne =>
    have hlookup : (insertField "input" (.array (items.filterMap (preparedItem scope))) body).lookup "input" =
        some (.array (items.filterMap (preparedItem scope))) := lookup_insertField_self _
    rw [historyItems_array hlookup] at hunmarked
    rw [prepareResponsesRequest_array hlookup, filterMap_preparedItem_of_unmarked hunmarked, if_neg hne,
      insertField_insertField]
  | @single body item left hinput hitem =>
    have hlookup : (insertField "input" (.object left) body).lookup "input" = some (.object left) :=
      lookup_insertField_self _
    rw [historyItems_single hlookup] at hunmarked
    rw [prepareResponsesRequest_single hlookup, preparedItem_of_unmarked (hunmarked _ List.mem_cons_self)]
    rw [Option.map_some, Option.getD_some, insertField_insertField]

theorem unmarked_sublist (scope : EncryptedContentScope) (value : JsonValue) :
    ((historyItems value).filter fun item => !hasMarker item).Sublist
      (historyItems (prepareResponsesRequest value scope).1) := by
  rw [(leaves_prepareResponsesRequest scope value).historyItems_eq]
  generalize historyItems value = items
  induction items with
  | nil => exact List.Sublist.slnil
  | cons item items ih =>
    rw [List.filter_cons, List.filterMap_cons]
    cases hmarker : hasMarker item with
    | false =>
      rw [preparedItem_of_unmarked hmarker]
      exact ih.cons_cons item
    | true =>
      cases preparedItem scope item with
      | none => exact ih
      | some prepared => exact ih.cons prepared

end MochiPort

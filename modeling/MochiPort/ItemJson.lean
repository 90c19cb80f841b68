import MochiPort.GatewayModel

/-! The JSON of an item: a field that is `none` is left out. -/

namespace MochiPort

open List

/-- An object is a map: what stands under a key is replaced where it is, and a new key comes last. -/
def insertField (key : String) (value : JsonValue) : List (String × JsonValue) → List (String × JsonValue)
  | [] => [(key, value)]
  | (k, v) :: fields => if k = key then (key, value) :: fields else (k, v) :: insertField key value fields

def removeField (key : String) (fields : List (String × JsonValue)) : List (String × JsonValue) :=
  fields.filter fun field => field.1 ≠ key

def optionalField (key : String) (value : Option JsonValue) : List (String × JsonValue) :=
  (value.map fun v => (key, v)).toList

def ItemType.wireName : ItemType → String
  | .message => "message"
  | .inputText => "input_text"
  | .inputImage => "input_image"
  | .functionCall => "function_call"
  | .functionCallOutput => "function_call_output"
  | .toolSearchCall => "tool_search_call"
  | .toolSearchOutput => "tool_search_output"
  | .customToolCall => "custom_tool_call"
  | .customToolCallOutput => "custom_tool_call_output"
  | .webSearchCall => "web_search_call"
  | .imageGenerationCall => "image_generation_call"
  | .reasoning => "reasoning"
  | .outputText => "output_text"
  | .unknown => "unknown"

def JsonString.toJson : JsonString → JsonValue
  | .string s => .string s
  | .value v => v

def ContentPart.toJson (part : ContentPart) : JsonValue :=
  .object ([("type", .string part.partType)] ++ optionalField "text" (part.text.map .string) ++
    optionalField "image_url" (part.imageUrl.map .string) ++ optionalField "detail" (part.detail.map .string) ++
    optionalField "annotations" (part.annotations.map .array))

def ItemContent.toJson : ItemContent → JsonValue
  | .text s => .string s
  | .parts ps => .array (ps.map ContentPart.toJson)

def FunctionCallOutputContentItem.toJson (item : FunctionCallOutputContentItem) : JsonValue :=
  .object ([("type", .string item.itemType)] ++ optionalField "text" (item.text.map .string) ++
    optionalField "image_url" (item.imageUrl.map .string) ++
    optionalField "encrypted_content" (item.encryptedContent.map .string) ++ optionalField "detail" item.detail)

def FunctionCallOutput.toJson : FunctionCallOutput → JsonValue
  | .text s => .string s
  | .contentItems items => .array (items.map FunctionCallOutputContentItem.toJson)

def SummaryPart.toJson (part : SummaryPart) : JsonValue :=
  .object [("type", .string part.partType), ("text", .string part.text)]

def ResponseItem.toFields (item : ResponseItem) : List (String × JsonValue) :=
  ("type", .string item.itemType.wireName) ::
    (optionalField "id" (item.id.map .string) ++
    (optionalField "role" (item.role.map .string) ++
    (optionalField "content" (item.content.map ItemContent.toJson) ++
    (optionalField "text" (item.text.map .string) ++
    (optionalField "name" (item.name.map .string) ++
    (optionalField "namespace" (item.nameSpace.map .string) ++
    (optionalField "call_id" (item.callId.map .string) ++
    (optionalField "arguments" (item.arguments.map JsonString.toJson) ++
    (optionalField "input" (item.input.map .string) ++
    (optionalField "output" (item.output.map FunctionCallOutput.toJson) ++
    (optionalField "status" (item.status.map .string) ++
    (optionalField "execution" (item.execution.map .string) ++
    (optionalField "tools" (item.tools.map .array) ++
    (optionalField "image_url" (item.imageUrl.map .string) ++
    (optionalField "detail" (item.detail.map .string) ++
    (optionalField "action" item.action ++
    (optionalField "summary" (item.summary.map fun parts => .array (parts.map SummaryPart.toJson)) ++
    optionalField "encrypted_content" (item.encryptedContent.map .string))))))))))))))))))

variable {fields : List (String × JsonValue)} {key k : String}

@[simp] theorem lookup_insertField_self (value : JsonValue) :
    (insertField key value fields).lookup key = some value := by
  induction fields with
  | nil => simp [insertField]
  | cons field fields ih =>
    obtain ⟨l, v⟩ := field
    by_cases hl : l = key
    · simp [insertField, hl]
    · have hne : (key == l) = false := by simpa using fun h : key = l => hl h.symm
      simp [insertField, hl, lookup_cons, hne, ih]

theorem lookup_insertField_of_ne (value : JsonValue) (h : k ≠ key) :
    (insertField key value fields).lookup k = fields.lookup k := by
  induction fields with
  | nil =>
    have hne : (k == key) = false := by simpa using h
    simp [insertField, lookup_cons, hne]
  | cons field fields ih =>
    obtain ⟨l, v⟩ := field
    by_cases hl : l = key
    · have hne : (k == key) = false := by simpa using h
      simp [insertField, hl, lookup_cons, hne]
    · simp [insertField, hl, lookup_cons, ih]

theorem lookup_removeField_self : (removeField key fields).lookup key = none := by
  refine lookup_eq_none_iff.mpr ?_
  intro field hfield
  have hne := of_decide_eq_true (mem_filter.mp hfield).2
  simpa using fun h : key = field.1 => hne h.symm

theorem lookup_removeField_of_ne (h : k ≠ key) : (removeField key fields).lookup k = fields.lookup k := by
  induction fields with
  | nil => rfl
  | cons field fields ih =>
    obtain ⟨l, v⟩ := field
    have hcons : removeField key ((l, v) :: fields) =
        if l = key then removeField key fields else (l, v) :: removeField key fields := by
      by_cases hl : l = key
      · simp [removeField, hl]
      · simp [removeField, hl]
    rw [hcons]
    split
    next hl =>
      have hne : (k == l) = false := by simpa [hl] using h
      rw [ih, lookup_cons, hne]
    next => rw [lookup_cons, lookup_cons, ih]

section

variable (value : Option JsonValue)
include value

theorem lookup_optionalField (rest : List (String × JsonValue)) :
    (optionalField key value ++ rest).lookup key = value.or (rest.lookup key) := by
  cases value with
  | none => rfl
  | some v => simp [optionalField]

theorem lookup_optionalField_of_ne (rest : List (String × JsonValue)) (h : k ≠ key) :
    (optionalField key value ++ rest).lookup k = rest.lookup k := by
  cases value with
  | none => rfl
  | some v =>
    have hne : (k == key) = false := by simpa using h
    simp [optionalField, lookup_cons, hne]

theorem lookup_optionalField_nil : (optionalField key value).lookup key = value := by
  have h : (optionalField key value ++ []).lookup key = value.or (List.lookup key []) := lookup_optionalField value []
  rwa [append_nil, lookup_nil, Option.or_none] at h

theorem lookup_optionalField_nil_of_ne (h : k ≠ key) : (optionalField key value).lookup k = none := by
  have h' := lookup_optionalField_of_ne value [] h
  rwa [append_nil] at h'

end

theorem toFields_type (item : ResponseItem) : item.toFields.lookup "type" = some (.string item.itemType.wireName) :=
  rfl

theorem toFields_summary (item : ResponseItem) :
    item.toFields.lookup "summary" = item.summary.map fun parts => .array (parts.map SummaryPart.toJson) := by
  simp [ResponseItem.toFields, lookup_cons, lookup_optionalField, lookup_optionalField_of_ne,
    lookup_optionalField_nil_of_ne]

theorem toFields_encryptedContent (item : ResponseItem) :
    item.toFields.lookup "encrypted_content" = item.encryptedContent.map .string := by
  simp [ResponseItem.toFields, lookup_cons, lookup_optionalField_of_ne, lookup_optionalField_nil]

theorem SummaryPart.toJson_injective : Function.Injective SummaryPart.toJson := by
  intro a b h
  cases a
  cases b
  simpa [SummaryPart.toJson] using h

theorem wireName_reasoning {itemType : ItemType} (h : itemType.wireName = "reasoning") : itemType = .reasoning := by
  cases itemType with
  | reasoning => rfl
  | _ => exact absurd h (by decide)

end MochiPort

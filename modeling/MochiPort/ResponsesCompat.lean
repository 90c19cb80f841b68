import MochiPort.AnthropicReassembly
import MochiPort.JsonRewriting

namespace MochiPort

open MessageParts (insertMissing)

def stripEnd (s ending : String) : Option String :=
  if ending.toList <:+ s.toList then some (String.ofList (s.toList.take (s.toList.length - ending.toList.length)))
  else none

def normalizeGrokApplyPatchControlLine (line : String) : Option String :=
  (stripEnd line " ***").filter fun normalized =>
    ["*** Begin Patch", "*** End Patch", "*** End of File"].contains normalized ||
      ["*** Add File: ", "*** Delete File: ", "*** Update File: ", "*** Move to: "].any fun operation =>
        (stripStart normalized operation).any (· ≠ "")

/-- A line without its carriage return is looked at; the carriage return stays. -/
def normalizeGrokApplyPatchLine (line : String) : String :=
  match stripEnd line "\r" with
  | some content => (normalizeGrokApplyPatchControlLine content).getD content ++ "\r"
  | none => (normalizeGrokApplyPatchControlLine line).getD line

def normalizeGrokApplyPatchMarkers (input : String) : String :=
  let (lines, last) := ByteLines.cut '\n' input.toList
  "\n".intercalate ((lines ++ [last]).map fun line => normalizeGrokApplyPatchLine (String.ofList line))

/-- The double of these bits, if it is finite, not negative and without a fraction. -/
def integralDouble (bits : UInt64) : Option Nat :=
  let negative := bits.toNat / 2 ^ 63 = 1
  let exponent := bits.toNat / 2 ^ 52 % 2 ^ 11
  let mantissa := bits.toNat % 2 ^ 52
  let significand := if exponent = 0 then mantissa else 2 ^ 52 + mantissa
  let scale := if exponent = 0 then 1 else exponent
  if exponent = 2047 then none
  else if significand = 0 then some 0
  else if negative then none
  else if 1075 ≤ scale then some (significand * 2 ^ (scale - 1075))
  else if significand % 2 ^ (1075 - scale) = 0 then some (significand / 2 ^ (1075 - scale))
  else none

def integralLimit (number : JsonNumber) : Option Nat :=
  let integral :=
    match number with
    | .int value => if 0 ≤ value then some (roundToDouble value.toNat) else none
    | .float bits => integralDouble bits
  (integral.filter (· ≤ 2 ^ 64)).map fun n => min n (2 ^ 64 - 1)

def normalizeIntegralToolSearchLimit (arguments : JsonValue) : JsonValue :=
  match arguments with
  | .object fields =>
    match fields.lookup "limit" with
    | some (.number number) =>
      match integralLimit number with
      | some limit => .object (insertField "limit" (.number (.int limit)) fields)
      | none => arguments
    | _ => arguments
  | _ => arguments

/-- Replaces a member, unless it is the string already. -/
def setStringField (object : List (String × JsonValue)) (key value : String) : List (String × JsonValue) × Bool :=
  if (object.lookup key).bind JsonValue.asStr = some value then (object, false)
  else (insertField key (.string value) object, true)

section

variable (codec : JsonCodec)

def customInputValue (arguments : JsonValue) : Option String :=
  let text (input : JsonValue) : String := input.asStr.getD (codec.print input)
  arguments.asObject.bind fun object =>
    ((object.lookup "patch").map fun input => normalizeGrokApplyPatchMarkers (text input)).or
      ((object.lookup "input").map text)

def parsedCustomInputFromArguments (arguments : JsonValue) : Option String :=
  match arguments with
  | .string text => (codec.parse text).bind (customInputValue codec)
  | arguments => customInputValue codec arguments

def customInputFromArguments (arguments : JsonValue) : String :=
  (parsedCustomInputFromArguments codec arguments).getD (arguments.asStr.getD (codec.print arguments))

def toolSearchArguments (arguments : JsonValue) : JsonValue :=
  normalizeIntegralToolSearchLimit
    (match arguments with
    | .string text => (codec.parse text).getD (.string text)
    | arguments => arguments)

/-- The tool that a function call names by a name of the map. -/
def calledTarget (toolNames : ToolNameMap) (object : List (String × JsonValue)) : Option ToolCallTarget :=
  if (object.lookup "type").bind JsonValue.asStr = some "function_call" then
    (((object.lookup "name").bind JsonValue.asStr).filter toolNames.hasEncoded).map toolNames.decode
  else none

/-- The members that the target decides; a namespace that it lacks is removed. -/
def setTargetNames (object : List (String × JsonValue)) (target : ToolCallTarget) : List (String × JsonValue) × Bool :=
  let (object, renamed) := setStringField object "name" target.name
  match target.nameSpace with
  | some nameSpace =>
    let (object, moved) := setStringField object "namespace" nameSpace
    (object, renamed || moved)
  | none => (removeField "namespace" object, renamed || (object.lookup "namespace").isSome)

def restoreProviderToolCall (object : List (String × JsonValue)) (toolNames : ToolNameMap) :
    List (String × JsonValue) × Bool :=
  match calledTarget toolNames object with
  | none => (object, false)
  | some target =>
    let (object, changed) := setTargetNames object target
    match target.kind with
    | .function => (object, changed)
    | .custom =>
      let (object, retyped) := setStringField object "type" "custom_tool_call"
      match object.lookup "arguments" with
      | some arguments =>
        let input := JsonValue.string (customInputFromArguments codec arguments)
        (insertField "input" input (removeField "arguments" object), true)
      | none => (insertMissing "input" (.string "") object, changed || retyped)
    | .toolSearch =>
      let (object, retyped) := setStringField object "type" "tool_search_call"
      let (object, client) := setStringField object "execution" "client"
      let object := removeField "namespace" (removeField "name" object)
      match object.lookup "arguments" with
      | some arguments =>
        (insertField "arguments" (toolSearchArguments codec arguments) (removeField "arguments" object), true)
      | none => (object, changed || retyped || client)

def duplicateExecNamespace (object : List (String × JsonValue)) : Bool :=
  let isExec (key : String) : Bool := ((object.lookup key).bind JsonValue.asStr).any fun s => RustText.trim s = "exec"
  (object.lookup "type").bind JsonValue.asStr = some "custom_tool_call" && isExec "name" && isExec "namespace"

def removeExecNamespace (object : List (String × JsonValue)) : List (String × JsonValue) × Bool :=
  if duplicateExecNamespace object then (removeField "namespace" object, true) else (object, false)

def encodeForScope (encryptedContentScope : Option EncryptedContentScope) (object : List (String × JsonValue)) :
    List (String × JsonValue) × Bool :=
  match encryptedContentScope with
  | some scope => encodeResponseObject object scope
  | none => (object, false)

def restoreNamedCall (toolNames : Option ToolNameMap) (object : List (String × JsonValue)) :
    List (String × JsonValue) × Bool :=
  match toolNames with
  | some toolNames => restoreProviderToolCall codec object toolNames
  | none => (object, false)

def normalizeObject (encryptedContentScope : Option EncryptedContentScope) (toolNames : Option ToolNameMap)
    (object : List (String × JsonValue)) : List (String × JsonValue) × Bool :=
  let (object, encoded) := encodeForScope encryptedContentScope object
  let (object, restored) := restoreNamedCall codec toolNames object
  let (object, removed) := removeExecNamespace object
  (object, encoded || restored || removed)

/-- The rules for every object of a value, an object before its members; says whether anything changed. -/
def normalizeResponseValueWithScopeAndToolNames (encryptedContentScope : Option EncryptedContentScope)
    (toolNames : Option ToolNameMap) (value : JsonValue) : Option (JsonValue × Bool) :=
  JsonRewriting.rewritten (normalizeObject codec encryptedContentScope toolNames) value

end

section

variable {codec : JsonCodec} {scope : Option EncryptedContentScope} {toolNames : ToolNameMap}
  {object object' : List (String × JsonValue)} {target : ToolCallTarget} {key value : String}

def textAt (object : List (String × JsonValue)) (key : String) : Option String :=
  (object.lookup key).bind JsonValue.asStr

theorem textAt_insert_self (text : String) (object : List (String × JsonValue)) :
    textAt (insertField key (.string text) object) key = some text := by
  rw [textAt, lookup_insertField_self]
  rfl

variable {k : String}

theorem textAt_insert_of_ne (hne : k ≠ key) (v : JsonValue) (object : List (String × JsonValue)) :
    textAt (insertField key v object) k = textAt object k := by
  rw [textAt, lookup_insertField_of_ne v hne]
  rfl

theorem textAt_remove_of_ne (hne : k ≠ key) (object : List (String × JsonValue)) :
    textAt (removeField key object) k = textAt object k := by
  rw [textAt, lookup_removeField_of_ne hne]
  rfl

theorem textAt_set_self (object : List (String × JsonValue)) (key value : String) :
    textAt (setStringField object key value).1 key = some value := by
  unfold setStringField
  split
  next hsame => exact hsame
  next => exact textAt_insert_self value object

theorem lookup_set_of_ne (hne : k ≠ key) (object : List (String × JsonValue)) (value : String) :
    (setStringField object key value).1.lookup k = object.lookup k := by
  unfold setStringField
  split
  next => rfl
  next => exact lookup_insertField_of_ne _ hne

theorem textAt_set_of_ne (hne : k ≠ key) (object : List (String × JsonValue)) (value : String) :
    textAt (setStringField object key value).1 k = textAt object k := by
  rw [textAt, lookup_set_of_ne hne]
  rfl

theorem setStringField_changed : (setStringField object key value).2 = false ↔ textAt object key = some value := by
  unfold setStringField
  split
  next hsame => exact iff_of_true rfl hsame
  next hother => exact iff_of_false Bool.noConfusion hother

theorem setStringField_unchanged (h : (setStringField object key value).2 = false) :
    (setStringField object key value).1 = object := by
  unfold setStringField at h ⊢
  split
  next => rfl
  next hother =>
    rw [if_neg hother] at h
    cases h

theorem removeField_of_missing (h : (object.lookup key).isSome = false) : removeField key object = object := by
  refine List.filter_eq_self.mpr fun field hfield => ?_
  have hnone := Option.isSome_eq_false_iff.mp h
  have hne := List.lookup_eq_none_iff.mp (Option.isNone_iff_eq_none.mp hnone) field hfield
  exact decide_eq_true fun he => by simp [he] at hne

structure HasNames (target : ToolCallTarget) (object : List (String × JsonValue)) : Prop where
  name : textAt object "name" = some target.name
  present : ∀ nameSpace, target.nameSpace = some nameSpace → textAt object "namespace" = some nameSpace
  absent : target.nameSpace = none → (object.lookup "namespace").isSome = false

theorem setTargetNames_changed : (setTargetNames object target).2 = false ↔ HasNames target object := by
  unfold setTargetNames
  have hnamespace : textAt (setStringField object "name" target.name).1 "namespace" = textAt object "namespace" :=
    textAt_set_of_ne (by decide) object _
  cases htarget : target.nameSpace with
  | some nameSpace =>
    rw [Bool.or_eq_false_iff, setStringField_changed, setStringField_changed, hnamespace]
    constructor
    · rintro ⟨hname, hsame⟩
      refine ⟨hname, fun ns hns => ?_, fun hnone => ?_⟩
      · rw [← Option.some.inj (htarget.symm.trans hns)]
        exact hsame
      · rw [htarget] at hnone
        cases hnone
    · intro h
      exact ⟨h.name, h.present nameSpace htarget⟩
  | none =>
    rw [Bool.or_eq_false_iff, setStringField_changed, lookup_set_of_ne (by decide)]
    constructor
    · rintro ⟨hname, hmissing⟩
      refine ⟨hname, fun ns hns => ?_, fun _ => hmissing⟩
      rw [htarget] at hns
      cases hns
    · intro h
      exact ⟨h.name, h.absent htarget⟩

theorem setTargetNames_unchanged (h : HasNames target object) : (setTargetNames object target).1 = object := by
  have hname := setStringField_unchanged (setStringField_changed.mpr h.name)
  unfold setTargetNames
  dsimp only
  rw [hname]
  cases htarget : target.nameSpace with
  | some nameSpace => exact setStringField_unchanged (setStringField_changed.mpr (h.present nameSpace htarget))
  | none => exact removeField_of_missing (h.absent htarget)

section

variable (object)

theorem setTargetNames_hasNames (target : ToolCallTarget) : HasNames target (setTargetNames object target).1 := by
  have hname := textAt_set_self object "name" target.name
  unfold setTargetNames
  cases htarget : target.nameSpace with
  | some nameSpace =>
    refine ⟨(textAt_set_of_ne (by decide) _ nameSpace).trans hname, fun ns hns => ?_, fun hnone => ?_⟩
    · rw [← Option.some.inj (htarget.symm.trans hns)]
      exact textAt_set_self _ "namespace" nameSpace
    · rw [htarget] at hnone
      cases hnone
  | none =>
    refine ⟨(textAt_remove_of_ne (by decide) _).trans hname, fun ns hns => ?_, fun _ => ?_⟩
    · rw [htarget] at hns
      cases hns
    · dsimp only
      rw [lookup_removeField_self]
      rfl

theorem lookup_setTargetNames (target : ToolCallTarget) (hname : k ≠ "name") (hnamespace : k ≠ "namespace") :
    (setTargetNames object target).1.lookup k = object.lookup k := by
  unfold setTargetNames
  cases target.nameSpace with
  | some nameSpace => exact (lookup_set_of_ne hnamespace _ _).trans (lookup_set_of_ne hname _ _)
  | none => exact (lookup_removeField_of_ne hnamespace).trans (lookup_set_of_ne hname _ _)

end

theorem HasNames.same {target' : ToolCallTarget} (h : HasNames target object) (h' : HasNames target' object)
    (hkind : target'.kind = target.kind) : target' = target := by
  have hname : target'.name = target.name := Option.some.inj (h'.name.symm.trans h.name)
  have hnamespace : target'.nameSpace = target.nameSpace := by
    cases hns : target.nameSpace with
    | some nameSpace =>
      have htext := h.present nameSpace hns
      cases hns' : target'.nameSpace with
      | some nameSpace' => rw [← h'.present nameSpace' hns', htext]
      | none =>
        have hmissing := Option.isNone_iff_eq_none.mp (Option.isSome_eq_false_iff.mp (h'.absent hns'))
        rw [textAt, hmissing] at htext
        cases htext
    | none =>
      cases hns' : target'.nameSpace with
      | some nameSpace' =>
        have htext := h'.present nameSpace' hns'
        have hmissing := Option.isNone_iff_eq_none.mp (Option.isSome_eq_false_iff.mp (h.absent hns))
        rw [textAt, hmissing] at htext
        cases htext
      | none => rfl
  cases target
  cases target'
  simp_all

theorem calledTarget_type (h : calledTarget toolNames object = some target) :
    textAt object "type" = some "function_call" := by
  unfold calledTarget at h
  split at h
  next htype => exact htype
  next => cases h

theorem calledTarget_of_type (h : textAt object "type" ≠ some "function_call") :
    calledTarget toolNames object = none := if_neg h

theorem calledTarget_of_name (htype : textAt object "type" = some "function_call") {name : String}
    (hname : textAt object "name" = some name) :
    calledTarget toolNames object = if toolNames.hasEncoded name then some (toolNames.decode name) else none := by
  unfold textAt at htype hname
  rw [calledTarget, if_pos htype, hname, Option.filter_some]
  split
  next => rfl
  next => rfl

theorem calledTarget_congr (htype : textAt object' "type" = textAt object "type")
    (hname : textAt object' "name" = textAt object "name") :
    calledTarget toolNames object' = calledTarget toolNames object := by
  unfold textAt at htype hname
  unfold calledTarget
  rw [htype, hname]

end

end MochiPort

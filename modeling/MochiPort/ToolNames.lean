import MochiPort.RustText
import MochiPort.Tables

namespace MochiPort

open RustText

def toolSearchName : String := "tool_search"
def namespaceMarker : String := "__codexns__"
def legacyNamespaceMarker : String := "responses_unit__"
def providerToolNameMaxLen : Nat := 64

inductive ToolCallKind where
  | function
  | toolSearch
  | custom
  deriving DecidableEq

structure ToolCallTarget where
  kind : ToolCallKind
  nameSpace : Option String
  name : String
  deriving DecidableEq

def trimmedNamespace (nameSpace : Option String) : Option String :=
  (nameSpace.map trim).filter (· ≠ "")

namespace ToolCallTarget

def ofFunction (nameSpace : Option String) (name : String) : ToolCallTarget :=
  ⟨.function, trimmedNamespace nameSpace, name⟩

def toolSearch : ToolCallTarget := ⟨.toolSearch, none, toolSearchName⟩

def custom (name : String) : ToolCallTarget := ⟨.custom, none, name⟩

end ToolCallTarget

structure ToolNameMap where
  encodedToTarget : Table String ToolCallTarget
  targetToEncoded : Table ToolCallTarget String

def encodeProviderToolName (nameSpace : Option String) (name : String) : String :=
  match trimmedNamespace nameSpace with
  | some trimmed =>
    if trim name ≠ "" then trimmed ++ namespaceMarker ++ trim name else trim name
  | none => trim name

/-- What stands before and after the marker, when neither is empty. -/
def splitMarker (value marker : String) : Option (String × String) :=
  (splitOnce value marker).filter fun parts => parts.1 ≠ "" && parts.2 ≠ ""

def decodeProviderToolName (encoded : String) : ToolCallTarget :=
  if encoded = toolSearchName then .toolSearch
  else
    match (splitMarker encoded namespaceMarker).or (splitMarker encoded legacyNamespaceMarker) with
    | some (nameSpace, name) => .ofFunction (some nameSpace) name
    | none => .ofFunction none encoded

def isProviderSafe (c : Char) : Bool :=
  ('a' ≤ c && c ≤ 'z') || ('A' ≤ c && c ≤ 'Z') || ('0' ≤ c && c ≤ '9') || c = '_' || c = '-'

def providerSafeToolName (name : String) : String :=
  let output := (trim name).toList.map fun c => if isProviderSafe c then c else '_'
  if output = [] then "tool" else String.ofList output

/-- The longest prefix that fits: the names that it is used on are ASCII, where a character is a byte. -/
def trimToCharBoundary (value : String) (maxLen : Nat) : String :=
  String.ofList (value.toList.take maxLen)

def trimEndUnderscores (value : String) : String :=
  String.ofList (value.toList.reverse.dropWhile (· = '_')).reverse

def ToolCallKind.debugName : ToolCallKind → String
  | .function => "Function"
  | .toolSearch => "ToolSearch"
  | .custom => "Custom"

def hexEncode (bytes : List UInt8) : String :=
  String.ofList (bytes.flatMap fun b => [hexDigit (b.toNat / 16), hexDigit (b.toNat % 16)])

theorem hexEncode_length (bytes : List UInt8) : (hexEncode bytes).toList.length = 2 * bytes.length := by
  rw [hexEncode, String.toList_ofList]
  induction bytes with
  | nil => rfl
  | cons b rest ih =>
    rw [List.flatMap_cons, List.length_append, ih, List.length_cons]
    simp only [List.length_cons, List.length_nil]
    omega

/-- The first five bytes of the digest of a target; `sha256` is the hash function. -/
def targetHash (sha256 : List UInt8 → Vector UInt8 32) (target : ToolCallTarget) : String :=
  let text := "codexhub-tool-name-v1\x00" ++ target.kind.debugName ++ "\x00" ++ target.nameSpace.getD "" ++ "\x00" ++
    target.name
  hexEncode ((sha256 text.toUTF8.toList).toList.take 5)

/-- The name that is tried after `counter` others were taken. -/
def suffixedName (base hash : String) (counter : Nat) : String :=
  let suffix := "_h" ++ hash ++ (if counter = 0 then "" else toString counter)
  let trimmed := trimEndUnderscores (trimToCharBoundary base (providerToolNameMaxLen - suffix.length))
  if trimmed = "" then "tool" ++ suffix else trimmed ++ suffix

namespace ToolNameMap

def empty : ToolNameMap := ⟨∅, ∅⟩

def insert (map : ToolNameMap) (encoded : String) (target : ToolCallTarget) : ToolNameMap :=
  ⟨map.encodedToTarget.insert encoded target, map.targetToEncoded.insert target encoded⟩

def decode (map : ToolNameMap) (encoded : String) : ToolCallTarget :=
  (map.encodedToTarget.lookup encoded).getD (decodeProviderToolName encoded)

def hasEncoded (map : ToolNameMap) (encoded : String) : Bool :=
  (map.encodedToTarget.lookup encoded).isSome

/-- The name is free or belongs to the target. -/
def available (map : ToolNameMap) (target : ToolCallTarget) (encoded : String) : Bool :=
  (map.encodedToTarget.lookup encoded).all (· = target)

/-- The loop over the suffixed names, for at most `fuel` rounds. -/
def allocateSuffixed (map : ToolNameMap) (base hash : String) (target : ToolCallTarget) : Nat → Nat → Option String
  | 0, _ => none
  | fuel + 1, counter =>
    if map.available target (suffixedName base hash counter) then some (suffixedName base hash counter)
    else map.allocateSuffixed base hash target fuel (counter + 1)

def allocateEncodedName (sha256 : List UInt8 → Vector UInt8 32) (map : ToolNameMap) (preferred : String)
    (target : ToolCallTarget) (fuel : Nat) : Option String :=
  let base := providerSafeToolName preferred
  if base.length ≤ providerToolNameMaxLen && map.available target base then some base
  else map.allocateSuffixed base (targetHash sha256 target) target fuel 0

def preferredName (target : ToolCallTarget) : String :=
  match target.kind with
  | .function => encodeProviderToolName target.nameSpace target.name
  | .toolSearch => toolSearchName
  | .custom => target.name

/-- The name of a target and the map that knows it. The loop is given as many rounds as the map has names, and
one more. -/
def encode (sha256 : List UInt8 → Vector UInt8 32) (map : ToolNameMap) (target : ToolCallTarget) :
    Option (ToolNameMap × String) :=
  match map.targetToEncoded.lookup target with
  | some encoded => some (map, encoded)
  | none =>
    (map.allocateEncodedName sha256 (preferredName target) target (map.encodedToTarget.entries.length + 1)).map
      fun encoded => (map.insert encoded target, encoded)

end ToolNameMap

inductive EncodeCall where
  | encodeFunction (nameSpace : Option String) (name : String)
  | encodeCustom (name : String)
  | encodeToolSearch
  | encode (target : ToolCallTarget)

def EncodeCall.target : EncodeCall → ToolCallTarget
  | .encodeFunction nameSpace name => .ofFunction nameSpace name
  | .encodeCustom name => .custom name
  | .encodeToolSearch => .toolSearch
  | .encode target => target

/-- Makes the calls one after the other and lists each target with its name. -/
def ToolNameMap.encodeAll (sha256 : List UInt8 → Vector UInt8 32) :
    ToolNameMap → List EncodeCall → Option (ToolNameMap × List (ToolCallTarget × String))
  | map, [] => some (map, [])
  | map, call :: calls =>
    (map.encode sha256 call.target).bind fun (next, encoded) =>
      (encodeAll sha256 next calls).map fun (last, names) => (last, (call.target, encoded) :: names)

end MochiPort

import Mathlib
import MochiPort.CrashPrograms
import MochiPort.ToolNames

/-! The launch arguments of the editor extension, and the files a patch of them leaves. -/

namespace MochiPort

/-- The positions where a pattern starts; an occurrence inside the one before does not count. -/
def matchIndices (pattern : List Char) (skip index : Nat) : List Char → List Nat
  | [] => []
  | c :: cs =>
    match skip with
    | skip + 1 => matchIndices pattern skip (index + 1) cs
    | 0 =>
      if pattern.isPrefixOf (c :: cs) then index :: matchIndices pattern (pattern.length - 1) (index + 1) cs
      else matchIndices pattern 0 (index + 1) cs

def appServerSpawnMarker : List Char := "Spawning codex app-server".toList

def appServerSubcommand : String := "app-server"

def analyticsFlag : String := "--analytics-default-enabled"

def remoteControlFlag : String := "--remote-control"

def appServerLaunchScanBytes : Nat := 2048

def findArrayEnd (depth : Nat) (inString escaped : Bool) : List Char → Option Nat
  | [] => none
  | c :: cs =>
    let rest (depth : Nat) (inString escaped : Bool) := (findArrayEnd depth inString escaped cs).map (· + 1)
    if inString then
      if escaped then rest depth true false
      else if c = '\\' then rest depth true true
      else if c = '"' then rest depth false escaped
      else rest depth true escaped
    else if c = '"' then rest depth true escaped
    else if c = '[' then rest (depth + 1) false escaped
    else if c = ']' then if depth - 1 = 0 then some 0 else rest (depth - 1) false escaped
    else rest depth false escaped

inductive PatchFile
  | extensionJs
  | backup
  | state
  | legacyBackup
  | legacyState
  deriving DecidableEq, Repr

structure PatchState where
  extensionJs : String
  backupPath : String
  originalSha256 : String
  patchedSha256 : String
  patchedAtUnixSecs : Nat
  deriving DecidableEq

/-- What the patch takes from outside: the texts of the paths, the digest, and the reading and printing of JSON. -/
structure PatchExternals where
  path : PatchFile → String
  sha256 : List UInt8 → Vector UInt8 32
  /-- `serde_json::from_str::<Vec<String>>` -/
  readArgs : List Char → Option (List String)
  /-- A state whose paths are no texts cannot be printed. -/
  printState : PatchState → Option (List Char)
  readState : List Char → Option PatchState

section LaunchArgs

variable (ext : PatchExternals)

/-- The array of launch arguments that starts so far behind a marker. -/
def launchArgsAt (markerEnd : Nat) (searchArea : List Char) (relativeStart : Nat) : Option (Nat × List String) :=
  match findArrayEnd 0 false false (searchArea.drop relativeStart) with
  | none => none
  | some length =>
    match ext.readArgs ((searchArea.drop relativeStart).take (length + 1)) with
    | none => none
    | some args =>
      let context := searchArea.take relativeStart
      if !args.contains analyticsFlag then none
      else if args.contains appServerSubcommand || "\"app-server\"".toList <:+: context then
        some (markerEnd + relativeStart + length, args)
      else none

def findAppServerLaunchArgs (source : List Char) : Option (Nat × List String) :=
  (matchIndices appServerSpawnMarker 0 0 source).findSome? fun markerStart =>
    let markerEnd := markerStart + appServerSpawnMarker.length
    let searchArea := takeBytes appServerLaunchScanBytes (source.drop markerEnd)
    (matchIndices ['['] 0 0 searchArea).findSome? (launchArgsAt ext markerEnd searchArea)

def patchRemoteControlSource (source : List Char) : Option (List Char) :=
  match findAppServerLaunchArgs ext source with
  | none => none
  | some (arrayEnd, args) =>
    if args.any (· == remoteControlFlag) then some source
    else some (source.take arrayEnd ++ ",\"--remote-control\"".toList ++ source.drop arrayEnd)

end LaunchArgs

/-- `read_to_string` takes nothing but UTF-8. -/
def decodeText (contents : ByteArray) : Option (List Char) := contents.utf8Decode?.map Array.toList

def encodeText (text : List Char) : ByteArray := (String.ofList text).toUTF8

theorem encodeText_eq (text : List Char) : encodeText text = text.utf8Encode := String.toByteArray_ofList

@[simp] theorem decodeText_encodeText (text : List Char) : decodeText (encodeText text) = some text := by
  rw [encodeText_eq, decodeText, List.utf8Decode?_utf8Encode, Option.map_some, List.toList_toArray]

theorem encodeText_of_decodeText {contents : ByteArray} {text : List Char} (h : decodeText contents = some text) :
    encodeText text = contents := by
  obtain ⟨chars, hchars, htext⟩ := Option.map_eq_some_iff.mp h
  subst htext
  have hsome : contents.utf8Decode?.isSome := by rw [hchars]; rfl
  have hget : contents.utf8Decode?.get hsome = chars := Option.get_of_eq_some hsome hchars
  rw [← hget, encodeText_eq]
  exact ByteArray.utf8Encode_get_utf8Decode?

/-- What `sha256_hex` makes of a text. -/
def sha256Hex (ext : PatchExternals) (text : List Char) : String :=
  hexEncode (ext.sha256 (encodeText text).toList).toList

/-! The operations on the five files, and what a fault leaves of them. -/

inductive FileOp
  | fileExists (file : PatchFile)
  | readToString (file : PatchFile)
  | copy (source target : PatchFile)
  | write (file : PatchFile) (contents : ByteArray)
  | removeFile (file : PatchFile)

def FileOp.Answer : FileOp → Type
  | .fileExists _ => Bool
  | .readToString _ => Option (List Char)
  | .copy _ _ => Bool
  | .write _ _ => Bool
  | .removeFile _ => Bool

/-- A write or a copy that fails leaves the file as it was, or with the first bytes of the new contents. -/
inductive FileFault
  | goesThrough
  | fails (written : Option Nat)
  deriving DecidableEq

/-- The files, and what `extension.js` held right before the patch that it now has was written: nothing if it was
rewritten from outside since. -/
structure Install where
  disk : PatchFile → Option ByteArray
  patch : Option ByteArray

def Install.setFile (install : Install) (file : PatchFile) (contents : Option ByteArray) : Install :=
  { install with disk := Function.update install.disk file contents }

def Install.readText (install : Install) (file : PatchFile) : Option (List Char) :=
  (install.disk file).bind decodeText

/-- What is in a file after a write of new contents. -/
def writtenContents (fault : FileFault) (old : Option ByteArray) (new : ByteArray) : Option ByteArray :=
  match fault with
  | .goesThrough => some new
  | .fails none => old
  | .fails (some length) => some (new.extract 0 length)

/-- A write to `extension.js` patches it, so far as it changes it. -/
def Install.writeFile (install : Install) (file : PatchFile) (contents : Option ByteArray) : Install :=
  let written := install.setFile file contents
  if file = .extensionJs ∧ contents ≠ install.disk .extensionJs then
    { written with patch := install.disk .extensionJs }
  else written

def performFileOp (op : FileOp) (fault : FileFault) (install : Install) : op.Answer × Install :=
  match op with
  | .fileExists file => (decide (fault = .goesThrough) && (install.disk file).isSome, install)
  | .readToString file => (if fault = .goesThrough then install.readText file else none, install)
  | .copy source target =>
    match install.disk source with
    | none => (false, install)
    | some contents =>
      (decide (fault = .goesThrough), install.setFile target (writtenContents fault (install.disk target) contents))
  | .write file contents =>
    (decide (fault = .goesThrough), install.writeFile file (writtenContents fault (install.disk file) contents))
  | .removeFile file =>
    if fault = .goesThrough then ((install.disk file).isSome, install.setFile file none) else (false, install)

def fileMachine : CrashPrograms.Machine FileOp FileOp.Answer FileFault Install where
  perform := performFileOp
  calm := .goesThrough

end MochiPort

import MochiPort.EncryptedContent
import MochiPort.ProgressTexts
import MochiPort.Tallies
import MochiPort.TelegramProgress

namespace MochiPort

open RustText

def TelegramDiffFileSummary.add (existing file : TelegramDiffFileSummary) : TelegramDiffFileSummary :=
  { existing with
    additions := existing.additions + file.additions
    deletions := existing.deletions + file.deletions }

/-- A text has less than `usize::MAX` lines, so no count saturates. -/
def pushUniqueDiffFile (files : List TelegramDiffFileSummary) (file : TelegramDiffFileSummary) :
    List TelegramDiffFileSummary :=
  Tallies.push TelegramDiffFileSummary.path TelegramDiffFileSummary.add telegramDiffMaxPaths files file

def diffSummary (fileCount additions deletions : Nat) (files : List TelegramDiffFileSummary) :
    Option TelegramDiffSummary :=
  if fileCount > 0 then
    some
      { fileCount
        additions
        deletions
        files
        paths := files.map (·.path)
        omittedPaths := fileCount - files.length }
  else none

def startsWith (line start : String) : Bool := (stripStart line start).isSome

/-! ## Changes of an item -/

structure DiffLineStats where
  inHunk : Bool
  additions : Nat
  deletions : Nat

def DiffLineStats.line (stats : DiffLineStats) (line : String) : DiffLineStats :=
  if startsWith line "@@" then { stats with inHunk := true }
  else if stats.inHunk && startsWith line "+" then { stats with additions := stats.additions + 1 }
  else if stats.inHunk && startsWith line "-" then { stats with deletions := stats.deletions + 1 }
  else stats

def diffLineStats (diff : String) : Nat × Nat :=
  let stats := (RustText.lines diff).foldl DiffLineStats.line ⟨false, 0, 0⟩
  (stats.additions, stats.deletions)

def countTextLines (text : String) : Nat :=
  if text = "" then 0
  else
    let lines := (replace text "\r\n" "\n").toList.splitOnP (· = '\n')
    if lines.getLast? = some [] then lines.length - 1 else lines.length

def diffChangeStats (change : JsonValue) : Nat × Nat :=
  let diff := ((change.get "diff").bind JsonValue.asStr).getD ""
  let kind := ((change.get "kind").bind fun kind => ((kind.get "type").bind JsonValue.asStr).or kind.asStr).or
    ((change.get "type").bind JsonValue.asStr)
  let kind := toAsciiLowercase (trim (kind.getD "change"))
  if kind ∈ ["add", "added", "create", "created"] then (countTextLines diff, 0)
  else if kind ∈ ["delete", "deleted", "remove", "removed"] then (0, countTextLines diff)
  else diffLineStats diff

def diffChangeFile (change : JsonValue) : TelegramDiffFileSummary :=
  let path := (((change.get "path").bind JsonValue.asStr).map trim |>.filter (· ≠ "")).getD "unknown"
  let movePath := (((change.get "kind").bind (·.get "move_path")).bind JsonValue.asStr).map trim |>.filter (· ≠ "")
  let displayPath := match movePath with
    | some movePath => if movePath ≠ path then path ++ " -> " ++ movePath else path
    | none => path
  let stats := diffChangeStats change
  ⟨displayPath, stats.1, stats.2⟩

def diffSummaryFromItem (item : JsonValue) : Option TelegramDiffSummary :=
  ((item.get "changes").bind JsonValue.asArray).bind fun changes =>
    let changed := changes.map diffChangeFile
    let files := changed.foldl pushUniqueDiffFile []
    diffSummary (max changes.length files.length) (changed.map (·.additions)).sum (changed.map (·.deletions)).sum files

/-! ## Lines of a diff -/

/-- What follows the last ` b/`. -/
def diffGitTargetPath (rest : String) : Option String :=
  (splitOnceList " b/".toList.reverse rest.toList.reverse).map fun (target, _) =>
    trimMatches (String.ofList target.reverse) '"'

def diffHeaderPath (rest : String) (side : String) : Option String :=
  let raw := RustText.trimMatches (RustText.trim (String.ofList (rest.toList.takeWhile (· ≠ '\t')))) '"'
  some ((stripStart raw (side ++ "/")).getD raw)

@[irreducible] def diffHeaderFile (rest : String) (side : String) : Option String := (diffHeaderPath rest side).filter (· ≠ "/dev/null")

structure DiffScan where
  files : List TelegramDiffFileSummary
  fileCount : Nat
  currentPath : Option String
  currentAdditions : Nat
  currentDeletions : Nat
  pendingOldPath : Option String
  additions : Nat
  deletions : Nat
  currentHasHeader : Bool
  inHunk : Bool

namespace DiffScan

def start : DiffScan := ⟨[], 0, none, 0, 0, none, 0, 0, false, false⟩

/-- `finish_diff_file`. -/
def finishFile (scan : DiffScan) : DiffScan :=
  { scan with
    files := match scan.currentPath with
      | some path => pushUniqueDiffFile scan.files ⟨path, scan.currentAdditions, scan.currentDeletions⟩
      | none => scan.files
    currentPath := none
    currentAdditions := 0
    currentDeletions := 0 }

def beginFile (scan : DiffScan) (rest : String) : DiffScan :=
  { scan.finishFile with
    fileCount := scan.fileCount + 1
    currentPath := diffGitTargetPath rest
    currentHasHeader := false
    pendingOldPath := none
    inHunk := false }

/-- A line that begins with `--- `. After the header of a file it is taken for the header of another one. -/
def oldHeader (scan : DiffScan) (rest : String) : DiffScan :=
  let scan :=
    if scan.currentHasHeader then
      { scan.finishFile with fileCount := scan.fileCount + 1, currentHasHeader := false, inHunk := false }
    else scan
  { scan with
    pendingOldPath := diffHeaderFile rest "a"
    fileCount := if scan.fileCount = 0 then scan.fileCount + 1 else scan.fileCount }

def headerPath (scan : DiffScan) (rest : String) : Option String :=
  ((diffHeaderFile rest "b").or scan.pendingOldPath).filter (· ≠ "/dev/null")

def newHeader (scan : DiffScan) (rest : String) : DiffScan :=
  { scan with
    pendingOldPath := none
    currentPath := (scan.headerPath rest).or scan.currentPath
    currentHasHeader := true }

def contentLine (scan : DiffScan) (line : String) : DiffScan :=
  if scan.inHunk && startsWith line "+" then
    { scan with currentAdditions := scan.currentAdditions + 1, additions := scan.additions + 1 }
  else if scan.inHunk && startsWith line "-" then
    { scan with currentDeletions := scan.currentDeletions + 1, deletions := scan.deletions + 1 }
  else scan

def line (scan : DiffScan) (line : String) : DiffScan :=
  match stripStart line "diff --git " with
  | some rest => scan.beginFile rest
  | none =>
    match stripStart line "--- " with
    | some rest => scan.oldHeader rest
    | none =>
      match stripStart line "+++ " with
      | some rest => scan.newHeader rest
      | none =>
        if startsWith line "@@" then { scan with inHunk := true }
        else
          match stripStart line "rename to " with
          | some rest => { scan with currentPath := some (trim rest) }
          | none => scan.contentLine line

def summary (scan : DiffScan) : Option TelegramDiffSummary :=
  let scan := scan.finishFile
  diffSummary (max scan.fileCount scan.files.length) scan.additions scan.deletions scan.files

end DiffScan

def diffSummaryFromDiff (diff : String) : Option TelegramDiffSummary :=
  if trim diff = "" then none else ((RustText.lines diff).foldl DiffScan.line .start).summary

end MochiPort

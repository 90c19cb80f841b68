import Mathlib.Algebra.Group.Prod
import Mathlib.Algebra.Order.Group.Nat
import Mathlib.Algebra.Order.BigOperators.Group.List
import MochiPort.DiffSummaries

namespace MochiPort

open DiffScan List RustText TelegramDiffFileSummary TelegramDiffSummary

inductive HunkLineKind where
  | context | added | removed | noNewline
  deriving DecidableEq

def HunkLineKind.marker : HunkLineKind → Char
  | .context => ' '
  | .added => '+'
  | .removed => '-'
  | .noNewline => '\\'

structure HunkLine where
  kind : HunkLineKind
  content : List Char
  oneLine : '\n' ∉ content

structure Hunk where
  header : List Char
  oneLine : '\n' ∉ header
  lines : List HunkLine

/-- The names that a diff gives to the file on both sides, and what changes in it. -/
structure GitPatch where
  oldName : String
  newName : String
  oldOneLine : RustText.Free '\n' oldName ∧ RustText.Free '\r' oldName
  newOneLine : RustText.Free '\n' newName ∧ RustText.Free '\r' newName
  hunks : List Hunk

/-- A line between the first line of a file and its patch. -/
structure ExtendedHeader where
  text : String
  oneLine : RustText.Free '\n' text ∧ RustText.Free '\r' text
  noContent : ∀ start ∈ ["diff --git ", "@", "+", "-"], ¬ start.toList <+: text.toList

structure GitDiffFile where
  names : String
  oneLine : RustText.Free '\n' names ∧ RustText.Free '\r' names
  extended : List ExtendedHeader
  patch : Option GitPatch

namespace HunkLine

def text (line : HunkLine) : List Char := line.kind.marker :: line.content

def readsAsHeader (line : HunkLine) : Bool :=
  line.kind = .removed && "-- ".toList.isPrefixOf line.content ||
    line.kind = .added && "++ ".toList.isPrefixOf line.content

end HunkLine

namespace Hunk

def text (hunk : Hunk) : List (List Char) := ('@' :: '@' :: hunk.header) :: hunk.lines.map HunkLine.text

def count (kind : HunkLineKind) (hunk : Hunk) : Nat := (hunk.lines.filter fun line => line.kind = kind).length

end Hunk

namespace GitDiffFile

variable (file : GitDiffFile)

def hunks : List Hunk := (file.patch.map GitPatch.hunks).getD []

def added : Nat := (file.hunks.map (Hunk.count .added)).sum

def removed : Nat := (file.hunks.map (Hunk.count .removed)).sum

def hunkLines : List HunkLine := file.hunks.flatMap Hunk.lines

def lines : List (List Char) :=
  ("diff --git " ++ file.names).toList :: file.extended.map (·.text.toList) ++
    match file.patch with
    | some patch =>
      ("--- " ++ patch.oldName).toList :: ("+++ " ++ patch.newName).toList :: patch.hunks.flatMap Hunk.text
    | none => []

def renamed : Option String :=
  file.extended.foldl (fun path header => ((stripStart header.text "rename to ").map trim).or path)
    (diffGitTargetPath file.names)

def path : Option String :=
  match file.patch with
  | some patch =>
    (((diffHeaderFile patch.newName "b").or (diffHeaderFile patch.oldName "a")).filter (· ≠ "/dev/null")).or file.renamed
  | none => file.renamed

end GitDiffFile

def linesText (lines : List (List Char)) : String := String.ofList (ByteLines.join '\n' lines [])

def diffText (files : List GitDiffFile) : String := linesText (files.flatMap GitDiffFile.lines)

def hunksText (hunks : List Hunk) : String := linesText (hunks.flatMap Hunk.text)

/-- The summary tells how many files there are and how many lines were added and removed, in all and in every file
that it lists. -/
structure Summarises (files : List GitDiffFile) (summary : TelegramDiffSummary) : Prop where
  fileCount : summary.fileCount = files.length
  additions : summary.additions = (files.map GitDiffFile.added).sum
  deletions : summary.deletions = (files.map GitDiffFile.removed).sum
  each : ∀ entry ∈ summary.files,
    entry.additions = ((files.filter fun file => file.path = some entry.path).map GitDiffFile.added).sum ∧
      entry.deletions = ((files.filter fun file => file.path = some entry.path).map GitDiffFile.removed).sum
  once : (summary.files.map (·.path)).Nodup
  listed : ∀ file ∈ files, ∀ path, file.path = some path →
    path ∈ summary.files.map (·.path) ∨ telegramDiffMaxPaths ≤ summary.files.length

inductive SummarisedBy (files : List GitDiffFile) : Option TelegramDiffSummary → Prop
  | none (empty : files = []) : SummarisedBy files none
  | some {summary : TelegramDiffSummary} (summarises : Summarises files summary) : SummarisedBy files (some summary)

structure IsUpdate (change : JsonValue) (hunks : List Hunk) : Prop where
  kind : (change.get "kind").bind (·.get "type") = some (.string "update")
  diff : change.get "diff" = some (.string (hunksText hunks))

def IsFileChange (item : JsonValue) (files : List GitDiffFile) : Prop :=
  ∃ changes, item.get "changes" = some (.array changes) ∧
    List.Forall₂ (fun change file => IsUpdate change file.hunks) changes files

def TelegramDiffSummary.totals (summary : TelegramDiffSummary) : Nat × Nat × Nat :=
  (summary.fileCount, summary.additions, summary.deletions)

/-! ## Lines -/

variable {line : List Char}

theorem withoutCr_of_not_mem (h : '\r' ∉ line) : withoutCr line = line :=
  if_neg fun hlast => h (mem_of_getLast? hlast)

variable {c : Char}

theorem withoutCr_cons (line : List Char) (h : c ≠ '\r') : withoutCr (c :: line) = c :: withoutCr line := by
  cases line with
  | nil => exact withoutCr_of_not_mem fun hmem => h (mem_singleton.mp hmem).symm
  | cons d rest =>
    unfold withoutCr
    rw [List.getLast?_cons_cons]
    split
    next => rfl
    next => rfl

theorem prefix_withoutCr {start line : List Char} (h : '\r' ∉ start) : start <+: withoutCr line ↔ start <+: line := by
  unfold withoutCr
  split
  next hlast =>
    have hline := dropLast_append_getLast? '\r' hlast
    constructor
    · exact fun hstart => hstart.trans (List.dropLast_prefix line)
    · intro hstart
      rw [← hline] at hstart
      rcases prefix_concat_iff.mp hstart with heq | hstart
      · rw [heq] at h
        exact absurd (mem_append_right _ mem_cons_self) h
      · exact hstart
  next => exact Iff.rfl

theorem lines_linesText {lines : List (List Char)} (h : ∀ line ∈ lines, '\n' ∉ line) :
    RustText.lines (linesText lines) = lines.map fun line => String.ofList (withoutCr line) := by
  have hcut := ByteLines.cut_join_append h [] []
  rw [append_nil, append_nil] at hcut
  unfold RustText.lines linesText
  rw [String.toList_ofList, hcut]
  exact (congrArg (· ++ []) (congrArg _ (append_nil lines))).trans (append_nil _)

theorem stripStart_of_head {start : String} (line : List Char) (h : (start.toList.head?).any (· ≠ c) = true) :
    stripStart (String.ofList (c :: line)) start = none := by
  obtain ⟨d, hstart, hne⟩ := (Option.any_eq_true ..).mp h
  refine stripStart_of_not fun hprefix => of_decide_eq_true hne ?_
  rw [String.toList_ofList] at hprefix
  obtain ⟨rest, hrest⟩ := List.head?_eq_some_iff.mp hstart
  rw [hrest] at hprefix
  exact (cons_prefix_cons.mp hprefix).1

theorem startsWith_iff {line start : String} : startsWith line start = true ↔ start.toList <+: line.toList := by
  rw [startsWith, stripStart]
  split
  next h => exact ⟨fun _ => h, fun _ => rfl⟩
  next h => exact ⟨fun hsome => absurd hsome Bool.false_ne_true, fun hprefix => absurd hprefix h⟩

theorem startsWith_of_head {start : String} (line : List Char) (h : (start.toList.head?).any (· ≠ c) = true) :
    startsWith (String.ofList (c :: line)) start = false := by
  rw [startsWith, stripStart_of_head line h]
  rfl

theorem startsWith_marker (c : Char) (line : List Char) {start : String} (hstart : start.toList = [c]) :
    startsWith (String.ofList (c :: line)) start = true := by
  rw [startsWith_iff, hstart, String.toList_ofList]
  exact cons_prefix_cons.mpr ⟨rfl, nil_prefix⟩

theorem stripStart_content {start : String} (rest : List Char) (hstart : start.toList = c :: rest)
    (h : ¬ rest <+: line) : stripStart (String.ofList (c :: line)) start = none := by
  refine stripStart_of_not fun hprefix => h ?_
  rw [String.toList_ofList, hstart] at hprefix
  exact (cons_prefix_cons.mp hprefix).2

theorem startsWith_content {start : String} (rest : List Char) (hstart : start.toList = c :: rest) (h : rest <+: line) :
    startsWith (String.ofList (c :: line)) start = true := by
  have htext : (String.ofList (c :: line)).toList = c :: line := String.toList_ofList
  rw [startsWith_iff, hstart, htext]
  exact cons_prefix_cons.mpr ⟨rfl, h⟩

namespace DiffScan

variable (scan : DiffScan)

def count (added removed : Nat) : DiffScan :=
  { scan with
    currentAdditions := scan.currentAdditions + added
    currentDeletions := scan.currentDeletions + removed
    additions := scan.additions + added
    deletions := scan.deletions + removed }

theorem count_count (added removed added' removed' : Nat) :
    (scan.count added removed).count added' removed' = scan.count (added + added') (removed + removed') := by
  simp only [count, Nat.add_assoc]

theorem line_neutral {c : Char} (line : List Char) (h : c = ' ' ∨ c = '\\') :
    scan.line (String.ofList (c :: line)) = scan := by
  have hstart : ∀ start ∈ ["diff --git ", "--- ", "+++ ", "@@", "rename to ", "+", "-"],
      (start.toList.head?).any (· ≠ c) = true := by
    rcases h with rfl | rfl <;> decide
  have hnone : ∀ start ∈ ["diff --git ", "--- ", "+++ ", "rename to "],
      stripStart (String.ofList (c :: line)) start = none :=
    fun start hmem => stripStart_of_head line (hstart start (by revert start; decide))
  have hfalse : ∀ start ∈ ["@@", "+", "-"], startsWith (String.ofList (c :: line)) start = false :=
    fun start hmem => startsWith_of_head line (hstart start (by revert start; decide))
  rw [DiffScan.line, hnone "diff --git " (by decide)]
  rw [hnone "--- " (by decide)]
  rw [hnone "+++ " (by decide)]
  rw [hfalse "@@" (by decide), hnone "rename to " (by decide)]
  rw [contentLine, hfalse "+" (by decide), hfalse "-" (by decide)]
  simp

variable {scan}

theorem line_added {line : List Char} (hhunk : scan.inHunk = true) (h : ¬ "++ ".toList <+: line) :
    scan.line (String.ofList ('+' :: line)) = scan.count 1 0 := by
  rw [DiffScan.line, stripStart_of_head line (by decide)]
  rw [stripStart_of_head line (by decide)]
  rw [stripStart_content "++ ".toList (by decide) h]
  rw [startsWith_of_head line (by decide), stripStart_of_head line (by decide)]
  have hplus : (scan.inHunk && startsWith (String.ofList ('+' :: line)) "+") = true := by
    rw [hhunk, startsWith_marker '+' line (by decide)]
    rfl
  rw [if_neg Bool.false_ne_true, contentLine, if_pos hplus]
  rfl

theorem line_removed {line : List Char} (hhunk : scan.inHunk = true) (h : ¬ "-- ".toList <+: line) :
    scan.line (String.ofList ('-' :: line)) = scan.count 0 1 := by
  rw [DiffScan.line, stripStart_of_head line (by decide)]
  rw [stripStart_content "-- ".toList (by decide) h]
  rw [stripStart_of_head line (by decide)]
  rw [startsWith_of_head line (by decide), stripStart_of_head line (by decide)]
  have hminus : (scan.inHunk && startsWith (String.ofList ('-' :: line)) "-") = true := by
    rw [hhunk, startsWith_marker '-' line (by decide)]
    rfl
  rw [if_neg Bool.false_ne_true, contentLine, startsWith_of_head line (by decide), Bool.and_false,
    if_neg Bool.false_ne_true, if_pos hminus]
  rfl

theorem line_hunk (header : List Char) : scan.line (String.ofList ('@' :: '@' :: header)) = { scan with inHunk := true } := by
  rw [line, stripStart_of_head _ (by decide)]
  rw [stripStart_of_head _ (by decide)]
  rw [stripStart_of_head _ (by decide)]
  have hat : startsWith (String.ofList ('@' :: '@' :: header)) "@@" = true := by
    have htext : (String.ofList ('@' :: '@' :: header)).toList = ['@', '@'] ++ header := String.toList_ofList
    rw [startsWith_iff, htext]
    exact prefix_append _ _
  rw [if_pos hat]

def lines (scan : DiffScan) (lines : List (List Char)) : DiffScan :=
  (lines.map fun line => String.ofList (withoutCr line)).foldl DiffScan.line scan

theorem lines_append (first second : List (List Char)) :
    scan.lines (first ++ second) = (scan.lines first).lines second := by
  rw [lines, map_append, foldl_append]
  rfl

theorem lines_cons (line : List Char) (rest : List (List Char)) :
    scan.lines (line :: rest) = (scan.line (String.ofList (withoutCr line))).lines rest := rfl

def amount (kind : HunkLineKind) (line : HunkLine) : Nat := if line.kind = kind then 1 else 0

theorem line_hunkLine {line : HunkLine} (hhunk : scan.inHunk = true) (h : line.readsAsHeader = false) :
    scan.line (String.ofList (withoutCr line.text)) = scan.count (amount .added line) (amount .removed line) := by
  obtain ⟨hremoved, hadded⟩ := Bool.or_eq_false_iff.mp h
  unfold HunkLine.text amount
  cases hkind : line.kind with
  | context =>
    rw [withoutCr_cons _ (by decide)]
    exact line_neutral scan _ (.inl rfl)
  | noNewline =>
    rw [withoutCr_cons _ (by decide)]
    exact line_neutral scan _ (.inr rfl)
  | added =>
    have hcontent : ¬ "++ ".toList <+: withoutCr line.content := by
      intro hprefix
      have hstart := (prefix_withoutCr (by decide)).mp hprefix
      rw [hkind, isPrefixOf_iff_prefix.mpr hstart] at hadded
      exact absurd hadded (by decide)
    rw [withoutCr_cons _ (by decide)]
    exact line_added hhunk hcontent
  | removed =>
    have hcontent : ¬ "-- ".toList <+: withoutCr line.content := by
      intro hprefix
      have hstart := (prefix_withoutCr (by decide)).mp hprefix
      rw [hkind, isPrefixOf_iff_prefix.mpr hstart] at hremoved
      exact absurd hremoved (by decide)
    rw [withoutCr_cons _ (by decide)]
    exact line_removed hhunk hcontent

theorem count_lines (kind : HunkLineKind) (lines : List HunkLine) :
    (lines.filter fun line => line.kind = kind).length = (lines.map (amount kind)).sum := by
  induction lines with
  | nil => rfl
  | cons line lines ih =>
    rw [map_cons, sum_cons, ← ih, amount, filter_cons]
    split
    next hkind =>
      rw [if_pos (of_decide_eq_true hkind), length_cons]
      omega
    next hkind =>
      have hne : line.kind ≠ kind := fun heq => hkind (decide_eq_true heq)
      rw [if_neg hne, Nat.zero_add]

theorem lines_hunkLines (content : List HunkLine) (hhunk : scan.inHunk = true)
    (h : ∀ line ∈ content, line.readsAsHeader = false) :
    scan.lines (content.map HunkLine.text) =
      scan.count (content.map (amount .added)).sum (content.map (amount .removed)).sum := by
  induction content generalizing scan with
  | nil => rfl
  | cons line content ih =>
    have hline := line_hunkLine hhunk (h line mem_cons_self)
    have hrest := @ih (scan.count (amount .added line) (amount .removed line)) hhunk
      fun other hother => h other (mem_cons_of_mem _ hother)
    rw [map_cons, lines_cons, hline, hrest, count_count]
    rfl

theorem lines_hunks (hunks : List Hunk) (h : ∀ line ∈ hunks.flatMap Hunk.lines, line.readsAsHeader = false) :
    ∃ inHunk, scan.lines (hunks.flatMap Hunk.text) =
      { scan.count (hunks.map (Hunk.count .added)).sum (hunks.map (Hunk.count .removed)).sum with inHunk } := by
  induction hunks generalizing scan with
  | nil => exact ⟨scan.inHunk, rfl⟩
  | cons hunk hunks ih =>
    have hheader : withoutCr ('@' :: '@' :: hunk.header) = '@' :: '@' :: withoutCr hunk.header := by
      rw [withoutCr_cons _ (by decide), withoutCr_cons _ (by decide)]
    have hfirst : scan.lines hunk.text =
        { scan.count (hunk.count .added) (hunk.count .removed) with inHunk := true } := by
      have hlines := @lines_hunkLines { scan with inHunk := true } hunk.lines rfl
        fun line hline => h line (mem_flatMap.mpr ⟨hunk, mem_cons_self, hline⟩)
      rw [Hunk.text, lines_cons, hheader, line_hunk, hlines, Hunk.count, Hunk.count, count_lines, count_lines]
      rfl
    obtain ⟨inHunk, hrest⟩ := @ih { scan.count (hunk.count .added) (hunk.count .removed) with inHunk := true }
      fun line hline => h line (by
        exact mem_append_right _ hline)
    refine ⟨inHunk, ?_⟩
    rw [flatMap_cons, lines_append, hfirst, hrest, map_cons, sum_cons, map_cons, sum_cons,
      ← count_count]
    rfl

theorem stripStart_append_of_head {start other : String} (rest : String)
    (h : (other.toList.head?).any (fun d => (start.toList.head?).any (· ≠ d)) = true) :
    stripStart (start ++ rest) other = none := by
  obtain ⟨d, hother, h⟩ := (Option.any_eq_true ..).mp h
  obtain ⟨c, hstart, hne⟩ := (Option.any_eq_true ..).mp h
  obtain ⟨ds, hds⟩ := List.head?_eq_some_iff.mp hother
  obtain ⟨cs, hcs⟩ := List.head?_eq_some_iff.mp hstart
  refine stripStart_of_not fun hprefix => of_decide_eq_true hne ?_
  rw [String.toList_append, hds, hcs] at hprefix
  exact (cons_prefix_cons.mp hprefix).1.symm

theorem line_names (names : String) : scan.line ("diff --git " ++ names) = scan.beginFile names := by
  rw [line, stripStart_append]

theorem line_old (name : String) : scan.line ("--- " ++ name) = scan.oldHeader name := by
  rw [line, stripStart_append_of_head name (by decide)]
  rw [stripStart_append]

theorem oldHeader_first (name : String) (hheader : scan.currentHasHeader = false) (hcount : scan.fileCount ≠ 0) :
    scan.oldHeader name = { scan with pendingOldPath := diffHeaderFile name "a" } := by
  have hsame : (if scan.currentHasHeader then
      { scan.finishFile with fileCount := scan.fileCount + 1, currentHasHeader := false, inHunk := false }
    else scan) = scan := by
    rw [hheader]
    exact if_neg Bool.false_ne_true
  rw [oldHeader, hsame, if_neg hcount]

theorem line_new (name : String) : scan.line ("+++ " ++ name) = scan.newHeader name := by
  rw [line, stripStart_append_of_head name (by decide)]
  rw [stripStart_append_of_head name (by decide)]
  rw [stripStart_append]

theorem line_extended (header : ExtendedHeader) (hhunk : scan.inHunk = false) :
    scan.line header.text =
      { scan with currentPath := ((stripStart header.text "rename to ").map trim).or scan.currentPath } := by
  have hnone : ∀ start : String, (∃ first ∈ ["diff --git ", "@", "+", "-"], first.toList <+: start.toList) →
      stripStart header.text start = none := by
    intro start ⟨first, hfirst, hbegins⟩
    exact stripStart_of_not fun hstart => header.noContent first hfirst (hbegins.trans hstart)
  rw [line, hnone _ ⟨"diff --git ", by decide, prefix_refl _⟩]
  rw [hnone "--- " ⟨"-", by decide, by decide⟩]
  rw [hnone "+++ " ⟨"+", by decide, by decide⟩]
  rw [startsWith, hnone "@@" ⟨"@", by decide, by decide⟩]
  cases hrename : stripStart header.text "rename to " with
  | some name => rfl
  | none =>
    have hcontent : ∀ start, ¬(scan.inHunk && startsWith header.text start) = true := by
      intro start
      rw [hhunk]
      exact Bool.false_ne_true
    rw [contentLine, if_neg (hcontent "+"), if_neg (hcontent "-")]
    rfl

theorem toString_withoutCr {s : String} (h : RustText.Free '\r' s) : String.ofList (withoutCr s.toList) = s := by
  rw [withoutCr_of_not_mem h, String.ofList_toList]

theorem lines_extended (headers : List ExtendedHeader) (hhunk : scan.inHunk = false) :
    scan.lines (headers.map (·.text.toList)) =
      { scan with
        currentPath := headers.foldl
          (fun path header => ((stripStart header.text "rename to ").map trim).or path) scan.currentPath } := by
  induction headers generalizing scan with
  | nil => rfl
  | cons header headers ih =>
    rw [map_cons, lines_cons, toString_withoutCr header.oneLine.2, line_extended header hhunk]
    exact @ih { scan with
      currentPath := ((stripStart header.text "rename to ").map trim).or scan.currentPath } hhunk

structure Passed (file : GitDiffFile) (before scan : DiffScan) : Prop where
  files : scan.files = before.finishFile.files
  fileCount : scan.fileCount = before.fileCount + 1
  currentPath : scan.currentPath = file.path
  currentAdditions : scan.currentAdditions = file.added
  currentDeletions : scan.currentDeletions = file.removed
  additions : scan.additions = before.additions + file.added
  deletions : scan.deletions = before.deletions + file.removed

/-- The scan has passed the headers of the file. -/
structure Headed (file : GitDiffFile) (before scan : DiffScan) : Prop where
  files : scan.files = before.finishFile.files
  fileCount : scan.fileCount = before.fileCount + 1
  currentPath : scan.currentPath = file.path
  currentAdditions : scan.currentAdditions = 0
  currentDeletions : scan.currentDeletions = 0
  additions : scan.additions = before.additions
  deletions : scan.deletions = before.deletions

theorem Headed.passed {file : GitDiffFile} {before : DiffScan} (h : Headed file before scan) (inHunk : Bool) :
    Passed file before { scan.count file.added file.removed with inHunk } where
  files := h.files
  fileCount := h.fileCount
  currentPath := h.currentPath
  currentAdditions := (congrArg (· + file.added) h.currentAdditions).trans (Nat.zero_add _)
  currentDeletions := (congrArg (· + file.removed) h.currentDeletions).trans (Nat.zero_add _)
  additions := congrArg (· + file.added) h.additions
  deletions := congrArg (· + file.removed) h.deletions

theorem Headed.newHeader {file : GitDiffFile} {patch : GitPatch} {before : DiffScan} (hpatch : file.patch = some patch)
    (h : Headed { file with patch := none } before scan)
    (hpending : scan.pendingOldPath = diffHeaderFile patch.oldName "a") :
    Headed file before (scan.newHeader patch.newName) := by
  have hrenamed : scan.currentPath = file.renamed := h.currentPath
  unfold DiffScan.newHeader
  refine ⟨h.files, h.fileCount, ?_, h.currentAdditions, h.currentDeletions, h.additions, h.deletions⟩
  rw [GitDiffFile.path, hpatch, headerPath, hpending, hrenamed]

/-- The scan after the extended headers of the file. -/
def named (scan : DiffScan) (file : GitDiffFile) : DiffScan :=
  { scan.beginFile file.names with currentPath := file.renamed }

section

variable (file : GitDiffFile)

theorem lines_headers :
    scan.lines (("diff --git " ++ file.names).toList :: file.extended.map (·.text.toList)) =
      scan.named file := by
  have hnames : RustText.Free '\r' ("diff --git " ++ file.names) :=
    free_append.mpr ⟨by decide, file.oneLine.2⟩
  rw [lines_cons, toString_withoutCr hnames, line_names, lines_extended file.extended rfl]
  rfl

theorem headed_named : Headed { file with patch := none } scan (scan.named file) :=
  ⟨rfl, rfl, rfl, rfl, rfl, rfl, rfl⟩

theorem lines_patchHeaders {patch : GitPatch} (hpatch : file.patch = some patch) :
    Headed file scan ((scan.named file).lines
      [("--- " ++ patch.oldName).toList, ("+++ " ++ patch.newName).toList]) := by
  have hold : RustText.Free '\r' ("--- " ++ patch.oldName) := free_append.mpr ⟨by decide, patch.oldOneLine.2⟩
  have hnew : RustText.Free '\r' ("+++ " ++ patch.newName) := free_append.mpr ⟨by decide, patch.newOneLine.2⟩
  have hnamed := @headed_named scan file
  have hheader : (scan.named file).currentHasHeader = false := rfl
  rw [lines_cons, toString_withoutCr hold, line_old, lines_cons, toString_withoutCr hnew, line_new]
  generalize scan.named file = named at hnamed hheader
  have hcount := hnamed.fileCount
  rw [oldHeader_first patch.oldName hheader (by omega)]
  have hopened : Headed { file with patch := none } scan
      { named with pendingOldPath := diffHeaderFile patch.oldName "a" } :=
    ⟨hnamed.files, hnamed.fileCount, hnamed.currentPath, hnamed.currentAdditions, hnamed.currentDeletions,
      hnamed.additions, hnamed.deletions⟩
  exact hopened.newHeader hpatch rfl

theorem lines_file (h : ∀ line ∈ file.hunkLines, line.readsAsHeader = false) :
    Passed file scan (scan.lines file.lines) := by
  unfold GitDiffFile.lines
  rw [lines_append, lines_headers]
  cases hpatch : file.patch with
  | none =>
    have hhunks : file.hunks = [] := by rw [GitDiffFile.hunks, hpatch]; rfl
    have hadded : file.added = 0 := by rw [GitDiffFile.added, hhunks]; rfl
    have hremoved : file.removed = 0 := by rw [GitDiffFile.removed, hhunks]; rfl
    have hpath : file.path = file.renamed := by rw [GitDiffFile.path, hpatch]
    exact ⟨rfl, rfl, hpath.symm, hadded.symm, hremoved.symm, by rw [hadded]; rfl, by rw [hremoved]; rfl⟩
  | some patch =>
    have hhunks : file.hunks = patch.hunks := by rw [GitDiffFile.hunks, hpatch]; rfl
    have hheaded := @lines_patchHeaders scan file _ hpatch
    have hsplit := @lines_append (scan.named file)
      [("--- " ++ patch.oldName).toList, ("+++ " ++ patch.newName).toList] (patch.hunks.flatMap Hunk.text)
    obtain ⟨inHunk, hlines⟩ := @lines_hunks ((scan.named file).lines
        [("--- " ++ patch.oldName).toList, ("+++ " ++ patch.newName).toList]) patch.hunks (hhunks ▸ h)
    have hpassed := hheaded.passed inHunk
    rw [GitDiffFile.added, GitDiffFile.removed, hhunks, ← hlines, ← hsplit] at hpassed
    exact hpassed

end

end DiffScan

/-! ## Files -/

def GitDiffFile.entry (file : GitDiffFile) : Option TelegramDiffFileSummary :=
  file.path.map fun path => ⟨path, file.added, file.removed⟩

def TelegramDiffFileSummary.sizes (file : TelegramDiffFileSummary) : Nat × Nat := (file.additions, file.deletions)

abbrev ListsFiles (files : List GitDiffFile) (listed : List TelegramDiffFileSummary) : Prop :=
  Tallies.Tallied path sizes telegramDiffMaxPaths
    (files.filterMap GitDiffFile.entry) listed

theorem listsFiles_push {items listed : List TelegramDiffFileSummary}
    (h : Tallies.Tallied path sizes telegramDiffMaxPaths items listed)
    (file : TelegramDiffFileSummary) :
    Tallies.Tallied path sizes telegramDiffMaxPaths (items ++ [file])
      (pushUniqueDiffFile listed file) :=
  h.push add (fun _ _ => rfl) (fun _ _ => rfl) file

theorem sum_sizes (listed : List TelegramDiffFileSummary) :
    (listed.map sizes).sum =
      ((listed.map TelegramDiffFileSummary.additions).sum, (listed.map TelegramDiffFileSummary.deletions).sum) := by
  induction listed with
  | nil => rfl
  | cons file listed ih =>
    rw [map_cons, sum_cons, ih]
    rfl

theorem filter_entry (files : List GitDiffFile) (path : String) :
    (files.filterMap GitDiffFile.entry).filter (fun entry => entry.path = path) =
      (files.filter fun file => file.path = some path).map fun file => ⟨path, file.added, file.removed⟩ := by
  induction files with
  | nil => rfl
  | cons file files ih =>
    cases hpath : file.path with
    | none =>
      have hentry : file.entry = none := by rw [GitDiffFile.entry, hpath]; rfl
      rw [filterMap_cons_none hentry, ih, filter_cons, hpath]
      rfl
    | some other =>
      have hentry : file.entry = some ⟨other, file.added, file.removed⟩ := by rw [GitDiffFile.entry, hpath]; rfl
      rw [filterMap_cons_some hentry, filter_cons, filter_cons, hpath, ih]
      by_cases heq : other = path
      · simp [heq]
      · simp [heq]

namespace DiffScan

variable {scan : DiffScan}

structure Scanned (files : List GitDiffFile) (scan : DiffScan) : Prop where
  fileCount : scan.fileCount = files.length
  additions : scan.additions = (files.map GitDiffFile.added).sum
  deletions : scan.deletions = (files.map GitDiffFile.removed).sum
  listed : ListsFiles files scan.finishFile.files

theorem scanned_start : Scanned [] start := ⟨rfl, rfl, rfl, Tallies.tallied_nil⟩

theorem Scanned.file {files : List GitDiffFile} (h : Scanned files scan) {file : GitDiffFile}
    (hcontent : ∀ line ∈ file.hunkLines, line.readsAsHeader = false) :
    Scanned (files ++ [file]) (scan.lines file.lines) := by
  have hpassed := @lines_file scan file hcontent
  refine ⟨?_, ?_, ?_, ?_⟩
  · rw [hpassed.fileCount, h.fileCount, length_append]
    rfl
  · rw [hpassed.additions, h.additions, map_append, sum_append, map_singleton, sum_singleton]
  · rw [hpassed.deletions, h.deletions, map_append, sum_append, map_singleton, sum_singleton]
  · have hlisted := h.listed
    unfold ListsFiles at hlisted ⊢
    rw [filterMap_append, finishFile, hpassed.currentPath, hpassed.currentAdditions, hpassed.currentDeletions,
      hpassed.files]
    cases hpath : file.path with
    | none =>
      have hentry : file.entry = none := by rw [GitDiffFile.entry, hpath]; rfl
      rw [filterMap_cons_none hentry, filterMap_nil, append_nil]
      exact hlisted
    | some path =>
      have hentry : file.entry = some ⟨path, file.added, file.removed⟩ := by rw [GitDiffFile.entry, hpath]; rfl
      rw [filterMap_cons_some hentry, filterMap_nil]
      exact listsFiles_push hlisted _

theorem Scanned.files {before : List GitDiffFile} (h : Scanned before scan) (files : List GitDiffFile)
    (hcontent : ∀ file ∈ files, ∀ line ∈ file.hunkLines, line.readsAsHeader = false) :
    Scanned (before ++ files) (scan.lines (files.flatMap GitDiffFile.lines)) := by
  induction files generalizing before scan with
  | nil =>
    rw [append_nil]
    exact h
  | cons file files ih =>
    have hfirst := h.file (hcontent file mem_cons_self)
    have hrest := ih hfirst fun other hother => hcontent other (mem_cons_of_mem _ hother)
    rw [append_assoc] at hrest
    rw [flatMap_cons, lines_append]
    exact hrest

theorem Scanned.summarised {files : List GitDiffFile} (h : Scanned files scan) : SummarisedBy files scan.summary := by
  have hlisted := h.listed
  have hlength : scan.finishFile.files.length ≤ files.length :=
    hlisted.bounded.trans (length_filterMap_le GitDiffFile.entry files)
  have hcount : max scan.finishFile.fileCount scan.finishFile.files.length = files.length := by
    rw [show scan.finishFile.fileCount = scan.fileCount from rfl, h.fileCount]
    exact Nat.max_eq_left hlength
  unfold summary diffSummary
  dsimp only
  rw [hcount]
  split
  next =>
    refine .some ⟨rfl, h.additions, h.deletions, ?_, hlisted.nodup, ?_⟩
    · intro entry hentry
      have htotal := hlisted.total entry hentry
      rw [filter_entry, sum_sizes, map_map, map_map] at htotal
      exact Prod.mk.inj htotal
    · intro file hfile path hpath
      have hentry : (⟨path, file.added, file.removed⟩ : TelegramDiffFileSummary) ∈ files.filterMap GitDiffFile.entry :=
        mem_filterMap.mpr ⟨file, hfile, by rw [GitDiffFile.entry, hpath]; rfl⟩
      exact hlisted.listed _ hentry
  next hnone =>
    have hempty : files.length = 0 := by omega
    exact .none (length_eq_zero_iff.mp hempty)

/-! ## Lines that read as headers -/

def gain (line : String) : Nat :=
  if startsWith line "+" && !startsWith line "+++ " || startsWith line "-" && !startsWith line "--- " then 1 else 0

theorem oldHeader_totals (rest : String) :
    (scan.oldHeader rest).additions = scan.additions ∧ (scan.oldHeader rest).deletions = scan.deletions := by
  unfold oldHeader
  split
  next => exact ⟨rfl, rfl⟩
  next => exact ⟨rfl, rfl⟩

theorem contentLine_gain (line : String) (hold : startsWith line "--- " = false) (hnew : startsWith line "+++ " = false) :
    (scan.contentLine line).additions + (scan.contentLine line).deletions ≤ scan.additions + scan.deletions + gain line := by
  unfold contentLine gain
  split
  next hplus =>
    rw [(Bool.and_eq_true_iff.mp hplus).2, hnew]
    simp
    omega
  next =>
    split
    next hminus =>
      rw [(Bool.and_eq_true_iff.mp hminus).2, hold]
      simp
      omega
    next => omega

theorem line_gain (line : String) :
    (scan.line line).additions + (scan.line line).deletions ≤ scan.additions + scan.deletions + gain line := by
  have hnone : ∀ start, stripStart line start = none → startsWith line start = false := by
    intro start hstart
    rw [startsWith, hstart]
    rfl
  rw [DiffScan.line]
  cases hgit : stripStart line "diff --git " with
  | some rest => exact Nat.le_add_right _ _
  | none =>
    cases hold : stripStart line "--- " with
    | some rest =>
      obtain ⟨hadditions, hdeletions⟩ := @oldHeader_totals scan rest
      dsimp only
      omega
    | none =>
      cases hnew : stripStart line "+++ " with
      | some rest => exact Nat.le_add_right _ _
      | none =>
        dsimp only
        split
        next => exact Nat.le_add_right _ _
        next =>
          cases hrename : stripStart line "rename to " with
          | some rest => exact Nat.le_add_right _ _
          | none => exact contentLine_gain line (hnone _ hold) (hnone _ hnew)

theorem lines_gain (text : List (List Char)) :
    (scan.lines text).additions + (scan.lines text).deletions ≤
      scan.additions + scan.deletions + (text.map fun line => gain (String.ofList (withoutCr line))).sum := by
  induction text generalizing scan with
  | nil => exact Nat.le_refl _
  | cons line text ih =>
    have hline := @line_gain scan (String.ofList (withoutCr line))
    have hrest := @ih (scan.line (String.ofList (withoutCr line)))
    rw [lines_cons, map_cons, sum_cons]
    omega

/-- What a line of a hunk counts in the scan of a diff. -/
def counted (line : HunkLine) : Nat :=
  if line.readsAsHeader then 0 else amount .added line + amount .removed line

theorem gain_eq_zero {line : String} (h : startsWith line "+" = true → startsWith line "+++ " = true)
    (h' : startsWith line "-" = true → startsWith line "--- " = true) : gain line = 0 := by
  refine if_neg ?_
  simp only [Bool.or_eq_true, Bool.and_eq_true, Bool.not_eq_true', not_or, not_and, Bool.not_eq_false]
  exact ⟨h, h'⟩

theorem gain_le_one (line : String) : gain line ≤ 1 := by
  unfold gain
  split
  next => exact Nat.le_refl 1
  next => exact Nat.zero_le 1

theorem gain_of_other {line : String} (hplus : startsWith line "+" = false) (hminus : startsWith line "-" = false) :
    gain line = 0 :=
  gain_eq_zero (fun h => absurd (hplus.symm.trans h) Bool.false_ne_true)
    (fun h => absurd (hminus.symm.trans h) Bool.false_ne_true)

theorem gain_hunkLine (line : HunkLine) : gain (String.ofList (withoutCr line.text)) ≤ counted line := by
  unfold HunkLine.text counted amount
  cases hkind : line.kind with
  | context | noNewline =>
    rw [withoutCr_cons _ (by decide), gain_of_other (startsWith_of_head _ (by decide)) (startsWith_of_head _ (by decide))]
    exact Nat.zero_le _
  | added =>
    rw [withoutCr_cons _ (by decide)]
    split
    next hreads =>
      have hcontent : "++ ".toList.isPrefixOf line.content = true := by
        simpa [HunkLine.readsAsHeader, hkind] using hreads
      have hbegins : "++ ".toList <+: withoutCr line.content :=
        (prefix_withoutCr (by decide)).mpr (List.isPrefixOf_iff_prefix.mp hcontent)
      have hheader : startsWith (String.ofList ('+' :: withoutCr line.content)) "+++ " = true :=
        startsWith_content "++ ".toList (by decide) hbegins
      have hminus : startsWith (String.ofList ('+' :: withoutCr line.content)) "-" = false :=
        startsWith_of_head _ (by decide)
      exact (gain_eq_zero (fun _ => hheader) fun h => absurd (hminus.symm.trans h) Bool.false_ne_true).le
    next => exact gain_le_one _
  | removed =>
    rw [withoutCr_cons _ (by decide)]
    split
    next hreads =>
      have hcontent : "-- ".toList.isPrefixOf line.content = true := by
        simpa [HunkLine.readsAsHeader, hkind] using hreads
      have hbegins : "-- ".toList <+: withoutCr line.content :=
        (prefix_withoutCr (by decide)).mpr (List.isPrefixOf_iff_prefix.mp hcontent)
      have hheader : startsWith (String.ofList ('-' :: withoutCr line.content)) "--- " = true :=
        startsWith_content "-- ".toList (by decide) hbegins
      have hplus : startsWith (String.ofList ('-' :: withoutCr line.content)) "+" = false :=
        startsWith_of_head _ (by decide)
      exact (gain_eq_zero (fun h => absurd (hplus.symm.trans h) Bool.false_ne_true) fun _ => hheader).le
    next => exact gain_le_one _

def gains (text : List (List Char)) : Nat := (text.map fun line => gain (String.ofList (withoutCr line))).sum

theorem gains_append (first second : List (List Char)) : gains (first ++ second) = gains first + gains second := by
  unfold gains
  rw [map_append, sum_append]

theorem gains_cons (line : List Char) (rest : List (List Char)) :
    gains (line :: rest) = gain (String.ofList (withoutCr line)) + gains rest := by
  unfold gains
  rw [map_cons, sum_cons]

theorem gains_hunkLines (content : List HunkLine) : gains (content.map HunkLine.text) ≤ (content.map counted).sum := by
  induction content with
  | nil => exact Nat.le_refl 0
  | cons line content ih =>
    have hline := gain_hunkLine line
    rw [map_cons, gains_cons, map_cons, sum_cons]
    omega

theorem gains_hunks (hunks : List Hunk) :
    gains (hunks.flatMap Hunk.text) ≤ ((hunks.flatMap Hunk.lines).map counted).sum := by
  induction hunks with
  | nil => exact Nat.le_refl 0
  | cons hunk hunks ih =>
    have hlines := gains_hunkLines hunk.lines
    have hheader : gain (String.ofList (withoutCr ('@' :: '@' :: hunk.header))) = 0 := by
      rw [withoutCr_cons _ (by decide)]
      exact gain_of_other (startsWith_of_head _ (by decide)) (startsWith_of_head _ (by decide))
    rw [flatMap_cons, flatMap_cons, gains_append, Hunk.text, gains_cons, hheader, map_append,
      sum_append]
    omega

theorem gains_extended (headers : List ExtendedHeader) : gains (headers.map (·.text.toList)) = 0 := by
  induction headers with
  | nil => rfl
  | cons header headers ih =>
    have hother : ∀ start ∈ ["+", "-"], startsWith header.text start = false := by
      intro start hstart
      rw [startsWith, stripStart_of_not (header.noContent start (by revert start; decide))]
      rfl
    rw [map_cons, gains_cons, toString_withoutCr header.oneLine.2, ih,
      gain_of_other (hother "+" (by decide)) (hother "-" (by decide))]

theorem gains_file (file : GitDiffFile) : gains file.lines ≤ (file.hunkLines.map counted).sum := by
  have hnames : RustText.Free '\r' ("diff --git " ++ file.names) :=
    free_append.mpr ⟨by decide, file.oneLine.2⟩
  have hother : ∀ {start : String} (other rest : String),
      (other.toList.head?).any (fun d => (start.toList.head?).any (· ≠ d)) = true → startsWith (start ++ rest) other = false := by
    intro start other rest h
    rw [startsWith, stripStart_append_of_head rest h]
    rfl
  have hself : ∀ start rest : String, startsWith (start ++ rest) start = true := by
    intro start rest
    rw [startsWith, stripStart_append]
    rfl
  have hfirst : gain ("diff --git " ++ file.names) = 0 :=
    gain_of_other (hother "+" _ (by decide)) (hother "-" _ (by decide))
  unfold GitDiffFile.lines GitDiffFile.hunkLines GitDiffFile.hunks
  rw [gains_append, gains_cons, toString_withoutCr hnames, hfirst, gains_extended]
  cases file.patch with
  | none => exact Nat.le_refl 0
  | some patch =>
    have hold : RustText.Free '\r' ("--- " ++ patch.oldName) :=
      free_append.mpr ⟨by decide, patch.oldOneLine.2⟩
    have hnew : RustText.Free '\r' ("+++ " ++ patch.newName) :=
      free_append.mpr ⟨by decide, patch.newOneLine.2⟩
    have holdGain : gain ("--- " ++ patch.oldName) = 0 :=
      gain_eq_zero (fun h => absurd ((hother "+" _ (by decide)).symm.trans h) Bool.false_ne_true) fun _ => hself _ _
    have hnewGain : gain ("+++ " ++ patch.newName) = 0 :=
      gain_eq_zero (fun _ => hself _ _) fun h => absurd ((hother "-" _ (by decide)).symm.trans h) Bool.false_ne_true
    have hhunks := gains_hunks patch.hunks
    rw [gains_cons, toString_withoutCr hold, holdGain, gains_cons, toString_withoutCr hnew, hnewGain]
    simpa using hhunks

theorem gains_files (files : List GitDiffFile) :
    gains (files.flatMap GitDiffFile.lines) ≤ ((files.flatMap GitDiffFile.hunkLines).map counted).sum := by
  induction files with
  | nil => exact Nat.le_refl 0
  | cons file files ih =>
    have hfile := gains_file file
    rw [flatMap_cons, flatMap_cons, gains_append, map_append, sum_append]
    omega

theorem sum_hunks (kind : HunkLineKind) (hunks : List Hunk) :
    (hunks.map (Hunk.count kind)).sum = ((hunks.flatMap Hunk.lines).map (amount kind)).sum := by
  induction hunks with
  | nil => rfl
  | cons hunk hunks ih =>
    rw [map_cons, sum_cons, ih, flatMap_cons, map_append, sum_append, Hunk.count, count_lines]

theorem sum_files (files : List GitDiffFile) :
    (files.map GitDiffFile.added).sum + (files.map GitDiffFile.removed).sum =
      ((files.flatMap GitDiffFile.hunkLines).map fun line => amount .added line + amount .removed line).sum := by
  induction files with
  | nil => rfl
  | cons file files ih =>
    have hsplit : ∀ content : List HunkLine, (content.map fun line => amount .added line + amount .removed line).sum =
        (content.map (amount .added)).sum + (content.map (amount .removed)).sum := fun content => sum_map_add
    have hadded : file.added = (file.hunkLines.map (amount .added)).sum := sum_hunks .added file.hunks
    have hremoved : file.removed = (file.hunkLines.map (amount .removed)).sum := sum_hunks .removed file.hunks
    rw [map_cons, sum_cons, map_cons, sum_cons, flatMap_cons, map_append, sum_append,
      ← ih, hsplit file.hunkLines, hadded, hremoved]
    omega

theorem sum_counted_lt {content : List HunkLine} (h : ∃ line ∈ content, line.readsAsHeader = true) :
    (content.map counted).sum < (content.map fun line => amount .added line + amount .removed line).sum := by
  have hle : ∀ line ∈ content, counted line ≤ amount .added line + amount .removed line := by
    intro line _
    unfold counted
    split
    next => exact Nat.zero_le _
    next => exact Nat.le_refl _
  obtain ⟨line, hline, hreads⟩ := h
  refine sum_lt_sum _ _ hle ⟨line, hline, ?_⟩
  have hchange : line.kind = .removed ∨ line.kind = .added := by
    rcases Bool.or_eq_true_iff.mp hreads with hremoved | hadded
    · exact .inl (of_decide_eq_true (Bool.and_eq_true_iff.mp hremoved).1)
    · exact .inr (of_decide_eq_true (Bool.and_eq_true_iff.mp hadded).1)
  rw [counted, if_pos hreads, amount, amount]
  rcases hchange with hkind | hkind
  · rw [hkind]
    decide
  · rw [hkind]
    decide

end DiffScan

/-! ## Summaries -/

theorem Hunk.text_oneLine (hunk : Hunk) : ∀ line ∈ hunk.text, '\n' ∉ line := by
  intro line hline hmem
  rcases mem_cons.mp hline with rfl | hline
  · have hheader : '\n' ∈ hunk.header := by simpa using hmem
    exact hunk.oneLine hheader
  · obtain ⟨content, hcontent, rfl⟩ := mem_map.mp hline
    rcases mem_cons.mp hmem with hmarker | hmem
    · revert hmarker
      cases content.kind <;> decide
    · exact content.oneLine hmem

theorem hunks_oneLine (hunks : List Hunk) : ∀ line ∈ hunks.flatMap Hunk.text, '\n' ∉ line := by
  intro line hline
  obtain ⟨hunk, -, hline⟩ := mem_flatMap.mp hline
  exact hunk.text_oneLine line hline

theorem GitDiffFile.lines_oneLine (file : GitDiffFile) : ∀ line ∈ file.lines, '\n' ∉ line := by
  intro line hline
  rcases mem_append.mp hline with hline | hline
  · rcases mem_cons.mp hline with rfl | hline
    · exact free_append.mpr ⟨by decide, file.oneLine.1⟩
    · obtain ⟨header, -, rfl⟩ := mem_map.mp hline
      exact header.oneLine.1
  · cases hpatch : file.patch with
    | none =>
      rw [hpatch] at hline
      exact absurd hline not_mem_nil
    | some patch =>
      rw [hpatch] at hline
      rcases mem_cons.mp hline with rfl | hline
      · exact free_append.mpr ⟨by decide, patch.oldOneLine.1⟩
      rcases mem_cons.mp hline with rfl | hline
      · exact free_append.mpr ⟨by decide, patch.newOneLine.1⟩
      · exact hunks_oneLine patch.hunks line hline

theorem scan_diffText (files : List GitDiffFile) :
    (RustText.lines (diffText files)).foldl DiffScan.line .start = start.lines (files.flatMap GitDiffFile.lines) := by
  have hlines : ∀ line ∈ files.flatMap GitDiffFile.lines, '\n' ∉ line := by
    intro line hline
    obtain ⟨file, -, hline⟩ := mem_flatMap.mp hline
    exact file.lines_oneLine line hline
  rw [diffText, lines_linesText hlines]
  rfl

theorem dropWhile_ne_nil {l : List Char} (hc : c ∈ l) (h : isWhitespace c = false) : c ∈ l.dropWhile isWhitespace := by
  induction l with
  | nil => exact absurd hc not_mem_nil
  | cons d rest ih =>
    rw [dropWhile_cons]
    split
    next hspace =>
      rcases mem_cons.mp hc with rfl | hc
      · exact absurd hspace (by rw [h]; exact Bool.false_ne_true)
      · exact ih hc
    next => exact hc

theorem trim_ne_empty {s : String} (hc : c ∈ s.toList) (h : isWhitespace c = false) : trim s ≠ "" := by
  have hfront := dropWhile_ne_nil hc h
  have hback := dropWhile_ne_nil (mem_reverse.mpr hfront) h
  intro hempty
  have hlist := congrArg String.toList hempty
  rw [trim, String.toList_ofList] at hlist
  exact absurd (mem_reverse.mpr hback) (by rw [hlist]; exact not_mem_nil)

variable {files : List GitDiffFile}

theorem trim_diffText (h : files ≠ []) : trim (diffText files) ≠ "" := by
  obtain ⟨file, rest, rfl⟩ := exists_cons_of_ne_nil h
  refine trim_ne_empty (c := 'd') ?_ (by decide)
  rw [diffText, linesText, String.toList_ofList, flatMap_cons, GitDiffFile.lines, cons_append,
    cons_append, ByteLines.join, String.toList_append]
  exact mem_append_left _ (mem_append_left _ (by decide))

theorem diffSummaryFromDiff_nil : diffSummaryFromDiff (diffText []) = none := by decide

theorem summarisedBy_diff (files : List GitDiffFile)
    (h : ∀ file ∈ files, ∀ line ∈ file.hunkLines, line.readsAsHeader = false) :
    SummarisedBy files (diffSummaryFromDiff (diffText files)) := by
  cases hfiles : files with
  | nil =>
    exact .none rfl
  | cons file rest =>
    have hscanned := scanned_start.files files h
    have hne : files ≠ [] := hfiles ▸ cons_ne_nil file rest
    rw [← hfiles, diffSummaryFromDiff, if_neg (trim_diffText hne), scan_diffText]
    exact hscanned.summarised

theorem not_summarisedBy_diff (h : ∃ line ∈ files.flatMap GitDiffFile.hunkLines, line.readsAsHeader = true) :
    ¬SummarisedBy files (diffSummaryFromDiff (diffText files)) := by
  intro hsummarised
  have hlt := sum_counted_lt h
  have hgains := (@lines_gain .start (files.flatMap GitDiffFile.lines)).trans
    (Nat.add_le_add_left (gains_files files) _)
  have htotal := sum_files files
  have hfiles : files ≠ [] := by
    rintro rfl
    obtain ⟨line, hline, -⟩ := h
    exact not_mem_nil hline
  rw [diffSummaryFromDiff, if_neg (trim_diffText hfiles), scan_diffText, summary, diffSummary] at hsummarised
  split at hsummarised
  next =>
    cases hsummarised with
    | some hsummarises =>
      have hadditions := hsummarises.additions
      have hdeletions := hsummarises.deletions
      dsimp only [finishFile, start] at hadditions hdeletions hgains
      omega
  next =>
    cases hsummarised with
    | none hempty => exact hfiles hempty

/-! ## Items -/

theorem DiffLineStats.line_hunkLine (line : HunkLine) (additions deletions : Nat) :
    (⟨true, additions, deletions⟩ : DiffLineStats).line (String.ofList (withoutCr line.text)) =
      ⟨true, additions + amount .added line, deletions + amount .removed line⟩ := by
  unfold HunkLine.text amount
  cases line.kind with
  | context | noNewline =>
    rw [withoutCr_cons _ (by decide), DiffLineStats.line, startsWith_of_head _ (by decide),
      startsWith_of_head _ (by decide), startsWith_of_head _ (by decide)]
    rfl
  | added =>
    have hplus : startsWith (String.ofList (HunkLineKind.added.marker :: withoutCr line.content)) "+" = true :=
      startsWith_marker '+' _ (by decide)
    rw [withoutCr_cons _ (by decide), DiffLineStats.line, startsWith_of_head _ (by decide), hplus]
    rfl
  | removed =>
    have hminus : startsWith (String.ofList (HunkLineKind.removed.marker :: withoutCr line.content)) "-" = true :=
      startsWith_marker '-' _ (by decide)
    rw [withoutCr_cons _ (by decide), DiffLineStats.line, startsWith_of_head _ (by decide),
      startsWith_of_head _ (by decide), hminus]
    rfl

theorem DiffLineStats.hunkLines (content : List HunkLine) (additions deletions : Nat) :
    ((content.map HunkLine.text).map fun line => String.ofList (withoutCr line)).foldl DiffLineStats.line
        ⟨true, additions, deletions⟩ =
      ⟨true, additions + (content.map (amount .added)).sum,
        deletions + (content.map (amount .removed)).sum⟩ := by
  induction content generalizing additions deletions with
  | nil => rfl
  | cons line content ih =>
    rw [map_cons, map_cons, foldl_cons, line_hunkLine line, ih, map_cons, sum_cons,
      map_cons, sum_cons, Nat.add_assoc, Nat.add_assoc]

theorem DiffLineStats.hunks (hunks : List Hunk) (stats : DiffLineStats) :
    ∃ inHunk, ((hunks.flatMap Hunk.text).map fun line => String.ofList (withoutCr line)).foldl DiffLineStats.line stats =
      ⟨inHunk, stats.additions + (hunks.map (Hunk.count .added)).sum,
        stats.deletions + (hunks.map (Hunk.count .removed)).sum⟩ := by
  induction hunks generalizing stats with
  | nil => exact ⟨stats.inHunk, rfl⟩
  | cons hunk hunks ih =>
    have hheader : withoutCr ('@' :: '@' :: hunk.header) = '@' :: '@' :: withoutCr hunk.header := by
      rw [withoutCr_cons _ (by decide), withoutCr_cons _ (by decide)]
    have hat : startsWith (String.ofList ('@' :: '@' :: withoutCr hunk.header)) "@@" = true :=
      startsWith_content ['@'] (by decide) (prefix_append ['@'] _)
    have hfirst : ((hunk.text).map fun line => String.ofList (withoutCr line)).foldl DiffLineStats.line stats =
        ⟨true, stats.additions + hunk.count .added, stats.deletions + hunk.count .removed⟩ := by
      rw [Hunk.text, map_cons, foldl_cons, hheader, DiffLineStats.line, if_pos hat, hunkLines, Hunk.count,
        Hunk.count, count_lines, count_lines]
    obtain ⟨inHunk, hrest⟩ := ih ⟨true, stats.additions + hunk.count .added, stats.deletions + hunk.count .removed⟩
    refine ⟨inHunk, ?_⟩
    rw [flatMap_cons, map_append, foldl_append, hfirst, hrest, map_cons, sum_cons, map_cons,
      sum_cons, Nat.add_assoc, Nat.add_assoc]

theorem diffLineStats_hunksText (hunks : List Hunk) :
    diffLineStats (hunksText hunks) = ((hunks.map (Hunk.count .added)).sum, (hunks.map (Hunk.count .removed)).sum) := by
  obtain ⟨inHunk, hstats⟩ := DiffLineStats.hunks hunks ⟨false, 0, 0⟩
  rw [diffLineStats, hunksText, lines_linesText (hunks_oneLine hunks), hstats]
  rw [Nat.zero_add, Nat.zero_add]

theorem IsUpdate.stats {change : JsonValue} {hunks : List Hunk} (h : IsUpdate change hunks) :
    diffChangeStats change = ((hunks.map (Hunk.count .added)).sum, (hunks.map (Hunk.count .removed)).sum) := by
  have hkind : ((change.get "kind").bind fun kind => ((kind.get "type").bind JsonValue.asStr).or kind.asStr) =
      some "update" := by
    obtain ⟨kind, hget, htype⟩ := Option.bind_eq_some_iff.mp h.kind
    rw [hget, Option.bind_some, htype]
    rfl
  have hupdate : toAsciiLowercase (trim "update") = "update" := by decide
  have hadd : "update" ∉ ["add", "added", "create", "created"] := by simp
  have hdelete : "update" ∉ ["delete", "deleted", "remove", "removed"] := by simp
  unfold diffChangeStats
  rw [hkind, Option.some_or]
  dsimp only
  rw [Option.getD_some, hupdate, if_neg hadd, if_neg hdelete, h.diff, Option.bind_some, JsonValue.asStr, Option.getD_some,
    diffLineStats_hunksText]

theorem diffSummaryFromItem_totals {item : JsonValue} (h : IsFileChange item files) :
    (diffSummaryFromItem item).map totals =
      if files = [] then none
      else some (files.length, (files.map GitDiffFile.added).sum, (files.map GitDiffFile.removed).sum) := by
  obtain ⟨changes, hitem, hchanges⟩ := h
  have hlength := hchanges.length_eq
  have hstats : (changes.map diffChangeFile).map (·.additions) = files.map GitDiffFile.added ∧
      (changes.map diffChangeFile).map (·.deletions) = files.map GitDiffFile.removed := by
    clear hitem hlength
    induction hchanges with
    | nil => exact ⟨rfl, rfl⟩
    | cons hchange _ ih =>
      have hstat := hchange.stats
      constructor
      · rw [map_cons, map_cons, map_cons, ih.1, diffChangeFile, hstat]
        rfl
      · rw [map_cons, map_cons, map_cons, ih.2, diffChangeFile, hstat]
        rfl
  have hnil : Tallies.Tallied path sizes telegramDiffMaxPaths [] [] :=
    Tallies.tallied_nil
  have hlisted := hnil.foldl add (fun _ _ => rfl) (fun _ _ => rfl) (changes.map diffChangeFile)
  have hbounded : ((changes.map diffChangeFile).foldl pushUniqueDiffFile []).length ≤ changes.length := by
    have hlist := hlisted.bounded
    rwa [nil_append, length_map] at hlist
  unfold diffSummaryFromItem
  rw [hitem, Option.bind_some]
  dsimp only [JsonValue.asArray]
  rw [Option.bind_some, Nat.max_eq_left hbounded, hstats.1, hstats.2, diffSummary, hlength]
  cases files with
  | nil | cons file files => rfl

/-- The two summaries of a diff are right exactly when no content reads as the header of a file. -/
theorem diff_summaries_iff (files : List GitDiffFile) :
    (SummarisedBy files (diffSummaryFromDiff (diffText files)) ∧
        ∀ item, IsFileChange item files →
          (diffSummaryFromItem item).map totals =
            (diffSummaryFromDiff (diffText files)).map totals) ↔
      ∀ file ∈ files, ∀ line ∈ file.hunkLines, line.readsAsHeader = false := by
  constructor
  · intro ⟨hsummarised, _⟩ file hfile line hline
    by_contra hreads
    have hline := mem_flatMap.mpr ⟨file, hfile, hline⟩
    exact not_summarisedBy_diff ⟨line, hline, Bool.eq_true_of_not_eq_false hreads⟩ hsummarised
  · intro h
    have hsummarised := summarisedBy_diff files h
    refine ⟨hsummarised, fun item hitem => ?_⟩
    rw [diffSummaryFromItem_totals hitem]
    split
    next hempty =>
      rw [hempty, diffSummaryFromDiff_nil]
      rfl
    next hfiles =>
      generalize diffSummaryFromDiff (diffText files) = summary at hsummarised
      cases hsummarised with
      | none hempty => exact absurd hempty hfiles
      | some hsummarises =>
        rw [Option.map_some, totals, hsummarises.fileCount, hsummarises.additions,
          hsummarises.deletions]

def sqlComment : GitDiffFile where
  names := "a/q.sql b/q.sql"
  oneLine := by decide
  extended := []
  patch := some
    { oldName := "a/q.sql"
      newName := "b/q.sql"
      oldOneLine := by decide
      newOneLine := by decide
      hunks := [⟨" -1,2 +1 @@".toList, by decide,
        [⟨.removed, "-- old".toList, by decide⟩, ⟨.context, "select 1;".toList, by decide⟩]⟩] }

/-- A comment that is removed from a query reads as the header of another file. -/
theorem removed_comment_not_summarised :
    (diffSummaryFromDiff (diffText [sqlComment])).map totals = some (2, 0, 0) ∧
      ([sqlComment].length, sqlComment.added, sqlComment.removed) = (1, 0, 1) ∧
      ¬SummarisedBy [sqlComment] (diffSummaryFromDiff (diffText [sqlComment])) := by
  have htotals : (diffSummaryFromDiff (diffText [sqlComment])).map totals = some (2, 0, 0) := by
    decide +kernel
  refine ⟨htotals, by decide, fun hsummarised => ?_⟩
  generalize diffSummaryFromDiff (diffText [sqlComment]) = summary at htotals hsummarised
  cases hsummarised with
  | none hempty => exact absurd hempty (cons_ne_nil _ _)
  | some hsummarises =>
    have hcount := hsummarises.fileCount
    have htwo := congrArg Prod.fst (Option.some.inj htotals)
    exact absurd (htwo.symm.trans hcount) (by decide)

end MochiPort

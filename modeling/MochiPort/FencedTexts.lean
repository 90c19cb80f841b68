import Mathlib.Algebra.Group.Nat.Even
import Mathlib.Data.Nat.Bits
import MochiPort.ByteLines
import MochiPort.TrimmedCuts

/-! Texts with blocks between fence lines, and pieces of such texts that are read on their own. -/

/-- What a fence line is; the blanks around it do not matter. -/
structure Fences (α : Type*) where
  newline : α
  blank : α → Bool
  isFence : List α → Bool
  isFence_nil : isFence [] = false
  isFence_append : ∀ line more, isFence line = true → isFence (line ++ more) = true
  isFence_indent : ∀ blanks line, (∀ c ∈ blanks, blank c = true) → isFence (blanks ++ line) = isFence line
  isFence_trailing : ∀ blanks line, (∀ c ∈ blanks, blank c = true) → isFence (line ++ blanks) = isFence line

namespace Fences

open Cuts List

/-- Whether a block is open before the line that is being read, and what was read of that line. -/
@[ext]
structure FenceReading (α : Type*) where
  isOpen : Bool
  line : List α

variable {α : Type*} [DecidableEq α] (F : Fences α)

def start : FenceReading α := ⟨false, []⟩

def ends (r : FenceReading α) : Bool := r.isOpen != F.isFence r.line

def read : FenceReading α → List α → FenceReading α
  | r, [] => r
  | r, c :: text => if c = F.newline then read ⟨F.ends r, []⟩ text else read ⟨r.isOpen, r.line ++ [c]⟩ text

def FencesPaired (text : List α) : Prop := F.ends (F.read start text) = false

def restOfLine (after : List α) : List α := after.takeWhile (· ≠ F.newline)

/-- What comes next is in a block, and not on one of its fence lines. -/
def inside (r : FenceReading α) (after : List α) : Bool := r.isOpen && !F.isFence (r.line ++ F.restOfLine after)

def insideAt (text : List α) (i : Nat) : Bool := F.inside (F.read start (text.take i)) (text.drop i)

/-- A cut within a line makes no fence line and ends none before its fence; `r` is what was read before the cut. -/
def CutKept (r : FenceReading α) (gap after : List α) : Prop :=
  F.newline ∉ gap →
    F.isFence (r.line ++ (gap ++ F.restOfLine after)) = F.isFence r.line ∧ F.isFence (F.restOfLine after) = false

/-- A cut within a fence line is within one that closes a block. -/
def CutClosing (r : FenceReading α) (gap _after : List α) : Prop :=
  F.newline ∉ gap → F.isFence r.line = true → r.isOpen = true

/-- What holds of every cut between stretches, the first of which follows what was read. -/
def EveryCut (C : FenceReading α → List α → List α → Prop) (tail : List α) : FenceReading α → List (Stretch α) → Prop
  | _, [] => True
  | r, s :: stretches =>
    C r s.gap (s.piece ++ whole stretches tail) ∧ EveryCut C tail (F.read r (s.gap ++ s.piece)) stretches

/-- A piece that is read on its own, from `isOn` on, has the same characters in blocks as in the text, where `r` was
read before it; and it leaves a block open just when `isOn'` says so. -/
structure Shown (r : FenceReading α) (isOn isOn' : Bool) (piece after : List α) : Prop where
  ends : F.ends (F.read ⟨isOn, []⟩ piece) = isOn'
  inside : ∀ before rest, before ++ rest = piece → rest ≠ [] →
    F.inside (F.read ⟨isOn, []⟩ before) rest = F.inside (F.read r before) (rest ++ after)

section

variable {R : Type*} (isOn : R → Bool) (step : R → List α → R) (tail : List α)

/-- Every piece is read from what was recorded before it. -/
def AllShown : R → FenceReading α → List (Stretch α) → Prop
  | _, _, [] => True
  | b, r, s :: stretches =>
    F.Shown (F.read r s.gap) (isOn b) (isOn (step b s.piece)) s.piece (whole stretches tail) ∧
      AllShown (step b s.piece) (F.read r (s.gap ++ s.piece)) stretches

def AllEnd : R → List (Stretch α) → Prop
  | _, [] => True
  | b, s :: stretches =>
    F.ends (F.read ⟨isOn b, []⟩ s.piece) = isOn (step b s.piece) ∧ AllEnd (step b s.piece) stretches

end

section

variable {F} {r r' : FenceReading α} {text part gap after later blanks line : List α} {c : α}

theorem read_append (r : FenceReading α) (text part : List α) : F.read r (text ++ part) = F.read (F.read r text) part := by
  induction text generalizing r with
  | nil => rfl
  | cons c text ih =>
    rw [cons_append, read, read]
    split
    next => exact ih _
    next => exact ih _

theorem read_newline (r : FenceReading α) (text : List α) :
    F.read r (F.newline :: text) = F.read ⟨F.ends r, []⟩ text := if_pos rfl

theorem read_of_ne (h : c ≠ F.newline) (r : FenceReading α) (text : List α) :
    F.read r (c :: text) = F.read ⟨r.isOpen, r.line ++ [c]⟩ text := if_neg h

theorem read_line (h : F.newline ∉ text) (r : FenceReading α) : F.read r text = ⟨r.isOpen, r.line ++ text⟩ := by
  induction text generalizing r with
  | nil =>
    rw [append_nil]
    rfl
  | cons c text ih =>
    have hne : c ≠ F.newline := fun hc => h (hc ▸ mem_cons_self)
    rw [read_of_ne hne, ih fun hmem => h (mem_cons_of_mem c hmem), append_assoc]
    rfl

omit [DecidableEq α] in
theorem isFence_blank (h : ∀ c ∈ blanks, F.blank c = true) : F.isFence blanks = false := by
  have hnil := F.isFence_indent blanks [] h
  rwa [append_nil, F.isFence_nil] at hnil

section

variable (h : ∀ c ∈ blanks, F.blank c = true)
include h

theorem ends_read_blank (r : FenceReading α) : F.ends (F.read r blanks) = F.ends r := by
  induction blanks generalizing r with
  | nil => rfl
  | cons c blanks ih =>
    have hblanks : ∀ c ∈ blanks, F.blank c = true := fun d hd => h d (mem_cons_of_mem c hd)
    by_cases hc : c = F.newline
    · rw [hc, read_newline, ih hblanks, ends, F.isFence_nil, Bool.bne_false]
    · rw [read_of_ne hc, ih hblanks, ends, ends, F.isFence_trailing]
      intro d hd
      rw [mem_singleton.mp hd]
      exact h c mem_cons_self

/-- Within blank lines a block stays open or closed, and the line stays blank. -/
theorem read_blank (hline : ∀ c ∈ r.line, F.blank c = true) :
    (F.read r blanks).isOpen = r.isOpen ∧ ∀ c ∈ (F.read r blanks).line, F.blank c = true := by
  induction blanks generalizing r with
  | nil => exact ⟨rfl, hline⟩
  | cons c blanks ih =>
    have hblanks : ∀ c ∈ blanks, F.blank c = true := fun d hd => h d (mem_cons_of_mem c hd)
    by_cases hc : c = F.newline
    · have hends : F.ends r = r.isOpen := by rw [ends, isFence_blank hline, Bool.bne_false]
      rw [hc, read_newline, hends]
      exact @ih ⟨r.isOpen, []⟩ hblanks fun d hd => absurd hd not_mem_nil
    · rw [read_of_ne hc]
      refine @ih ⟨r.isOpen, r.line ++ [c]⟩ hblanks fun d hd => ?_
      rcases mem_append.mp hd with hd | hd
      · exact hline d hd
      · rw [mem_singleton.mp hd]
        exact h c mem_cons_self

theorem read_blank_newline (hmem : F.newline ∈ blanks) (r : FenceReading α) :
    (F.read r blanks).isOpen = F.ends r ∧ ∀ c ∈ (F.read r blanks).line, F.blank c = true := by
  obtain ⟨first, last, rfl⟩ := append_of_mem hmem
  have hfirst : ∀ c ∈ first, F.blank c = true := fun c hc => h c (mem_append_left _ hc)
  have hlast : ∀ c ∈ last, F.blank c = true := fun c hc =>
    h c (mem_append_right _ (mem_cons_of_mem F.newline hc))
  rw [read_append, read_newline, ends_read_blank hfirst]
  exact @read_blank α _ F ⟨F.ends r, []⟩ last hlast fun c hc => absurd hc not_mem_nil

end

theorem restOfLine_append_of_mem (h : F.newline ∈ text) (after : List α) :
    F.restOfLine (text ++ after) = F.restOfLine text := by
  induction text with
  | nil => exact absurd h not_mem_nil
  | cons c text ih =>
    rw [restOfLine, restOfLine, cons_append, takeWhile_cons, takeWhile_cons]
    by_cases hc : c = F.newline
    · rw [if_neg (by simpa using hc), if_neg (by simpa using hc)]
    · have hrest := ih ((mem_cons.mp h).resolve_left fun hnewline => hc hnewline.symm)
      rw [if_pos (by simpa using hc), if_pos (by simpa using hc)]
      exact congrArg _ hrest

theorem restOfLine_append_of_not_mem (h : F.newline ∉ text) (after : List α) :
    F.restOfLine (text ++ after) = text ++ F.restOfLine after :=
  takeWhile_append_of_pos fun _ hd => decide_eq_true fun hnewline => h (hnewline ▸ hd)

theorem restOfLine_of_not_mem (h : F.newline ∉ text) : F.restOfLine text = text := by
  have happend := restOfLine_append_of_not_mem h []
  have hnil : F.restOfLine [] = [] := takeWhile_nil
  rwa [append_nil, hnil, append_nil] at happend

theorem restOfLine_subset : F.restOfLine text ⊆ text := (List.takeWhile_prefix _).subset

theorem restOfLine_newline (text : List α) : F.restOfLine (F.newline :: text) = [] :=
  takeWhile_cons_of_neg (by simp)

theorem restOfLine_append_newline (text after : List α) :
    F.restOfLine (text ++ F.newline :: after) = F.restOfLine text := by
  by_cases hmem : F.newline ∈ text
  · exact restOfLine_append_of_mem hmem _
  · rw [restOfLine_append_of_not_mem hmem, restOfLine_newline, restOfLine_of_not_mem hmem, append_nil]

theorem restOfLine_of_ne (h : c ≠ F.newline) (text : List α) : F.restOfLine (c :: text) = c :: F.restOfLine text :=
  takeWhile_cons_of_pos (by simpa using h)

omit [DecidableEq α] in
theorem isFence_of_append (h : F.isFence (line ++ part) = false) : F.isFence line = false := by
  refine Bool.eq_false_iff.mpr fun hline => ?_
  rw [F.isFence_append line part hline] at h
  cases h

theorem isFence_restOfLine (h : F.isFence (line ++ F.restOfLine (part ++ after)) = false) :
    F.isFence (line ++ F.restOfLine part) = false := by
  by_cases hmem : F.newline ∈ part
  · rwa [restOfLine_append_of_mem hmem] at h
  · rw [restOfLine_append_of_not_mem hmem, ← append_assoc] at h
    rw [restOfLine_of_not_mem hmem]
    exact isFence_of_append h

/-- What is read of a piece on its own, as far as it follows the text that the piece is from. -/
inductive Follows (F : Fences α) (r r' : FenceReading α) (after : List α) : Prop
  | line (indent : List α) (hblank : ∀ c ∈ indent, F.blank c = true) (hopen : r.isOpen = r'.isOpen)
      (hline : r.line = indent ++ r'.line)
  | rest (hopen : r'.isOpen = (r.isOpen != F.isFence (r.line ++ F.restOfLine after)))
      (hrest : F.isFence (r'.line ++ F.restOfLine after) = false)
      (hclosing : F.isFence (r.line ++ F.restOfLine after) = true → r.isOpen = true)

/-- The line that is being read is a fence line when it is taken as far as it was read, or as a whole. -/
def LineKept (F : Fences α) (r : FenceReading α) (after : List α) : Prop :=
  F.isFence (r.line ++ F.restOfLine after) = F.isFence r.line

theorem CutKept.lineKept (h : F.CutKept r gap later) (hgap : ∀ c ∈ gap, F.blank c = true) :
    F.LineKept r (gap ++ later) := by
  by_cases hmem : F.newline ∈ gap
  · rw [LineKept, restOfLine_append_of_mem hmem]
    exact F.isFence_trailing _ _ fun c hc => hgap c (restOfLine_subset hc)
  · rw [LineKept, restOfLine_append_of_not_mem hmem]
    exact (h hmem).1

theorem lineKept_blank (h : ∀ c ∈ blanks, F.blank c = true) (r : FenceReading α) : F.LineKept r blanks :=
  F.isFence_trailing _ _ fun c hc => h c (restOfLine_subset hc)

namespace Follows

theorem ends_eq (h : Follows F r r' after) (hkept : F.LineKept r after) : F.ends r' = F.ends r := by
  cases h with
  | line indent hblank hopen hline =>
    rw [ends, ends, hopen, hline, F.isFence_indent indent _ hblank]
  | rest hopen hrest hclosing =>
    rw [ends, ends, hopen, hkept, isFence_of_append hrest, Bool.bne_false]

theorem read (h : Follows F r r' (part ++ after)) : Follows F (F.read r part) (F.read r' part) after := by
  induction part generalizing r r' with
  | nil => exact h
  | cons c part ih =>
    by_cases hc : c = F.newline
    · rw [hc, read_newline, read_newline]
      refine ih (.line [] (fun d hd => absurd hd not_mem_nil) ?_ rfl)
      refine (h.ends_eq ?_).symm
      rw [LineKept, hc, cons_append, restOfLine_newline, append_nil]
    · rw [read_of_ne hc, read_of_ne hc]
      refine ih ?_
      have hsplit : ∀ line : List α, line ++ [c] ++ F.restOfLine (part ++ after) =
          line ++ F.restOfLine (c :: part ++ after) := by
        intro line
        rw [cons_append, restOfLine_of_ne hc, append_assoc]
        rfl
      cases h with
      | line indent hblank hopen hline => exact .line indent hblank hopen (by rw [hline, append_assoc])
      | rest hopen hrest hclosing =>
        refine .rest ?_ ?_ ?_
        · rw [hsplit]
          exact hopen
        · rw [hsplit]
          exact hrest
        · rw [hsplit]
          exact hclosing

/-- The next character is in a block of the piece exactly when it is in a block of the text. -/
theorem inside_eq (h : Follows F r r' (part ++ after)) (hkept : F.LineKept (F.read r part) after) :
    F.inside r' part = F.inside r (part ++ after) := by
  have hpart : F.isFence (r.line ++ F.restOfLine (part ++ after)) = F.isFence (r.line ++ F.restOfLine part) := by
    by_cases hmem : F.newline ∈ part
    · rw [restOfLine_append_of_mem hmem]
    · rw [LineKept, read_line hmem] at hkept
      rw [restOfLine_append_of_not_mem hmem, restOfLine_of_not_mem hmem, ← append_assoc]
      exact hkept
  cases h with
  | line indent hblank hopen hline =>
    rw [inside, inside, hpart, hopen, hline, append_assoc, F.isFence_indent indent _ hblank]
  | rest hopen hrest hclosing =>
    have hpiece := isFence_restOfLine hrest
    rw [inside, inside, hpiece, hopen]
    cases hfence : F.isFence (r.line ++ F.restOfLine (part ++ after)) with
    | false => simp
    | true =>
      rw [hclosing hfence]
      rfl

theorem next (h : Follows F r r' (gap ++ later)) (hgap : ∀ c ∈ gap, F.blank c = true) (hkept : F.CutKept r gap later)
    (hclosing : F.CutClosing r gap later) : Follows F (F.read r gap) ⟨F.ends r', []⟩ later := by
  have hends := h.ends_eq (hkept.lineKept hgap)
  by_cases hmem : F.newline ∈ gap
  · obtain ⟨hopen, hblank⟩ := read_blank_newline hgap hmem r
    exact .line (F.read r gap).line hblank (hopen.trans hends.symm) (append_nil _).symm
  · obtain ⟨hline, hrest⟩ := hkept hmem
    rw [read_line hmem]
    refine .rest ?_ hrest ?_
    · rw [append_assoc, hline]
      exact hends
    · rw [append_assoc, hline]
      exact hclosing hmem

end Follows

/-- A cut within a fence line that opens a block brings what comes after it into the block. -/
theorem cutClosing_of_shown (h : Follows F r r' (gap ++ (part ++ after))) (hgap : ∀ c ∈ gap, F.blank c = true)
    (hkept : F.CutKept r gap (part ++ after)) {isOn' : Bool} (hne : part ≠ [])
    (hshown : F.Shown (F.read r gap) (F.ends r') isOn' part after) : F.CutClosing r gap (part ++ after) := by
  intro hmem hfence
  obtain ⟨hline, hrest⟩ := hkept hmem
  have hends := h.ends_eq (hkept.lineKept hgap)
  have hfirst := hshown.inside [] part rfl hne
  have htext : F.inside (F.read (F.read r gap) []) (part ++ after) = false := by
    change F.inside (F.read r gap) (part ++ after) = false
    rw [read_line hmem, inside, append_assoc, hline, hfence]
    exact Bool.and_false _
  have hpiece : F.isFence ([] ++ F.restOfLine part) = false := isFence_restOfLine hrest
  rw [htext] at hfirst
  change F.inside ⟨F.ends r', []⟩ part = false at hfirst
  rw [inside, hpiece, Bool.not_false, Bool.and_true, hends, ends, hfence] at hfirst
  simpa using hfirst

variable {R : Type*} {isOn : R → Bool} {step : R → List α → R} {b : R} {tail : List α} {s : Stretch α}
  {stretches : List (Stretch α)}

/-- The line at the end of a stretch is kept when the cut behind it is, or when only blanks follow. -/
theorem EveryCut.lineKept (hkept : F.EveryCut F.CutKept tail r stretches)
    (hgap : ∀ s ∈ stretches, ∀ c ∈ s.gap, F.blank c = true) (htail : ∀ c ∈ tail, F.blank c = true) :
    F.LineKept r (whole stretches tail) := by
  cases stretches with
  | nil => exact lineKept_blank htail r
  | cons s stretches => exact hkept.1.lineKept (hgap s mem_cons_self)

theorem Follows.shown {on on' : Bool} (h : F.Follows r ⟨on, []⟩ (part ++ after))
    (hkept : F.LineKept (F.read r part) after) (hends : F.ends (F.read ⟨on, []⟩ part) = on') :
    F.Shown r on on' part after := by
  refine ⟨hends, fun before rest hsplit _ => ?_⟩
  rw [← hsplit, append_assoc] at h
  refine h.read.inside_eq ?_
  rw [← read_append, hsplit]
  exact hkept

theorem AllEnd.shown (h : F.AllEnd isOn step b (s :: stretches))
    (hfollows : F.Follows (F.read r s.gap) ⟨isOn b, []⟩ (s.piece ++ whole stretches tail))
    (hkept : F.EveryCut F.CutKept tail (F.read r (s.gap ++ s.piece)) stretches)
    (hclosing : F.EveryCut F.CutClosing tail (F.read r (s.gap ++ s.piece)) stretches)
    (hgap : ∀ s ∈ stretches, ∀ c ∈ s.gap, F.blank c = true) (htail : ∀ c ∈ tail, F.blank c = true) :
    F.AllShown isOn step tail b r (s :: stretches) := by
  have hline := hkept.lineKept hgap htail
  rw [read_append] at hline
  refine ⟨hfollows.shown hline h.1, ?_⟩
  induction stretches generalizing b r s with
  | nil => trivial
  | cons s' stretches ih =>
    have hnext := hfollows.read.next (hgap s' mem_cons_self) (read_append r s.gap s.piece ▸ hkept.1)
      (read_append r s.gap s.piece ▸ hclosing.1)
    rw [h.1, ← read_append r] at hnext
    have hgap' : ∀ s ∈ stretches, ∀ c ∈ s.gap, F.blank c = true := fun s hs => hgap s (mem_cons_of_mem s' hs)
    have hline' := hkept.2.lineKept hgap' htail
    rw [read_append] at hline'
    exact ⟨hnext.shown hline' h.2.1, ih h.2 hnext hkept.2 hclosing.2 hgap' hline'⟩

theorem AllShown.ends (h : F.AllShown isOn step tail b r stretches) : F.AllEnd isOn step b stretches := by
  induction stretches generalizing b r with
  | nil => trivial
  | cons s stretches ih => exact ⟨h.1.ends, ih h.2⟩

/-- Where the pieces are shown as in the text, no cut is within a fence line that opens a block. -/
theorem AllShown.closing (h : F.AllShown isOn step tail b r (s :: stretches))
    (hfollows : F.Follows (F.read r s.gap) ⟨isOn b, []⟩ (s.piece ++ whole stretches tail))
    (hkept : F.EveryCut F.CutKept tail (F.read r (s.gap ++ s.piece)) stretches)
    (hgap : ∀ s ∈ stretches, ∀ c ∈ s.gap, F.blank c = true) (hne : ∀ s ∈ stretches, s.piece ≠ []) :
    F.EveryCut F.CutClosing tail (F.read r (s.gap ++ s.piece)) stretches := by
  induction stretches generalizing b r s with
  | nil => trivial
  | cons s' stretches ih =>
    have hkept' := hkept.1
    rw [read_append r] at hkept'
    have hshown := h.2.1
    rw [← h.1.ends, read_append r] at hshown
    have hclosing := cutClosing_of_shown hfollows.read (hgap s' mem_cons_self) hkept' (hne s' mem_cons_self)
      hshown
    have hnext := hfollows.read.next (hgap s' mem_cons_self) hkept' hclosing
    rw [h.1.ends, ← read_append r] at hnext
    rw [← read_append r] at hclosing
    exact ⟨hclosing, ih h.2 hnext hkept.2 (fun s hs => hgap s (mem_cons_of_mem s' hs))
      fun s hs => hne s (mem_cons_of_mem s' hs)⟩

/-- A block is open after an odd number of fence lines. -/
theorem read_cut (h : F.newline ∉ r.line) (text : List α) :
    F.read r text =
      ⟨r.isOpen != ((ByteLines.cut F.newline (r.line ++ text)).1.countP F.isFence).bodd,
        (ByteLines.cut F.newline (r.line ++ text)).2⟩ := by
  induction text generalizing r with
  | nil =>
    have hcut := ByteLines.cut_of_not_mem h
    rw [append_nil, hcut, countP_nil]
    cases r with
    | mk isOpen line => exact congrArg₂ FenceReading.mk (Bool.bne_false _).symm rfl
  | cons c text ih =>
    by_cases hc : c = F.newline
    · rw [hc, read_newline, ByteLines.cut_line h, @ih ⟨F.ends r, []⟩ not_mem_nil]
      rw [nil_append, countP_cons, ends]
      refine congrArg (FenceReading.mk · _) ?_
      cases F.isFence r.line with
      | false | true => simp
    · rw [read_of_ne hc, ih]
      · rw [append_assoc]
        rfl
      · intro hmem
        rcases mem_append.mp hmem with hmem | hmem
        · exact h hmem
        · exact hc (mem_singleton.mp hmem).symm

/-- What is recorded of the fence lines so far: the language of the one that opened a block. -/
def record {Line L : Type*} (language : Line → Option L) : Option L → Line → Option L
  | some _, _ => none
  | none, line => language line

/-- The record tells whether a block is open, unless the last fence line without a language opened one. -/
theorem foldl_record_isSome_iff {Line L : Type*} (language : Line → Option L) (fences : List Line) :
    (fences.foldl (record language) none).isSome = fences.length.bodd ↔
      Even (fences.rdropWhile fun line => (language line).isSome).length := by
  induction fences using List.reverseRecOn with
  | nil => simp
  | append_singleton fences line ih =>
    rw [foldl_append, length_append, length_singleton, Nat.bodd_succ]
    cases hlanguage : language line with
    | none =>
      rw [rdropWhile_concat_neg _ _ _ (by simp [hlanguage]), length_append, length_singleton,
        Nat.even_iff, Nat.mod_two_of_bodd, Nat.bodd_succ]
      have hnone : [line].foldl (record language) (fences.foldl (record language) none) = none := by
        cases hrecorded : fences.foldl (record language) none with
        | none => exact hlanguage
        | some l => rfl
      rw [hnone]
      cases fences.length.bodd with
      | false | true => simp
    | some l =>
      rw [rdropWhile_concat_pos _ _ _ (by simp [hlanguage]), ← ih]
      cases hrecorded : fences.foldl (record language) none with
      | none =>
        have hsome : [line].foldl (record language) none = some l := hlanguage
        rw [hsome]
        simp
      | some l' =>
        have hnone : [line].foldl (record language) (some l') = none := rfl
        rw [hnone]
        simp

section

variable {Line L : Type*} (language : Line → Option L) (fences : List α → List Line)

/-- After every piece, the last of the fence lines so far that has no language is one that closes a block. -/
def PlainFencesClose : List Line → List (Stretch α) → Prop
  | _, [] => True
  | seen, s :: stretches =>
    Even ((seen ++ fences s.piece).rdropWhile fun line => (language line).isSome).length ∧
      PlainFencesClose (seen ++ fences s.piece) stretches

variable {language fences}

theorem allEnd_iff {seen : List Line} (hseen : (seen.foldl (record language) none).isSome = seen.length.bodd)
    (hends : ∀ s ∈ stretches, ∀ on, F.ends (F.read ⟨on, []⟩ s.piece) = (on != (fences s.piece).length.bodd)) :
    F.AllEnd Option.isSome (fun b piece => (fences piece).foldl (record language) b)
        (seen.foldl (record language) none) stretches ↔
      PlainFencesClose language fences seen stretches := by
  induction stretches generalizing seen with
  | nil => exact Iff.rfl
  | cons s stretches ih =>
    have hfirst : F.ends (F.read ⟨(seen.foldl (record language) none).isSome, []⟩ s.piece) =
        ((fences s.piece).foldl (record language) (seen.foldl (record language) none)).isSome ↔
          Even ((seen ++ fences s.piece).rdropWhile fun line => (language line).isSome).length := by
      rw [← foldl_record_isSome_iff, hends s mem_cons_self, hseen, foldl_append, length_append,
        Nat.bodd_add]
      exact eq_comm
    rw [AllEnd, PlainFencesClose, hfirst]
    refine and_congr_right fun heven => ?_
    rw [← foldl_append]
    exact ih ((foldl_record_isSome_iff language _).mpr heven) fun s' hs' => hends s' (mem_cons_of_mem s hs')

end

end

end Fences

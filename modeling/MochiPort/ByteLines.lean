import Mathlib.Algebra.GroupWithZero.Nat
import Mathlib.Data.List.DropRight

/-! Lines of a sequence of bytes that comes in pieces. -/

namespace ByteLines

open List

variable {α : Type*} [DecidableEq α]

/-- The lines that are ended by the separator, and the rest. -/
def cut (sep : α) : List α → List (List α) × List α
  | [] => ([], [])
  | a :: as =>
    if a = sep then ([] :: (cut sep as).1, (cut sep as).2)
    else
      match (cut sep as).1 with
      | [] => ([], a :: (cut sep as).2)
      | line :: lines => ((a :: line) :: lines, (cut sep as).2)

theorem cut_cons_sep (sep : α) (as : List α) : cut sep (sep :: as) = ([] :: (cut sep as).1, (cut sep as).2) :=
  if_pos rfl

theorem cut_cons_of_nil {sep a : α} {as : List α} (hne : a ≠ sep) (h : (cut sep as).1 = []) :
    cut sep (a :: as) = ([], a :: (cut sep as).2) := by
  rw [cut, if_neg hne, h]

variable {lines : List (List α)}

theorem cut_cons_of_cons {sep a : α} {as line : List α} (hne : a ≠ sep) (h : (cut sep as).1 = line :: lines) :
    cut sep (a :: as) = ((a :: line) :: lines, (cut sep as).2) := by
  rw [cut, if_neg hne, h]

/-- Lines may be read off piece by piece: what is left of a piece comes before the next one. -/
theorem cut_append (sep : α) (as bs : List α) :
    cut sep (as ++ bs) =
      ((cut sep as).1 ++ (cut sep ((cut sep as).2 ++ bs)).1, (cut sep ((cut sep as).2 ++ bs)).2) := by
  induction as with
  | nil => rfl
  | cons a as ih =>
    by_cases ha : a = sep
    · subst ha
      rw [cons_append, cut_cons_sep, cut_cons_sep, ih]
      rfl
    · cases hlines : (cut sep as).1 with
      | nil =>
        rw [cons_append, cut_cons_of_nil ha hlines]
        rw [hlines, nil_append] at ih
        have hboth : cut sep (as ++ bs) = cut sep ((cut sep as).2 ++ bs) := ih
        rw [nil_append, cons_append]
        cases hrest : (cut sep ((cut sep as).2 ++ bs)).1 with
        | nil => rw [cut_cons_of_nil ha (by rw [hboth]; exact hrest), cut_cons_of_nil ha hrest, hboth]
        | cons line lines =>
          rw [cut_cons_of_cons ha (by rw [hboth]; exact hrest), cut_cons_of_cons ha hrest, hboth]
      | cons line lines =>
        rw [cons_append, cut_cons_of_cons ha hlines]
        rw [hlines, cons_append] at ih
        rw [cut_cons_of_cons ha (by rw [ih]), ih]
        rfl

variable {sep : α}

theorem cut_line {line : List α} (h : sep ∉ line) (rest : List α) :
    cut sep (line ++ sep :: rest) = (line :: (cut sep rest).1, (cut sep rest).2) := by
  induction line with
  | nil => exact cut_cons_sep sep rest
  | cons a line ih =>
    have hne : a ≠ sep := fun ha => h (ha ▸ mem_cons_self)
    have hline := ih fun hmem => h (mem_cons_of_mem _ hmem)
    have hfirst : (cut sep (line ++ sep :: rest)).1 = line :: (cut sep rest).1 := by rw [hline]
    rw [cons_append, cut_cons_of_cons hne hfirst, hline]

theorem cut_of_not_mem {line : List α} (h : sep ∉ line) : cut sep line = ([], line) := by
  induction line with
  | nil => rfl
  | cons a line ih =>
    have hne : a ≠ sep := fun ha => h (ha ▸ mem_cons_self)
    have hline := ih fun hmem => h (mem_cons_of_mem a hmem)
    rw [cut_cons_of_nil hne (by rw [hline]), hline]

def join (sep : α) (lines : List (List α)) (rest : List α) : List α :=
  match lines with
  | [] => rest
  | line :: lines => line ++ sep :: join sep lines rest

theorem join_cut (sep : α) (as : List α) : join sep (cut sep as).1 (cut sep as).2 = as := by
  induction as with
  | nil => rfl
  | cons a as ih =>
    by_cases ha : a = sep
    · rw [ha, cut_cons_sep, join, ih]
      rfl
    · cases hlines : (cut sep as).1 with
      | nil =>
        rw [hlines] at ih
        rw [cut_cons_of_nil ha hlines]
        exact congrArg (a :: ·) ih
      | cons line lines =>
        rw [hlines] at ih
        rw [cut_cons_of_cons ha hlines]
        exact congrArg (a :: ·) ih

theorem getLast?_of_cut_snd_nil {as : List α} (hne : as ≠ []) (h : (cut sep as).2 = []) : as.getLast? = some sep := by
  induction as with
  | nil => exact absurd rfl hne
  | cons a as ih =>
    have hrest : (cut sep as).2 = [] → (a :: as).getLast? = some sep ∨ as = [] := fun hnil => by
      by_cases has : as = []
      · exact .inr has
      · exact .inl ((List.getLast?_cons_of_ne_nil has).trans (ih has hnil))
    by_cases ha : a = sep
    · rw [ha, cut_cons_sep] at h
      rcases hrest h with hlast | rfl
      · exact hlast
      · rw [ha]
        rfl
    · cases hlines : (cut sep as).1 with
      | nil =>
        rw [cut_cons_of_nil ha hlines] at h
        cases h
      | cons line lines =>
        rw [cut_cons_of_cons ha hlines] at h
        rcases hrest h with hlast | rfl
        · exact hlast
        · cases hlines

omit [DecidableEq α] in
theorem mem_join_infix {line rest : List α} (h : line ∈ lines) : line <:+: join sep lines rest := by
  induction lines with
  | nil => exact absurd h not_mem_nil
  | cons first lines ih =>
    rcases mem_cons.mp h with rfl | h
    · exact (prefix_append _ _).isInfix
    · exact (ih h).trans ((suffix_cons sep _).trans (suffix_append first _)).isInfix

omit [DecidableEq α] in
theorem join_suffix (sep : α) (lines : List (List α)) (rest : List α) : rest <:+ join sep lines rest := by
  induction lines with
  | nil => exact suffix_refl rest
  | cons line lines ih => exact (ih.trans (suffix_cons sep _)).trans (suffix_append line _)

theorem not_mem_of_mem_cut {as line : List α} (h : line ∈ (cut sep as).1) : sep ∉ line := by
  induction as generalizing line with
  | nil => exact absurd h not_mem_nil
  | cons a as ih =>
    by_cases ha : a = sep
    · rw [ha, cut_cons_sep] at h
      rcases mem_cons.mp h with rfl | h
      · exact not_mem_nil
      · exact ih h
    · cases hlines : (cut sep as).1 with
      | nil =>
        rw [cut_cons_of_nil ha hlines] at h
        exact absurd h not_mem_nil
      | cons first lines =>
        rw [cut_cons_of_cons ha hlines] at h
        have hfirst := ih (hlines ▸ mem_cons_self)
        rcases mem_cons.mp h with rfl | h
        · intro hmem
          rcases mem_cons.mp hmem with heq | hmem
          · exact ha heq.symm
          · exact hfirst hmem
        · exact ih (hlines ▸ mem_cons_of_mem first h)

theorem cut_join_append (h : ∀ line ∈ lines, sep ∉ line) (rest bs : List α) :
    cut sep (join sep lines rest ++ bs) = (lines ++ (cut sep (rest ++ bs)).1, (cut sep (rest ++ bs)).2) := by
  induction lines with
  | nil => rfl
  | cons line lines ih =>
    have hrest := ih fun other hother => h other (mem_cons_of_mem line hother)
    rw [join, append_assoc, cons_append, cut_line (h line mem_cons_self), hrest]
    rfl

theorem cut_cut (sep : α) (as : List α) : (cut sep (cut sep as).2).1 = [] := by
  have happend := cut_append sep as []
  rw [append_nil, append_nil] at happend
  have hlines := congrArg Prod.fst happend
  exact self_eq_append_right.mp hlines

theorem not_mem_cut_snd (sep : α) (as : List α) : sep ∉ (cut sep as).2 := by
  induction as with
  | nil => simp [cut]
  | cons a as ih =>
    by_cases ha : a = sep
    · rw [ha, cut_cons_sep]
      exact ih
    · cases hlines : (cut sep as).1 with
      | nil =>
        rw [cut_cons_of_nil ha hlines]
        simp [ih, Ne.symm ha]
      | cons line lines =>
        rw [cut_cons_of_cons ha hlines]
        exact ih

omit [DecidableEq α] in
theorem length_join (sep : α) (lines : List (List α)) (rest : List α) :
    (join sep lines rest).length = (lines.map fun line => line.length + 1).sum + rest.length := by
  induction lines with
  | nil => simp [join]
  | cons line lines ih =>
    simp only [join, length_append, length_cons, ih, map_cons, sum_cons]
    omega

omit [DecidableEq α] in
theorem join_nil_append (sep : α) (lines : List (List α)) (rest : List α) :
    join sep lines [] ++ rest = join sep lines rest := by
  induction lines with
  | nil => rfl
  | cons line lines ih => simp only [join, append_assoc, cons_append, ih]

omit [DecidableEq α] in
theorem rtakeWhile_append_cons {p : α → Bool} {a : α} (h : ¬p a = true) (before after : List α) :
    (before ++ a :: after).rtakeWhile p = after.rtakeWhile p := by
  induction after using List.reverseRecOn with
  | nil => simp [rtakeWhile_concat_neg, h]
  | append_singleton after b ih =>
    have hassoc : before ++ a :: (after ++ [b]) = before ++ a :: after ++ [b] := by simp
    rw [hassoc, rtakeWhile_concat, rtakeWhile_concat, ih]

theorem cut_snd_eq (sep : α) (as : List α) : (cut sep as).2 = as.rtakeWhile (· ≠ sep) := by
  have hjoin : ∀ lines, (join sep lines (cut sep as).2).rtakeWhile (· ≠ sep) = (cut sep as).2 := by
    intro lines
    induction lines with
    | nil =>
      refine rtakeWhile_eq_self_iff.mpr fun a ha => ?_
      simpa using fun heq : a = sep => not_mem_cut_snd sep as (heq ▸ ha)
    | cons line lines ih =>
      rw [join, rtakeWhile_append_cons (by simp), ih]
  have h := hjoin (cut sep as).1
  rw [join_cut] at h
  exact h.symm

end ByteLines

namespace Utf8

def isContinuation (byte : UInt8) : Bool := 0x80 ≤ byte && byte ≤ 0xbf

/-- The bytes that may follow the first byte of a sequence of three or four. -/
def isSecond (first byte : UInt8) : Bool :=
  if first = 0xe0 then 0xa0 ≤ byte && byte ≤ 0xbf
  else if first = 0xed then 0x80 ≤ byte && byte ≤ 0x9f
  else if first = 0xf0 then 0x90 ≤ byte && byte ≤ 0xbf
  else if first = 0xf4 then 0x80 ≤ byte && byte ≤ 0x8f
  else isContinuation byte

def replacement : Char := '\ufffd'

def continued (code : Nat) (byte : UInt8) : Nat := 64 * code + (byte.toNat - 128)

/-- The character that the bytes begin with, and the bytes behind it: an invalid sequence, as far as it could be
the start of a valid one, is one replacement character. -/
def lossyChar (first : UInt8) (rest : List UInt8) : Char × List UInt8 :=
  if first < 0x80 then (Char.ofNat first.toNat, rest)
  else if 0xc2 ≤ first && first ≤ 0xdf then
    match rest with
    | b :: rest =>
      if isContinuation b then (Char.ofNat (continued (first.toNat - 0xc0) b), rest) else (replacement, b :: rest)
    | [] => (replacement, [])
  else if 0xe0 ≤ first && first ≤ 0xef then
    match rest with
    | b :: rest =>
      if isSecond first b then
        match rest with
        | c :: rest =>
          if isContinuation c then (Char.ofNat (continued (continued (first.toNat - 0xe0) b) c), rest)
          else (replacement, c :: rest)
        | [] => (replacement, [])
      else (replacement, b :: rest)
    | [] => (replacement, [])
  else if 0xf0 ≤ first && first ≤ 0xf4 then
    match rest with
    | b :: rest =>
      if isSecond first b then
        match rest with
        | c :: rest =>
          if isContinuation c then
            match rest with
            | d :: rest =>
              if isContinuation d then
                (Char.ofNat (continued (continued (continued (first.toNat - 0xf0) b) c) d), rest)
              else (replacement, d :: rest)
            | [] => (replacement, [])
          else (replacement, c :: rest)
        | [] => (replacement, [])
      else (replacement, b :: rest)
    | [] => (replacement, [])
  else (replacement, rest)

/-- Each round reads at least one byte, so the number of bytes is fuel enough. -/
def lossyLoop : Nat → List UInt8 → List Char
  | 0, _ => []
  | _ + 1, [] => []
  | fuel + 1, first :: rest => (lossyChar first rest).1 :: lossyLoop fuel (lossyChar first rest).2

def fromUtf8Lossy (bytes : List UInt8) : String := String.ofList (lossyLoop bytes.length bytes)

example : fromUtf8Lossy [0x61, 0xc3, 0xa9, 0xe2, 0x82, 0x62] = "aé\ufffdb" := by decide

end Utf8

import MochiPort.ByteLines
import MochiPort.RustText

namespace RustText

def charCount (s : String) : Nat := s.toList.length

def withoutCr (line : List Char) : List Char := if line.getLast? = some '\r' then line.dropLast else line

/-- `str::lines`. A carriage return belongs to the end of a line, but not at the end of the text. -/
def lines (s : String) : List String :=
  let ended := (ByteLines.cut '\n' s.toList).1
  let rest := (ByteLines.cut '\n' s.toList).2
  (ended.map fun line => String.ofList (withoutCr line)) ++ if rest = [] then [] else [String.ofList rest]

/-- Replaces the occurrences of the pattern from the left. The first `skip` characters belong to an occurrence. -/
def replaceList (pattern replacement : List Char) (skip : Nat) : List Char → List Char
  | [] => []
  | c :: rest =>
    match skip with
    | skip + 1 => replaceList pattern replacement skip rest
    | 0 =>
      if pattern.isPrefixOf (c :: rest) then
        replacement ++ replaceList pattern replacement (pattern.length - 1) rest
      else c :: replaceList pattern replacement 0 rest

/-- `str::replace` for a pattern that is not empty. -/
def replace (s pattern replacement : String) : String :=
  String.ofList (replaceList pattern.toList replacement.toList 0 s.toList)

def splitWhitespace (s : String) : List String :=
  ((s.toList.splitOnP isWhitespace).filter (· ≠ [])).map String.ofList

/-- `str::trim_matches` for one character. -/
def trimMatches (s : String) (c : Char) : String :=
  String.ofList ((s.toList.dropWhile (· = c)).reverse.dropWhile (· = c)).reverse

end RustText

namespace MochiPort

open RustText

def telegramCardSeparator : String := "──────────────"

def singleLine (text : String) : String :=
  let text := replace text "\r\n" " "
  let text := replace (replace text "\r" " ") "\n" " "
  " ".intercalate (splitWhitespace text)

def withoutFirstLink (output : List Char) : Option (List Char) :=
  (splitOnceList ['['] output).bind fun (before, rest) =>
    (splitOnceList [']', '('] rest).bind fun (label, rest) =>
      (splitOnceList [')'] rest).map fun (_, rest) => before ++ label ++ rest

theorem length_of_splitOnceList {pattern l before after : List Char}
    (h : splitOnceList pattern l = some (before, after)) :
    before.length + after.length + pattern.length ≤ l.length + pattern.length ∧
      (pattern ≠ [] → before.length + after.length < l.length) := by
  induction l generalizing before with
  | nil =>
    rw [splitOnceList] at h
    split at h
    next hprefix =>
      obtain ⟨rfl, rfl⟩ := Prod.mk.inj (Option.some.inj h)
      refine ⟨Nat.le_refl _, fun hne => ?_⟩
      exact absurd (List.prefix_nil.mp (List.isPrefixOf_iff_prefix.mp hprefix)) hne
    next => exact absurd h (Option.some_ne_none _).symm
  | cons c rest ih =>
    rw [splitOnceList] at h
    split at h
    next hprefix =>
      obtain ⟨rfl, rfl⟩ := Prod.mk.inj (Option.some.inj h)
      have hdrop : ((c :: rest).drop pattern.length).length = (c :: rest).length - pattern.length := List.length_drop
      have hpattern : pattern.length ≤ (c :: rest).length := (List.isPrefixOf_iff_prefix.mp hprefix).length_le
      rw [hdrop, List.length_nil]
      refine ⟨by omega, fun hne => ?_⟩
      have hpos := List.length_pos_iff.mpr hne
      omega
    next =>
      obtain ⟨⟨head, tail⟩, hsplit, heq⟩ := Option.map_eq_some_iff.mp h
      obtain ⟨rfl, rfl⟩ := Prod.mk.inj heq
      obtain ⟨hle, hlt⟩ := ih hsplit
      rw [List.length_cons, List.length_cons]
      exact ⟨by omega, fun hne => by have := hlt hne; omega⟩

theorem withoutFirstLink_length {output shorter : List Char} (h : withoutFirstLink output = some shorter) :
    shorter.length < output.length := by
  obtain ⟨⟨before, rest⟩, hopen, h⟩ := Option.bind_eq_some_iff.mp h
  obtain ⟨⟨label, afterLabel⟩, hmiddle, h⟩ := Option.bind_eq_some_iff.mp h
  obtain ⟨⟨url, tail⟩, hclose, rfl⟩ := Option.map_eq_some_iff.mp h
  have hbefore := (length_of_splitOnceList hopen).2 (by decide)
  have hlabel := (length_of_splitOnceList hmiddle).2 (by decide)
  have htail := (length_of_splitOnceList hclose).2 (by decide)
  rw [List.length_append, List.length_append]
  omega

def withoutLinks (output : List Char) : List Char :=
  match _hlink : withoutFirstLink output with
  | none => output
  | some shorter => withoutLinks shorter
termination_by output.length
decreasing_by exact withoutFirstLink_length _hlink

def stripInlineMarkdown (text : String) : String :=
  let output := replace (replace text "**" "") "__" ""
  let output := replace output "`" ""
  trim (String.ofList (withoutLinks output.toList))

def truncateTextWithEllipsis (text : String) (maxChars : Nat) : String :=
  if charCount text ≤ maxChars then text
  else if maxChars ≤ 1 then String.ofList (['…'].take maxChars)
  else String.ofList (text.toList.take (maxChars - 1) ++ ['…'])

def truncateMiddle (text : String) (maxChars : Nat) : String :=
  if charCount text ≤ maxChars then text
  else if maxChars ≤ 3 then String.ofList (text.toList.take maxChars)
  else
    let headLen := (maxChars - 3) / 2
    let tailLen := maxChars - (3 + headLen)
    String.ofList (text.toList.take headLen ++ ['.', '.', '.'] ++ text.toList.drop (charCount text - tailLen))

def truncateTail (text : String) (maxChars : Nat) : String :=
  if charCount text ≤ maxChars then text
  else if maxChars ≤ 3 then String.ofList (text.toList.drop (charCount text - maxChars))
  else String.ofList (['.', '.', '.'] ++ text.toList.drop (charCount text - (maxChars - 3)))

def telegramReasoningRenderChars : Nat := 80

def reasoningRenderLine (reasoning : String) : String :=
  truncateTextWithEllipsis (stripInlineMarkdown (singleLine reasoning)) telegramReasoningRenderChars

def compactText (text : String) (maxChars : Nat) : String :=
  let normalized := replace (replace (replace text "```" "'''") "\r\n" "\n") "\r" "\n"
  truncateMiddle ("\n".intercalate (((lines normalized).map trim).filter (· ≠ ""))) maxChars

def truncateInline (value : String) (maxChars : Nat) : String :=
  let normalized := replace (" ".intercalate (splitWhitespace value)) "`" "'"
  if charCount normalized ≤ maxChars then normalized
  else String.ofList (normalized.toList.take (maxChars - 1) ++ ['…'])

def fileName (path : String) : String :=
  let trimmed := trimMatches (trim path) '"'
  ((((trimmed.toList.splitOnP fun c => c = '/' || c = '\\').reverse.find? (· ≠ [])).map String.ofList).getD trimmed)

def diffFileDisplayName (path : String) : String :=
  match RustText.splitOnce path " -> " with
  | some (source, target) => fileName source ++ " -> " ++ fileName target
  | none => fileName path

section

variable (text : String) (maxChars : Nat)

theorem charCount_truncateMiddle : charCount (truncateMiddle text maxChars) ≤ maxChars := by
  unfold truncateMiddle
  split
  next hshort => exact hshort
  next hlong =>
    split
    next =>
      rw [charCount, String.toList_ofList, List.length_take]
      exact Nat.min_le_left _ _
    next hroom =>
      have hlength : text.toList.length = charCount text := rfl
      rw [charCount, String.toList_ofList, List.length_append, List.length_append, List.length_take,
        List.length_drop, hlength]
      have hdots : ['.', '.', '.'].length = 3 := rfl
      omega

theorem charCount_truncateTail : charCount (truncateTail text maxChars) ≤ maxChars := by
  have hlength : text.toList.length = charCount text := rfl
  unfold truncateTail
  split
  next hshort => exact hshort
  next hlong =>
    split
    next =>
      rw [charCount, String.toList_ofList, List.length_drop, hlength]
      omega
    next hroom =>
      rw [charCount, String.toList_ofList, List.length_append, List.length_drop, hlength]
      have hdots : ['.', '.', '.'].length = 3 := rfl
      omega

end

end MochiPort

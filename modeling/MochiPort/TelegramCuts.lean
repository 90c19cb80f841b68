import MochiPort.FencedTexts
import MochiPort.TelegramChunks

namespace MochiPort

open ByteLines Cuts List RustText

section

variable {text part line blanks : List Char} {c : Char}

theorem trimStartList_blanks (h : ∀ c ∈ blanks, isWhitespace c = true) (line : List Char) :
    trimStartList (blanks ++ line) = trimStartList line :=
  dropWhile_append_of_pos h

theorem trimStartList_append_of_ne_nil (h : trimStartList line ≠ []) (part : List Char) :
    trimStartList (line ++ part) = trimStartList line ++ part := by
  rw [trimStartList, dropWhile_append, if_neg (by simpa [trimStartList] using h)]
  rfl

theorem isFenceLine_append (line more : List Char) (h : isFenceLine line = true) :
    isFenceLine (line ++ more) = true := by
  have hstart := isPrefixOf_iff_prefix.mp h
  have hne : trimStartList line ≠ [] := by
    intro hnil
    rw [hnil] at hstart
    cases prefix_nil.mp hstart
  refine isPrefixOf_iff_prefix.mpr ?_
  rw [trimStartList_append_of_ne_nil hne]
  exact hstart.trans (prefix_append _ _)

theorem isFenceLine_trailing (blanks line : List Char) (h : ∀ c ∈ blanks, isWhitespace c = true) :
    isFenceLine (line ++ blanks) = isFenceLine line := by
  refine Bool.eq_iff_iff.mpr ⟨fun hfence => ?_, isFenceLine_append line blanks⟩
  have hstart := isPrefixOf_iff_prefix.mp hfence
  refine isPrefixOf_iff_prefix.mpr ?_
  by_cases hnil : trimStartList line = []
  · have hblank : trimStartList (line ++ blanks) = [] := by
      rw [trimStartList, dropWhile_append, if_pos (by simpa [trimStartList] using hnil)]
      exact dropWhile_eq_nil_iff.mpr h
    rw [hblank] at hstart
    cases prefix_nil.mp hstart
  · rw [trimStartList_append_of_ne_nil hnil] at hstart
    rcases prefix_or_prefix_of_prefix hstart (prefix_append _ blanks) with hline | ⟨rest, hrest⟩
    · exact hline
    · -- what is missing of the fence would be blank
      rw [← hrest, prefix_append_right_inj] at hstart
      cases rest with
      | nil =>
        rw [← hrest, append_nil]
      | cons c rest =>
        have hblank := h c (hstart.subset mem_cons_self)
        have hmem : c ∈ fence := by
          rw [← hrest]
          exact mem_append_right _ mem_cons_self
        have hfree : fence.any isWhitespace = false := by decide
        rw [Bool.eq_false_iff.mpr (any_eq_false.mp hfree c hmem)] at hblank
        cases hblank

end

/-- The fence lines of a text, as the rendering of a text and the chunks see them. -/
def telegramFences : Fences Char where
  newline := '\n'
  blank := isWhitespace
  isFence := isFenceLine
  isFence_nil := by decide
  isFence_append := isFenceLine_append
  isFence_indent blanks line h := by rw [isFenceLine, trimStartList_blanks h, isFenceLine]
  isFence_trailing := isFenceLine_trailing

def telegramCutAt (contentLimit : Nat) (remaining : List Char) : Nat :=
  bestSplitPoint (remaining.take contentLimit) contentLimit contentLimit

section

variable {contentLimit : Nat} {text chunk : List Char} {c : Char} {pos : Nat}

theorem splitLoop_eq (contentLimit fuel : Nat) (remaining : List Char) :
    splitLoop contentLimit fuel remaining = loop isWhitespace contentLimit (telegramCutAt contentLimit) fuel remaining := by
  induction fuel generalizing remaining with
  | zero =>
    cases remaining with
    | _ => rfl
  | succ fuel ih =>
    cases remaining with
    | nil => rfl
    | cons c remaining =>
      rw [splitLoop, loop]
      · dsimp only
        rw [ih]
        rfl
      · exact cons_ne_nil _ _
      · exact cons_ne_nil _ _

theorem rfind_lt (h : rfind text c = some pos) : pos < text.length := by
  unfold rfind at h
  split at h
  next hmem =>
    have hpos := Option.some.inj h
    have hle := (List.rdropWhile_prefix (· ≠ c) text).length_le
    have htext := length_pos_of_mem hmem
    omega
  next => cases h

theorem telegramCutAt_cutsOff (h : 0 < contentLimit) : CutsOff contentLimit (telegramCutAt contentLimit) := by
  intro remaining hlong
  have hfound : ∀ c pos, (rfind (remaining.take contentLimit) c).filter (contentLimit / 2 ≤ ·) = some pos →
      pos + 1 ≤ contentLimit := by
    intro c pos hpos
    have hlt := rfind_lt (Option.filter_eq_some_iff.mp hpos).1
    rw [length_take] at hlt
    omega
  unfold telegramCutAt bestSplitPoint
  split
  next pos hpos => exact ⟨Nat.succ_pos pos, hfound _ _ hpos⟩
  next =>
    split
    next pos hpos => exact ⟨Nat.succ_pos pos, hfound _ _ hpos⟩
    next => exact ⟨h, Nat.le_refl _⟩

theorem telegramCutAt_zero (remaining : List Char) : telegramCutAt 0 remaining = 0 := by
  rfl

theorem fenceLanguage_spec {language : List Char} (h : fenceLanguage text = some language) :
    language.length ≤ 24 ∧ '\n' ∉ language := by
  unfold fenceLanguage at h
  split at h
  next =>
    dsimp only at h
    split at h
    next => cases h
    next =>
      rw [← Option.some.inj h]
      refine ⟨(length_take_le _ _), fun hmem => ?_⟩
      have hchar := (mem_filter.mp (mem_of_mem_take hmem)).2
      exact absurd hchar (by decide)
  next => cases h

/-- What a chunk keeps of a piece: its lines without the carriage returns at their ends. -/
def keptPiece (piece : List Char) : List Char := ((chunkLines piece).flatMap (· ++ ['\n'])).dropLast

def fencesOf (piece : List Char) : List (List Char) := (chunkLines piece).filter isFenceLine

variable {piece : List Char}

theorem chunkLines_eq (h : Trimmed isWhitespace piece) :
    chunkLines piece = (cut '\n' piece).1.map withoutCr ++ [(cut '\n' piece).2] := by
  have hrest : (cut '\n' piece).2 ≠ [] := by
    intro hnil
    have hlast := h.last _ (ByteLines.getLast?_of_cut_snd_nil h.ne_nil hnil)
    exact absurd hlast (by decide)
  rw [chunkLines, RustText.lines, String.toList_ofList, if_neg hrest, map_append, map_map]
  congr 1
  · refine map_congr_left fun line _ => ?_
    exact String.toList_ofList
  · exact congrArg (· :: []) String.toList_ofList

theorem isFenceLine_withoutCr (line : List Char) : isFenceLine (withoutCr line) = isFenceLine line := by
  unfold withoutCr
  split
  next hlast =>
    obtain ⟨first, rfl⟩ := List.getLast?_eq_some_iff.mp hlast
    rw [dropLast_concat]
    have hreturn : isWhitespace '\r' = true := by decide
    exact (isFenceLine_trailing ['\r'] first fun c hc => mem_singleton.mp hc ▸ hreturn).symm
  next => rfl

theorem ends_read_piece (h : Trimmed isWhitespace piece) (on : Bool) :
    telegramFences.ends (telegramFences.read ⟨on, []⟩ piece) = (on != (fencesOf piece).length.bodd) := by
  have hread := @Fences.read_cut Char _ telegramFences ⟨on, []⟩ not_mem_nil piece
  have hcount : (fencesOf piece).length =
      (cut '\n' piece).1.countP isFenceLine + if isFenceLine (cut '\n' piece).2 then 1 else 0 := by
    rw [fencesOf, ← countP_eq_length_filter, chunkLines_eq h, countP_append, countP_map,
      countP_singleton]
    congr 1
    exact countP_congr fun line _ => by rw [Function.comp_apply, isFenceLine_withoutCr]
  rw [hread, hcount, Fences.ends]
  change ((on != ((cut '\n' piece).1.countP isFenceLine).bodd) !=
    isFenceLine (cut '\n' piece).2) = _
  cases isFenceLine (cut '\n' piece).2 with
  | false | true => simp

theorem foldl_openLanguageAfter (openLanguage : Option (List Char)) (piece : List Char) :
    (chunkLines piece).foldl openLanguageAfter openLanguage =
      (fencesOf piece).foldl (Fences.record fenceLanguage) openLanguage := by
  rw [fencesOf, foldl_filter]
  refine congrArg (fun f => List.foldl f openLanguage (chunkLines piece)) ?_
  funext language line
  unfold openLanguageAfter
  split
  next => cases language with
    | _ => rfl
  next => rfl

theorem flatMap_newline (lines : List (List Char)) (rest : List Char) :
    (lines ++ [rest]).flatMap (· ++ ['\n']) = join '\n' lines rest ++ ['\n'] := by
  induction lines with
  | nil => simp [join]
  | cons line lines ih =>
    rw [cons_append, flatMap_cons, ih, join, append_assoc, append_assoc]
    rfl

/-- A text without the carriage returns before its newlines. -/
def withoutCrs : List Char → List Char
  | [] => []
  | c :: text => if c = '\r' ∧ text.head? = some '\n' then withoutCrs text else c :: withoutCrs text

theorem withoutCr_cons_of_ne_nil (c : Char) {line : List Char} (h : line ≠ []) : withoutCr (c :: line) = c :: withoutCr line := by
  rw [withoutCr, withoutCr, List.getLast?_cons_of_ne_nil h, dropLast_cons_of_ne_nil h]
  split
  next => rfl
  next => rfl

theorem join_withoutCr (text : List Char) :
    join '\n' ((cut '\n' text).1.map withoutCr) (cut '\n' text).2 = withoutCrs text := by
  induction text with
  | nil => rfl
  | cons c text ih =>
    by_cases hc : c = '\n'
    · rw [hc, cut_cons_sep, withoutCrs, if_neg (by simp), ← ih]
      rfl
    · cases hlines : (cut '\n' text).1 with
      | nil =>
        have hhead : text.head? ≠ some '\n' := by
          intro hhead
          obtain ⟨later, rfl⟩ := List.head?_eq_some_iff.mp hhead
          cases hlines
        rw [cut_cons_of_nil hc hlines, withoutCrs, if_neg fun h => hhead h.2, ← ih, hlines]
        rfl
      | cons line lines =>
        have hjoin := join_cut '\n' text
        rw [hlines, join] at hjoin
        rw [cut_cons_of_cons hc hlines, withoutCrs, ← ih, hlines]
        by_cases hline : line = []
        · have hhead : text.head? = some '\n' := by
            rw [← hjoin, hline]
            rfl
          rw [hline]
          split
          next h =>
            rw [h.1]
            rfl
          next h =>
            have hcr : ¬ [c].getLast? = some '\r' := fun hlast => h ⟨Option.some.inj hlast, hhead⟩
            have hkeep : withoutCr [c] = [c] := if_neg hcr
            rw [map_cons, hkeep]
            rfl
        · have hhead : text.head? ≠ some '\n' := by
            intro hhead
            have hmem : '\n' ∈ line := by
              rw [← hjoin, List.head?_append_of_ne_nil line hline] at hhead
              exact mem_of_mem_head? hhead
            exact not_mem_of_mem_cut (hlines ▸ mem_cons_self) hmem
          rw [if_neg fun h => hhead h.2, map_cons, withoutCr_cons_of_ne_nil c hline]
          rfl

theorem keptPiece_eq (h : Trimmed isWhitespace piece) : keptPiece piece = withoutCrs piece := by
  rw [keptPiece, chunkLines_eq h, flatMap_newline, dropLast_concat, join_withoutCr]

section

variable (text)

theorem withoutCrs_length_le : (withoutCrs text).length ≤ text.length := by
  induction text with
  | nil => exact Nat.le_refl _
  | cons c text ih =>
    rw [withoutCrs]
    split
    next => exact ih.trans (Nat.le_succ _)
    next => exact Nat.succ_le_succ ih

theorem withoutCrs_eq_self_iff : withoutCrs text = text ↔ ¬ ['\r', '\n'] <:+: text := by
  induction text with
  | nil => simp [withoutCrs]
  | cons c text ih =>
    have hstart : ['\r', '\n'] <+: c :: text ↔ c = '\r' ∧ text.head? = some '\n' := by
      cases text with
      | nil => simp
      | cons d text => simp [cons_prefix_cons, eq_comm]
    rw [withoutCrs, infix_cons_iff, hstart]
    split
    next h =>
      have hle := withoutCrs_length_le text
      refine ⟨fun heq => ?_, fun hnot => absurd (.inl h) hnot⟩
      rw [heq, length_cons] at hle
      omega
    next h =>
      rw [List.cons.injEq, ih]
      exact ⟨fun hrest hor => hor.elim h hrest.2, fun hnot => ⟨rfl, fun hwithin => hnot (.inr hwithin)⟩⟩

theorem filter_withoutCrs : (withoutCrs text).filter (!isWhitespace ·) = text.filter (!isWhitespace ·) := by
  induction text with
  | nil => rfl
  | cons c text ih =>
    rw [withoutCrs]
    split
    next h =>
      have hcr : (!isWhitespace '\r') = false := by decide
      rw [h.1, ih, filter_cons_of_neg (by simp [hcr])]
    next => rw [filter_cons, filter_cons, ih]

end

theorem getLast?_withoutCrs (text : List Char) : (withoutCrs text).getLast? = text.getLast? := by
  induction text with
  | nil => rfl
  | cons c text ih =>
    rw [withoutCrs]
    by_cases htext : text = []
    · rw [htext, if_neg (by simp)]
      rfl
    · have hne : withoutCrs text ≠ [] := by
        intro hnil
        rw [hnil, List.getLast?_eq_some_getLast htext] at ih
        cases ih
      rw [List.getLast?_cons_of_ne_nil htext]
      split
      next => exact ih
      next => rw [List.getLast?_cons_of_ne_nil hne, ih]

theorem trimmed_withoutCrs (h : Trimmed isWhitespace text) : Trimmed isWhitespace (withoutCrs text) := by
  cases text with
  | nil => exact absurd rfl h.ne_nil
  | cons c text =>
    have hc := h.head c rfl
    have hcr : ¬ (c = '\r' ∧ text.head? = some '\n') := by
      rintro ⟨rfl, _⟩
      exact absurd hc (by decide)
    have hlast := getLast?_withoutCrs (c :: text)
    rw [withoutCrs, if_neg hcr] at hlast ⊢
    exact ⟨cons_ne_nil _ _, h.head, fun d hd => h.last d (hlast ▸ hd)⟩

theorem fence_infix_of_mem_fencesOf (h : Trimmed isWhitespace piece) {line : List Char} (hline : line ∈ fencesOf piece) :
    fence <:+: piece := by
  obtain ⟨hmem, hfence⟩ := mem_filter.mp hline
  have hwithin : ∀ line, isFenceLine line = true → fence <:+: line := fun line hfence =>
    (List.isPrefixOf_iff_prefix.mp hfence).isInfix.trans (List.dropWhile_suffix isWhitespace).isInfix
  have hjoin := join_cut '\n' piece
  rw [chunkLines_eq h] at hmem
  rcases mem_append.mp hmem with hmem | hmem
  · obtain ⟨ended, hended, rfl⟩ := mem_map.mp hmem
    rw [isFenceLine_withoutCr] at hfence
    have hpiece := @ByteLines.mem_join_infix Char _ '\n' _ (cut '\n' piece).2 hended
    rw [hjoin] at hpiece
    exact (hwithin ended hfence).trans hpiece
  · have hsuffix := join_suffix '\n' (cut '\n' piece).1 (cut '\n' piece).2
    rw [hjoin, ← mem_singleton.mp hmem] at hsuffix
    exact (hwithin line hfence).trans hsuffix.isInfix

end

end MochiPort

import MochiPort.TelegramCuts

namespace MochiPort

open Cuts List RustText

/-- A chunk: what it keeps of a piece of the text, and what is added before and behind that. -/
structure ChunkMessage where
  before : List Char
  piece : List Char
  after : List Char

def ChunkMessage.text (m : ChunkMessage) : List Char := m.before ++ (m.piece ++ m.after)

def openingFence : Option (List Char) → List Char
  | some language => fence ++ language ++ ['\n']
  | none => []

def closingFence : Option (List Char) → List Char
  | some _ => '\n' :: fence
  | none => []

/-- The fence lines that are added around the pieces. -/
def fencedMessages : Option (List Char) → List (List Char) → List ChunkMessage
  | _, [] => []
  | openLanguage, piece :: pieces =>
    let next := (chunkLines piece).foldl openLanguageAfter openLanguage
    ⟨openingFence openLanguage, keptPiece piece, closingFence next⟩ :: fencedMessages next pieces

def markMessage (continuesMarker continuedMarker : String) (chunkCount index : Nat) (m : ChunkMessage) :
    ChunkMessage where
  before := (if index = 0 then [] else continuedMarker.toList ++ ['\n', '\n']) ++ m.before
  piece := m.piece
  after := m.after ++ if index ≠ 0 ∧ index + 1 = chunkCount then [] else '\n' :: '\n' :: continuesMarker.toList

/-- The chunks of a text, with what is added told apart from what is kept. -/
def chunkMessages (fuel : Nat) (text : String) (maxChars : Nat) (continuesMarker continuedMarker : String) :
    Option (List ChunkMessage) :=
  let trimmed := trim text
  if trimmed = "" then some [⟨[], [], [' ']⟩]
  else if charCount trimmed ≤ maxChars then some [⟨[], trimmed.toList, []⟩]
  else
    (splitMessageForTelegram fuel trimmed.toList (effectiveMax trimmed maxChars)).map fun pieces =>
      (fencedMessages none pieces).mapIdx (markMessage continuesMarker continuedMarker pieces.length)

/-- The messages keep the stretches of the text. Each has balanced fences, and a character is in a code block of the
message exactly when it is in one of the text. -/
def ShowsText (text : List Char) : List Char → List ChunkMessage → List (Stretch Char) → Prop
  | _, [], [] => True
  | before, m :: messages, s :: stretches =>
    (m.piece = s.piece ∧ telegramFences.FencesPaired m.text ∧
      ∀ i < s.piece.length, telegramFences.insideAt m.text (m.before.length + i) =
        telegramFences.insideAt text ((before ++ s.gap).length + i)) ∧
      ShowsText text (before ++ (s.gap ++ s.piece)) messages stretches
  | _, _, _ => False

structure ShowsWell (text : List Char) (maxChars : Nat) (messages : List ChunkMessage) : Prop where
  bounded : ∀ m ∈ messages, m.text.length ≤ maxChars
  shows : ∃ stretches tail, whole stretches tail = text ∧ (∀ s ∈ stretches, ∀ c ∈ s.gap, isWhitespace c = true) ∧
    (∀ c ∈ tail, isWhitespace c = true) ∧ ShowsText text [] messages stretches

inductive ChunkRequest where
  | text
  | turnCompleted (header : String)
  | userMessage (creditText : String)

namespace ChunkRequest

def maxChars : ChunkRequest → Nat
  | text => telegramMaxMessageChars
  | turnCompleted header => turnCompletedMaxChars header
  | userMessage creditText => userMessageMaxChars creditText

def chunks (r : ChunkRequest) (fuel : Nat) (text continuesMarker continuedMarker : String) : Option (List String) :=
  match r with
  | .text => telegramTextChunks fuel text continuesMarker continuedMarker
  | turnCompleted header => telegramTurnCompletedChunks fuel text header continuesMarker continuedMarker
  | userMessage creditText => telegramUserMessageChunks fuel text creditText continuesMarker continuedMarker

def Faithful (r : ChunkRequest) (text continuesMarker continuedMarker : String) : Prop :=
  ∃ fuel chunks messages, r.chunks fuel text continuesMarker continuedMarker = some chunks ∧
    chunkMessages fuel text r.maxChars continuesMarker continuedMarker = some messages ∧
    chunks = messages.map (fun m => String.ofList m.text) ∧ ShowsWell text.toList r.maxChars messages

end ChunkRequest

def NoFences (text : List Char) : Prop :=
  ∀ line ∈ (ByteLines.cut '\n' text).1 ++ [(ByteLines.cut '\n' text).2], isFenceLine line = false

def leadOf (text : String) : List Char := text.toList.takeWhile isWhitespace

def tailOf (text : String) : List Char := (text.toList.dropWhile isWhitespace).rtakeWhile isWhitespace

/-- The stretches that a text is cut into when it does not fit into one chunk. -/
def CutUp (text : String) (maxChars : Nat) (stretches : List (Stretch Char)) : Prop :=
  CutInto isWhitespace (effectiveMax (trim text) maxChars - telegramContinuationOverhead)
    (telegramCutAt (effectiveMax (trim text) maxChars - telegramContinuationOverhead)) (leadOf text)
    (trim text).toList stretches

/-- What holds of all cuts between stretches of a text. -/
def AtCuts (C : Fences.FenceReading Char → List Char → List Char → Prop) (text : String) : List (Stretch Char) → Prop
  | [] => True
  | s :: stretches =>
    telegramFences.EveryCut C (tailOf text) (telegramFences.read Fences.start (s.gap ++ s.piece)) stretches

/-- Neither the markers nor the cuts make a fence line, and no cut is before the fence of a fence line. -/
structure FencesKept (text : String) (maxChars : Nat) (continuesMarker continuedMarker : String) : Prop where
  continues : NoFences continuesMarker.toList
  continued : NoFences continuedMarker.toList
  cuts : ∀ stretches, CutUp text maxChars stretches → AtCuts telegramFences.CutKept text stretches

/-- There is room for fence lines; no line of a piece ends with a carriage return; after every piece, the last of the
fence lines so far that has no language is one that closes a block; and a cut within a fence line is within one that
closes a block. -/
structure CutsHarmless (text : String) (maxChars : Nat) : Prop where
  room : contains (trim text) "```" = true →
    telegramContinuationOverhead + telegramFenceReserve < maxChars
  lines : ∀ stretches, CutUp text maxChars stretches → ∀ s ∈ stretches, ¬ ['\r', '\n'] <:+: s.piece
  languages : ∀ stretches, CutUp text maxChars stretches →
    Fences.PlainFencesClose fenceLanguage fencesOf [] stretches
  closing : ∀ stretches, CutUp text maxChars stretches → AtCuts telegramFences.CutClosing text stretches

def FitsOneChunk (text : String) (maxChars : Nat) : Prop := charCount (trim text) ≤ maxChars

section

open Fences

variable {m : ChunkMessage} {on on' : Bool} {openLanguage next : Option (List Char)} {text part rest pre post : List Char}
  {continuesMarker continuedMarker : String}

/-- What is added to a message opens and closes a block as its flags say. -/
structure Framed (m : ChunkMessage) (on on' : Bool) : Prop where
  before : telegramFences.read start m.before = ⟨on, []⟩
  after : ∀ r, telegramFences.ends (telegramFences.read r m.after) = (telegramFences.ends r != on')
  line : ∀ rest, telegramFences.restOfLine (rest ++ m.after) = telegramFences.restOfLine rest

theorem Framed.balanced_iff (h : Framed m on on') :
    telegramFences.FencesPaired m.text ↔ telegramFences.ends (telegramFences.read ⟨on, []⟩ m.piece) = on' := by
  rw [FencesPaired, ChunkMessage.text, read_append, read_append, h.before, h.after, bne_eq_false_iff_eq]

theorem insideAt_append (part rest : List Char) :
    telegramFences.insideAt (part ++ rest) part.length =
      telegramFences.inside (telegramFences.read start part) rest := by
  rw [insideAt, take_left, drop_left]

theorem Framed.shown_iff (h : Framed m on on') (pre post : List Char) :
    (telegramFences.FencesPaired m.text ∧ ∀ i < m.piece.length,
        telegramFences.insideAt m.text (m.before.length + i) =
          telegramFences.insideAt (pre ++ (m.piece ++ post)) (pre.length + i)) ↔
      telegramFences.Shown (telegramFences.read start pre) on on' m.piece post := by
  have hinside : ∀ part rest, part ++ rest = m.piece →
      (telegramFences.insideAt m.text (m.before.length + part.length) =
          telegramFences.insideAt (pre ++ (m.piece ++ post)) (pre.length + part.length) ↔
        telegramFences.inside (telegramFences.read ⟨on, []⟩ part) rest =
          telegramFences.inside (telegramFences.read (telegramFences.read start pre) part) (rest ++ post)) := by
    intro part rest hsplit
    have hmessage : m.text = (m.before ++ part) ++ (rest ++ m.after) := by
      rw [ChunkMessage.text, ← hsplit, append_assoc, append_assoc]
    have htext : pre ++ (m.piece ++ post) = (pre ++ part) ++ (rest ++ post) := by
      rw [← hsplit, append_assoc, append_assoc]
    rw [hmessage, htext, ← length_append, ← length_append, insideAt_append, insideAt_append, read_append,
      read_append, h.before, inside, h.line, ← inside]
  rw [h.balanced_iff]
  constructor
  · rintro ⟨hends, hall⟩
    refine ⟨hends, fun part rest hsplit hne => (hinside part rest hsplit).mp (hall _ ?_)⟩
    rw [← hsplit, length_append]
    have hpos := length_pos_of_ne_nil hne
    omega
  · rintro ⟨hends, hall⟩
    refine ⟨hends, fun i hi => ?_⟩
    have hsplit := take_append_drop i m.piece
    have hne : m.piece.drop i ≠ [] := by
      intro hnil
      have hle := drop_eq_nil_iff.mp hnil
      omega
    have hat := (hinside _ _ hsplit).mpr (hall _ _ hsplit hne)
    rwa [length_take, Nat.min_eq_left hi.le] at hat

theorem ends_read_noFences (h : NoFences text) (on : Bool) :
    (telegramFences.read ⟨on, []⟩ text).isOpen = on ∧ telegramFences.ends (telegramFences.read ⟨on, []⟩ text) = on := by
  have hread := @read_cut Char _ telegramFences ⟨on, []⟩ not_mem_nil text
  have hcount : (ByteLines.cut '\n' text).1.countP isFenceLine = 0 :=
    countP_eq_zero.mpr fun line hline => Bool.eq_false_iff.mp (h line (mem_append_left _ hline))
  have hlast := h (ByteLines.cut '\n' text).2 (mem_append_right _ mem_cons_self)
  have hopen : (telegramFences.read ⟨on, []⟩ text).isOpen = on := by
    rw [hread]
    change (on != ((ByteLines.cut '\n' text).1.countP isFenceLine).bodd) = on
    rw [hcount]
    exact Bool.bne_false on
  refine ⟨hopen, ?_⟩
  rw [ends, hopen, hread]
  change (on != isFenceLine (ByteLines.cut '\n' text).2) = on
  rw [hlast]
  exact Bool.bne_false on

theorem ends_read_marker (h : NoFences text) (r : FenceReading Char) :
    telegramFences.ends (telegramFences.read r ('\n' :: '\n' :: text)) = telegramFences.ends r := by
  have hnewline : ∀ r text, telegramFences.read r ('\n' :: text) = telegramFences.read ⟨telegramFences.ends r, []⟩ text :=
    fun r text => read_newline r text
  rw [hnewline, hnewline, (ends_read_noFences h _).2]
  exact Bool.bne_false _

def GoodLanguage (openLanguage : Option (List Char)) : Prop :=
  ∀ language ∈ openLanguage, language.length ≤ 24 ∧ '\n' ∉ language

theorem goodLanguage_none : GoodLanguage none := fun _ hlanguage => by cases hlanguage

theorem goodLanguage_fold (h : GoodLanguage openLanguage) (lines : List (List Char)) :
    GoodLanguage (lines.foldl openLanguageAfter openLanguage) := by
  induction lines generalizing openLanguage with
  | nil => exact h
  | cons line lines ih =>
    refine ih fun language hlanguage => ?_
    unfold openLanguageAfter at hlanguage
    split at hlanguage
    next =>
      split at hlanguage
      next => cases hlanguage
      next => exact fenceLanguage_spec hlanguage
    next => exact h language hlanguage

theorem read_openingFence (h : GoodLanguage openLanguage) :
    telegramFences.read start (openingFence openLanguage) = ⟨openLanguage.isSome, []⟩ := by
  cases openLanguage with
  | none => rfl
  | some language =>
    have hfree : telegramFences.newline ∉ fence ++ language := by
      intro hmem
      rcases mem_append.mp hmem with hmem | hmem
      · exact absurd hmem (by decide)
      · exact (h language rfl).2 hmem
    have hnewline := @read_newline Char _ telegramFences (telegramFences.read start (fence ++ language)) []
    rw [read_line hfree] at hnewline
    rw [openingFence, read_append, read_line hfree]
    refine hnewline.trans ?_
    rfl

theorem ends_read_closingFence (next : Option (List Char)) (r : FenceReading Char) :
    telegramFences.ends (telegramFences.read r (closingFence next)) = (telegramFences.ends r != next.isSome) := by
  cases next with
  | none => exact (Bool.bne_false _).symm
  | some language =>
    rfl

theorem framed_markMessage (hcontinues : NoFences continuesMarker.toList) (hcontinued : NoFences continuedMarker.toList)
    (hopen : GoodLanguage openLanguage) (chunkCount index : Nat) (piece : List Char) (next : Option (List Char)) :
    Framed (markMessage continuesMarker continuedMarker chunkCount index
      ⟨openingFence openLanguage, piece, closingFence next⟩) openLanguage.isSome next.isSome := by
  refine ⟨?_, fun r => ?_, fun rest => ?_⟩
  · change telegramFences.read start ((if index = 0 then [] else continuedMarker.toList ++ ['\n', '\n']) ++
      openingFence openLanguage) = _
    split
    next => exact read_openingFence hopen
    next =>
      have hnewlines : telegramFences.read (telegramFences.read start continuedMarker.toList) ['\n', '\n'] =
          ⟨telegramFences.ends ⟨telegramFences.ends (telegramFences.read start continuedMarker.toList), []⟩, []⟩ := rfl
      rw [read_append, read_append, hnewlines, start, (ends_read_noFences hcontinued false).2]
      exact read_openingFence hopen
  · change telegramFences.ends (telegramFences.read r (closingFence next ++ if index ≠ 0 ∧ index + 1 = chunkCount then []
      else '\n' :: '\n' :: continuesMarker.toList)) = _
    split
    next => rw [append_nil, ends_read_closingFence]
    next => rw [read_append, ends_read_marker hcontinues, ends_read_closingFence]
  · have hnewline := @restOfLine_append_newline Char _ telegramFences rest
    change telegramFences.restOfLine (rest ++ (closingFence next ++ if index ≠ 0 ∧ index + 1 = chunkCount then []
      else '\n' :: '\n' :: continuesMarker.toList)) = _
    cases next with
    | none =>
      split
      next => exact congrArg _ (append_nil rest)
      next => exact hnewline _
    | some language => exact hnewline _

def recordPiece (openLanguage : Option (List Char)) (piece : List Char) : Option (List Char) :=
  (fencesOf piece).foldl (record fenceLanguage) openLanguage

variable {stretches : List (Stretch Char)} {tail before : List Char}

theorem showsText_iff (hcontinues : NoFences continuesMarker.toList) (hcontinued : NoFences continuedMarker.toList)
    (chunkCount index : Nat) (hopen : GoodLanguage openLanguage)
    (hkept : ∀ s ∈ stretches, keptPiece s.piece = s.piece) (htext : before ++ whole stretches tail = text) :
    ShowsText text before ((fencedMessages openLanguage (stretches.map Stretch.piece)).mapIdx fun i =>
        markMessage continuesMarker continuedMarker chunkCount (i + index)) stretches ↔
      telegramFences.AllShown Option.isSome recordPiece tail openLanguage (telegramFences.read start before) stretches := by
  induction stretches generalizing openLanguage before index with
  | nil => exact Iff.rfl
  | cons s stretches ih =>
    have hmessages : fencedMessages openLanguage ((s :: stretches).map Stretch.piece) =
        ⟨openingFence openLanguage, s.piece, closingFence (recordPiece openLanguage s.piece)⟩ ::
          fencedMessages (recordPiece openLanguage s.piece) (stretches.map Stretch.piece) := by
      rw [map_cons, fencedMessages]
      rw [hkept s mem_cons_self, foldl_openLanguageAfter, recordPiece]
    have hindex : (fun i => markMessage continuesMarker continuedMarker chunkCount (i + 1 + index)) =
        fun i => markMessage continuesMarker continuedMarker chunkCount (i + (index + 1)) := by
      funext i
      rw [Nat.add_assoc, Nat.add_comm 1 index]
    rw [hmessages, mapIdx_cons, ShowsText, AllShown, hindex]
    refine and_congr ((and_iff_right rfl).trans ?_) ?_
    · have hframed := framed_markMessage hcontinues hcontinued hopen chunkCount (0 + index) s.piece
        (recordPiece openLanguage s.piece)
      have hshown := hframed.shown_iff (before ++ s.gap) (whole stretches tail)
      have hwhole : before ++ s.gap ++ (s.piece ++ whole stretches tail) = text := by
        rw [append_assoc]
        exact htext
      rw [read_append] at hshown
      rw [← hwhole]
      exact hshown
    · have hgood : GoodLanguage (recordPiece openLanguage s.piece) := by
        rw [recordPiece, ← foldl_openLanguageAfter]
        exact goodLanguage_fold hopen _
      have hrest := @ih (recordPiece openLanguage s.piece) (before ++ (s.gap ++ s.piece)) (index + 1) hgood
        (fun s' hs' => hkept s' (mem_cons_of_mem s hs'))
        (by rw [← htext, whole, append_assoc, append_assoc])
      rwa [read_append start] at hrest

theorem trim_toList (text : String) :
    (trim text).toList = (text.toList.dropWhile isWhitespace).rdropWhile isWhitespace :=
  String.toList_ofList

theorem trim_eq_empty_iff (text : String) : trim text = "" ↔ (trim text).toList = [] := by
  rw [← String.toList_inj]
  rfl

theorem lead_trim_tail (text : String) : leadOf text ++ ((trim text).toList ++ tailOf text) = text.toList := by
  rw [trim_toList, tailOf, rdropWhile_append_rtakeWhile, leadOf, takeWhile_append_dropWhile]

theorem trimmed_trim_toList {text : String} (h : trim text ≠ "") : Trimmed isWhitespace (trim text).toList := by
  rw [Ne, trim_eq_empty_iff, trim_toList] at h
  rw [trim_toList]
  exact trimmed_trim h

theorem blank_leadOf {text : String} {c : Char} (h : c ∈ leadOf text) : isWhitespace c = true :=
  mem_takeWhile_imp h

theorem blank_tailOf {text : String} {c : Char} (h : c ∈ tailOf text) : isWhitespace c = true :=
  mem_rtakeWhile_imp h

theorem trimEndList_eq_self (h : Trimmed isWhitespace text) (before : List Char) :
    trimEndList (before ++ text) = before ++ text := by
  refine rdropWhile_eq_self_iff.mpr fun hne hblank => ?_
  have hlast := h.last ((before ++ text).getLast hne)
    (by rw [← List.getLast?_append_of_ne_nil before h.ne_nil, List.getLast?_eq_some_getLast hne]; rfl)
  rw [hlast] at hblank
  cases hblank

theorem trimmed_fence : Trimmed isWhitespace fence :=
  ⟨cons_ne_nil _ _, fun c hc => by cases hc; decide, fun c hc => by cases hc; decide⟩

theorem rebalanceChunk_eq {piece : List Char} (h : Trimmed isWhitespace piece) (openLanguage : Option (List Char)) :
    (rebalanceChunk openLanguage piece).1 =
      (⟨openingFence openLanguage, keptPiece piece,
        closingFence ((chunkLines piece).foldl openLanguageAfter openLanguage)⟩ : ChunkMessage).text := by
  have hlines : (chunkLines piece).flatMap (· ++ ['\n']) = keptPiece piece ++ ['\n'] := by
    rw [keptPiece, chunkLines_eq h, flatMap_newline, dropLast_concat]
  have hbody : (rebalanceChunk openLanguage piece).1 =
      trimEndList (openingFence openLanguage ++ (chunkLines piece).flatMap (· ++ ['\n']) ++
        if ((chunkLines piece).foldl openLanguageAfter openLanguage).isSome then fence else []) := by
    cases openLanguage with
    | _ => rfl
  have hkept := keptPiece_eq h ▸ trimmed_withoutCrs h
  rw [hbody, hlines, ChunkMessage.text]
  cases (chunkLines piece).foldl openLanguageAfter openLanguage with
  | none =>
    change trimEndList (openingFence openLanguage ++ (keptPiece piece ++ ['\n']) ++ []) =
      openingFence openLanguage ++ (keptPiece piece ++ [])
    rw [append_nil, append_nil, ← append_assoc, trimEndList, rdropWhile_concat_pos _ _ _ (by decide)]
    exact trimEndList_eq_self hkept _
  | some language =>
    change trimEndList (openingFence openLanguage ++ (keptPiece piece ++ ['\n']) ++ fence) =
      openingFence openLanguage ++ (keptPiece piece ++ '\n' :: fence)
    rw [trimEndList_eq_self trimmed_fence, append_assoc, append_assoc]
    rfl

variable {pieces : List (List Char)}

theorem rebalanceCodeFences_eq (h : ∀ piece ∈ pieces, Trimmed isWhitespace piece) (openLanguage : Option (List Char)) :
    rebalanceCodeFences openLanguage pieces = (fencedMessages openLanguage pieces).map ChunkMessage.text := by
  induction pieces generalizing openLanguage with
  | nil => rfl
  | cons piece pieces ih =>
    rw [rebalanceCodeFences, fencedMessages, map_cons, ← rebalanceChunk_eq (h piece mem_cons_self),
      ← ih fun piece' hpiece' => h piece' (mem_cons_of_mem piece hpiece')]
    rfl

theorem markChunk_eq (continuesMarker continuedMarker : String) (chunkCount index : Nat) (m : ChunkMessage) :
    markChunk continuesMarker continuedMarker chunkCount index m.text =
      String.ofList (markMessage continuesMarker continuedMarker chunkCount index m).text := by
  have hblank : "\n\n".toList = ['\n', '\n'] := rfl
  rw [← String.toList_inj, String.toList_ofList, ChunkMessage.text, ChunkMessage.text, markChunk, markMessage]
  by_cases hfirst : index = 0
  · simp [hfirst, hblank]
  · by_cases hlast : index + 1 = chunkCount
    · simp [hfirst, hlast, hblank]
    · simp [hfirst, hlast, hblank]

theorem length_fencedMessages (openLanguage : Option (List Char)) (pieces : List (List Char)) :
    (fencedMessages openLanguage pieces).length = pieces.length := by
  induction pieces generalizing openLanguage with
  | nil => rfl
  | cons piece pieces ih => exact congrArg (· + 1) (ih _)

theorem markChunks_eq (h : ∀ piece ∈ pieces, Trimmed isWhitespace piece) :
    (rebalanceCodeFences none pieces).mapIdx
        (markChunk continuesMarker continuedMarker (rebalanceCodeFences none pieces).length) =
      ((fencedMessages none pieces).mapIdx (markMessage continuesMarker continuedMarker pieces.length)).map
        fun m => String.ofList m.text := by
  rw [rebalanceCodeFences_eq h, length_map, length_fencedMessages]
  apply ext_getElem?
  intro index
  rw [List.getElem?_mapIdx, List.getElem?_map, List.getElem?_map, List.getElem?_mapIdx, Option.map_map, Option.map_map]
  refine congrArg (Option.map · (fencedMessages none pieces)[index]?) ?_
  funext m
  exact markChunk_eq ..

theorem of_mem_fencedMessages {P : Option (List Char) → Prop} (hopen : P openLanguage)
    (hstep : ∀ piece ∈ pieces, ∀ o, P o → P ((chunkLines piece).foldl openLanguageAfter o))
    (h : m ∈ fencedMessages openLanguage pieces) :
    ∃ o o', P o ∧ P o' ∧ ∃ piece ∈ pieces, m = ⟨openingFence o, keptPiece piece, closingFence o'⟩ := by
  induction pieces generalizing openLanguage with
  | nil => exact absurd h not_mem_nil
  | cons piece pieces ih =>
    have hnext := hstep piece mem_cons_self openLanguage hopen
    rcases mem_cons.mp h with rfl | h
    · exact ⟨_, _, hopen, hnext, piece, mem_cons_self, rfl⟩
    · obtain ⟨o, o', ho, ho', piece', hpiece', hm⟩ :=
        ih hnext (fun piece' hpiece' => hstep piece' (mem_cons_of_mem piece hpiece')) h
      exact ⟨o, o', ho, ho', piece', mem_cons_of_mem piece hpiece', hm⟩

theorem length_openingFence_le (h : GoodLanguage openLanguage) : (openingFence openLanguage).length ≤ 28 := by
  cases openLanguage with
  | none => exact Nat.zero_le _
  | some language =>
    have hlength := (h language rfl).1
    rw [openingFence, length_append, length_append]
    change 3 + language.length + 1 ≤ 28
    omega

theorem length_closingFence_le (next : Option (List Char)) : (closingFence next).length ≤ 4 := by
  cases next with
  | none => exact Nat.zero_le _
  | some language => exact Nat.le_refl 4

theorem length_markMessage_le (continuesMarker continuedMarker : String) (chunkCount index : Nat) (m : ChunkMessage) :
    (markMessage continuesMarker continuedMarker chunkCount index m).text.length ≤
      charCount continuesMarker + charCount continuedMarker + 4 + (m.before.length + (m.piece.length + m.after.length)) := by
  have hbefore : (if index = 0 then [] else continuedMarker.toList ++ ['\n', '\n']).length ≤
      charCount continuedMarker + 2 := by
    split
    next => exact Nat.zero_le _
    next => exact (length_append ..).le
  have hafter : (if index ≠ 0 ∧ index + 1 = chunkCount then [] else '\n' :: '\n' :: continuesMarker.toList).length ≤
      charCount continuesMarker + 2 := by
    split
    next => exact Nat.zero_le _
    next => exact Nat.le_refl _
  rw [ChunkMessage.text, markMessage, length_append, length_append, length_append, length_append]
  dsimp only
  omega

theorem length_messages_le {trimmed : List Char} {maxChars limit : Nat}
    (hmarkers : charCount continuesMarker + charCount continuedMarker + 4 ≤ telegramContinuationOverhead)
    (hlimit : limit + telegramContinuationOverhead ≤ maxChars)
    (hroom : fence <:+: trimmed → limit + telegramContinuationOverhead + telegramFenceReserve ≤ maxChars)
    (htrimmed : ∀ piece ∈ pieces, Trimmed isWhitespace piece) (hlength : ∀ piece ∈ pieces, piece.length ≤ limit)
    (hwithin : ∀ piece ∈ pieces, piece <:+: trimmed) (chunkCount : Nat) :
    ∀ m ∈ (fencedMessages none pieces).mapIdx (markMessage continuesMarker continuedMarker chunkCount),
      m.text.length ≤ maxChars := by
  intro m hm
  obtain ⟨index, hindex, rfl⟩ := mem_mapIdx.mp hm
  have hmem := getElem_mem hindex
  have hkept : ∀ piece ∈ pieces, (keptPiece piece).length ≤ limit := fun piece hpiece => by
    rw [keptPiece_eq (htrimmed piece hpiece)]
    exact (withoutCrs_length_le piece).trans (hlength piece hpiece)
  refine (length_markMessage_le ..).trans ?_
  by_cases hfence : fence <:+: trimmed
  · obtain ⟨o, o', ho, ho', piece, hpiece, heq⟩ := of_mem_fencedMessages (P := GoodLanguage)
      goodLanguage_none (fun piece _ o ho => goodLanguage_fold ho _) hmem
    have hopening := length_openingFence_le ho
    have hclosing := length_closingFence_le o'
    have hpiece := hkept piece hpiece
    have hreserve := hroom hfence
    rw [heq]
    dsimp only
    rw [telegramFenceReserve] at hreserve
    omega
  · have hnone : ∀ piece ∈ pieces, ∀ o : Option (List Char), o = none →
        (chunkLines piece).foldl openLanguageAfter o = none := by
      intro piece hpiece o ho
      have hnil : fencesOf piece = [] := eq_nil_iff_forall_not_mem.mpr fun line hline =>
        hfence ((fence_infix_of_mem_fencesOf (htrimmed piece hpiece) hline).trans (hwithin piece hpiece))
      rw [foldl_openLanguageAfter, hnil, ho]
      rfl
    obtain ⟨o, o', rfl, rfl, piece, hpiece, heq⟩ := of_mem_fencedMessages (P := (· = none)) rfl hnone hmem
    have hpiece := hkept piece hpiece
    rw [heq]
    change _ + (0 + ((keptPiece piece).length + 0)) ≤ _
    omega

end

end MochiPort

import MochiPort.RolloutScan

namespace MochiPort

open ByteLines List

variable {F : Type} {codec : RolloutCodec F} {lines : List (List UInt8)} {line rest contents : List UInt8}
  {scan : SessionScan F} {consumed offset : Nat}

/-- A line that is not UTF-8, or that `parse_record` makes nothing of. -/
def NotUnderstood (codec : RolloutCodec F) (line : List UInt8) : Prop :=
  (fileText (line ++ [lineEnd])).bind (parseRecord codec) = none

def Readable (lines : List (List UInt8)) (rest : List UInt8) : Prop :=
  (∀ line ∈ lines, fileText (line ++ [lineEnd]) ≠ none) ∧ fileText rest ≠ none

def linesFrom (contents : List UInt8) (offset : Nat) : List (List UInt8) × List UInt8 :=
  cut lineEnd (contents.drop (min offset contents.length))

/-- The end of the last complete line: what follows it has no lineEnd. -/
def lastLineEnd (contents : List UInt8) (offset : Nat) : Nat :=
  contents.length - ((contents.drop (min offset contents.length)).rtakeWhile (· ≠ lineEnd)).length

def applyLine (codec : RolloutCodec F) (scan : SessionScan F) (line : List UInt8) : SessionScan F :=
  match (fileText (line ++ [lineEnd])).bind (parseRecord codec) with
  | some event => scan.apply event
  | none => scan

theorem scanLines_eq (h : Readable lines rest) :
    scanLines codec lines rest scan consumed =
      .ok (lines.foldl (applyLine codec) scan, consumed + (lines.map fun line => line.length + 1).sum) := by
  induction lines generalizing scan consumed with
  | nil =>
    obtain ⟨text, htext⟩ := Option.ne_none_iff_exists'.mp h.2
    simp [scanLines, htext]
  | cons line lines ih =>
    obtain ⟨text, htext⟩ := Option.ne_none_iff_exists'.mp (h.1 line mem_cons_self)
    have hrest : Readable lines rest := ⟨fun other hother => h.1 other (mem_cons_of_mem line hother), h.2⟩
    have happly : applyLine codec scan line =
        match parseRecord codec text with
        | some event => scan.apply event
        | none => scan := by
      simp only [applyLine, htext, Option.bind_some]
    simp only [scanLines, htext, foldl_cons, map_cons, sum_cons]
    have hsum : consumed + (line.length + 1) + (lines.map fun line => line.length + 1).sum =
        consumed + (line.length + 1 + (lines.map fun line => line.length + 1).sum) := Nat.add_assoc _ _ _
    refine (ih hrest).trans (congrArg Except.ok (Prod.ext ?_ hsum))
    exact congrArg (fun scan => lines.foldl (applyLine codec) scan) happly.symm

theorem readable_of_scanLines (h : scanLines codec lines rest scan consumed ≠ .error .invalidData) :
    Readable lines rest := by
  induction lines generalizing scan consumed with
  | nil =>
    refine ⟨by simp, fun hnone => h ?_⟩
    simp [scanLines, hnone]
  | cons line lines ih =>
    cases htext : fileText (line ++ [lineEnd]) with
    | none =>
      refine absurd ?_ h
      simp [scanLines, htext]
    | some text =>
      simp only [scanLines, htext] at h
      obtain ⟨hlines, hrest⟩ := ih h
      refine ⟨fun other hother => ?_, hrest⟩
      rcases mem_cons.mp hother with rfl | hother
      · simp [htext]
      · exact hlines other hother

theorem scanFrom_eq (h : Readable (linesFrom contents offset).1 (linesFrom contents offset).2) :
    scanFrom codec contents offset =
      .ok ((linesFrom contents offset).1.foldl (applyLine codec) .default, lastLineEnd contents offset) := by
  have hscan : scanFrom codec contents offset = scanLines codec (linesFrom contents offset).1
      (linesFrom contents offset).2 .default (min offset contents.length) := rfl
  have hend : lastLineEnd contents offset = contents.length - (linesFrom contents offset).2.length := by
    rw [lastLineEnd, linesFrom, cut_snd_eq]
  have hlength := length_join lineEnd (linesFrom contents offset).1 (linesFrom contents offset).2
  rw [linesFrom, join_cut, length_drop] at hlength
  rw [hscan, scanLines_eq h, hend]
  simp only [linesFrom, Except.ok.injEq, Prod.mk.injEq, true_and]
  omega

theorem readable_of_scanFrom {result : SessionScan F × Nat} (h : scanFrom codec contents offset = .ok result) :
    Readable (linesFrom contents offset).1 (linesFrom contents offset).2 := by
  refine @readable_of_scanLines F codec _ _ .default (min offset contents.length) fun herror => ?_
  have hscan : scanFrom codec contents offset = .error .invalidData := herror
  rw [hscan] at h
  cases h

/-- The scan goes to the end of the last complete line, and what follows it does not count. -/
def ReadsLines (codec : RolloutCodec F) (contents : List UInt8) (offset : Nat) : Prop :=
  ∃ scan, scanFrom codec contents offset = .ok (scan, lastLineEnd contents offset) ∧
    scanFrom codec (contents.take (lastLineEnd contents offset)) offset = .ok (scan, lastLineEnd contents offset)

theorem linesFrom_take (contents : List UInt8) (offset : Nat) :
    linesFrom (contents.take (lastLineEnd contents offset)) offset = ((linesFrom contents offset).1, []) ∧
      lastLineEnd (contents.take (lastLineEnd contents offset)) offset = lastLineEnd contents offset := by
  obtain ⟨start, hstart⟩ : ∃ start, start = min offset contents.length := ⟨_, rfl⟩
  obtain ⟨lines, rest, hcut⟩ : ∃ lines rest, cut lineEnd (contents.drop start) = (lines, rest) :=
    ⟨_, _, rfl⟩
  have hlines : linesFrom contents offset = (lines, rest) := by rw [linesFrom, ← hstart, hcut]
  have hjoin : join lineEnd lines [] ++ rest = contents.drop start := by
    rw [join_nil_append, ← join_cut lineEnd (contents.drop start), hcut]
  have hcontents : contents = contents.take start ++ join lineEnd lines [] ++ rest := by
    rw [append_assoc, hjoin, take_append_drop]
  have hend : lastLineEnd contents offset = (contents.take start ++ join lineEnd lines []).length := by
    have hrest : (contents.drop start).rtakeWhile (· ≠ lineEnd) = rest := by rw [← cut_snd_eq, hcut]
    have hlength := congrArg List.length hcontents
    rw [lastLineEnd, ← hstart, hrest]
    simp only [length_append] at hlength ⊢
    omega
  have htake : contents.take (lastLineEnd contents offset) = contents.take start ++ join lineEnd lines [] := by
    have hleft := @take_left _ (contents.take start ++ join lineEnd lines []) rest
    rwa [← hcontents, ← hend] at hleft
  have hagain : min offset (contents.take start ++ join lineEnd lines []).length = start := by
    have hlength := congrArg List.length hcontents
    have hdrop := congrArg List.length hjoin
    simp only [length_append, length_take, length_drop] at hlength hdrop ⊢
    omega
  have hdrop : (contents.take start ++ join lineEnd lines []).drop start = join lineEnd lines [] := by
    have hle : (contents.take start).length = start := by
      simp only [length_take]
      omega
    exact drop_left' hle
  have hfree : ∀ line ∈ lines, lineEnd ∉ line := by
    intro line hline
    have hmem : line ∈ (cut lineEnd (contents.drop start)).1 := by
      rw [hcut]
      exact hline
    exact not_mem_of_mem_cut hmem
  have hcomplete : cut lineEnd (join lineEnd lines []) = (lines, []) := by
    have happend := cut_join_append hfree [] []
    simpa [cut] using happend
  rw [htake, hlines]
  refine ⟨?_, ?_⟩
  · rw [linesFrom, hagain, hdrop, hcomplete]
  · rw [lastLineEnd, hagain, hdrop, ← cut_snd_eq, hcomplete, hend]
    simp

theorem readsLines_of_readable (h : Readable (linesFrom contents offset).1 (linesFrom contents offset).2) :
    ReadsLines codec contents offset := by
  obtain ⟨hlines, hend⟩ := linesFrom_take contents offset
  have hcut : Readable (linesFrom (contents.take (lastLineEnd contents offset)) offset).1
      (linesFrom (contents.take (lastLineEnd contents offset)) offset).2 := by
    rw [hlines]
    have hnil : fileText [] ≠ none := by decide
    exact ⟨h.1, hnil⟩
  refine ⟨_, scanFrom_eq h, ?_⟩
  rw [scanFrom_eq hcut, hlines, hend]

/-- A malformed line is left out of the scan, and the scan goes to the last complete line, exactly when all that is
read is UTF-8. -/
theorem malformed_line_isolated_iff (codec : RolloutCodec F) (skipped before line after : List UInt8)
    (hbefore : before = [] ∨ before.getLast? = some lineEnd) (hline : lineEnd ∉ line)
    (hbad : NotUnderstood codec line) :
    ((scanFrom codec (skipped ++ before ++ line ++ lineEnd :: after) skipped.length).map Prod.fst =
        (scanFrom codec (skipped ++ before ++ after) skipped.length).map Prod.fst ∧
      ReadsLines codec (skipped ++ before ++ line ++ lineEnd :: after) skipped.length ∧
      ReadsLines codec (skipped ++ before ++ after) skipped.length) ↔
    Readable (linesFrom (skipped ++ before ++ line ++ lineEnd :: after) skipped.length).1
      (linesFrom (skipped ++ before ++ line ++ lineEnd :: after) skipped.length).2 := by
  obtain ⟨lines, hlines⟩ : ∃ lines, (∀ line ∈ lines, lineEnd ∉ line) ∧ join lineEnd lines [] = before := by
    have hnil : (cut lineEnd before).2 = [] := by
      rw [cut_snd_eq]
      refine rtakeWhile_eq_nil_iff.mpr fun hne => ?_
      have hlast := hbefore.resolve_left hne
      rw [List.getLast?_eq_getLast_of_ne_nil hne] at hlast
      simp [Option.some.inj hlast]
    refine ⟨(cut lineEnd before).1, fun line hline => not_mem_of_mem_cut hline, ?_⟩
    have hjoin := join_cut lineEnd before
    rwa [hnil] at hjoin
  obtain ⟨hfree, rfl⟩ := hlines
  have hfrom : ∀ rest : List UInt8, linesFrom (skipped ++ join lineEnd lines [] ++ rest) skipped.length =
      (lines ++ (cut lineEnd rest).1, (cut lineEnd rest).2) := by
    intro rest
    have hmin : min skipped.length (skipped ++ join lineEnd lines [] ++ rest).length = skipped.length := by
      simp
    rw [linesFrom, hmin, append_assoc, drop_left, cut_join_append hfree, nil_append]
  have hwithout := hfrom after
  have hwith := hfrom (line ++ lineEnd :: after)
  rw [cut_line hline, ← append_assoc] at hwith
  have hfold : (lines ++ line :: (cut lineEnd after).1).foldl (applyLine codec) .default =
      (lines ++ (cut lineEnd after).1).foldl (applyLine codec) .default := by
    have hskip : ∀ scan, applyLine codec scan line = scan := by
      intro scan
      rw [applyLine, hbad]
    simp only [foldl_append, foldl_cons, hskip]
  constructor
  · rintro ⟨-, ⟨scan, hscan, -⟩, -⟩
    exact readable_of_scanFrom hscan
  · intro hreadable
    have hreadable' : Readable (linesFrom (skipped ++ join lineEnd lines [] ++ after) skipped.length).1
        (linesFrom (skipped ++ join lineEnd lines [] ++ after) skipped.length).2 := by
      rw [hwith] at hreadable
      rw [hwithout]
      refine ⟨fun other hother => hreadable.1 other ?_, hreadable.2⟩
      rcases mem_append.mp hother with hother | hother
      · exact mem_append_left _ hother
      · exact mem_append_right _ (mem_cons_of_mem line hother)
    refine ⟨?_, readsLines_of_readable hreadable, readsLines_of_readable hreadable'⟩
    rw [scanFrom_eq hreadable, scanFrom_eq hreadable', hwith, hwithout]
    simp only [Except.map, hfold]

def contextRecord : String := "\x7b\"type\":\"turn_context\",\"payload\":\x7b\"model\":\"m\"\x7d\x7d"

def contextCodec : RolloutCodec Unit where
  record text :=
    if text = contextRecord then
      some ⟨none, some "turn_context", some (.object [("model", .string "m")]), none⟩
    else none
  tokenCount _ := none
  sessionMeta _ := none
  milliseconds _ := 0

theorem truncated_record_isolated :
    (scanFrom contextCodec (textBytes contextRecord ++ [lineEnd] ++ textBytes "\x7b\"type\"" ++ lineEnd :: []) 0).map
        Prod.fst =
      (scanFrom contextCodec (textBytes contextRecord ++ [lineEnd]) 0).map Prod.fst := by
  have hreadable : Readable
      (linesFrom ([] ++ (textBytes contextRecord ++ [lineEnd]) ++ textBytes "\x7b\"type\"" ++ lineEnd :: []) 0).1
      (linesFrom ([] ++ (textBytes contextRecord ++ [lineEnd]) ++ textBytes "\x7b\"type\"" ++ lineEnd :: []) 0).2 := by
    unfold Readable
    decide +kernel
  have hisolated := malformed_line_isolated_iff contextCodec [] (textBytes contextRecord ++ [lineEnd])
    (textBytes "\x7b\"type\"") [] (by decide +kernel) (by decide +kernel) (by unfold NotUnderstood; decide +kernel)
  simpa using (hisolated.mpr hreadable).1

/-- One line that is not UTF-8 takes the whole file away. -/
theorem broken_line_not_isolated :
    NotUnderstood contextCodec [0xff] ∧
      ((scanFrom contextCodec (textBytes contextRecord ++ [lineEnd]) 0).toOption.map
        fun result => result.1.effectiveModel) = some (some "m") ∧
      ((scanFrom contextCodec (textBytes contextRecord ++ [lineEnd] ++ [0xff] ++ [lineEnd]) 0).toOption.map
        fun result => result.1.effectiveModel) = none := by
  refine ⟨?_, ?_, ?_⟩
  · unfold NotUnderstood
    decide +kernel
  · decide +kernel
  · decide +kernel

/-- The scans of a file that grows by the pieces, each from where the one before it stopped. -/
def resumedScans (codec : RolloutCodec F) :
    List UInt8 → Nat → List (List UInt8) → Except ReadError (List (SessionScan F))
  | _, _, [] => .ok []
  | contents, offset, piece :: pieces =>
    match scanFrom codec (contents ++ piece) offset with
    | .error err => .error err
    | .ok (scan, next) =>
      match resumedScans codec (contents ++ piece) next pieces with
      | .error err => .error err
      | .ok scans => .ok (scan :: scans)

theorem drop_lastLineEnd (contents : List UInt8) (offset : Nat) :
    contents.drop (lastLineEnd contents offset) = (linesFrom contents offset).2 := by
  have hsuffix : (linesFrom contents offset).2 <:+ contents := by
    rw [linesFrom, cut_snd_eq]
    exact (rtakeWhile_suffix _ _).trans (drop_suffix _ _)
  rw [lastLineEnd, ← cut_snd_eq]
  exact (suffix_iff_eq_drop.mp hsuffix).symm

/-- Each complete line is read by exactly one of the scans, in order. -/
def ReadOnce (codec : RolloutCodec F) (contents : List UInt8) (scans : List (SessionScan F)) : Prop :=
  ∃ read : List (List (List UInt8)), read.flatten = (cut lineEnd contents).1 ∧
    scans = read.map fun lines => lines.foldl (applyLine codec) .default

/-- However a file grows between the scans, also within a line, no line is read twice or left out. -/
theorem resumed_scans_read_once {pieces : List (List UInt8)} {scans : List (SessionScan F)}
    (h : resumedScans codec [] 0 pieces = .ok scans) : ReadOnce codec pieces.flatten scans := by
  suffices hfrom : ∀ {contents : List UInt8} {offset : Nat} {scans : List (SessionScan F)},
      offset ≤ contents.length → (cut lineEnd (contents.drop offset)).1 = [] →
      resumedScans codec contents offset pieces = .ok scans →
      ReadOnce codec (contents.drop offset ++ pieces.flatten) scans from hfrom le_rfl rfl h
  clear h scans
  induction pieces with
  | nil =>
    intro contents offset scans _ hread h
    cases h
    refine ⟨[], ?_, rfl⟩
    simp [hread]
  | cons piece pieces ih =>
    intro contents offset scans hle hread h
    rw [resumedScans] at h
    split at h
    next => cases h
    next scan next hscan =>
      have hlines : linesFrom (contents ++ piece) offset = cut lineEnd (contents.drop offset ++ piece) := by
        have hmin : min offset (contents ++ piece).length = offset := by
          rw [length_append]
          omega
        rw [linesFrom, hmin, drop_append_of_le_length hle]
      rw [scanFrom_eq (readable_of_scanFrom hscan)] at hscan
      cases hscan
      split at h
      next => cases h
      next rest hrest =>
      cases h
      have hdrop := drop_lastLineEnd (contents ++ piece) offset
      have hend : (cut lineEnd ((contents ++ piece).drop (lastLineEnd (contents ++ piece) offset))).1 = [] := by
        rw [hdrop, hlines, cut_cut]
      have hwithin : lastLineEnd (contents ++ piece) offset ≤ (contents ++ piece).length := Nat.sub_le ..
      obtain ⟨read, hflatten, hscans⟩ := ih hwithin hend hrest
      refine ⟨(linesFrom (contents ++ piece) offset).1 :: read, ?_, by rw [hscans, map_cons]⟩
      rw [flatten_cons, hflatten, hdrop, hlines, flatten_cons, ← append_assoc,
        cut_append lineEnd (contents.drop offset ++ piece)]

/-- The first scan stops before the record that is not written out. -/
theorem resumed_scans_read_once_cut :
    let pieces := [(textBytes contextRecord).take 9, (textBytes contextRecord).drop 9 ++ [lineEnd]]
    ∃ scans, resumedScans contextCodec [] 0 pieces = .ok scans ∧ ReadOnce contextCodec pieces.flatten scans := by
  intro pieces
  have hok : (resumedScans contextCodec [] 0 pieces).isOk = true := by decide +kernel
  cases hscans : resumedScans contextCodec [] 0 pieces with
  | error err =>
    rw [hscans] at hok
    cases hok
  | ok scans => exact ⟨scans, rfl, resumed_scans_read_once hscans⟩

end MochiPort

import MochiPort.FencedChunks

namespace MochiPort

open ChunkRequest Cuts Fences List RustText Stretch

section

variable {text : String} {maxChars fuel : Nat} {continuesMarker continuedMarker : String}
  {stretches stretches' : List (Stretch Char)} {tail tail' before chars : List Char} {messages : List ChunkMessage}

theorem ShowsText.pieces (h : ShowsText chars before messages stretches) :
    messages.map ChunkMessage.piece = stretches.map piece := by
  induction messages generalizing before stretches with
  | nil =>
    cases stretches with
    | nil => rfl
    | cons s stretches => exact absurd h id
  | cons m messages ih =>
    cases stretches with
    | nil => exact absurd h id
    | cons s stretches => rw [map_cons, map_cons, h.1.1, ih h.2]

theorem pieces_messages (pieces : List (List Char)) (chunkCount : Nat) (openLanguage : Option (List Char)) :
    ((fencedMessages openLanguage pieces).mapIdx (markMessage continuesMarker continuedMarker chunkCount)).map
        ChunkMessage.piece = pieces.map keptPiece := by
  have hpieces : (fencedMessages openLanguage pieces).map ChunkMessage.piece = pieces.map keptPiece := by
    induction pieces generalizing openLanguage with
    | nil => rfl
    | cons piece pieces ih => exact congrArg (keptPiece piece :: ·) (ih _)
  rw [← hpieces]
  apply ext_getElem?
  intro index
  rw [List.getElem?_map, List.getElem?_mapIdx, List.getElem?_map, Option.map_map]
  rfl

theorem stretches_unique (hgap : ∀ s ∈ stretches, ∀ c ∈ s.gap, isWhitespace c = true)
    (hgap' : ∀ s ∈ stretches', ∀ c ∈ s.gap, isWhitespace c = true)
    (htrimmed : ∀ s ∈ stretches', Trimmed isWhitespace s.piece)
    (hpieces : stretches.map Stretch.piece = stretches'.map fun s => keptPiece s.piece)
    (hwhole : whole stretches tail = whole stretches' tail') : stretches = stretches' := by
  induction stretches generalizing stretches' with
  | nil =>
    cases stretches' with
    | nil => rfl
    | cons s' stretches' => cases hpieces
  | cons s stretches ih =>
    cases stretches' with
    | nil => cases hpieces
    | cons s' stretches' =>
      obtain ⟨gap, piece⟩ := s
      obtain ⟨gap', piece'⟩ := s'
      obtain ⟨hpiece, hpieces⟩ := List.cons.inj hpieces
      have htrimmed' := htrimmed _ mem_cons_self
      dsimp only at hpiece htrimmed'
      have hkept : Trimmed isWhitespace piece := by
        rw [hpiece, keptPiece_eq htrimmed']
        exact trimmed_withoutCrs htrimmed'
      obtain ⟨hgaps, hrest⟩ := blanks_unique (hgap _ mem_cons_self) (hgap' _ mem_cons_self) hkept htrimmed'
        hwhole
      have hsame : piece = piece' := by
        refine beginnings_unique htrimmed' ?_ ?_ hrest
        · rw [hpiece, keptPiece_eq htrimmed', filter_withoutCrs]
        · rw [hpiece, keptPiece_eq htrimmed']
          exact withoutCrs_length_le piece'
      rw [hsame, append_cancel_left_eq] at hrest
      have hlater := ih (fun s hs => hgap s (mem_cons_of_mem _ hs))
        (fun s hs => hgap' s (mem_cons_of_mem _ hs)) (fun s hs => htrimmed s (mem_cons_of_mem _ hs)) hpieces
        hrest
      dsimp only at hgaps
      rw [hgaps, hsame, hlater]

/-- What `split_message_for_telegram` may use when there is room for fence lines. -/
theorem contentLimit_pos (hmin : telegramContinuationOverhead < maxChars)
    (hroom : contains (trim text) "```" = true →
      telegramContinuationOverhead + telegramFenceReserve < maxChars) :
    0 < effectiveMax (trim text) maxChars - telegramContinuationOverhead := by
  refine Nat.sub_pos_of_lt ?_
  unfold effectiveMax
  split
  next h => exact Nat.lt_sub_of_add_lt (hroom h)
  next => exact hmin

theorem contentLimit_room (hpos : 0 < effectiveMax (trim text) maxChars - telegramContinuationOverhead)
    (h : contains (trim text) "```" = true) :
    telegramContinuationOverhead + telegramFenceReserve < maxChars := by
  rw [effectiveMax, if_pos h] at hpos
  omega

section

variable (hempty : trim text ≠ "")
include hempty

theorem chunks_fits (hfits : FitsOneChunk text maxChars) :
    telegramTextChunksWithLimit fuel text maxChars continuesMarker continuedMarker = some [trim text] := by
  exact (if_neg hempty).trans (if_pos hfits)

theorem chunkMessages_fits (hfits : FitsOneChunk text maxChars) :
    chunkMessages fuel text maxChars continuesMarker continuedMarker =
      some [⟨[], (trim text).toList, []⟩] := by
  exact (if_neg hempty).trans (if_pos hfits)

theorem chunks_long (hlong : ¬ FitsOneChunk text maxChars) :
    telegramTextChunksWithLimit fuel text maxChars continuesMarker continuedMarker =
      (splitMessageForTelegram fuel (trim text).toList (effectiveMax (trim text) maxChars)).map
        fun pieces => (rebalanceCodeFences none pieces).mapIdx
          (markChunk continuesMarker continuedMarker (rebalanceCodeFences none pieces).length) := by
  exact (if_neg hempty).trans (if_neg hlong)

theorem chunkMessages_long (hlong : ¬ FitsOneChunk text maxChars) :
    chunkMessages fuel text maxChars continuesMarker continuedMarker =
      (splitMessageForTelegram fuel (trim text).toList (effectiveMax (trim text) maxChars)).map
        fun pieces => (fencedMessages none pieces).mapIdx
          (markMessage continuesMarker continuedMarker pieces.length) := by
  exact (if_neg hempty).trans (if_neg hlong)

end

/-- What a long text is cut into, with the chunks and the messages for it. -/
structure LongText (text : String) (maxChars : Nat) (stretches : List (Stretch Char)) : Prop where
  cutUp : CutUp text maxChars stretches
  whole_eq : whole stretches (tailOf text) = text.toList
  gap : ∀ s ∈ stretches, ∀ c ∈ s.gap, isWhitespace c = true
  trimmed : ∀ s ∈ stretches, Trimmed isWhitespace s.piece
  split : ∀ fuel pieces, splitMessageForTelegram fuel (trim text).toList
    (effectiveMax (trim text) maxChars) = some pieces → pieces = stretches.map piece
  ends : ∃ fuel, splitMessageForTelegram fuel (trim text).toList
    (effectiveMax (trim text) maxChars) = some (stretches.map piece)

theorem exists_longText (hempty : trim text ≠ "")
    (hpos : 0 < effectiveMax (trim text) maxChars - telegramContinuationOverhead) :
    ∃ stretches, LongText text maxChars stretches := by
  have htrimmed := trimmed_trim_toList hempty
  have hcut := telegramCutAt_cutsOff hpos
  obtain ⟨stretches, hstretches⟩ := exists_cutInto hcut htrimmed (leadOf text)
  refine ⟨stretches, hstretches, ?_, hstretches.blank_gap fun c hc => blank_leadOf hc,
    hstretches.trimmed hcut htrimmed, fun fuel pieces hpieces => ?_, ?_⟩
  · rw [hstretches.whole_eq, lead_trim_tail]
  · rw [splitMessageForTelegram, splitLoop_eq] at hpieces
    exact hstretches.of_loop hcut htrimmed hpieces
  · obtain ⟨fuel, hfuel⟩ := hstretches.loop_eq hcut htrimmed
    rw [← splitLoop_eq] at hfuel
    exact ⟨fuel, hfuel⟩

theorem split_none (hempty : trim text ≠ "")
    (hzero : effectiveMax (trim text) maxChars - telegramContinuationOverhead = 0) (fuel : Nat) :
    splitMessageForTelegram fuel (trim text).toList (effectiveMax (trim text) maxChars) = none := by
  have htrimmed := trimmed_trim_toList hempty
  rw [splitMessageForTelegram, splitLoop_eq, hzero]
  exact loop_of_cutAt_zero htrimmed (length_pos_of_ne_nil htrimmed.ne_nil) (telegramCutAt_zero _)

theorem follows_blank {lead : List Char} (hlead : ∀ c ∈ lead, isWhitespace c = true) (after : List Char) :
    telegramFences.Follows (telegramFences.read start lead) ⟨false, []⟩ after := by
  obtain ⟨hopen, hblank⟩ := @read_blank Char _ telegramFences start lead hlead fun c hc => absurd hc not_mem_nil
  exact .line _ hblank hopen (append_nil _).symm

theorem LongText.allEnd_iff (h : LongText text maxChars stretches) :
    telegramFences.AllEnd Option.isSome recordPiece none stretches ↔
      PlainFencesClose fenceLanguage fencesOf [] stretches :=
  @Fences.allEnd_iff Char _ telegramFences stretches _ _ fenceLanguage fencesOf [] rfl fun s hs on =>
    ends_read_piece (h.trimmed s hs) on

section

variable (r : ChunkRequest)

theorem maxChars_gt : telegramContinuationOverhead < r.maxChars := by
  cases r with
  | text => decide
  | turnCompleted header
  | userMessage creditText => exact Nat.lt_of_lt_of_le (Nat.lt_succ_self _) (Nat.le_max_right _ _)

theorem ChunkRequest.chunks_eq (fuel : Nat) (text continuesMarker continuedMarker : String) :
    r.chunks fuel text continuesMarker continuedMarker =
      telegramTextChunksWithLimit fuel text r.maxChars continuesMarker continuedMarker := by
  cases r with
  | _ => rfl

theorem faithful_of_empty (continuesMarker continuedMarker : String)
    (hempty : trim text = "") : r.Faithful text continuesMarker continuedMarker := by
  have hwhole := lead_trim_tail text
  rw [(trim_eq_empty_iff text).mp hempty, nil_append] at hwhole
  refine ⟨0, [" "], [⟨[], [], [' ']⟩], ?_, if_pos hempty, rfl, fun m hm => ?_, [⟨[], []⟩], text.toList, rfl, ?_, ?_,
    ⟨rfl, by unfold FencesPaired; decide, fun i hi => absurd hi (Nat.not_lt_zero i)⟩, trivial⟩
  · rw [r.chunks_eq]
    exact if_pos hempty
  · rw [mem_singleton.mp hm]
    exact Nat.lt_of_le_of_lt (Nat.zero_le _) (maxChars_gt r)
  · intro s hs
    rw [mem_singleton.mp hs]
    exact fun c hc => absurd hc not_mem_nil
  · intro c hc
    rw [← hwhole] at hc
    rcases mem_append.mp hc with hc | hc
    · exact blank_leadOf hc
    · exact blank_tailOf hc

theorem showsWell_single {lead piece : List Char} (hwhole : lead ++ (piece ++ tail) = chars)
    (hlead : ∀ c ∈ lead, isWhitespace c = true) (htail : ∀ c ∈ tail, isWhitespace c = true)
    (hbalanced : telegramFences.FencesPaired chars) (hlength : piece.length ≤ maxChars) :
    ShowsWell chars maxChars [⟨[], piece, []⟩] := by
  have hfollows := follows_blank hlead (piece ++ tail)
  have hkept := @lineKept_blank Char _ telegramFences tail htail
    (telegramFences.read (telegramFences.read start lead) piece)
  have hends : telegramFences.ends (telegramFences.read ⟨false, []⟩ piece) = false := by
    rw [FencesPaired, ← hwhole, read_append, read_append, ends_read_blank htail] at hbalanced
    exact (hfollows.read.ends_eq hkept).trans hbalanced
  have hframed : Framed ⟨[], piece, []⟩ false false :=
    ⟨rfl, fun r => (Bool.bne_false _).symm, fun rest => congrArg _ (append_nil rest)⟩
  have hshown := (hframed.shown_iff lead tail).mpr (hfollows.shown hkept hends)
  rw [hwhole] at hshown
  refine ⟨fun m hm => ?_, [⟨lead, piece⟩], tail, hwhole, fun s hs => ?_, htail, ⟨rfl, hshown.1, hshown.2⟩, trivial⟩
  · rw [mem_singleton.mp hm, ChunkMessage.text, nil_append, append_nil]
    exact hlength
  · rw [mem_singleton.mp hs]
    exact hlead

theorem faithful_of_fits (continuesMarker continuedMarker : String)
    (hempty : trim text ≠ "") (hfits : FitsOneChunk text r.maxChars)
    (hbalanced : telegramFences.FencesPaired text.toList) : r.Faithful text continuesMarker continuedMarker := by
  have hmessage : (⟨[], (trim text).toList, []⟩ : ChunkMessage).text = (trim text).toList :=
    append_nil _
  refine ⟨0, _, _, (r.chunks_eq ..).trans (chunks_fits hempty hfits), chunkMessages_fits hempty hfits, ?_,
    showsWell_single (lead_trim_tail text) (fun c hc => blank_leadOf hc) (fun c hc => blank_tailOf hc) hbalanced hfits⟩
  rw [map_singleton, hmessage, String.ofList_toList]

def longMessages (continuesMarker continuedMarker : String) (stretches : List (Stretch Char)) : List ChunkMessage :=
  (fencedMessages none (stretches.map piece)).mapIdx
    (markMessage continuesMarker continuedMarker (stretches.map piece).length)

/-- Where no carriage return is lost, the messages show the text exactly when the languages of the fence lines and the
cuts within fence lines do no harm. -/
theorem LongText.shows_iff (h : LongText text maxChars stretches)
    (hkept : FencesKept text maxChars continuesMarker continuedMarker)
    (hlines : ∀ s ∈ stretches, keptPiece s.piece = s.piece) :
    ShowsText text.toList [] (longMessages continuesMarker continuedMarker stretches) stretches ↔
      PlainFencesClose fenceLanguage fencesOf [] stretches ∧ AtCuts telegramFences.CutClosing text stretches := by
  have hshows := @showsText_iff none text.toList continuesMarker continuedMarker stretches (tailOf text) []
    hkept.continues hkept.continued (stretches.map Stretch.piece).length 0 goodLanguage_none hlines h.whole_eq
  obtain ⟨piece, later, hcons⟩ := h.cutUp.exists_cons
  have hcuts := hkept.cuts stretches h.cutUp
  have hgap : ∀ s ∈ later, ∀ c ∈ s.gap, isWhitespace c = true := fun s hs =>
    h.gap s (hcons ▸ mem_cons_of_mem _ hs)
  have hne : ∀ s ∈ later, s.piece ≠ [] := fun s hs => (h.trimmed s (hcons ▸ mem_cons_of_mem _ hs)).ne_nil
  have hfollows := @follows_blank (leadOf text) (fun c hc => blank_leadOf hc) (piece ++ whole later (tailOf text))
  refine hshows.trans ?_
  rw [← h.allEnd_iff]
  rw [hcons] at hcuts ⊢
  constructor
  · intro hshown
    exact ⟨hshown.ends, hshown.closing hfollows hcuts hgap hne⟩
  · rintro ⟨hends, hclosing⟩
    exact hends.shown hfollows hcuts hclosing hgap fun c hc => blank_tailOf hc

theorem LongText.bounded (h : LongText text maxChars stretches)
    (hmarkers : charCount continuesMarker + charCount continuedMarker + 4 ≤ telegramContinuationOverhead)
    (hpos : 0 < effectiveMax (trim text) maxChars - telegramContinuationOverhead) :
    ∀ m ∈ longMessages continuesMarker continuedMarker stretches, m.text.length ≤ maxChars := by
  have hof : ∀ {P : List Char → Prop}, (∀ s ∈ stretches, P s.piece) → ∀ piece ∈ stretches.map Stretch.piece, P piece := by
    intro P hall piece hpiece
    obtain ⟨s, hs, rfl⟩ := mem_map.mp hpiece
    exact hall s hs
  have hlength := h.cutUp.piece_length_le (telegramCutAt_cutsOff hpos)
  refine length_messages_le hmarkers ?_ ?_ (hof h.trimmed) (hof hlength) (hof h.cutUp.piece_infix) _
  · have hle : effectiveMax (trim text) maxChars ≤ maxChars := by
      unfold effectiveMax
      split
      next => exact Nat.sub_le _ _
      next => exact Nat.le_refl _
    omega
  · intro hfence
    have hcontains : contains (trim text) "```" = true := decide_eq_true hfence
    rw [effectiveMax, if_pos hcontains] at hpos ⊢
    omega

theorem faithful_long_iff (h : LongText text r.maxChars stretches)
    (hempty : trim text ≠ "") (hlong : ¬ FitsOneChunk text r.maxChars)
    (hmarkers : charCount continuesMarker + charCount continuedMarker + 4 ≤ telegramContinuationOverhead)
    (hpos : 0 < effectiveMax (trim text) r.maxChars - telegramContinuationOverhead) :
    r.Faithful text continuesMarker continuedMarker ↔
      (∀ s ∈ stretches, keptPiece s.piece = s.piece) ∧
        ShowsText text.toList [] (longMessages continuesMarker continuedMarker stretches) stretches := by
  constructor
  · rintro ⟨fuel, chunks, messages, hchunks, hmessages, -, -, stretches', tail, hwhole, hgap, -, hshows⟩
    rw [chunkMessages_long hempty hlong] at hmessages
    obtain ⟨pieces, hpieces, rfl⟩ := Option.map_eq_some_iff.mp hmessages
    have hstretches := h.split fuel pieces hpieces
    have hkept := hshows.pieces
    rw [pieces_messages, hstretches, map_map] at hkept
    have hsame := stretches_unique hgap h.gap h.trimmed hkept.symm (hwhole.trans h.whole_eq.symm)
    rw [hsame] at hkept hshows
    rw [hstretches] at hshows
    exact ⟨fun s hs => map_inj_left.mp hkept s hs, hshows⟩
  · rintro ⟨hkept, hshows⟩
    obtain ⟨fuel, hfuel⟩ := h.ends
    have htrimmed : ∀ piece ∈ stretches.map Stretch.piece, Trimmed isWhitespace piece := by
      intro piece hpiece
      obtain ⟨s, hs, rfl⟩ := mem_map.mp hpiece
      exact h.trimmed s hs
    refine ⟨fuel, _, longMessages continuesMarker continuedMarker stretches, ?_, ?_, rfl, h.bounded hmarkers hpos,
      stretches, tailOf text, h.whole_eq, h.gap, fun c hc => blank_tailOf hc, hshows⟩
    · rw [r.chunks_eq, chunks_long hempty hlong, hfuel, Option.map_some, markChunks_eq htrimmed, longMessages]
    · rw [chunkMessages_long hempty hlong, hfuel, Option.map_some, longMessages]

end

theorem keptPiece_iff (h : LongText text maxChars stretches) :
    (∀ s ∈ stretches, keptPiece s.piece = s.piece) ↔ ∀ s ∈ stretches, ¬ ['\r', '\n'] <:+: s.piece := by
  refine forall₂_congr fun s hs => ?_
  rw [keptPiece_eq (h.trimmed s hs)]
  exact withoutCrs_eq_self_iff s.piece

theorem fitsOneChunk_of_empty (hempty : trim text = "") (maxChars : Nat) : FitsOneChunk text maxChars := by
  rw [FitsOneChunk, hempty]
  exact Nat.zero_le _

end

/-- The chunks of a text whose fences are balanced show it if it fits into one, or if its cuts do no harm and neither
make nor divide a fence. Where they neither make nor divide a fence, they show it only then. -/
theorem telegram_chunks_faithful (r : ChunkRequest) {text continuesMarker continuedMarker : String}
    (hmarkers : charCount continuesMarker + charCount continuedMarker + 4 ≤ telegramContinuationOverhead)
    (hbalanced : telegramFences.FencesPaired text.toList) :
    (FitsOneChunk text r.maxChars ∨
        CutsHarmless text r.maxChars ∧ FencesKept text r.maxChars continuesMarker continuedMarker →
      r.Faithful text continuesMarker continuedMarker) ∧
    (r.Faithful text continuesMarker continuedMarker → FencesKept text r.maxChars continuesMarker continuedMarker →
      FitsOneChunk text r.maxChars ∨ CutsHarmless text r.maxChars) := by
  by_cases hempty : trim text = ""
  · exact ⟨fun _ => faithful_of_empty r _ _ hempty, fun _ _ => .inl (fitsOneChunk_of_empty hempty _)⟩
  by_cases hfits : FitsOneChunk text r.maxChars
  · exact ⟨fun _ => faithful_of_fits r _ _ hempty hfits hbalanced, fun _ _ => .inl hfits⟩
  constructor
  · intro hcondition
    obtain ⟨hharmless, hkept⟩ := hcondition.resolve_left hfits
    have hpos := contentLimit_pos (maxChars_gt r) hharmless.room
    obtain ⟨stretches, h⟩ := exists_longText hempty hpos
    have hlines := (keptPiece_iff h).mpr (hharmless.lines stretches h.cutUp)
    refine (faithful_long_iff r h hempty hfits hmarkers hpos).mpr ⟨hlines, (h.shows_iff hkept hlines).mpr ⟨?_, ?_⟩⟩
    · exact hharmless.languages stretches h.cutUp
    · exact hharmless.closing stretches h.cutUp
  · intro hfaithful hkept
    refine .inr ?_
    rcases Nat.eq_zero_or_pos (effectiveMax (trim text) r.maxChars - telegramContinuationOverhead)
      with hzero | hpos
    · obtain ⟨fuel, chunks, messages, hchunks, -⟩ := hfaithful
      rw [r.chunks_eq, chunks_long hempty hfits, split_none hempty hzero] at hchunks
      cases hchunks
    · obtain ⟨stretches, h⟩ := exists_longText hempty hpos
      obtain ⟨hlines, hshows⟩ := (faithful_long_iff r h hempty hfits hmarkers hpos).mp hfaithful
      obtain ⟨hlanguages, hclosing⟩ := (h.shows_iff hkept hlines).mp hshows
      have hsame : ∀ {P : List (Stretch Char) → Prop}, P stretches →
          ∀ stretches', CutUp text r.maxChars stretches' → P stretches' := by
        intro P hP stretches' hcut'
        rwa [← h.cutUp.unique hcut']
      exact ⟨fun hcontains => contentLimit_room hpos hcontains,
        hsame (P := fun stretches => ∀ s ∈ stretches, ¬ ['\r', '\n'] <:+: s.piece) ((keptPiece_iff h).mp hlines),
        hsame hlanguages, hsame hclosing⟩

section

def codeStart (language : List Char) (n : Nat) : List Char := fence ++ (language ++ '\n' :: List.replicate n 'a')

def codeBlock (language : List Char) (n : Nat) : List Char := codeStart language n ++ '\n' :: fence

variable {language : List Char} {k n : Nat}

theorem length_codeStart (language : List Char) (n : Nat) :
    (codeStart language n).length = language.length + n + 4 := by
  rw [codeStart, length_append, length_append, length_cons, length_replicate]
  change 3 + (language.length + (n + 1)) = language.length + n + 4
  omega

theorem length_codeBlock (language : List Char) (n : Nat) :
    (codeBlock language n).length = language.length + n + 8 := by
  rw [codeBlock, length_append, length_codeStart]
  rfl

theorem trim_codeBlock (language : List Char) (n : Nat) :
    trim (String.ofList (codeBlock language n)) = String.ofList (codeBlock language n) := by
  have hlast : codeBlock language n = codeStart language n ++ ['\n', '`', '`'] ++ ['`'] := by
    simp [codeBlock, fence]
  have hfirst : (codeBlock language n).dropWhile isWhitespace = codeBlock language n :=
    dropWhile_cons_of_neg (by decide)
  rw [← String.toList_inj, trim_toList, String.toList_ofList, hfirst, hlast]
  exact rdropWhile_concat_neg _ _ _ (by decide)

theorem trim_codeBlock_ne (language : List Char) (n : Nat) : trim (String.ofList (codeBlock language n)) ≠ "" := by
  rw [trim_codeBlock, Ne, ← String.toList_inj, String.toList_ofList]
  exact cons_ne_nil _ _

theorem leadOf_codeBlock (language : List Char) (n : Nat) : leadOf (String.ofList (codeBlock language n)) = [] := by
  rw [leadOf, String.toList_ofList]
  rfl

theorem not_mem_replicate {c : Char} (hc : c ≠ 'a') (n : Nat) : c ∉ List.replicate n 'a' :=
  fun hmem => hc (eq_of_mem_replicate hmem)

theorem isFenceLine_replicate (n : Nat) : isFenceLine (List.replicate n 'a') = false := by
  cases n with
  | _ => rfl

theorem rdropWhile_replicate {p : Char → Bool} (h : p 'a' = true) (text : List Char) (n : Nat) :
    (text ++ List.replicate n 'a').rdropWhile p = text.rdropWhile p := by
  induction n with
  | zero => rw [replicate_zero, append_nil]
  | succ n ih => rw [replicate_succ', ← append_assoc, rdropWhile_concat_pos _ _ _ h, ih]

theorem fencesOf_letters (hn : 0 < n) : fencesOf (List.replicate n 'a' ++ '\n' :: fence) = [fence] := by
  have htrimmed : Trimmed isWhitespace (List.replicate n 'a' ++ '\n' :: fence) := by
    obtain ⟨m, rfl⟩ := Nat.exists_eq_add_one_of_ne_zero hn.ne'
    refine ⟨cons_ne_nil _ _, fun c hc => by cases hc; decide, fun c hc => ?_⟩
    have hlast : List.replicate (m + 1) 'a' ++ '\n' :: fence =
        List.replicate (m + 1) 'a' ++ ['\n', '`', '`'] ++ ['`'] := by
      simp [fence]
    rw [hlast, List.getLast?_concat] at hc
    cases hc
    decide
  rw [fencesOf, chunkLines_eq htrimmed, ByteLines.cut_line (not_mem_replicate (by decide) n)]
  simp [isFenceLine_withoutCr, isFenceLine_replicate]
  decide

/-- The room for a piece of a text with fences. -/
theorem codeBlock_limit (language : List Char) (n : Nat) :
    effectiveMax (trim (String.ofList (codeBlock language n))) (text).maxChars -
      telegramContinuationOverhead = 4034 := by
  have hcontains : contains (String.ofList (codeBlock language n)) "```" = true := by
    have hprefix : fence <+: codeBlock language n := (prefix_append fence _).trans (prefix_append _ _)
    refine decide_eq_true ?_
    rw [@String.toList_ofList (codeBlock language n)]
    exact hprefix.isInfix
  rw [effectiveMax, trim_codeBlock, if_pos hcontains]
  rfl

theorem trimmed_codeStart (hk : 0 < k) : Trimmed isWhitespace (codeStart language k) := by
  obtain ⟨n, rfl⟩ := Nat.exists_eq_add_one_of_ne_zero hk.ne'
  refine ⟨cons_ne_nil _ _, fun c hc => by cases hc; decide, fun c hc => ?_⟩
  rw [codeStart, replicate_succ', ← cons_append, ← append_assoc, ← append_assoc,
    List.getLast?_concat] at hc
  cases hc
  decide

/-- The block is cut behind `k` of its letters. -/
theorem split_codeBlock (hn : k ≤ n) :
    codeBlock language n = codeStart language k ++ (List.replicate (n - k) 'a' ++ '\n' :: fence) := by
  have hreplicate : List.replicate n 'a' = List.replicate k 'a' ++ List.replicate (n - k) 'a' := by
    rw [← replicate_add, Nat.add_sub_cancel' hn]
  simp only [codeBlock, codeStart, hreplicate, append_assoc, cons_append]

section

variable (hword : ∀ c ∈ language, isWhitespace c = false)
include hword

theorem newline_not_mem : '\n' ∉ fence ++ language := by
  intro hmem
  rcases mem_append.mp hmem with hmem | hmem
  · exact absurd hmem (by decide)
  · exact absurd (hword _ hmem) (by decide)

theorem cut_codeStart (n : Nat) :
    ByteLines.cut '\n' (codeStart language n) = ([fence ++ language], List.replicate n 'a') := by
  rw [codeStart, ← append_assoc, ByteLines.cut_line (newline_not_mem hword),
    ByteLines.cut_of_not_mem (not_mem_replicate (by decide) n)]

theorem not_mem_codeBlock {c : Char} (hblank : isWhitespace c = true) (hc : c ≠ '\n') (n : Nat) :
    c ∉ codeBlock language n := by
  have hfence : c ∉ fence := by
    intro hmem
    have hfree := any_eq_false.mp (by decide : fence.any isWhitespace = false) c hmem
    exact hfree hblank
  have hlanguage : c ∉ language := fun hmem => Bool.noConfusion ((hword c hmem).symm.trans hblank)
  have hletters : c ∉ List.replicate n 'a' := not_mem_replicate (by rintro rfl; exact absurd hblank (by decide)) n
  simp [codeBlock, codeStart, hfence, hlanguage, hletters, hc]

theorem fencesOf_codeStart (hk : 0 < k) : fencesOf (codeStart language k) = [withoutCr (fence ++ language)] := by
  have hfence : isFenceLine (fence ++ language) = true := isFenceLine_append fence language (by decide)
  rw [fencesOf, chunkLines_eq (trimmed_codeStart hk), cut_codeStart hword]
  simp [isFenceLine_withoutCr, isFenceLine_replicate, hfence]

section

variable (hk : language.length + k = 4030)
include hk

theorem cutAt_codeBlock (hn : k ≤ n) (hlength : language.length ≤ 24) :
    telegramCutAt 4034 (codeBlock language n) = 4034 := by
  have htake : (codeBlock language n).take 4034 = codeStart language k := by
    have hstart := length_codeStart language k
    rw [split_codeBlock hn, take_left' (by omega)]
  have hnewline : rfind (codeStart language k) '\n' = some (language.length + 3) := by
    have hdrop : (codeStart language k).rdropWhile (· ≠ '\n') = fence ++ language ++ ['\n'] := by
      have hstart : codeStart language k = fence ++ language ++ ['\n'] ++ List.replicate k 'a' := by
        simp [codeStart]
      rw [hstart, rdropWhile_replicate (by decide)]
      exact rdropWhile_concat_neg _ _ _ (by decide)
    have hmem : '\n' ∈ codeStart language k := by simp [codeStart]
    rw [rfind, if_pos hmem, hdrop]
    simp [fence]
  have hspace : rfind (codeStart language k) ' ' = none := by
    have hfree : ' ' ∉ codeBlock language k := not_mem_codeBlock hword (by decide) (by decide) k
    exact if_neg fun hmem => hfree (mem_append_left _ hmem)
  have hearly : ¬4034 / 2 ≤ language.length + 3 := by omega
  rw [telegramCutAt, htake, bestSplitPoint, hnewline, hspace]
  simp [Option.filter, hearly]

theorem first_codeBlock (hn : k < n) (hlength : language.length ≤ 24) :
    pieceAt isWhitespace (telegramCutAt 4034) (codeBlock language n) = codeStart language k ∧
      gapAt isWhitespace (telegramCutAt 4034) (codeBlock language n) = [] ∧
      restAt isWhitespace (telegramCutAt 4034) (codeBlock language n) =
        List.replicate (n - k) 'a' ++ '\n' :: fence := by
  have hstart := length_codeStart language k
  have htrimmed := @trimmed_codeStart language k (by omega)
  obtain ⟨m, hm⟩ := Nat.exists_eq_add_one_of_ne_zero (Nat.sub_ne_zero_of_lt hn)
  simp only [pieceAt, gapAt, restAt, cutAt_codeBlock hword hk hn.le hlength]
  rw [split_codeBlock hn.le, take_left' (by omega), drop_left' (by omega), hm]
  have hlast : ∀ hne : codeStart language k ≠ [], ¬isWhitespace ((codeStart language k).getLast hne) = true :=
    fun hne => Bool.eq_false_iff.mp (htrimmed.last _ (List.getLast?_eq_some_getLast hne))
  exact ⟨rdropWhile_eq_self_iff.mpr hlast, congrArg (· ++ []) (rtakeWhile_eq_nil_iff.mpr hlast), rfl⟩

/-- A block of letters that needs two chunks is cut within its letters. -/
theorem cutUp_codeBlock (hn : k < n) (hlength : language.length ≤ 24) (hrest : n ≤ k + 4030) :
    CutUp (String.ofList (codeBlock language n)) (text).maxChars
      [⟨[], codeStart language k⟩, ⟨[], List.replicate (n - k) 'a' ++ '\n' :: fence⟩] := by
  obtain ⟨hpiece, hgap, hlater⟩ := first_codeBlock hword hk hn hlength
  rw [CutUp, codeBlock_limit, trim_codeBlock, leadOf_codeBlock, String.toList_ofList, ← hpiece]
  refine .cut [] (by rw [length_codeBlock]; omega) ?_
  rw [hgap, hlater]
  refine .last [] (by simp) ?_
  rw [length_append, length_replicate]
  change n - k + 4 ≤ 4034
  omega

end

theorem read_codeStart (n : Nat) : telegramFences.read start (codeStart language n) = ⟨true, List.replicate n 'a'⟩ := by
  have hfence : isFenceLine (fence ++ language) = true := isFenceLine_append fence language (by decide)
  have hread := @read_cut Char _ telegramFences start not_mem_nil (codeStart language n)
  have hcut := cut_codeStart hword n
  simp only [start, telegramFences, nil_append] at hread ⊢
  rw [hread, hcut]
  simp [hfence]

theorem balanced_codeBlock (n : Nat) : telegramFences.FencesPaired (codeBlock language n) := by
  have hline : telegramFences.ends ⟨true, List.replicate n 'a'⟩ = true := by
    change (true != isFenceLine (List.replicate n 'a')) = true
    rw [isFenceLine_replicate]
    rfl
  have hnewline : telegramFences.read ⟨true, List.replicate n 'a'⟩ ('\n' :: fence) =
      telegramFences.read ⟨telegramFences.ends ⟨true, List.replicate n 'a'⟩, []⟩ fence := rfl
  rw [FencesPaired, codeBlock, read_append, read_codeStart hword, hnewline, hline]
  decide

theorem atCuts_codeBlock (hk : language.length + k = 4030) (hn : k < n) (hlength : language.length ≤ 24)
    (hrest : n ≤ k + 4030) {C : FenceReading Char → List Char → List Char → Prop}
    (hC : C ⟨true, List.replicate k 'a'⟩ [] (List.replicate (n - k) 'a' ++ '\n' :: fence))
    (stretches : List (Stretch Char))
    (hcut : CutUp (String.ofList (codeBlock language n)) (text).maxChars stretches) :
    AtCuts C (String.ofList (codeBlock language n)) stretches := by
  have htail : tailOf (String.ofList (codeBlock language n)) = [] := by
    have hwhole := lead_trim_tail (String.ofList (codeBlock language n))
    rw [trim_codeBlock, leadOf_codeBlock, nil_append] at hwhole
    exact append_right_eq_self.mp hwhole
  rw [← (cutUp_codeBlock hword hk hn hlength hrest).unique hcut, AtCuts, nil_append, read_codeStart hword, htail]
  exact ⟨by simpa [whole] using hC, trivial⟩

end

end

/-- A block of Rust code for two chunks, cut within the block. -/
theorem telegram_chunks_faithful_rust :
    ¬FitsOneChunk (String.ofList (codeBlock "rust".toList 5000)) (text).maxChars ∧
      (text).Faithful (String.ofList (codeBlock "rust".toList 5000)) "(continues...)" "(continued)" := by
  have hword : ∀ c ∈ "rust".toList, isWhitespace c = false := by
    have hnone : ("rust".toList.any isWhitespace) = false := by decide
    simpa using any_eq_false.mp hnone
  have hcuts := @cutUp_codeBlock "rust".toList 4026 5000 hword (by decide) (by decide) (by decide) (by decide)
  have hall := @atCuts_codeBlock "rust".toList 4026 5000 hword (by decide) (by decide) (by decide) (by decide)
  have hlist : (String.ofList (codeBlock "rust".toList 5000)).toList = codeBlock "rust".toList 5000 :=
    String.toList_ofList
  have hunique : ∀ stretches, CutUp (String.ofList (codeBlock "rust".toList 5000)) (text).maxChars
      stretches → stretches = [⟨[], codeStart "rust".toList 4026⟩, ⟨[], List.replicate 974 'a' ++ '\n' :: fence⟩] :=
    fun stretches h => h.unique hcuts
  have hharmless : CutsHarmless (String.ofList (codeBlock "rust".toList 5000)) (text).maxChars := by
    refine ⟨fun _ => by decide, ?_, ?_, ?_⟩
    · intro stretches h s hs hreturn
      have hmem := (h.piece_infix s hs).subset (hreturn.subset mem_cons_self)
      rw [trim_codeBlock, hlist] at hmem
      exact not_mem_codeBlock hword (by decide) (by decide) 5000 hmem
    · intro stretches h
      rw [hunique stretches h, PlainFencesClose, PlainFencesClose, fencesOf_codeStart hword (by decide),
        fencesOf_letters (by decide)]
      exact ⟨by decide, by decide, trivial⟩
    · exact hall fun _ _ => rfl
  have hkept : FencesKept (String.ofList (codeBlock "rust".toList 5000)) (text).maxChars "(continues...)"
      "(continued)" := by
    refine ⟨by unfold NoFences; decide, by unfold NoFences; decide, ?_⟩
    have hrest : telegramFences.restOfLine (List.replicate 974 'a' ++ '\n' :: fence) = List.replicate 974 'a' :=
      (restOfLine_append_newline _ _).trans (restOfLine_of_not_mem (not_mem_replicate (by decide) 974))
    refine hall fun _ => ?_
    exact ⟨(isFenceLine_replicate 5000).trans (isFenceLine_replicate 4026).symm, isFenceLine_replicate 974⟩
  refine ⟨?_, (telegram_chunks_faithful .text (by decide) ?_).1 (.inr ⟨hharmless, hkept⟩)⟩
  · rw [FitsOneChunk, trim_codeBlock, charCount, hlist, length_codeBlock]
    decide
  · rw [hlist]
    exact balanced_codeBlock hword 5000

/-- The first chunk of a long code block without a language is not closed. -/
theorem plain_block_unbalanced :
    ¬ ∀ (r : ChunkRequest) (text continuesMarker continuedMarker : String),
        charCount continuesMarker + charCount continuedMarker + 4 ≤ telegramContinuationOverhead →
        telegramFences.FencesPaired text.toList → r.Faithful text continuesMarker continuedMarker := by
  intro hall
  have hword : ∀ c ∈ ([] : List Char), isWhitespace c = false := nofun
  have htrim := trim_codeBlock [] 5000
  have hlist : (String.ofList (codeBlock [] 5000)).toList = codeBlock [] 5000 := String.toList_ofList
  have hfaithful := hall .text (String.ofList (codeBlock [] 5000)) "" "" (by decide)
    (by rw [hlist]; exact balanced_codeBlock hword 5000)
  have hempty := trim_codeBlock_ne [] 5000
  have hlong : ¬ FitsOneChunk (String.ofList (codeBlock [] 5000)) (ChunkRequest.text).maxChars := by
    rw [FitsOneChunk, htrim, charCount, hlist, length_codeBlock]
    decide
  have hlimit := codeBlock_limit [] 5000
  have hpos : 0 < effectiveMax (trim (String.ofList (codeBlock [] 5000))) (ChunkRequest.text).maxChars -
      telegramContinuationOverhead := by
    rw [hlimit]
    decide
  obtain ⟨stretches, h⟩ := exists_longText hempty hpos
  obtain ⟨hlines, hshows⟩ := (faithful_long_iff .text h hempty hlong (by decide) hpos).mp hfaithful
  have hnone : NoFences "".toList := by
    intro line hline
    rw [mem_singleton.mp hline]
    decide
  have hshown := (@showsText_iff none _ "" "" stretches (tailOf _) [] hnone hnone (stretches.map piece).length 0
    goodLanguage_none hlines h.whole_eq).mp hshows
  have hlanguages := h.allEnd_iff.mp hshown.ends
  have hcut := h.cutUp
  rw [CutUp, hlimit, htrim, hlist] at hcut
  obtain ⟨later, hlater⟩ := hcut.first_eq (by rw [length_codeBlock]; decide)
  rw [hlater, (@first_codeBlock [] 4030 5000 hword rfl (by decide) (by decide)).1] at hlanguages
  have hfirst := hlanguages.1
  dsimp only at hfirst
  rw [fencesOf_codeStart hword (by decide)] at hfirst
  exact absurd hfirst (by decide)

end MochiPort

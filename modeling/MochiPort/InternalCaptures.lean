import MochiPort.ByteOffsets
import MochiPort.LogRedaction

namespace MochiPort

open ByteOffsets Option Utf8

structure CaptureLog where
  detailsEnabled : Bool
  upstreamResponseSse : Option String

def internalUpstreamSseLogLimitBytes : Nat := 512 * 1024

def segmentSeparator : String := "\n\n: [mochiport] internal anthropic SSE segment\n\n"

def truncatedMarker : String := "\n\n: [mochiport] upstream SSE log truncated\n"

/-- `none` is the panic of `String::truncate` inside a character. -/
def limitCapture (text : String) : Option String :=
  if internalUpstreamSseLogLimitBytes < byteLength text.toList then
    (splitAt internalUpstreamSseLogLimitBytes text.toList).map fun (kept, _) => String.ofList kept ++ truncatedMarker
  else some text

section

variable (codec : JsonCodec)

/-- Every update redacts the stored text anew, also one that brings no text. -/
def updateRecord (update : Option String) (log : CaptureLog) : CaptureLog :=
  { log with upstreamResponseSse := (update.or log.upstreamResponseSse).map (redactEmbeddedJson codec) }

def saveInternalUpstreamSse (logContext : Option CaptureLog) (rawSse : String) : Option (Option CaptureLog) :=
  match logContext with
  | none => some none
  | some log =>
    if log.detailsEnabled = false ∨ rawSse = "" then some (some log)
    else
      let existing := log.upstreamResponseSse.getD ""
      let text := if existing = "" then rawSse else existing ++ segmentSeparator ++ rawSse
      (limitCapture text).map fun text => some (updateRecord codec (some text) log)

/-- A round updates the log with the request it sends and saves the bytes it has received. -/
def streamRound (logContext : Option CaptureLog) (raw : List UInt8) : Option (Option CaptureLog) :=
  saveInternalUpstreamSse codec (logContext.map (updateRecord codec none)) (fromUtf8Lossy raw)

/-- The rounds of one request. A request without a log has no details either. -/
def streamRounds (details : Option Bool) (segments : List (List UInt8)) : Option (Option CaptureLog) :=
  segments.foldlM (streamRound codec) (details.map fun detailsEnabled => ⟨detailsEnabled, none⟩)

end

def segmentsText (segments : List (List UInt8)) : String :=
  segmentSeparator.intercalate ((segments.map fromUtf8Lossy).filter (· ≠ ""))

/-- All of a text, or as much of it as the limit holds and the marker. -/
def Captured (text stored : String) : Prop :=
  ∃ kept rest : List Char, text.toList = kept ++ rest ∧ byteLength kept ≤ internalUpstreamSseLogLimitBytes ∧
    (rest ≠ [] → byteLength kept = internalUpstreamSseLogLimitBytes) ∧
    stored.toList = kept ++ if rest = [] then [] else truncatedMarker.toList

/-- No round panics, and after each one what is stored is what is captured of the segments so far. -/
def CapturesKept (codec : JsonCodec) (details : Option Bool) (segments : List (List UInt8)) : Prop :=
  ∀ earlier, earlier <+: segments → ∃ after, streamRounds codec details earlier = some after ∧
    (details = some true → ∃ log, after = some log ∧
      Captured (segmentsText earlier) (log.upstreamResponseSse.getD ""))

/-- The limit falls between two characters, and there is nothing to redact in what is captured. -/
def Storable (codec : JsonCodec) (text : String) : Prop :=
  text ≠ "" →
    (internalUpstreamSseLogLimitBytes < byteLength text.toList →
      (splitAt internalUpstreamSseLogLimitBytes text.toList).isSome) ∧
    ∀ stored, Captured text stored → redactEmbeddedJson codec stored = stored

section

variable {codec : JsonCodec} {text stored raw : String} {log : CaptureLog} {segments : List (List UInt8)}

theorem limitCapture_eq_some : limitCapture text = some stored ↔ Captured text stored := by
  unfold limitCapture
  split
  next hlong =>
    simp only [map_eq_some_iff]
    constructor
    · rintro ⟨⟨kept, rest⟩, hcut, rfl⟩
      obtain ⟨htext, hkept⟩ := splitAt_eq_some.mp hcut
      have hrest : rest ≠ [] := by
        rintro rfl
        rw [htext, List.append_nil] at hlong
        omega
      exact ⟨kept, rest, htext, hkept.le, fun _ => hkept, by simp [hrest]⟩
    · rintro ⟨kept, rest, htext, hkept, hfull, hstored⟩
      have hrest : rest ≠ [] := by
        rintro rfl
        rw [htext, List.append_nil] at hlong
        omega
      refine ⟨(kept, rest), splitAt_eq_some.mpr ⟨htext, hfull hrest⟩, String.toList_inj.mp ?_⟩
      simp [hstored, hrest]
  next hshort =>
    simp only [Option.some.injEq]
    constructor
    · rintro rfl
      exact ⟨text.toList, [], by simp, by omega, by simp, by simp⟩
    · rintro ⟨kept, rest, htext, hkept, hfull, hstored⟩
      have hrest : rest = [] := by
        by_contra hrest
        obtain ⟨c, rest, rfl⟩ := List.exists_cons_of_ne_nil hrest
        have hc := c.utf8Size_pos
        have hfull := hfull hrest
        rw [htext, byteLength_append, byteLength_cons] at hshort
        omega
      subst hrest
      exact String.toList_inj.mp (by simpa using htext.trans (by simpa using hstored.symm))

theorem limitCapture_isSome_iff :
    (limitCapture text).isSome ↔ (internalUpstreamSseLogLimitBytes < byteLength text.toList →
      (splitAt internalUpstreamSseLogLimitBytes text.toList).isSome) := by
  unfold limitCapture
  split <;> simp [*]

theorem limitCapture_append (h : Captured text stored) (more : String) :
    limitCapture (stored ++ more) = limitCapture (text ++ more) := by
  obtain ⟨kept, rest, htext, hkept, hfull, hstored⟩ := h
  by_cases hrest : rest = []
  · subst hrest
    have heq : stored = text := String.toList_inj.mp (by simpa using hstored.trans (by simpa using htext.symm))
    rw [heq]
  · have hall := hfull hrest
    have hleft : limitCapture (stored ++ more) = some (String.ofList kept ++ truncatedMarker) := by
      refine limitCapture_eq_some.mpr ⟨kept, truncatedMarker.toList ++ more.toList, ?_, hkept, fun _ => hall, ?_⟩
      · simp [hstored, hrest]
      · simp [truncatedMarker]
    have hright : limitCapture (text ++ more) = some (String.ofList kept ++ truncatedMarker) :=
      limitCapture_eq_some.mpr ⟨kept, rest ++ more.toList, by simp [htext], hkept, fun _ => hall, by simp [hrest]⟩
    rw [hleft, hright]

theorem captured_ne_empty (h : Captured text stored) (hne : text ≠ "") : stored ≠ "" := by
  obtain ⟨kept, rest, htext, -, -, hstored⟩ := h
  rintro rfl
  obtain ⟨hkept, hmarker⟩ := List.append_eq_nil_iff.mp hstored.symm
  have hrest : rest = [] := by
    by_contra hrest
    simp [hrest, truncatedMarker] at hmarker
  subst hkept hrest
  exact hne (String.toList_inj.mp (by simpa using htext))

theorem intercalate_snoc {texts : List String} (hne : ∀ text ∈ texts, text ≠ "") (separator last : String) :
    separator.intercalate (texts ++ [last]) =
      if separator.intercalate texts = "" then last else separator.intercalate texts ++ separator ++ last := by
  cases texts with
  | nil => simp
  | cons first texts =>
    have hfirst := hne first List.mem_cons_self
    have hjoined : separator.intercalate (first :: texts) ≠ "" := by
      cases texts <;> simp [String.intercalate_cons_cons, hfirst]
    rw [if_neg hjoined, String.intercalate_append_of_ne_nil (by simp) (by simp), String.intercalate_singleton]

theorem segmentsText_append (segments : List (List UInt8)) (raw : List UInt8) :
    segmentsText (segments ++ [raw]) =
      if fromUtf8Lossy raw = "" then segmentsText segments
      else if segmentsText segments = "" then fromUtf8Lossy raw
      else segmentsText segments ++ segmentSeparator ++ fromUtf8Lossy raw := by
  unfold segmentsText
  by_cases hraw : fromUtf8Lossy raw = ""
  · simp [hraw]
  · have hlast : [fromUtf8Lossy raw].filter (· ≠ "") = [fromUtf8Lossy raw] := by simp [hraw]
    rw [List.map_append, List.filter_append, List.map_singleton, hlast, if_neg hraw]
    exact intercalate_snoc (fun text htext => by simpa using (List.mem_filter.mp htext).2) _ _

def Keeps (log : CaptureLog) (text : String) : Prop :=
  log.detailsEnabled = true ∧
    if text = "" then log.upstreamResponseSse = none
    else ∃ stored, log.upstreamResponseSse = some stored ∧ Captured text stored

theorem Keeps.captured (h : Keeps log text) : Captured text (log.upstreamResponseSse.getD "") := by
  obtain ⟨-, hstored⟩ := h
  split at hstored
  next hempty =>
    subst hempty
    rw [hstored]
    exact ⟨[], [], by simp, by simp, by simp, by simp⟩
  next =>
    obtain ⟨stored, hlog, hcaptured⟩ := hstored
    simpa [hlog] using hcaptured

theorem updateRecord_none (h : Keeps log text) (hs : Storable codec text) : updateRecord codec none log = log := by
  obtain ⟨-, hstored⟩ := h
  obtain ⟨detailsEnabled, upstreamResponseSse⟩ := log
  split at hstored
  next =>
    obtain rfl : upstreamResponseSse = none := hstored
    rfl
  next hne =>
    obtain ⟨stored, rfl, hcaptured⟩ := hstored
    have hredacted := (hs hne).2 stored hcaptured
    simp [updateRecord, hredacted]

theorem streamRound_eq (h : Keeps log (segmentsText segments)) (hs : Storable codec (segmentsText segments))
    (raw : List UInt8) :
    streamRound codec (some log) raw =
      if fromUtf8Lossy raw = "" then some (some log)
      else (limitCapture (segmentsText (segments ++ [raw]))).map fun text =>
        some ⟨true, some (redactEmbeddedJson codec text)⟩ := by
  have hkept := updateRecord_none h hs
  obtain ⟨hdetails, hstored⟩ := h
  simp only [streamRound, map_some, hkept, saveInternalUpstreamSse, hdetails, Bool.true_eq_false, false_or,
    segmentsText_append]
  split
  next => rfl
  next hraw =>
    have hupdated (stored : String) :
        updateRecord codec (some stored) log = ⟨true, some (redactEmbeddedJson codec stored)⟩ := by
      simp [updateRecord, hdetails]
    simp only [hupdated]
    congr 1
    split at hstored
    next hempty => simp [hempty, hstored]
    next hne =>
      obtain ⟨stored, hlog, hcaptured⟩ := hstored
      have hstored := captured_ne_empty hcaptured hne
      simp only [hlog, getD_some, hstored, hne, if_false, String.append_assoc]
      exact limitCapture_append hcaptured _

theorem streamRounds_append (details : Option Bool) (segments : List (List UInt8)) (raw : List UInt8) :
    streamRounds codec details (segments ++ [raw]) =
      (streamRounds codec details segments).bind fun log => streamRound codec log raw := by
  simp [streamRounds, List.foldlM_append]

theorem keeps_of_captured (hne : text ≠ "") (h : Captured text stored) : Keeps ⟨true, some stored⟩ text :=
  ⟨rfl, by simpa [hne] using h⟩

theorem streamRounds_keeps (h : ∀ earlier, earlier <+: segments → Storable codec (segmentsText earlier)) :
    ∃ log, streamRounds codec (some true) segments = some (some log) ∧ Keeps log (segmentsText segments) := by
  induction segments using List.reverseRecOn with
  | nil => exact ⟨⟨true, none⟩, rfl, rfl, by simp [segmentsText]⟩
  | append_singleton segments raw ih =>
    obtain ⟨log, hrun, hkeeps⟩ := ih fun earlier hearlier => h earlier (hearlier.trans (List.prefix_append _ _))
    have hround := streamRound_eq hkeeps (h segments (List.prefix_append _ _)) raw
    rw [streamRounds_append, hrun, bind_some, hround]
    split
    next hraw => exact ⟨log, rfl, by simpa [segmentsText_append, hraw] using hkeeps⟩
    next hraw =>
      have hne : segmentsText (segments ++ [raw]) ≠ "" := by
        rw [segmentsText_append]
        split_ifs <;> simp [hraw]
      obtain ⟨hcut, hredacted⟩ := h (segments ++ [raw]) (List.prefix_refl _) hne
      obtain ⟨stored, hstored⟩ := isSome_iff_exists.mp (limitCapture_isSome_iff.mpr hcut)
      have hcaptured := limitCapture_eq_some.mp hstored
      refine ⟨⟨true, some stored⟩, ?_, keeps_of_captured hne hcaptured⟩
      rw [hstored, map_some, hredacted stored hcaptured]

theorem storable_of_kept (h : CapturesKept codec (some true) segments) :
    ∀ earlier, earlier <+: segments → Storable codec (segmentsText earlier) := by
  induction segments using List.reverseRecOn with
  | nil =>
    intro earlier hearlier hne
    simp [List.prefix_nil.mp hearlier, segmentsText] at hne
  | append_singleton segments raw ih =>
    have hbefore := ih fun earlier hearlier => h earlier (hearlier.trans (List.prefix_append _ _))
    intro earlier hearlier
    rcases List.prefix_concat_iff.mp hearlier with rfl | hearlier
    · obtain ⟨log, hrun, hkeeps⟩ := streamRounds_keeps hbefore
      have hround := streamRound_eq hkeeps (hbefore segments (List.prefix_refl _)) raw
      obtain ⟨after, hafter, hstill⟩ := h (segments ++ [raw]) (List.prefix_refl _)
      rw [streamRounds_append, hrun, bind_some, hround] at hafter
      split at hafter
      next hraw => simpa [segmentsText_append, hraw] using hbefore segments (List.prefix_refl _)
      next =>
        obtain ⟨stored, hstored, hlog⟩ := map_eq_some_iff.mp hafter
        obtain ⟨log', rfl, hcaptured⟩ := hstill rfl
        obtain rfl := Option.some.inj hlog
        intro hne
        refine ⟨limitCapture_isSome_iff.mp (by simp [hstored]), fun other hother => ?_⟩
        -- a text is captured in one way only
        have hother := (limitCapture_eq_some.mpr hother).symm.trans hstored
        have hredacted := (limitCapture_eq_some.mpr hcaptured).symm.trans hstored
        simp only [getD_some, Option.some.injEq] at hother hredacted
        rw [hother, hredacted]
    · exact hbefore earlier hearlier

theorem streamRounds_unlogged {details : Option Bool} (hdetails : details ≠ some true)
    (segments : List (List UInt8)) : (streamRounds codec details segments).isSome := by
  have hrounds : streamRounds codec details segments =
      some (details.map fun detailsEnabled => ⟨detailsEnabled, none⟩) := by
    induction segments using List.reverseRecOn with
    | nil => rfl
    | append_singleton segments raw ih =>
      rw [streamRounds_append, ih, bind_some]
      rcases details with _ | _ | _
      · rfl
      · rfl
      · exact absurd rfl hdetails
  rw [hrounds]
  rfl

end

/-- The text of a round that is cut to the limit; what is stored has been redacted once more by then. -/
def roundText (codec : JsonCodec) (log : CaptureLog) (raw : List UInt8) : String :=
  let existing := ((updateRecord codec none log).upstreamResponseSse).getD ""
  if existing = "" then fromUtf8Lossy raw else existing ++ segmentSeparator ++ fromUtf8Lossy raw

theorem streamRound_isSome_iff {codec : JsonCodec} {log : CaptureLog} {raw : List UInt8} :
    (streamRound codec (some log) raw).isSome ↔
      (log.detailsEnabled = true → fromUtf8Lossy raw ≠ "" →
        internalUpstreamSseLogLimitBytes < byteLength (roundText codec log raw).toList →
        (splitAt internalUpstreamSseLogLimitBytes (roundText codec log raw).toList).isSome) := by
  rw [← limitCapture_isSome_iff]
  simp only [streamRound, map_some, saveInternalUpstreamSse, roundText]
  have hdetails : (updateRecord codec none log).detailsEnabled = log.detailsEnabled := rfl
  rw [hdetails]
  split
  next hquiet =>
    refine iff_of_true rfl fun hon hne => ?_
    rcases hquiet with hoff | hempty
    · rw [hon] at hoff
      cases hoff
    · exact absurd hempty hne
  next hloud =>
    obtain ⟨hon, hne⟩ := not_or.mp hloud
    rw [isSome_map]
    exact ⟨fun h _ _ => h, fun h => h (Bool.not_eq_false _ ▸ hon) hne⟩

/-- Whatever the redaction makes of the stored text, the rounds panic exactly when the limit of one of them is inside a
character. -/
theorem streamRounds_isSome_iff (codec : JsonCodec) (details : Option Bool) (segments : List (List UInt8)) :
    (streamRounds codec details segments).isSome ↔
      ∀ earlier raw log, earlier ++ [raw] <+: segments → streamRounds codec details earlier = some (some log) →
        log.detailsEnabled = true → fromUtf8Lossy raw ≠ "" →
        internalUpstreamSseLogLimitBytes < byteLength (roundText codec log raw).toList →
        (splitAt internalUpstreamSseLogLimitBytes (roundText codec log raw).toList).isSome := by
  induction segments using List.reverseRecOn with
  | nil => simp [streamRounds]
  | append_singleton segments raw ih =>
    rw [streamRounds_append]
    constructor
    · intro hsome earlier last log hbegins hrun
      obtain ⟨after, hafter, hround⟩ := bind_eq_some_iff.mp (some_get hsome).symm
      rcases List.prefix_concat_iff.mp hbegins with heq | hbegins
      · obtain ⟨rfl, hlast⟩ := List.append_inj' heq rfl
        cases hlast
        cases hafter.symm.trans hrun
        exact streamRound_isSome_iff.mp (by rw [hround]; rfl)
      · exact ih.mp (by rw [hafter]; rfl) earlier last log hbegins hrun
    · intro hall
      obtain ⟨after, hafter⟩ := isSome_iff_exists.mp
        (ih.mpr fun earlier last log hbegins => hall earlier last log (hbegins.trans (List.prefix_append _ _)))
      rw [hafter, bind_some]
      cases after with
      | none => rfl
      | some log => exact streamRound_isSome_iff.mpr (hall segments raw log (List.prefix_refl _) hafter)

theorem captures_kept_iff (codec : JsonCodec) (details : Option Bool) (segments : List (List UInt8)) :
    CapturesKept codec details segments ↔
      (details = some true → ∀ earlier, earlier <+: segments → Storable codec (segmentsText earlier)) := by
  constructor
  · rintro h rfl
    exact storable_of_kept h
  · intro h earlier hearlier
    by_cases hdetails : details = some true
    · subst hdetails
      obtain ⟨log, hrun, hkeeps⟩ := streamRounds_keeps fun before hbefore => h rfl before (hbefore.trans hearlier)
      exact ⟨some log, hrun, fun _ => ⟨log, rfl, hkeeps.captured⟩⟩
    · obtain ⟨after, hafter⟩ := isSome_iff_exists.mp (streamRounds_unlogged hdetails earlier)
      exact ⟨after, hafter, fun h => absurd h hdetails⟩

/-- Letters up to the last byte before the limit, and then a character of two bytes. -/
def halvedCharacter : List UInt8 := List.replicate 524287 0x61 ++ [0xc3, 0xa9]

theorem lossyLoop_letters (n : Nat) :
    lossyLoop (n + 2) (List.replicate n 0x61 ++ [0xc3, 0xa9]) = List.replicate n 'a' ++ ['é'] := by
  induction n with
  | zero => decide
  | succ n ih =>
    have hletter (rest : List UInt8) : lossyChar 0x61 rest = ('a', rest) := rfl
    simp only [List.replicate_succ, List.cons_append, lossyLoop, hletter, ih]

theorem byteLength_letters (n : Nat) : byteLength (List.replicate n 'a') = n := by
  induction n with
  | zero => rfl
  | succ n ih =>
    rw [List.replicate_succ, byteLength_cons, ih]
    exact Nat.add_comm 1 n

theorem splitAt_letters (n : Nat) : splitAt (n + 1) (List.replicate n 'a' ++ ['é']) = none := by
  induction n with
  | zero => decide
  | succ n ih =>
    have hsize : 'a'.utf8Size = 1 := rfl
    simp [List.replicate_succ, splitAt, hsize, ih]

theorem halved_character_panics :
    streamRounds ⟨fun _ => none, fun _ => ""⟩ (some true) [halvedCharacter] = none ∧
      ¬ CapturesKept ⟨fun _ => none, fun _ => ""⟩ (some true) [halvedCharacter] := by
  have htext : (fromUtf8Lossy halvedCharacter).toList = List.replicate 524287 'a' ++ ['é'] := by
    rw [fromUtf8Lossy, String.toList_ofList, halvedCharacter, List.length_append, List.length_replicate]
    exact lossyLoop_letters 524287
  have hne : fromUtf8Lossy halvedCharacter ≠ "" := by
    intro h
    rw [h] at htext
    have hlast := congrArg List.getLast? htext
    cases hlast
  have hpanic : limitCapture (fromUtf8Lossy halvedCharacter) = none := by
    have hcut := splitAt_letters 524287
    rw [limitCapture, htext, byteLength_append, byteLength_letters]
    rw [if_pos (by decide), show internalUpstreamSseLogLimitBytes = 524287 + 1 from rfl, hcut, map_none]
  have hrun : streamRounds ⟨fun _ => none, fun _ => ""⟩ (some true) [halvedCharacter] = none := by
    have hround : streamRound ⟨fun _ => none, fun _ => ""⟩ (some ⟨true, none⟩) halvedCharacter = none := by
      simp only [streamRound, map_some, updateRecord, saveInternalUpstreamSse, hne]
      simp only [or_none, map_none, getD_none, if_true, hpanic]
      rfl
    simp only [streamRounds, map_some, List.foldlM_cons, hround]
    rfl
  refine ⟨hrun, fun h => ?_⟩
  obtain ⟨after, hafter, -⟩ := h [halvedCharacter] (List.prefix_refl _)
  rw [hrun] at hafter
  cases hafter

end MochiPort

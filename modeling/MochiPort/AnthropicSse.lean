import MochiPort.AnthropicFrames
import MochiPort.ByteLines

namespace MochiPort

open ByteLines

inductive BodyItem where
  | chunk (bytes : List UInt8)
  | error (message : String)

structure AnthropicSseToResponsesSse where
  state : AnthropicStreamState
  lineBuf : List UInt8
  eventName : Option String
  dataLines : List String

def newline : UInt8 := 10

def trimEndCr (line : String) : String := String.ofList (line.toList.reverse.dropWhile (· = '\r')).reverse

def lineText (bytes : List UInt8) : String := trimEndCr (Utf8.fromUtf8Lossy bytes)

namespace AnthropicSseToResponsesSse

def new (state : AnthropicStreamState) : AnthropicSseToResponsesSse := ⟨state, [], none, []⟩

def flushSseEvent (ext : AnthropicConverters) (a : AnthropicSseToResponsesSse) : AnthropicSseToResponsesSse :=
  if a.dataLines = [] then { a with eventName := none }
  else
    let data := "\n".intercalate a.dataLines
    let a := { a with dataLines := [], eventName := none }
    if RustText.trim data = "[DONE]" then { a with state := a.state.handleDone ext }
    else
      match ext.codec.parse data with
      | some value => { a with state := a.state.processEvent ext value }
      | none => a

def processSseLine (ext : AnthropicConverters) (a : AnthropicSseToResponsesSse) (line : String) :
    AnthropicSseToResponsesSse :=
  if line = "" then a.flushSseEvent ext
  else if (stripStart line ":").isSome then a
  else
    match stripStart line "event:" with
    | some event => { a with eventName := some ((stripStart event " ").getD event) }
    | none =>
      match stripStart line "data:" with
      | some data => { a with dataLines := a.dataLines ++ [(stripStart data " ").getD data] }
      | none => a

def readChunk (ext : AnthropicConverters) (a : AnthropicSseToResponsesSse) (chunk : List UInt8) :
    AnthropicSseToResponsesSse :=
  let cut := ByteLines.cut newline (a.lineBuf ++ chunk)
  cut.1.foldl (fun a line => a.processSseLine ext (lineText line)) { a with lineBuf := cut.2 }

def readItem (ext : AnthropicConverters) (a : AnthropicSseToResponsesSse) : BodyItem → AnthropicSseToResponsesSse
  | .chunk bytes => a.readChunk ext bytes
  | .error _ => a

def endOfBody (ext : AnthropicConverters) (a : AnthropicSseToResponsesSse) : AnthropicSseToResponsesSse :=
  let a := if a.lineBuf = [] then a else { a with lineBuf := [] }.processSseLine ext (lineText a.lineBuf)
  let a := a.flushSseEvent ext
  { a with state := a.state.handleDone ext }

def readBody (ext : AnthropicConverters) (state : AnthropicStreamState) (items : List BodyItem) :
    AnthropicSseToResponsesSse :=
  (items.foldl (readItem ext) (new state)).endOfBody ext

end AnthropicSseToResponsesSse

inductive SseInput where
  | done
  | event (value : JsonValue)

def SseInput.apply (ext : AnthropicConverters) (s : AnthropicStreamState) : SseInput → AnthropicStreamState
  | .done => s.handleDone ext
  | .event value => s.processEvent ext value

/-- The data lines that are not yet an event, and the events read so far. -/
structure SseReading where
  dataLines : List String
  inputs : List SseInput

namespace SseReading

def sseInput (codec : JsonCodec) (data : String) : Option SseInput :=
  if RustText.trim data = "[DONE]" then some .done else (codec.parse data).map .event

def flush (codec : JsonCodec) (r : SseReading) : SseReading :=
  if r.dataLines = [] then r else ⟨[], r.inputs ++ (sseInput codec ("\n".intercalate r.dataLines)).toList⟩

def readLine (codec : JsonCodec) (r : SseReading) (line : List UInt8) : SseReading :=
  let text := lineText line
  if text = "" then r.flush codec
  else if (stripStart text ":").isSome ∨ (stripStart text "event:").isSome then r
  else
    match stripStart text "data:" with
    | some data => { r with dataLines := r.dataLines ++ [(stripStart data " ").getD data] }
    | none => r

end SseReading

def bodyBytes (items : List BodyItem) : List UInt8 :=
  items.flatMap fun item => match item with
    | .chunk bytes => bytes
    | .error _ => []

def bodyLines (bytes : List UInt8) : List (List UInt8) :=
  let cut := ByteLines.cut newline bytes
  if cut.2 = [] then cut.1 else cut.1 ++ [cut.2]

/-- The events of a body, however it is cut into chunks. -/
def bodyInputs (codec : JsonCodec) (bytes : List UInt8) : List SseInput :=
  (((bodyLines bytes).foldl (SseReading.readLine codec) ⟨[], []⟩).flush codec).inputs

namespace AnthropicSseToResponsesSse

variable {a : AnthropicSseToResponsesSse} {r : SseReading} {ext : AnthropicConverters} {s : AnthropicStreamState}

structure Applied (ext : AnthropicConverters) (s : AnthropicStreamState) (r : SseReading)
    (a : AnthropicSseToResponsesSse) : Prop where
  dataLines : a.dataLines = r.dataLines
  state : a.state = r.inputs.foldl (SseInput.apply ext) s

theorem Applied.flushSseEvent (h : Applied ext s r a) : Applied ext s (r.flush ext.codec) (a.flushSseEvent ext) := by
  unfold AnthropicSseToResponsesSse.flushSseEvent SseReading.flush
  rw [h.dataLines]
  by_cases hnil : r.dataLines = []
  · rw [if_pos hnil, if_pos hnil]
    exact ⟨rfl, h.state⟩
  · rw [if_neg hnil, if_neg hnil]
    unfold SseReading.sseInput
    by_cases hdone : RustText.trim ("\n".intercalate r.dataLines) = "[DONE]"
    · rw [if_pos hdone, if_pos hdone]
      refine ⟨rfl, ?_⟩
      rw [List.foldl_append, ← h.state]
      rfl
    · rw [if_neg hdone, if_neg hdone]
      cases ext.codec.parse ("\n".intercalate r.dataLines) with
      | none | some value => exact ⟨rfl, by rw [List.foldl_append, ← h.state]; rfl⟩

theorem Applied.processSseLine (h : Applied ext s r a) (line : List UInt8) :
    Applied ext s (r.readLine ext.codec line) (a.processSseLine ext (lineText line)) := by
  unfold AnthropicSseToResponsesSse.processSseLine SseReading.readLine
  generalize lineText line = text
  by_cases hempty : text = ""
  · rw [if_pos hempty, if_pos hempty]
    exact h.flushSseEvent
  rw [if_neg hempty, if_neg hempty]
  by_cases hcomment : (stripStart text ":").isSome = true
  · rw [if_pos hcomment, if_pos (.inl hcomment)]
    exact h
  rw [if_neg hcomment]
  cases hevent : stripStart text "event:" with
  | some event =>
    rw [if_pos (.inr rfl)]
    exact ⟨h.dataLines, h.state⟩
  | none =>
    rw [if_neg (by simp [hcomment])]
    cases stripStart text "data:" with
    | none => exact h
    | some data => exact ⟨by rw [← h.dataLines], h.state⟩

section

variable (a) (ext)

theorem flushSseEvent_lineBuf : (a.flushSseEvent ext).lineBuf = a.lineBuf := by
  unfold AnthropicSseToResponsesSse.flushSseEvent
  by_cases hnil : a.dataLines = []
  · rw [if_pos hnil]
  · rw [if_neg hnil]
    by_cases hdone : RustText.trim ("\n".intercalate a.dataLines) = "[DONE]"
    · rw [if_pos hdone]
    · rw [if_neg hdone]
      cases ext.codec.parse ("\n".intercalate a.dataLines) with
      | none | some value => rfl

theorem processSseLine_lineBuf (line : String) : (a.processSseLine ext line).lineBuf = a.lineBuf := by
  unfold AnthropicSseToResponsesSse.processSseLine
  by_cases hempty : line = ""
  · rw [if_pos hempty]
    exact flushSseEvent_lineBuf a ext
  rw [if_neg hempty]
  by_cases hcomment : (stripStart line ":").isSome = true
  · rw [if_pos hcomment]
  rw [if_neg hcomment]
  cases stripStart line "event:" with
  | some event => rfl
  | none =>
    cases stripStart line "data:" with
    | some data | none => rfl

end

theorem Applied.lines (h : Applied ext s r a) (lines : List (List UInt8)) :
    Applied ext s (lines.foldl (SseReading.readLine ext.codec) r)
      (lines.foldl (fun a line => a.processSseLine ext (lineText line)) a) ∧
      (lines.foldl (fun a line => a.processSseLine ext (lineText line)) a).lineBuf = a.lineBuf := by
  induction lines generalizing r a with
  | nil => exact ⟨h, rfl⟩
  | cons line lines ih =>
    have hnext := ih (h.processSseLine line)
    rw [List.foldl_cons, List.foldl_cons, ← processSseLine_lineBuf a ext (lineText line)]
    exact hnext

/-- The adapter has read the ended lines of the bytes, and keeps the rest. -/
structure HasRead (ext : AnthropicConverters) (s : AnthropicStreamState) (bytes : List UInt8)
    (a : AnthropicSseToResponsesSse) : Prop where
  applied : Applied ext s ((cut newline bytes).1.foldl (SseReading.readLine ext.codec) ⟨[], []⟩) a
  lineBuf : a.lineBuf = (cut newline bytes).2

theorem HasRead.readChunk {bytes : List UInt8} (h : HasRead ext s bytes a) (chunk : List UInt8) :
    HasRead ext s (bytes ++ chunk) (a.readChunk ext chunk) := by
  have happend := cut_append newline bytes chunk
  have hkept : Applied ext s ((cut newline bytes).1.foldl (SseReading.readLine ext.codec) ⟨[], []⟩)
      { a with lineBuf := (cut newline (a.lineBuf ++ chunk)).2 } := ⟨h.applied.dataLines, h.applied.state⟩
  obtain ⟨happlied, hbuf⟩ := hkept.lines (cut newline (a.lineBuf ++ chunk)).1
  constructor
  · rw [happend, List.foldl_append, ← h.lineBuf]
    exact happlied
  · rw [happend, ← h.lineBuf]
    exact hbuf

theorem HasRead.items {bytes : List UInt8} (h : HasRead ext s bytes a) (items : List BodyItem) :
    HasRead ext s (bytes ++ bodyBytes items) (items.foldl (readItem ext) a) := by
  induction items generalizing bytes a with
  | nil => rwa [bodyBytes, List.flatMap_nil, List.append_nil]
  | cons item items ih =>
    cases item with
    | chunk chunk =>
      have hnext := ih (h.readChunk chunk)
      rwa [List.append_assoc] at hnext
    | error message => exact ih h

theorem readBody_state (ext : AnthropicConverters) (s : AnthropicStreamState) (items : List BodyItem) :
    (readBody ext s items).state =
      ((bodyInputs ext.codec (bodyBytes items)).foldl (SseInput.apply ext) s).handleDone ext := by
  have hstart : HasRead ext s [] (new s) := ⟨⟨rfl, rfl⟩, rfl⟩
  have hread := hstart.items items
  rw [List.nil_append] at hread
  generalize hbytes : bodyBytes items = bytes at hread
  unfold readBody
  generalize items.foldl (readItem ext) (new s) = a at hread
  have hlast : Applied ext s ((bodyLines bytes).foldl (SseReading.readLine ext.codec) ⟨[], []⟩)
      (if a.lineBuf = [] then a else { a with lineBuf := [] }.processSseLine ext (lineText a.lineBuf)) := by
    unfold bodyLines
    rw [hread.lineBuf]
    by_cases hrest : (cut newline bytes).2 = []
    · rw [if_pos hrest, if_pos hrest]
      exact hread.applied
    · rw [if_neg hrest, if_neg hrest, List.foldl_append, List.foldl_cons, List.foldl_nil]
      have hkept : Applied ext s
          ((cut newline bytes).1.foldl (SseReading.readLine ext.codec) ⟨[], []⟩)
          { a with lineBuf := [] } := ⟨hread.applied.dataLines, hread.applied.state⟩
      exact hkept.processSseLine (cut newline bytes).2
  have hflushed := hlast.flushSseEvent.state
  rw [endOfBody, hflushed, bodyInputs]

end AnthropicSseToResponsesSse

end MochiPort

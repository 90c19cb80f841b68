import MochiPort.AnthropicSse
import MochiPort.ChatStreamTerminal
import MochiPort.PolledStreams

namespace MochiPort

open ByteLines List ResponsesStreamState

/-- What the upstream answers to a poll until its body ends. -/
inductive UpstreamAnswer where
  | pending
  | item (item : BodyItem)

def upstreamItems (answers : List UpstreamAnswer) : List BodyItem :=
  answers.filterMap fun answer => match answer with
    | .pending => none
    | .item item => some item

def upstreamBytes (answers : List UpstreamAnswer) : List UInt8 := bodyBytes (upstreamItems answers)

def UpstreamAnswer.isError : UpstreamAnswer → Bool
  | .item (.error _) => true
  | _ => false

structure ChatSseToResponsesSse where
  inner : List UpstreamAnswer
  state : ResponsesStreamState
  lineBuf : List UInt8
  outputQueue : List StreamEvent

def sseDataValue (line : String) : Option String :=
  (stripStart line "data:").map fun data => (stripStart data " ").getD data

namespace ChatSseToResponsesSse

def new (inner : List UpstreamAnswer) (state : ResponsesStreamState) : ChatSseToResponsesSse := ⟨inner, state, [], []⟩

/-- The events of a step of the state come behind those that wait. -/
def advance (c : ChatSseToResponsesSse) (state : ResponsesStreamState) : ChatSseToResponsesSse :=
  { c with
    state := state
    outputQueue := c.outputQueue ++ state.emitted.drop c.state.emitted.length }

/-- Reads the lines that the buffer holds, with what follows the last of them; `[DONE]` leaves the others in the
buffer. -/
def readLines (ext : Externals) (c : ChatSseToResponsesSse) (rest : List UInt8) :
    List (List UInt8) → ChatSseToResponsesSse × Bool
  | [] => ({ c with lineBuf := rest }, false)
  | line :: lines =>
    match sseDataValue (lineText line) with
    | none => c.readLines ext rest lines
    | some data =>
      if RustText.trim data = "[DONE]" then
        ({ c.advance (c.state.handleDone ext.codec) with lineBuf := join newline lines rest }, true)
      else
        match ext.codec.parse data with
        | some chunk => (c.advance (c.state.processChunk ext chunk)).readLines ext rest lines
        | none => c.readLines ext rest lines

def popOrEnd (c : ChatSseToResponsesSse) : Polled (Except String StreamEvent) × ChatSseToResponsesSse :=
  match c.outputQueue with
  | event :: queue => (.ready (some (.ok event)), { c with outputQueue := queue })
  | [] => (.ready none, c)

def pollInner (ext : Externals) (c : ChatSseToResponsesSse) :
    List UpstreamAnswer → Polled (Except String StreamEvent) × ChatSseToResponsesSse
  | [] => popOrEnd { c.advance (c.state.handleStreamEnded ext.codec) with inner := [] }
  | .pending :: inner => (.pending, { c with inner := inner })
  | .item (.error message) :: inner => (.ready (some (.error message)), { c with inner := inner })
  | .item (.chunk bytes) :: inner =>
    let cut := ByteLines.cut newline (c.lineBuf ++ bytes)
    let read := { c with inner := inner }.readLines ext cut.2 cut.1
    match read.1.outputQueue, read.2 with
    | [], false => read.1.pollInner ext inner
    | _, _ => read.1.popOrEnd

def pollNext (ext : Externals) (c : ChatSseToResponsesSse) :
    Polled (Except String StreamEvent) × ChatSseToResponsesSse :=
  match c.outputQueue with
  | event :: queue => (.ready (some (.ok event)), { c with outputQueue := queue })
  | [] => c.pollInner ext c.inner

end ChatSseToResponsesSse

def isDataLine (line : List UInt8) : Bool := (sseDataValue (lineText line)).isSome

def isDoneLine (line : List UInt8) : Bool := (sseDataValue (lineText line)).any fun data => RustText.trim data = "[DONE]"

/-- No data line follows the first `[DONE]` line. -/
def doneIsLast (lines : List (List UInt8)) : Bool :=
  ((lines.dropWhile fun line => !isDoneLine line).drop 1).all fun line => !isDataLine line

theorem doneIsLast_append {before : List (List UInt8)} (h : ∀ line ∈ before, isDoneLine line = false)
    (lines : List (List UInt8)) : doneIsLast (before ++ lines) = doneIsLast lines := by
  have hdrop : (before ++ lines).dropWhile (fun line => !isDoneLine line) =
      lines.dropWhile fun line => !isDoneLine line := by
    rw [dropWhile_append_of_pos]
    intro line hline
    rw [h line hline]
    rfl
  rw [doneIsLast, hdrop, doneIsLast]

theorem doneIsLast_cons_done {line : List UInt8} (h : isDoneLine line = true) (lines : List (List UInt8)) :
    doneIsLast (line :: lines) = lines.all fun line => !isDataLine line := by
  rw [doneIsLast, dropWhile_cons_of_neg (by rw [h]; exact Bool.false_ne_true)]
  rfl

def ResponsesStreamState.readLine (ext : Externals) (s : ResponsesStreamState) (line : List UInt8) :
    ResponsesStreamState :=
  match sseDataValue (lineText line) with
  | none => s
  | some data =>
    if RustText.trim data = "[DONE]" then s.handleDone ext.codec
    else ((ext.codec.parse data).map (s.processChunk ext)).getD s

def ResponsesStreamState.readBody (ext : Externals) (s : ResponsesStreamState) (lines : List (List UInt8)) :
    ResponsesStreamState :=
  (lines.foldl (readLine ext) s).handleStreamEnded ext.codec

namespace ResponsesStreamState

variable {s : ResponsesStreamState} {ext : Externals}

theorem readLine_grows (ext : Externals) (s : ResponsesStreamState) (line : List UInt8) :
    s.emitted <+: (s.readLine ext line).emitted := by
  unfold readLine
  cases sseDataValue (lineText line) with
  | none => exact prefix_rfl
  | some data =>
    dsimp only
    split
    next => exact handleDone_grows ext.codec s
    next =>
      cases ext.codec.parse data with
      | none => exact prefix_rfl
      | some chunk => exact processChunk_grows ext s chunk

theorem foldl_readLine_grows (ext : Externals) (lines : List (List UInt8)) (s : ResponsesStreamState) :
    s.emitted <+: (lines.foldl (readLine ext) s).emitted := by
  induction lines generalizing s with
  | nil => exact prefix_rfl
  | cons line lines ih =>
    have hrest := ih (s.readLine ext line)
    rw [foldl_cons]
    exact (readLine_grows ext s line).trans hrest

theorem readLine_of_not_data {line : List UInt8} (h : isDataLine line = false) : s.readLine ext line = s := by
  rw [isDataLine] at h
  unfold readLine
  cases hvalue : sseDataValue (lineText line) with
  | none => rfl
  | some data =>
    rw [hvalue] at h
    cases h

theorem foldl_readLine_of_not_data {lines : List (List UInt8)} (h : lines.all (fun line => !isDataLine line) = true) :
    lines.foldl (readLine ext) s = s := by
  induction lines with
  | nil => rfl
  | cons line lines ih =>
    rw [all_cons, Bool.and_eq_true, Bool.not_eq_true'] at h
    rw [foldl_cons, readLine_of_not_data h.1]
    exact ih h.2

theorem readLine_of_done {line : List UInt8} (h : isDoneLine line = true) :
    s.readLine ext line = s.handleDone ext.codec := by
  obtain ⟨data, hdata, hdone⟩ := (Option.any_eq_true _ _).mp h
  rw [readLine, hdata]
  exact if_pos (of_decide_eq_true hdone)

section

variable (codec : JsonCodec)

theorem handleStreamEnded_of_completed (hfinished : s.finished = true)
    (hcompleted : s.responseCompleted = true) : s.handleStreamEnded codec = s := by
  have hdone : s.handleDone codec = s := by
    rw [handleDone, hfinished]
    split
    next => rfl
    next => exact if_neg (by simp [hcompleted])
  rw [handleStreamEnded, hcompleted]
  split
  next => rfl
  next => simpa using hdone

/-- Once `[DONE]` was read, the end of the body brings nothing new. -/
theorem handleDone_settled (s : ResponsesStreamState) :
    (s.handleDone codec).handleStreamEnded codec = s.handleDone codec := by
  by_cases hstarted : (!s.hasStarted) = true
  · have hdone : s.handleDone codec = s := if_pos hstarted
    rw [hdone]
    exact if_pos hstarted
  have hfinished : (if !s.finished then s.handleFinish codec else s).finished = true := by
    split
    next => exact (handleFinish_finished codec s).2.1
    next h => simpa using h
  have hdone : s.handleDone codec =
      if !(if !s.finished then s.handleFinish codec else s).responseCompleted then
        (if !s.finished then s.handleFinish codec else s).emitResponseCompleted
      else if !s.finished then s.handleFinish codec else s := if_neg hstarted
  rw [hdone]
  generalize (if !s.finished then s.handleFinish codec else s) = t at hfinished
  split
  next => exact handleStreamEnded_of_completed codec hfinished rfl
  next hcompleted => exact handleStreamEnded_of_completed codec hfinished (by simpa using hcompleted)

theorem handleStreamEnded_settled (s : ResponsesStreamState) :
    (s.handleStreamEnded codec).handleStreamEnded codec = s.handleStreamEnded codec := by
  by_cases hstarted : (!s.hasStarted) = true
  · have hended : s.handleStreamEnded codec = s := if_pos hstarted
    rw [hended, hended]
  by_cases hcut : (s.finishReason.isNone && !s.responseCompleted) = true
  · have hended : s.handleStreamEnded codec = (s.finishOpenItems codec).emitResponseFailed
        "upstream stream ended before the response completed" := (if_neg hstarted).trans (if_pos hcut)
    rw [hended]
    exact handleStreamEnded_of_completed codec rfl rfl
  · have hended : s.handleStreamEnded codec = s.handleDone codec := (if_neg hstarted).trans (if_neg hcut)
    rw [hended]
    exact handleDone_settled codec s

theorem handleStreamEnded_grows (s : ResponsesStreamState) :
    s.emitted <+: (s.handleStreamEnded codec).emitted := handleEnd_grows codec s .ended

end

end ResponsesStreamState

theorem drop_append_drop {α : Type} {a b c : List α} (hab : a <+: b) (hbc : b <+: c) :
    b.drop a.length ++ c.drop b.length = c.drop a.length := by
  obtain ⟨x, rfl⟩ := hab
  obtain ⟨y, rfl⟩ := hbc
  rw [drop_left, drop_left, append_assoc, drop_left]

namespace ChatSseToResponsesSse

variable {ext : Externals} {c d e : ChatSseToResponsesSse}

/-- The adapter has moved on, and its new events wait in the queue. -/
structure Reads (c d : ChatSseToResponsesSse) : Prop where
  grows : c.state.emitted <+: d.state.emitted
  queue : d.outputQueue = c.outputQueue ++ d.state.emitted.drop c.state.emitted.length
  inner : d.inner = c.inner

theorem Reads.trans (h : Reads c d) (h' : Reads d e) : Reads c e where
  grows := h.grows.trans h'.grows
  queue := by rw [h'.queue, h.queue, append_assoc, drop_append_drop h.grows h'.grows]
  inner := h'.inner.trans h.inner

theorem reads_of_eq (hstate : d.state = c.state) (hqueue : d.outputQueue = c.outputQueue) (hinner : d.inner = c.inner) :
    Reads c d := by
  refine ⟨by rw [hstate], ?_, hinner⟩
  rw [hqueue, hstate, drop_length, append_nil]

theorem reads_advance {state : ResponsesStreamState} (h : c.state.emitted <+: state.emitted) :
    Reads c (c.advance state) := ⟨h, rfl, rfl⟩

/-- Lines that are read up to `[DONE]`, or all of them where none is. -/
inductive ReadsLines (ext : Externals) (c : ChatSseToResponsesSse) (rest : List UInt8) (lines : List (List UInt8)) :
    ChatSseToResponsesSse × Bool → Prop
  | all {d : ChatSseToResponsesSse} (reads : Reads c d) (undone : ∀ line ∈ lines, isDoneLine line = false)
    (state : d.state = lines.foldl (readLine ext) c.state) (lineBuf : d.lineBuf = rest) :
    ReadsLines ext c rest lines (d, false)
  | done {d : ChatSseToResponsesSse} {before after : List (List UInt8)} {line : List UInt8} (reads : Reads c d)
    (split : lines = before ++ line :: after) (undone : ∀ line ∈ before, isDoneLine line = false)
    (isDone : isDoneLine line = true)
    (state : d.state = (before.foldl (readLine ext) c.state).handleDone ext.codec)
    (lineBuf : d.lineBuf = join newline after rest) : ReadsLines ext c rest lines (d, true)

variable {read : ChatSseToResponsesSse × Bool}

theorem ReadsLines.reads {rest : List UInt8} {lines : List (List UInt8)} (h : ReadsLines ext c rest lines read) :
    Reads c read.1 := by
  cases h with
  | all reads _ _ _ | done reads _ _ _ _ _ => exact reads

theorem ReadsLines.cons {rest line : List UInt8} {lines : List (List UInt8)} (h : ReadsLines ext d rest lines read)
    (hreads : Reads c d) (hundone : isDoneLine line = false) (hstate : d.state = c.state.readLine ext line) :
    ReadsLines ext c rest (line :: lines) read := by
  cases h with
  | all reads undone state lineBuf =>
    refine .all (hreads.trans reads) ?_ ?_ lineBuf
    · intro other hother
      rcases mem_cons.mp hother with rfl | hother
      · exact hundone
      · exact undone other hother
    · rw [state, hstate, foldl_cons]
  | @done _ before after doneLine reads split undone isDone state lineBuf =>
    refine @ReadsLines.done _ _ _ _ _ (line :: before) _ _ (hreads.trans reads) ?_ ?_ isDone ?_ lineBuf
    · rw [split]
      rfl
    · intro other hother
      rcases mem_cons.mp hother with rfl | hother
      · exact hundone
      · exact undone other hother
    · rw [state, hstate, foldl_cons]

theorem readLines_reads (ext : Externals) (rest : List UInt8) (lines : List (List UInt8)) (c : ChatSseToResponsesSse) :
    ReadsLines ext c rest lines (c.readLines ext rest lines) := by
  induction lines generalizing c with
  | nil =>
    exact .all (reads_of_eq rfl rfl rfl) (fun line hline => absurd hline not_mem_nil) rfl rfl
  | cons line lines ih =>
    have hread : ∀ data, sseDataValue (lineText line) = some data → RustText.trim data ≠ "[DONE]" →
        isDoneLine line = false ∧
          c.state.readLine ext line = ((ext.codec.parse data).map (c.state.processChunk ext)).getD c.state := by
      intro data hdata hne
      constructor
      · rw [isDoneLine, hdata]
        exact decide_eq_false hne
      · rw [readLine, hdata]
        exact if_neg hne
    unfold readLines
    cases hdata : sseDataValue (lineText line) with
    | none =>
      refine (ih c).cons (reads_of_eq rfl rfl rfl) ?_ ?_
      · rw [isDoneLine, hdata]
        rfl
      · rw [readLine, hdata]
    | some data =>
      dsimp only
      by_cases hdone : RustText.trim data = "[DONE]"
      · rw [if_pos hdone]
        refine @ReadsLines.done _ _ _ _ _ [] lines line ?_ rfl ?_ ?_ rfl rfl
        · exact (reads_advance (handleDone_grows ext.codec c.state)).trans
            (reads_of_eq rfl rfl rfl)
        · exact fun other hother => absurd hother not_mem_nil
        · rw [isDoneLine, hdata]
          exact decide_eq_true hdone
      · rw [if_neg hdone]
        obtain ⟨hundone, hstate⟩ := hread data hdata hdone
        cases hparse : ext.codec.parse data with
        | none =>
          rw [hparse] at hstate
          exact (ih c).cons (reads_of_eq rfl rfl rfl) hundone hstate.symm
        | some chunk =>
          rw [hparse] at hstate
          have hreads := reads_advance (processChunk_grows ext c.state chunk)
          exact (ih (c.advance (c.state.processChunk ext chunk))).cons hreads hundone hstate.symm

/-- The lines that are ended in the buffer and in what is still to come. -/
def pendingLines (c : ChatSseToResponsesSse) : List (List UInt8) :=
  (cut newline (c.lineBuf ++ upstreamBytes c.inner)).1

/-- What the adapter has still to yield: while it reads, the events that wait and those of the rest of the body;
once that is over, the events that wait. -/
inductive Owes (ext : Externals) (c : ChatSseToResponsesSse) : List (Except String StreamEvent) → Prop
  | reading (sound : ∀ answer ∈ c.inner, answer.isError = false) (buffered : (cut newline c.lineBuf).1 = [])
    (last : doneIsLast c.pendingLines = true) :
    Owes ext c
      ((c.outputQueue ++ (c.state.readBody ext c.pendingLines).emitted.drop c.state.emitted.length).map .ok)
  | finished (sound : ∀ answer ∈ c.inner, answer.isError = false)
    (settled : c.state.handleStreamEnded ext.codec = c.state)
    (quiet : (c.pendingLines.all fun line => !isDataLine line) = true) : Owes ext c (c.outputQueue.map .ok)

variable {items : List (Except String StreamEvent)} {inner : List UpstreamAnswer}

section

variable (h : Owes ext c items)
include h

theorem Owes.sound : ∀ answer ∈ c.inner, answer.isError = false := by
  cases h with
  | reading sound _ _ | finished sound _ _ => exact sound

theorem Owes.pop {event : StreamEvent} {queue : List StreamEvent} (hqueue : c.outputQueue = event :: queue) :
    Polled.Keeps (Owes ext) (fun c => c.inner.length) c items
      (.ready (some (.ok event)), { c with outputQueue := queue }) := by
  cases h with
  | reading sound buffered last =>
    rw [hqueue]
    exact .item rfl (.reading (c := { c with outputQueue := queue }) sound buffered last) (Nat.le_refl _)
  | finished sound settled quiet =>
    rw [hqueue]
    exact .item rfl (.finished (c := { c with outputQueue := queue }) sound settled quiet) (Nat.le_refl _)

theorem Owes.popOrEnd (hnil : c.outputQueue = [] → items = []) :
    Polled.Keeps (Owes ext) (fun c => c.inner.length) c items c.popOrEnd := by
  unfold ChatSseToResponsesSse.popOrEnd
  cases hqueue : c.outputQueue with
  | nil => exact .ended (hnil hqueue)
  | cons event queue => exact h.pop hqueue

omit h in
theorem readBody_grows (ext : Externals) (s : ResponsesStreamState) (lines : List (List UInt8)) :
    s.emitted <+: (s.readBody ext lines).emitted :=
  (foldl_readLine_grows ext lines s).trans
    (handleStreamEnded_grows ext.codec _)

omit h in
theorem pendingLines_chunk {bytes : List UInt8} (hinner : c.inner = .item (.chunk bytes) :: inner) :
    c.pendingLines = (cut newline (c.lineBuf ++ bytes)).1 ++
      (cut newline ((cut newline (c.lineBuf ++ bytes)).2 ++ upstreamBytes inner)).1 := by
  have hbytes : upstreamBytes c.inner = bytes ++ upstreamBytes inner := by
    rw [hinner]
    rfl
  rw [pendingLines, hbytes, ← append_assoc, cut_append]

theorem Owes.readChunk {bytes : List UInt8} (hinner : c.inner = .item (.chunk bytes) :: inner)
    (hqueue : c.outputQueue = [])
    (hread : ReadsLines ext { c with inner := inner } (cut newline (c.lineBuf ++ bytes)).2
      (cut newline (c.lineBuf ++ bytes)).1 read) :
    Owes ext read.1 items ∧ (read.2 = true → read.1.outputQueue = [] → items = []) := by
  have hlines := pendingLines_chunk hinner
  have hsound : ∀ answer ∈ inner, answer.isError = false := by
    intro answer hanswer
    exact h.sound answer (hinner ▸ mem_cons_of_mem _ hanswer)
  have hfree := fun line => @not_mem_of_mem_cut _ _ newline (c.lineBuf ++ bytes) line
  generalize (cut newline (c.lineBuf ++ bytes)).1 = lines at hread hlines hfree
  have hbuffered := cut_cut newline (c.lineBuf ++ bytes)
  cases hread with
  | @all d reads undone state lineBuf =>
    have hinnerd : d.inner = inner := reads.inner
    have hpending : c.pendingLines = lines ++ d.pendingLines := by
      rw [hlines, pendingLines, lineBuf, hinnerd]
    have hqueued := reads.queue
    rw [hqueue, nil_append] at hqueued
    refine ⟨?_, fun hfalse => by cases hfalse⟩
    cases h with
    | reading sound buffered last =>
      have hbody : c.state.readBody ext c.pendingLines = d.state.readBody ext d.pendingLines := by
        rw [hpending, readBody, foldl_append, state, readBody]
      have hitems : c.outputQueue ++ (c.state.readBody ext c.pendingLines).emitted.drop c.state.emitted.length =
          d.outputQueue ++ (d.state.readBody ext d.pendingLines).emitted.drop d.state.emitted.length := by
        rw [hqueue, nil_append, hbody, hqueued, drop_append_drop reads.grows (readBody_grows ext _ _)]
      rw [hitems]
      rw [hpending, doneIsLast_append undone] at last
      exact .reading (hinnerd ▸ hsound) (lineBuf ▸ hbuffered) last
    | finished sound settled quiet =>
      rw [hpending, all_append, Bool.and_eq_true] at quiet
      have hsame : d.state = c.state := state.trans (foldl_readLine_of_not_data quiet.1)
      have hempty : d.outputQueue = c.outputQueue := by
        rw [hqueued, hsame, drop_length, hqueue]
      rw [← hempty]
      exact .finished (hinnerd ▸ hsound) (hsame ▸ settled) quiet.2
  | @done d before after line reads split undone isDone state lineBuf =>
    have hinnerd : d.inner = inner := reads.inner
    have hpending : c.pendingLines = before ++ line :: d.pendingLines := by
      have hafter : ∀ other ∈ after, newline ∉ other := by
        intro other hother
        exact hfree other (split ▸ mem_append_right _ (mem_cons_of_mem line hother))
      rw [hlines, pendingLines, lineBuf, hinnerd, cut_join_append hafter, split, append_assoc]
      rfl
    have hqueued := reads.queue
    rw [hqueue, nil_append] at hqueued
    cases h with
    | reading sound buffered last =>
      rw [hpending, doneIsLast_append undone, doneIsLast_cons_done isDone] at last
      have hsettled : d.state.handleStreamEnded ext.codec = d.state := by
        rw [state]
        exact handleDone_settled ext.codec _
      have hbody : c.state.readBody ext c.pendingLines = d.state := by
        rw [hpending, readBody, foldl_append, foldl_cons,
          readLine_of_done isDone, ← state,
          foldl_readLine_of_not_data last, hsettled]
      have hitems : c.outputQueue ++ (c.state.readBody ext c.pendingLines).emitted.drop c.state.emitted.length =
          d.outputQueue := by
        rw [hqueue, nil_append, hbody, hqueued]
      rw [hitems]
      exact ⟨.finished (hinnerd ▸ hsound) hsettled last, fun _ hnil => by rw [hnil]; rfl⟩
    | finished sound settled quiet =>
      have hquiet := all_eq_true.mp quiet line (by rw [hpending]; simp)
      have hdata : isDataLine line = true := by
        obtain ⟨data, hdata, -⟩ := (Option.any_eq_true _ _).mp isDone
        rw [isDataLine, hdata]
        rfl
      rw [hdata] at hquiet
      cases hquiet

theorem pollInner_keeps (hqueue : c.outputQueue = []) (hinner : c.inner = inner) :
    Polled.Keeps (Owes ext) (fun c => c.inner.length) c items (c.pollInner ext inner) := by
  induction inner generalizing c with
  | nil =>
    have hempty : upstreamBytes c.inner = [] := by
      rw [hinner]
      rfl
    have hsettled := handleStreamEnded_settled ext.codec c.state
    unfold pollInner
    cases h with
    | reading sound buffered last =>
      have hnone : c.pendingLines = [] := by rw [pendingLines, hempty, append_nil, buffered]
      have howes : Owes ext { c.advance (c.state.handleStreamEnded ext.codec) with inner := [] }
          ((c.outputQueue ++ (c.state.readBody ext c.pendingLines).emitted.drop c.state.emitted.length).map .ok) := by
        rw [hnone]
        refine .finished (c := { c.advance (c.state.handleStreamEnded ext.codec) with inner := [] })
          (fun answer hanswer => absurd hanswer not_mem_nil) hsettled ?_
        have hlines : pendingLines { c.advance (c.state.handleStreamEnded ext.codec) with inner := [] } = [] := by
          rw [← hnone, pendingLines, pendingLines, hempty]
          rfl
        rw [hlines]
        rfl
      refine (howes.popOrEnd fun hnil => ?_).mono (Nat.zero_le _)
      rw [hnone]
      exact congrArg (List.map Except.ok) hnil
    | finished sound settled quiet =>
      have hnil : (c.advance (c.state.handleStreamEnded ext.codec)).outputQueue = [] := by
        rw [settled, advance, drop_length, append_nil, hqueue]
      have hpop : popOrEnd { c.advance (c.state.handleStreamEnded ext.codec) with inner := [] } =
          (.ready none, { c.advance (c.state.handleStreamEnded ext.codec) with inner := [] }) := by
        unfold popOrEnd
        rw [hnil]
      rw [hpop, hqueue]
      exact .ended rfl
  | cons answer inner ih =>
    have hlength : c.inner.length = inner.length + 1 := by rw [hinner]; rfl
    cases answer with
    | pending =>
      have hbytes : upstreamBytes c.inner = upstreamBytes inner := by
        rw [hinner]
        rfl
      have hlines : pendingLines { c with inner := inner } = c.pendingLines := by
        rw [pendingLines, pendingLines, hbytes]
      have hsound : ∀ answer ∈ inner, answer.isError = false := by
        intro answer hanswer
        exact h.sound answer (hinner ▸ mem_cons_of_mem _ hanswer)
      refine .pending ?_ (show inner.length < c.inner.length by omega)
      cases h with
      | reading sound buffered last =>
        rw [← hlines] at last ⊢
        exact .reading (c := { c with inner := inner }) hsound buffered last
      | finished sound settled quiet =>
        rw [← hlines] at quiet
        exact .finished (c := { c with inner := inner }) hsound settled quiet
    | item item =>
      cases item with
      | error message =>
        have herror := h.sound (.item (.error message)) (hinner ▸ mem_cons_self)
        cases herror
      | chunk bytes =>
        have hread := readLines_reads ext (cut newline (c.lineBuf ++ bytes)).2
          (cut newline (c.lineBuf ++ bytes)).1 { c with inner := inner }
        obtain ⟨howes, hended⟩ := h.readChunk hinner hqueue hread
        have hinnerd : (readLines ext { c with inner := inner } (cut newline (c.lineBuf ++ bytes)).2
            (cut newline (c.lineBuf ++ bytes)).1).1.inner = inner := hread.reads.inner
        unfold pollInner
        dsimp only
        generalize readLines ext { c with inner := inner } (cut newline (c.lineBuf ++ bytes)).2
          (cut newline (c.lineBuf ++ bytes)).1 = read at howes hended hinnerd
        obtain ⟨d, isDone⟩ := read
        have hle : d.inner.length ≤ c.inner.length := by rw [hinnerd, hlength]; exact Nat.le_succ _
        split
        next hnil hfalse => exact (ih howes hnil hinnerd).mono hle
        next hnot =>
          refine (howes.popOrEnd fun hnil => ?_).mono hle
          cases isDone with
          | true => exact hended rfl hnil
          | false => exact absurd rfl (hnot hnil)

end

theorem pollNext_keeps (c : ChatSseToResponsesSse) (items : List (Except String StreamEvent)) (h : Owes ext c items) :
    Polled.Keeps (Owes ext) (fun c => c.inner.length) c items (c.pollNext ext) := by
  unfold pollNext
  cases hqueue : c.outputQueue with
  | nil => exact pollInner_keeps h hqueue rfl
  | cons event queue => exact h.pop hqueue

theorem yields_readBody (ext : Externals) (s : ResponsesStreamState) {answers : List UpstreamAnswer}
    (hsound : ∀ answer ∈ answers, answer.isError = false)
    (hlast : doneIsLast (cut newline (upstreamBytes answers)).1 = true) :
    Polled.Yields (pollNext ext) (new answers s)
      (((s.readBody ext (cut newline (upstreamBytes answers)).1).emitted.drop s.emitted.length).map .ok) := by
  refine Polled.yields_of_keeps (Owes ext) (fun c => c.inner.length) pollNext_keeps ?_
  exact .reading (c := new answers s) hsound rfl hlast

end ChatSseToResponsesSse

end MochiPort

import MochiPort.ChatSse
import MochiPort.LogRedaction
import Mathlib.Data.List.ReduceOption

namespace MochiPort

open List

/-- The hit rate is kept as the two numbers that are divided. -/
structure LogUsage where
  inputTokens : Option Int := none
  outputTokens : Option Int := none
  totalTokens : Option Int := none
  readCacheTokens : Option Int := none
  readCacheHitRate : Option (Int × Int) := none
  writeCacheTokens : Option Int := none
  writeCache5mTokens : Option Int := none
  writeCache1hTokens : Option Int := none
  deriving DecidableEq

/-- Cache tokens, from the details of the input or from the usage itself. -/
def cacheTokens (detailKeys keys : List String) (usage : JsonValue) : Option Int :=
  ((usage.get "input_tokens_details").bind (firstI64 · detailKeys)).or
    (((usage.get "prompt_tokens_details").bind (firstI64 · detailKeys)).or (firstI64 usage keys))

/-- The split that the request log makes of the cache tokens. -/
def cacheCreationSplit (usage : JsonValue) : Option Int × Option Int :=
  let tokens (value : JsonValue) (key other : String) : Option Int :=
    ((value.get key).or (value.get other)).bind JsonValue.asI64
  let split (key : String) : Option (Option Int × Option Int) :=
    ((usage.get key).map fun value =>
      (tokens value "ephemeral_5m_input_tokens" "cache_creation_5m_tokens",
        tokens value "ephemeral_1h_input_tokens" "cache_creation_1h_tokens")).filter fun split =>
          split.1.isSome || split.2.isSome
  ((split "cache_creation").or (split "input_tokens_details")).getD (none, none)

def usageFromResponseValue (response : JsonValue) : LogUsage :=
  match response.get "usage" with
  | none => {}
  | some usage =>
    let inputTokens := firstI64 usage ["input_tokens", "prompt_tokens"]
    let outputTokens := firstI64 usage ["output_tokens", "completion_tokens"]
    let readCacheTokens := cacheTokens ["cached_tokens", "cache_read_input_tokens"]
      ["cache_read_input_tokens", "cached_tokens", "prompt_cache_hit_tokens"] usage
    let split := cacheCreationSplit usage
    { inputTokens, outputTokens, readCacheTokens
      totalTokens := (firstI64 usage ["total_tokens"]).or
        (inputTokens.bind fun input => outputTokens.map fun output => i64Add input output)
      readCacheHitRate := readCacheTokens.bind fun cached =>
        inputTokens.bind fun input => if input > 0 then some (cached, input) else none
      writeCacheTokens := cacheTokens ["cache_creation_tokens", "cache_write_input_tokens", "write_cached_tokens"]
        ["cache_creation_input_tokens", "cache_write_input_tokens", "write_cached_tokens"] usage
      writeCache5mTokens := split.1
      writeCache1hTokens := split.2 }

def statusFromResponseValue (response : JsonValue) : String :=
  ((response.get "status").bind JsonValue.asStr).getD "completed"

def errorFromResponseValue (response : JsonValue) : Option String :=
  (response.get "error").bind fun error => ((error.get "message").getD error).asStr

/-- The columns that the stream writes; the times are left out. -/
structure RequestLogUpdate where
  status : Option String := none
  usage : Option LogUsage := none
  errorMessage : Option String := none
  responseJson : Option String := none
  deriving DecidableEq

structure RequestLogRow where
  status : String
  usage : LogUsage
  errorMessage : Option String
  responseJson : Option String

def runningRow : RequestLogRow := ⟨"running", {}, none, none⟩

def RequestLogRow.update (codec : JsonCodec) (row : RequestLogRow) (update : RequestLogUpdate) : RequestLogRow where
  status := update.status.getD row.status
  usage := update.usage.getD row.usage
  errorMessage := (update.errorMessage.or row.errorMessage).map redactUnstructuredText
  responseJson := (update.responseJson.or row.responseJson).map (redactEmbeddedJson codec)

def isFirstTokenEvent (eventType : String) : Bool :=
  "response.".toList.isPrefixOf eventType.toList && ".delta".toList.isSuffixOf eventType.toList

def eventTypeOf (event : JsonValue) : String := ((event.get "type").bind JsonValue.asStr).getD ""

def isTerminalEvent (event : JsonValue) : Bool :=
  ["response.completed", "response.incomplete", "response.failed"].contains (eventTypeOf event)

def responseOf (event : JsonValue) : JsonValue := (event.get "response").getD event

def lineEvent (codec : JsonCodec) (line : List Char) : Option JsonValue :=
  (sseDataValue (trimEndCr (String.ofList line))).bind fun data =>
    if RustText.trim data = "[DONE]" then none else codec.parse data

def terminalUpdate (codec : JsonCodec) (detailsEnabled : Bool) (event : JsonValue) : RequestLogUpdate where
  status := some (statusFromResponseValue (responseOf event))
  usage := some (usageFromResponseValue (responseOf event))
  errorMessage := errorFromResponseValue (responseOf event)
  responseJson := if detailsEnabled then some (codec.print (responseOf event)) else none

/-- What the stream notes of the events, and the updates it has written. -/
structure StreamLog where
  completed : Bool
  ttftRecorded : Bool
  updates : List RequestLogUpdate

/-- The queue of items is left out; it is never filled. -/
structure ResponsesSseLogStream where
  lineBuf : List Char
  log : StreamLog

def ResponsesSseLogStream.new : ResponsesSseLogStream := ⟨[], false, false, []⟩

namespace StreamLog

/-- The update writes the time to the first token and nothing else. -/
def recordTtft (log : StreamLog) (event : JsonValue) : StreamLog :=
  if isFirstTokenEvent (eventTypeOf event) && !log.ttftRecorded then
    { log with ttftRecorded := true, updates := log.updates ++ [{}] }
  else log

def observeEvent (codec : JsonCodec) (detailsEnabled : Bool) (log : StreamLog) (event : JsonValue) : StreamLog :=
  let log := log.recordTtft event
  if isTerminalEvent event then
    { log with completed := true, updates := log.updates ++ [terminalUpdate codec detailsEnabled event] }
  else log

def observeLine (codec : JsonCodec) (detailsEnabled : Bool) (log : StreamLog) (line : List Char) : StreamLog :=
  match lineEvent codec line with
  | some event => log.observeEvent codec detailsEnabled event
  | none => log

def finish (status message : String) (log : StreamLog) : StreamLog :=
  if log.completed then log
  else { log with
    completed := true
    updates := log.updates ++ [{ status := some status, errorMessage := some message }] }

def drop (log : StreamLog) : StreamLog := log.finish "cancelled" "client disconnected before stream completed"

end StreamLog

namespace ResponsesSseLogStream

section

variable (codec : JsonCodec) (detailsEnabled : Bool)

def observeText (s : ResponsesSseLogStream) (text : List Char) : ResponsesSseLogStream :=
  let cut := ByteLines.cut '\n' (s.lineBuf ++ text)
  ⟨cut.2, cut.1.foldl (StreamLog.observeLine codec detailsEnabled) s.log⟩

def observeSseChunk (s : ResponsesSseLogStream) (chunk : List UInt8) : ResponsesSseLogStream :=
  s.observeText codec detailsEnabled (Utf8.fromUtf8Lossy chunk).toList

def pollNext (s : ResponsesSseLogStream) (inner : Polled BodyItem) : Polled BodyItem × ResponsesSseLogStream :=
  match inner with
  | .pending => (.pending, s)
  | .ready (some (.chunk bytes)) => (.ready (some (.chunk bytes)), s.observeSseChunk codec detailsEnabled bytes)
  | .ready (some (.error message)) => (.ready (some (.error message)), ⟨s.lineBuf, s.log.finish "failed" message⟩)
  | .ready none => (.ready none, ⟨s.lineBuf, s.log.finish "failed" "stream closed before response.completed"⟩)

def polls (s : ResponsesSseLogStream) : List (Polled BodyItem) → List (Polled BodyItem) × ResponsesSseLogStream
  | [] => ([], s)
  | inner :: rest =>
    let polled := s.pollNext codec detailsEnabled inner
    let others := polls polled.2 rest
    (polled.1 :: others.1, others.2)

end

end ResponsesSseLogStream

inductive StreamEnding where
  | dropped
  | failed (message : String)
  | ended

def StreamEnding.answers : StreamEnding → List (Polled BodyItem)
  | .dropped => []
  | .failed message => [.ready (some (.error message))]
  | .ended => [.ready none]

def StreamEnding.status : StreamEnding → String
  | .dropped => "cancelled"
  | _ => "failed"

/-- The inner stream is not ready where there is no chunk. -/
def chunkAnswer (chunk : Option (List UInt8)) : Polled BodyItem :=
  chunk.elim .pending fun bytes => .ready (some (.chunk bytes))

def innerAnswers (chunks : List (Option (List UInt8))) (ending : StreamEnding) : List (Polled BodyItem) :=
  chunks.map chunkAnswer ++ ending.answers

section

variable (codec : JsonCodec) (detailsEnabled : Bool)

/-- The answers of a stream and the updates it has written when it is gone. -/
def loggedStream (chunks : List (Option (List UInt8))) (ending : StreamEnding) :
    List (Polled BodyItem) × List RequestLogUpdate :=
  let polled := ResponsesSseLogStream.new.polls codec detailsEnabled (innerAnswers chunks ending)
  (polled.1, polled.2.log.drop.updates)

def streamBytes (chunks : List (Option (List UInt8))) : List UInt8 := chunks.reduceOption.flatten

def streamEvents (chunks : List (Option (List UInt8))) : List JsonValue :=
  (ByteLines.cut '\n' (Utf8.fromUtf8Lossy (streamBytes chunks)).toList).1.filterMap (lineEvent codec)

def RequestLogRow.Records (row : RequestLogRow) (event : JsonValue) : Prop :=
  row.status = statusFromResponseValue (responseOf event) ∧
    row.usage = usageFromResponseValue (responseOf event) ∧
    row.errorMessage = (errorFromResponseValue (responseOf event)).map redactUnstructuredText ∧
    row.responseJson =
      if detailsEnabled then some (redactEmbeddedJson codec (codec.print (responseOf event))) else none

/-- The chunks are passed on, the updates are those of the bytes in one chunk, and the row ends with the outcome. -/
structure OutcomeLogged (chunks : List (Option (List UInt8))) (ending : StreamEnding) : Prop where
  passed : (loggedStream codec detailsEnabled chunks ending).1 = innerAnswers chunks ending
  uncut : (loggedStream codec detailsEnabled chunks ending).2 =
    (loggedStream codec detailsEnabled [some (streamBytes chunks)] ending).2
  recorded :
    let row := (loggedStream codec detailsEnabled chunks ending).2.foldl (RequestLogRow.update codec) runningRow
    match (streamEvents codec chunks).find? isTerminalEvent with
    | some event => row.Records codec detailsEnabled event
    | none => row.status = ending.status

end

/-- Decoded one by one, the chunks are the text that they are together. -/
def CutBetweenCharacters (chunks : List (Option (List UInt8))) : Prop :=
  (chunks.reduceOption.map fun chunk => (Utf8.fromUtf8Lossy chunk).toList).flatten =
    (Utf8.fromUtf8Lossy (streamBytes chunks)).toList

def TerminalLast (events : List JsonValue) : Prop :=
  ∀ before event after, events = before ++ event :: after → isTerminalEvent event = true → after = []

section

variable (codec : JsonCodec) (detailsEnabled : Bool)

namespace ResponsesSseLogStream

theorem polls_fst (s : ResponsesSseLogStream) (answers : List (Polled BodyItem)) :
    (s.polls codec detailsEnabled answers).1 = answers := by
  induction answers generalizing s with
  | nil => rfl
  | cons inner rest ih =>
    have hfirst : (s.pollNext codec detailsEnabled inner).1 = inner := by
      rcases inner with _ | _ | ⟨_ | _⟩ <;> rfl
    rw [polls]
    rw [hfirst, ih]

theorem polls_append_snd (s : ResponsesSseLogStream) (answers others : List (Polled BodyItem)) :
    (s.polls codec detailsEnabled (answers ++ others)).2 =
      ((s.polls codec detailsEnabled answers).2.polls codec detailsEnabled others).2 := by
  induction answers generalizing s with
  | nil => rfl
  | cons inner rest ih =>
    have hrest := ih (s.pollNext codec detailsEnabled inner).2
    simpa only [cons_append, polls] using hrest

theorem observeText_append (text more : List Char) :
    (new.observeText codec detailsEnabled text).observeText codec detailsEnabled more =
      new.observeText codec detailsEnabled (text ++ more) := by
  have hcut := ByteLines.cut_append '\n' text more
  simp only [observeText, new, nil_append, hcut, foldl_append]

theorem polls_chunks (chunks : List (Option (List UInt8))) (text : List Char) :
    ((new.observeText codec detailsEnabled text).polls codec detailsEnabled (chunks.map chunkAnswer)).2 =
      new.observeText codec detailsEnabled
        (text ++ (chunks.reduceOption.map fun chunk => (Utf8.fromUtf8Lossy chunk).toList).flatten) := by
  induction chunks generalizing text with
  | nil => simp [polls, reduceOption_nil]
  | cons chunk chunks ih =>
    cases chunk with
    | none => exact ih text
    | some bytes =>
      have hrest := ih (text ++ (Utf8.fromUtf8Lossy bytes).toList)
      rw [← observeText_append, append_assoc] at hrest
      exact hrest

end ResponsesSseLogStream

theorem loggedStream_eq {chunks : List (Option (List UInt8))} (hcuts : CutBetweenCharacters chunks)
    (ending : StreamEnding) :
    (loggedStream codec detailsEnabled chunks ending).2 =
      ((ResponsesSseLogStream.new.observeText codec detailsEnabled
        (Utf8.fromUtf8Lossy (streamBytes chunks)).toList).polls codec detailsEnabled
          ending.answers).2.log.drop.updates := by
  have hchunks := ResponsesSseLogStream.polls_chunks codec detailsEnabled chunks []
  have hnew : ResponsesSseLogStream.new.observeText codec detailsEnabled [] = .new := rfl
  have hpolls := ResponsesSseLogStream.polls_append_snd codec detailsEnabled .new (chunks.map chunkAnswer)
    ending.answers
  rw [hcuts, nil_append, hnew] at hchunks
  rw [hchunks] at hpolls
  simp only [loggedStream, innerAnswers, hpolls]

theorem foldl_observeLine (log : StreamLog) (lines : List (List Char)) :
    lines.foldl (StreamLog.observeLine codec detailsEnabled) log =
      (lines.filterMap (lineEvent codec)).foldl (StreamLog.observeEvent codec detailsEnabled) log := by
  induction lines generalizing log with
  | nil => rfl
  | cons line lines ih =>
    rw [foldl_cons, ih, StreamLog.observeLine]
    cases hline : lineEvent codec line with
    | none => rw [filterMap_cons_none hline]
    | some event => rw [filterMap_cons_some hline, foldl_cons]

theorem observed_log (chunks : List (Option (List UInt8))) :
    (ResponsesSseLogStream.new.observeText codec detailsEnabled (Utf8.fromUtf8Lossy (streamBytes chunks)).toList).log =
      (streamEvents codec chunks).foldl (StreamLog.observeEvent codec detailsEnabled) ⟨false, false, []⟩ :=
  foldl_observeLine _ _ _ _

def StreamLog.row (codec : JsonCodec) (log : StreamLog) : RequestLogRow :=
  log.updates.foldl (RequestLogRow.update codec) runningRow

variable {codec} {s : ResponsesSseLogStream} {log : StreamLog}

/-- Nothing but the time to the first token has been written. -/
def Unrecorded (codec : JsonCodec) (log : StreamLog) : Prop := log.completed = false ∧ log.row codec = runningRow

section

variable (h : Unrecorded codec log)
include h

theorem Unrecorded.recordTtft (event : JsonValue) : Unrecorded codec (log.recordTtft event) := by
  obtain ⟨hcompleted, hrow⟩ := h
  unfold StreamLog.recordTtft
  split
  next =>
    refine ⟨hcompleted, ?_⟩
    rw [StreamLog.row] at hrow ⊢
    rw [foldl_append, hrow]
    rfl
  next => exact ⟨hcompleted, hrow⟩

theorem Unrecorded.observeEvent {event : JsonValue} (hevent : isTerminalEvent event = false) :
    Unrecorded codec (log.observeEvent codec detailsEnabled event) := by
  simpa [StreamLog.observeEvent, hevent] using h.recordTtft event

theorem Unrecorded.foldl {events : List JsonValue} (hevents : ∀ event ∈ events, isTerminalEvent event = false) :
    Unrecorded codec (events.foldl (StreamLog.observeEvent codec detailsEnabled) log) := by
  induction events generalizing log with
  | nil => exact h
  | cons event events ih =>
    have hnext := h.observeEvent detailsEnabled (hevents event mem_cons_self)
    exact ih hnext fun other hother => hevents other (mem_cons_of_mem event hother)

theorem Unrecorded.terminal {event : JsonValue} (hevent : isTerminalEvent event = true) :
    (log.observeEvent codec detailsEnabled event).completed = true ∧
      ((log.observeEvent codec detailsEnabled event).row codec).Records codec detailsEnabled event := by
  have hrow : (log.recordTtft event).row codec = runningRow := (h.recordTtft event).2
  have hobserved : (log.observeEvent codec detailsEnabled event).row codec =
      runningRow.update codec (terminalUpdate codec detailsEnabled event) := by
    rw [StreamLog.row] at hrow ⊢
    simp only [StreamLog.observeEvent, hevent, if_true, foldl_append, hrow]
    rfl
  constructor
  · simp [StreamLog.observeEvent, hevent]
  · rw [hobserved]
    refine ⟨rfl, rfl, ?_, ?_⟩
    · simp [RequestLogRow.update, terminalUpdate, runningRow]
    · cases detailsEnabled <;> simp [RequestLogRow.update, terminalUpdate, runningRow]

end

theorem Unrecorded.ending (h : Unrecorded codec s.log) (ending : StreamEnding) :
    ((s.polls codec detailsEnabled ending.answers).2.log.drop.row codec).status = ending.status := by
  obtain ⟨hcompleted, -⟩ := h
  cases ending <;>
    simp [StreamEnding.answers, StreamEnding.status, ResponsesSseLogStream.polls, ResponsesSseLogStream.pollNext,
      StreamLog.drop, StreamLog.finish, hcompleted, StreamLog.row, RequestLogRow.update]

theorem ending_of_completed (h : s.log.completed = true) (ending : StreamEnding) :
    (s.polls codec detailsEnabled ending.answers).2.log.drop = s.log := by
  cases ending <;>
    simp [StreamEnding.answers, ResponsesSseLogStream.polls, ResponsesSseLogStream.pollNext, StreamLog.drop,
      StreamLog.finish, h]

end

/-- The outcome is logged when the chunks are cut between characters and the terminal event comes last. -/
theorem outcome_logged (codec : JsonCodec) (detailsEnabled : Bool) {chunks : List (Option (List UInt8))}
    (hcuts : CutBetweenCharacters chunks) (hlast : TerminalLast (streamEvents codec chunks)) (ending : StreamEnding) :
    OutcomeLogged codec detailsEnabled chunks ending where
  passed := ResponsesSseLogStream.polls_fst codec detailsEnabled _ _
  uncut := by
    have hwhole : streamBytes [some (streamBytes chunks)] = streamBytes chunks := by simp [streamBytes]
    have huncut : CutBetweenCharacters [some (streamBytes chunks)] := by
      rw [CutBetweenCharacters, hwhole]
      simp
    rw [loggedStream_eq codec detailsEnabled hcuts, loggedStream_eq codec detailsEnabled huncut, hwhole]
  recorded := by
    have hobserved := observed_log codec detailsEnabled chunks
    have hnew : Unrecorded codec ⟨false, false, []⟩ := ⟨rfl, rfl⟩
    rw [loggedStream_eq codec detailsEnabled hcuts]
    split
    next event hfind =>
      obtain ⟨hterminal, before, after, hevents, hbefore⟩ := List.find?_eq_some_iff_append.mp hfind
      obtain rfl := hlast before event after hevents hterminal
      have hunrecorded := hnew.foldl detailsEnabled fun other hother => by simpa using hbefore other hother
      obtain ⟨hcompleted, hrecords⟩ := hunrecorded.terminal detailsEnabled hterminal
      rw [hevents, foldl_append] at hobserved
      rw [ending_of_completed detailsEnabled (by rw [hobserved]; exact hcompleted), hobserved]
      exact hrecords
    next hfind =>
      have hunrecorded := hnew.foldl detailsEnabled fun other hother => by
        simpa using List.find?_eq_none.mp hfind other hother
      rw [← hobserved] at hunrecorded
      exact hunrecorded.ending detailsEnabled ending

def failedEvent (error : String) : JsonValue :=
  .object [("type", .string "response.failed"),
    ("response", .object [("status", .string "failed"), ("error", .string error)])]

def failedStart : String :=
  "\x7b\"type\":\"response.failed\",\"response\":\x7b\"status\":\"failed\",\"error\":\""

def failedEnd : String := "\"\x7d\x7d"

def failedCodec : JsonCodec where
  parse text := (["é", "\ufffd\ufffd"].find? fun error => text = failedStart ++ error ++ failedEnd).map failedEvent
  print _ := ""

def lineBytes (text : String) : List UInt8 := text.toList.map fun c => UInt8.ofNat c.toNat

theorem terminalLast_singleton (event : JsonValue) : TerminalLast [event] := by
  intro before other after h _
  have hlength := congrArg List.length h
  rw [length_singleton, length_append, length_cons] at hlength
  exact length_eq_zero_iff.mp (by omega)

/-- A stream that is cut before the last character of its error. -/
theorem failure_logged :
    OutcomeLogged failedCodec false
      [some (lineBytes ("data: " ++ failedStart)), none, some ([0xc3, 0xa9] ++ lineBytes (failedEnd ++ "\n"))] .ended := by
  have hevents : streamEvents failedCodec
      [some (lineBytes ("data: " ++ failedStart)), none, some ([0xc3, 0xa9] ++ lineBytes (failedEnd ++ "\n"))] =
        [failedEvent "é"] := by decide +kernel
  refine outcome_logged failedCodec false (by unfold CutBetweenCharacters; decide +kernel) ?_ .ended
  exact terminalLast_singleton _

/-- The same stream, cut inside that character: two replacement characters are logged in its place. -/
theorem halved_error_logged :
    ¬ OutcomeLogged failedCodec false
      [some (lineBytes ("data: " ++ failedStart) ++ [0xc3]), some ([0xa9] ++ lineBytes (failedEnd ++ "\n"))] .ended := by
  intro h
  exact absurd h.uncut (by decide +kernel)

end MochiPort

import MochiPort.ByteOffsets
import MochiPort.JsonValues
import MochiPort.RustText

namespace MochiPort

open ByteOffsets

structure TokenUsage where
  inputTokens : Nat
  cachedInputTokens : Nat
  cacheWriteInputTokens : Nat
  outputTokens : Nat
  reasoningOutputTokens : Nat
  totalTokens : Nat
  deriving DecidableEq

def TokenUsage.default : TokenUsage := ⟨0, 0, 0, 0, 0, 0⟩

/-- One quota window, over the type `F` of a double. -/
structure RateLimitWindow (F : Type) where
  usedPercent : F
  windowMinutes : Option Nat
  resetsAtMs : Option Int
  deriving DecidableEq

structure RateLimits (F : Type) where
  limitId : Option String
  primary : Option (RateLimitWindow F)
  secondary : Option (RateLimitWindow F)
  planType : Option String
  rateLimitReachedType : Option String
  deriving DecidableEq

def RateLimits.default {F : Type} : RateLimits F := ⟨none, none, none, none, none⟩

def RateLimits.hasWindow {F : Type} (limits : RateLimits F) : Bool := limits.primary.isSome || limits.secondary.isSome

structure RawRateLimitWindow (F : Type) where
  usedPercent : Option F
  windowMinutes : Option Nat
  resetsAt : Option F
  resetsInSeconds : Option F

structure RawRateLimits (F : Type) where
  limitId : Option String
  primary : Option (RawRateLimitWindow F)
  secondary : Option (RawRateLimitWindow F)
  planType : Option String
  rateLimitReachedType : Option String

structure SessionMeta where
  sessionId : Option String
  threadId : Option String
  cwd : Option String
  originator : Option String
  startedAt : Option String
  provider : Option String
  deriving DecidableEq

def SessionMeta.default : SessionMeta := ⟨none, none, none, none, none, none⟩

structure ThreadSettings where
  model : Option String
  provider : Option String
  deriving DecidableEq

structure TurnContext where
  model : Option String
  cwd : Option String
  timezone : Option String
  deriving DecidableEq

structure TokenCount (F : Type) where
  usage : TokenUsage
  cumulative : Option TokenUsage
  modelContextWindow : Option Nat
  rateLimits : RateLimits F
  timestamp : Option String
  deriving DecidableEq

inductive RolloutEvent (F : Type) where
  | sessionMeta (sessionMeta : SessionMeta)
  | tokenCount (count : TokenCount F)
  | threadSettings (settings : ThreadSettings)
  | turnContext (context : TurnContext)
  deriving DecidableEq

structure RawRecord where
  timestamp : Option String
  kind : Option String
  payload : Option JsonValue
  modelProvider : Option String

structure TokenCountInfo where
  totalTokenUsage : Option TokenUsage
  lastTokenUsage : Option TokenUsage
  modelContextWindow : Option Nat

structure TokenCountPayload (F : Type) where
  info : TokenCountInfo
  rateLimits : Option (RawRateLimits F)

structure SessionMetaPayload where
  sessionId : Option String
  id : Option String
  cwd : Option String
  originator : Option String
  timestamp : Option String
  modelProvider : Option String
  provider : Option String

/-- The derived readers of the records, `serde_json::from_str` and `serde_json::from_value` at their types, and
`(x * 1000.0) as i64` of a double. -/
structure RolloutCodec (F : Type) where
  record : String → Option RawRecord
  tokenCount : JsonValue → Option (TokenCountPayload F)
  sessionMeta : JsonValue → Option SessionMetaPayload
  milliseconds : F → Int

def digitsValue (digits : List Char) : Nat := digits.foldl (fun n c => 10 * n + (c.toNat - 48)) 0

def areDigits (digits : List Char) : Bool := digits ≠ [] && digits.all Char.isDigit

/-- `str::parse::<i64>` -/
def parseI64 (text : String) : Option Int :=
  let (negative, digits) := match text.toList with
    | '-' :: rest => (true, rest)
    | '+' :: rest => (false, rest)
    | all => (false, all)
  let value : Int := if negative then -digitsValue digits else digitsValue digits
  if areDigits digits && -0x8000000000000000 ≤ value && value < 0x8000000000000000 then some value else none

/-- `str::parse::<u8>` -/
def parseU8 (text : String) : Option Nat :=
  let digits := match text.toList with
    | '+' :: rest => rest
    | all => all
  if areDigits digits && digitsValue digits < 256 then some (digitsValue digits) else none

def civilDays (year month day : Int) : Int :=
  let adjustedYear := year - (if month ≤ 2 then 1 else 0)
  let era := (if 0 ≤ adjustedYear then adjustedYear else adjustedYear - 399).tdiv 400
  let yearOfEra := adjustedYear - era * 400
  let dayOfYear := (153 * (month + if 2 < month then -3 else 9) + 2).tdiv 5 + day - 1
  let dayOfEra := yearOfEra * 365 + yearOfEra.tdiv 4 - yearOfEra.tdiv 100 + dayOfYear
  era * 146097 + dayOfEra - 719468

def timestampMs (timestamp : String) : Option Int := do
  if byteLength timestamp.toList < 19 then none
  let number := fun start stop => (get timestamp start stop).bind parseI64
  let year ← number 0 4
  let month ← number 5 7
  let day ← number 8 10
  let hour ← number 11 13
  let minute ← number 14 16
  let second ← number 17 19
  if month < 1 || 12 < month || day < 1 || 31 < day || 23 < hour || 59 < minute || 60 < second then none
  let seconds := civilDays year month day * 86400 + hour * 3600 + minute * 60 + second
  match getFrom timestamp 19 with
  | none => return seconds * 1000
  | some rest =>
    let sign := rest.toList.head?
    if sign = some '+' || sign = some '-' then
      let offsetHours ← (get rest 1 3).bind parseI64
      let offsetMinutes ← (get rest 4 6).bind parseI64
      let magnitude := offsetHours * 3600 + offsetMinutes * 60
      return (seconds + if sign = some '+' then -magnitude else magnitude) * 1000
    else return seconds * 1000

example : timestampMs "2026-08-25T02:17:02.910Z" = some 1787624222000 := by decide +kernel

example : timestampMs "1970-01-01T01:00:00+01:00" = some 0 := by decide +kernel

def epochMinute (timestamp : String) : Option Int := (timestampMs timestamp).map (· / 60000)

def hourOfDay (timestamp : String) : Option Nat := do
  let hour ← (get timestamp 11 13).bind parseU8
  if hour < 24 then some hour else none

def wrapI64 (value : Int) : Int := (value + 0x8000000000000000) % 0x10000000000000000 - 0x8000000000000000

section

variable {F : Type} (codec : RolloutCodec F)

def RawRateLimitWindow.normalize (window : RawRateLimitWindow F) (recordTimestampMs : Option Int) :
    Option (RateLimitWindow F) := do
  let usedPercent ← window.usedPercent
  let resetsAtMs := match window.resetsAt with
    | some epochSeconds => some (codec.milliseconds epochSeconds)
    | none =>
      match window.resetsInSeconds, recordTimestampMs with
      | some seconds, some nowMs => some (wrapI64 (nowMs + codec.milliseconds seconds))
      | _, _ => none
  return ⟨usedPercent, window.windowMinutes, resetsAtMs⟩

def RawRateLimits.normalize (limits : RawRateLimits F) (recordTimestampMs : Option Int) : RateLimits F where
  limitId := limits.limitId
  primary := limits.primary.bind fun window => window.normalize codec recordTimestampMs
  secondary := limits.secondary.bind fun window => window.normalize codec recordTimestampMs
  planType := limits.planType
  rateLimitReachedType := limits.rateLimitReachedType

def parseSessionMeta (record : RawRecord) (payload : JsonValue) : Option (RolloutEvent F) := do
  let parsed ← codec.sessionMeta payload
  let provider := (parsed.modelProvider.or <| parsed.provider.or <|
    (record.modelProvider.map RustText.trim).filter (· ≠ "")).filter (RustText.trim · ≠ "")
  return .sessionMeta ⟨parsed.sessionId, parsed.id, parsed.cwd, parsed.originator,
    parsed.timestamp.or record.timestamp, provider⟩

def parseTokenCount (record : RawRecord) (payload : JsonValue) : Option (RolloutEvent F) := do
  let parsed ← codec.tokenCount payload
  let cumulative := parsed.info.totalTokenUsage
  let usage ← parsed.info.lastTokenUsage.or cumulative
  let recordMs := record.timestamp.bind timestampMs
  return .tokenCount ⟨usage, cumulative, parsed.info.modelContextWindow,
    (parsed.rateLimits.map fun raw => raw.normalize codec recordMs).getD .default, record.timestamp⟩

def parseThreadSettings (payload : JsonValue) : Option (RolloutEvent F) := do
  let settings ← payload.get "thread_settings"
  let model := (settings.get "model").bind JsonValue.asStr
  let provider := (settings.get "model_provider_id").bind JsonValue.asStr
  if model.isNone && provider.isNone then none else some (.threadSettings ⟨model, provider⟩)

def parseTurnContext (payload : JsonValue) : Option (RolloutEvent F) :=
  let model := ((payload.get "model").bind JsonValue.asStr).filter (· ≠ "")
  let cwd := (payload.get "cwd").bind JsonValue.asStr
  let timezone := (payload.get "timezone").bind JsonValue.asStr
  if model.isNone && cwd.isNone then none else some (.turnContext ⟨model, cwd, timezone⟩)

/-- One line of a rollout file; `none` is nothing to account for. -/
def parseRecord (line : String) : Option (RolloutEvent F) := do
  let trimmed := RustText.trim line
  if trimmed = "" then none
  let record ← codec.record trimmed
  let payload ← record.payload
  let kind ← record.kind
  if kind = "session_meta" then parseSessionMeta codec record payload
  else if kind = "event_msg" then
    let payloadType ← (payload.get "type").bind JsonValue.asStr
    if payloadType = "token_count" then parseTokenCount codec record payload
    else if payloadType = "thread_settings_applied" then parseThreadSettings payload
    else none
  else if kind = "turn_context" then parseTurnContext payload
  else none

end

end MochiPort

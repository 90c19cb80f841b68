import Mathlib.Data.Finset.Basic
import MochiPort.ByteLines
import MochiPort.RolloutRecords
import MochiPort.TelegramProgress

namespace MochiPort

def fileText (bytes : List UInt8) : Option String := String.fromUTF8? ⟨bytes.toArray⟩

def textBytes (text : String) : List UInt8 := text.toUTF8.toList

inductive QuotaKind where
  | primary
  | secondary
  deriving DecidableEq

structure ReplayKey where
  sessionId : String
  model : String
  input : Nat
  cached : Nat
  output : Nat
  total : Nat
  cumulative : Nat × Nat × Nat × Nat × Nat
  deriving DecidableEq

structure SessionScan (F : Type) where
  sessionMeta : SessionMeta
  usage : TokenUsage
  rateLimits : RateLimits F
  contextWindow : Option Nat
  quotaObservedAt : Option String
  quotaMinutes : Table (Int × QuotaKind) F
  quotaHistory : Table (String × QuotaKind) F
  settings : Option ThreadSettings
  hourly : Table Nat TokenUsage
  seenReplays : Finset ReplayKey
  minutely : Table Int TokenUsage
  models : Table String TokenUsage
  providers : Table String TokenUsage
  turnContext : Option TurnContext
  byModelProvider : Table (String × String) TokenUsage
  samples : Nat

def ReplayKey.of {F : Type} (sessionId model : Option String) (count : TokenCount F) : Option ReplayKey := do
  let sessionId ← sessionId
  let cumulative ← count.cumulative
  return ⟨sessionId, model.getD "", count.usage.inputTokens, count.usage.cachedInputTokens, count.usage.outputTokens,
    count.usage.totalTokens, cumulative.inputTokens, cumulative.cachedInputTokens, cumulative.outputTokens,
    cumulative.reasoningOutputTokens, cumulative.totalTokens⟩

def sessionDateFromTimestamp (timestamp : String) : Option String := do
  let date ← ByteOffsets.get timestamp 0 10
  let chars := date.toList
  if chars.length ≠ 10 || chars[4]? ≠ some '-' || chars[7]? ≠ some '-' then none
  if chars.zipIdx.all fun (char, index) => index = 4 || index = 7 || char.isDigit then some date else none

def splitSegments (separator : Char) (path : String) : List String :=
  (path.toList.splitOn separator).map String.ofList

/-- The last segment of a working directory that is not empty. -/
def projectName (cwd : String) : Option String := (splitSegments '/' cwd).reverse.find? (· ≠ "")

def accumulate (total addition : TokenUsage) : TokenUsage where
  inputTokens := saturatingAdd total.inputTokens addition.inputTokens
  cachedInputTokens := saturatingAdd total.cachedInputTokens addition.cachedInputTokens
  cacheWriteInputTokens := saturatingAdd total.cacheWriteInputTokens addition.cacheWriteInputTokens
  outputTokens := saturatingAdd total.outputTokens addition.outputTokens
  reasoningOutputTokens := saturatingAdd total.reasoningOutputTokens addition.reasoningOutputTokens
  totalTokens := saturatingAdd total.totalTokens addition.totalTokens

def accumulateAt {K : Type} [DecidableEq K] (buckets : Table K TokenUsage) (key : K) (usage : TokenUsage) :
    Table K TokenUsage :=
  buckets.insert key (accumulate ((buckets.lookup key).getD .default) usage)

/-- Fills gaps without discarding what is known. -/
def mergeMeta (existing update : SessionMeta) : SessionMeta where
  sessionId := update.sessionId.or existing.sessionId
  threadId := update.threadId.or existing.threadId
  cwd := update.cwd.or existing.cwd
  originator := update.originator.or existing.originator
  provider := update.provider.or existing.provider
  startedAt := existing.startedAt.or update.startedAt

namespace SessionScan

variable {F : Type}

def default : SessionScan F :=
  ⟨.default, .default, .default, none, none, ∅, ∅, none, ∅, ∅, ∅, ∅, ∅, none, ∅, 0⟩

def effectiveModel (scan : SessionScan F) : Option String :=
  (scan.settings.bind (·.model)).or (scan.turnContext.bind (·.model))

def attributedModel (scan : SessionScan F) : String := scan.effectiveModel.getD "codex"

def attributedProvider (scan : SessionScan F) : String :=
  ((scan.settings.bind (·.provider)).or scan.sessionMeta.provider).getD "legacy"

def project (scan : SessionScan F) : Option String :=
  (scan.sessionMeta.cwd.or (scan.turnContext.bind (·.cwd))).bind projectName

/-- The readings of a sample, by the day and by the minute. -/
def observeWindow (scan : SessionScan F) (day : String) (minute : Option Int) (kind : QuotaKind) :
    Option (RateLimitWindow F) → SessionScan F
  | none => scan
  | some window =>
    { scan with
      quotaHistory := scan.quotaHistory.insert (day, kind) window.usedPercent
      quotaMinutes :=
        match minute with
        | some minute => scan.quotaMinutes.insert (minute, kind) window.usedPercent
        | none => scan.quotaMinutes }

def observeQuota (scan : SessionScan F) (count : TokenCount F) : SessionScan F :=
  if count.rateLimits.hasWindow then
    let scan := { scan with quotaObservedAt := count.timestamp }
    let scan := match count.timestamp.bind sessionDateFromTimestamp with
      | none => scan
      | some day =>
        let minute := count.timestamp.bind epochMinute
        (scan.observeWindow day minute .primary count.rateLimits.primary).observeWindow day minute .secondary
          count.rateLimits.secondary
    { scan with rateLimits := count.rateLimits }
  else scan

def addSample (scan : SessionScan F) (count : TokenCount F) : SessionScan F :=
  let model := scan.attributedModel
  let provider := scan.attributedProvider
  { scan with
    samples := scan.samples + 1
    usage := accumulate scan.usage count.usage
    hourly :=
      match count.timestamp.bind hourOfDay with
      | some hour => accumulateAt scan.hourly hour count.usage
      | none => scan.hourly
    minutely :=
      match count.timestamp.bind epochMinute with
      | some minute => accumulateAt scan.minutely minute count.usage
      | none => scan.minutely
    models := accumulateAt scan.models model count.usage
    providers := accumulateAt scan.providers provider count.usage
    byModelProvider := accumulateAt scan.byModelProvider (model, provider) count.usage
    contextWindow := count.modelContextWindow.or scan.contextWindow }.observeQuota count

def addTokenCount (scan : SessionScan F) (count : TokenCount F) : SessionScan F :=
  match ReplayKey.of scan.sessionMeta.sessionId scan.effectiveModel count with
  | none => scan.addSample count
  | some key =>
    -- a copy of a turn already counted in this file
    if key ∈ scan.seenReplays then scan
    else { scan with seenReplays := insert key scan.seenReplays }.addSample count

def apply (scan : SessionScan F) : RolloutEvent F → SessionScan F
  | .sessionMeta update => { scan with sessionMeta := mergeMeta scan.sessionMeta update }
  | .tokenCount count => scan.addTokenCount count
  | .threadSettings settings => { scan with settings := some settings }
  | .turnContext context => { scan with turnContext := some context }

end SessionScan

/-- The errors of reading a file that has been opened. -/
inductive ReadError where
  | invalidData
  deriving DecidableEq

def lineEnd : UInt8 := 0x0a

section

variable {F : Type} (codec : RolloutCodec F)

/-- The loop over the lines: `read_line` fails on bytes that are not UTF-8, and ends with an unterminated line. -/
def scanLines : List (List UInt8) → List UInt8 → SessionScan F → Nat → Except ReadError (SessionScan F × Nat)
  | [], rest, scan, consumed =>
    match fileText rest with
    | none => .error .invalidData
    | some _ => .ok (scan, consumed)
  | line :: lines, rest, scan, consumed =>
    match fileText (line ++ [lineEnd]) with
    | none => .error .invalidData
    | some text =>
      let scan := match parseRecord codec text with
        | some event => scan.apply event
        | none => scan
      scanLines lines rest scan (consumed + (line.length + 1))

/-- Reads a rollout file from an offset; what it gives is the usage and the next offset. -/
def scanFrom (contents : List UInt8) (offset : Nat) : Except ReadError (SessionScan F × Nat) :=
  let start := min offset contents.length
  let (lines, rest) := ByteLines.cut lineEnd (contents.drop start)
  scanLines codec lines rest .default start

end

end MochiPort

import MochiPort.Cooldowns
import MochiPort.RustText
import MochiPort.Tables

namespace MochiPort

def telegramTopicDeleteRetrySeconds : Nat := 5

def fromSecs (seconds : Nat) : Nat := seconds * 1000000000

structure TelegramApiError where
  status : Nat
  errorCode : Option Int
  retryAfter : Option Nat
  deriving DecidableEq

def TelegramApiError.isRateLimited (error : TelegramApiError) : Bool :=
  error.errorCode = some 429 || error.status = 429

/-- What a mutation comes back with: an error is one of the API's or another one. -/
inductive MutationResult where
  | ok
  | apiError (error : TelegramApiError)
  | otherError
  deriving DecidableEq

def telegramTopicMutationCooldown : MutationResult → Option Nat
  | .ok => none
  | .otherError => none
  | .apiError error =>
    (error.retryAfter.map fun seconds => fromSecs (max seconds 1)).or
      (if error.isRateLimited then some (fromSecs telegramTopicDeleteRetrySeconds) else none)

def normalizedTelegramAccountId (accountId : String) : String :=
  let accountId := RustText.trim accountId
  if accountId = "" then "telegram" else accountId

/-- The recorded deadlines, under normalized accounts; an instant is a number of nanoseconds. -/
abbrev RetryDeadlines := Table String Nat

namespace RetryDeadlines

def telegramTopicCleanupRetryDeadline (deadlines : RetryDeadlines) (accountId : String) : Option Nat :=
  deadlines.lookup (normalizedTelegramAccountId accountId)

/-- `requested` is the delay after the instant that was read before the lock. -/
def extendTelegramTopicCleanupRetryDeadline (deadlines : RetryDeadlines) (accountId : String)
    (requested : Nat) : RetryDeadlines :=
  let accountId := normalizedTelegramAccountId accountId
  match deadlines.lookup accountId with
  | none => deadlines.insert accountId requested
  | some deadline => if deadline < requested then deadlines.insert accountId requested else deadlines

def clearTelegramTopicCleanupRetryDeadlineIfElapsed (deadlines : RetryDeadlines) (accountId : String)
    (observedDeadline now : Nat) : RetryDeadlines :=
  let accountId := normalizedTelegramAccountId accountId
  if (deadlines.lookup accountId).any fun deadline => deadline ≤ observedDeadline && deadline ≤ now then
    deadlines.erase accountId
  else deadlines

end RetryDeadlines

/-- Where a call of `run_telegram_topic_mutation_while` is. The first five stages and the stages from
`queued` on repeat until the caller is turned away or its mutation has run. -/
inductive MutationStage where
  /-- about to ask whether to continue, at the top of the loop -/
  | entry
  /-- about to read the deadline, in `wait_for_telegram_topic_mutation_deadline` -/
  | unread
  | read (deadline : Nat)
  | sleeping (deadline : Nat)
  | elapsed (deadline : Nat)
  /-- about to ask whether to continue, before the gate -/
  | recheck
  | queued
  /-- about to read the deadline, with the gate held -/
  | gated
  | gatedRead (deadline : Nat)
  | gatedElapsed (deadline : Nat)
  /-- about to ask whether to continue, with the gate held -/
  | lastCheck
  | ready
  | mutating
  | extending (requested : Nat)
  | releasing
  | finished
  | cancelled
  deriving DecidableEq

def MutationStage.holdsGate : MutationStage → Bool
  | .gated | .gatedRead _ | .gatedElapsed _ | .lastCheck | .ready | .mutating | .extending _ | .releasing => true
  | .entry | .unread | .read _ | .sleeping _ | .elapsed _ | .recheck | .queued | .finished | .cancelled => false

/-- A call of `run_telegram_topic_mutation_while`. The last two fields record, for the statements only, what
its last check answered and how often its mutation was started. -/
structure MutationCaller where
  accountId : String
  notifier : Bool
  stage : MutationStage
  lastAnswer : Option Bool
  executions : Nat
  deriving DecidableEq

/-- What a step of a caller does to the gate and the deadline of its account. -/
inductive GateEffect where
  | nothing
  | lock
  | unlock
  | clear (observedDeadline : Nat)
  | extend (requested : Nat)
  deriving DecidableEq

/-- The steps of a caller; `checked` is an answer of `should_continue` and `answered` the end of the mutation. -/
inductive MutationEvent where
  | checked (answer : Bool)
  | readDeadline
  | compareDeadline
  | slept
  | notified
  | clearElapsed
  | lockGate
  | start
  | answered (result : MutationResult)
  | extendDeadline
  | unlockGate
  | cancel
  deriving DecidableEq

namespace MutationCaller

def moveTo (caller : MutationCaller) (stage : MutationStage) : MutationCaller := { caller with stage := stage }

def check (caller : MutationCaller) (answer : Bool) (stage : MutationStage) : MutationCaller :=
  { caller with stage := if answer then stage else .finished, lastAnswer := some answer }

/-- One step of a caller at the instant `now`, where `recorded` is the deadline of its account. -/
def advance (caller : MutationCaller) (recorded : Option Nat) (now : Nat) :
    MutationEvent → Option (MutationCaller × GateEffect)
  | .checked answer =>
    match caller.stage with
    | .entry => some (caller.check answer .unread, .nothing)
    | .recheck => some (caller.check answer .queued, .nothing)
    | .lastCheck => some (caller.check answer .ready, if answer then .nothing else .unlock)
    | _ => none
  | .readDeadline =>
    match caller.stage with
    | .unread => some (caller.moveTo (recorded.elim .recheck .read), .nothing)
    | .gated => some (caller.moveTo (recorded.elim .lastCheck .gatedRead), .nothing)
    | _ => none
  | .compareDeadline =>
    match caller.stage with
    | .read deadline =>
      some (caller.moveTo (if deadline ≤ now then .elapsed deadline else .sleeping deadline), .nothing)
    | .gatedRead deadline =>
      if deadline > now then some (caller.moveTo .entry, .unlock)
      else some (caller.moveTo (.gatedElapsed deadline), .nothing)
    | _ => none
  | .slept =>
    match caller.stage with
    | .sleeping deadline => if deadline ≤ now then some (caller.moveTo (.elapsed deadline), .nothing) else none
    | _ => none
  | .notified =>
    if caller.notifier then
      match caller.stage with
      | .sleeping _ => some (caller.moveTo .entry, .nothing)
      | .queued => some (caller.moveTo .entry, .nothing)
      | _ => none
    else none
  | .clearElapsed =>
    match caller.stage with
    | .elapsed deadline => some (caller.moveTo .recheck, .clear deadline)
    | .gatedElapsed deadline => some (caller.moveTo .lastCheck, .clear deadline)
    | _ => none
  | .lockGate =>
    match caller.stage with
    | .queued => some (caller.moveTo .gated, .lock)
    | _ => none
  | .start =>
    match caller.stage with
    | .ready => some ({ caller with stage := .mutating, executions := caller.executions + 1 }, .nothing)
    | _ => none
  | .answered result =>
    match caller.stage with
    | .mutating =>
      -- `Instant::now()` is read here, before the lock of the deadlines
      some (caller.moveTo ((telegramTopicMutationCooldown result).elim .releasing fun delay =>
        .extending (now + delay)), .nothing)
    | _ => none
  | .extendDeadline =>
    match caller.stage with
    | .extending requested => some (caller.moveTo .releasing, .extend requested)
    | _ => none
  | .unlockGate =>
    match caller.stage with
    | .releasing => some (caller.moveTo .finished, .unlock)
    | _ => none
  | .cancel =>
    match caller.stage with
    | .finished => none
    | .cancelled => none
    | stage => some (caller.moveTo .cancelled, if stage.holdsGate then .unlock else .nothing)

end MutationCaller

/-- Who holds the gate of an account: a caller, or another task that takes it for a moment. -/
inductive GateHolder where
  | caller (n : Nat)
  | other
  deriving DecidableEq

/-- The gates that are held, the deadlines, the callers and the clock. The last field records, for the
statements only, every deadline that was asked for. -/
structure GateSystem where
  gates : Table String GateHolder
  deadlines : RetryDeadlines
  callers : Table Nat MutationCaller
  calls : Nat
  now : Nat
  asked : List (String × Nat)

inductive GateStep where
  | call (accountId : String) (notifier : Bool)
  | act (n : Nat) (event : MutationEvent)
  | borrowGate (accountId : String)
  | returnGate (accountId : String)
  | clearElapsed (accountId : String) (observedDeadline : Nat)
  | elapse (nanoseconds : Nat)
  deriving DecidableEq

namespace GateSystem

def start : GateSystem := ⟨∅, ∅, ∅, 0, 0, []⟩

def putCaller (s : GateSystem) (n : Nat) (caller : MutationCaller) : GateSystem :=
  { s with callers := s.callers.insert n caller }

/-- The step of a caller with its effect; a gate that is held cannot be locked. -/
def applyEffect (s : GateSystem) (n : Nat) (caller : MutationCaller) : GateEffect → Option GateSystem
  | .nothing => some (s.putCaller n caller)
  | .lock =>
    match s.gates.lookup (normalizedTelegramAccountId caller.accountId) with
    | some _ => none
    | none => some { s.putCaller n caller with
        gates := s.gates.insert (normalizedTelegramAccountId caller.accountId) (.caller n) }
  | .unlock => some { s.putCaller n caller with gates := s.gates.erase (normalizedTelegramAccountId caller.accountId) }
  | .clear observedDeadline => some { s.putCaller n caller with
      deadlines := s.deadlines.clearTelegramTopicCleanupRetryDeadlineIfElapsed caller.accountId
        observedDeadline s.now }
  | .extend requested => some { s.putCaller n caller with
      deadlines := s.deadlines.extendTelegramTopicCleanupRetryDeadline caller.accountId requested
      asked := (normalizedTelegramAccountId caller.accountId, requested) :: s.asked }

def step (s : GateSystem) : GateStep → Option GateSystem
  | .call accountId notifier =>
    some { s.putCaller s.calls ⟨accountId, notifier, .entry, none, 0⟩ with calls := s.calls + 1 }
  | .act n event =>
    (s.callers.lookup n).bind fun caller =>
      (caller.advance (s.deadlines.telegramTopicCleanupRetryDeadline caller.accountId) s.now event).bind
        fun (caller, effect) => s.applyEffect n caller effect
  | .borrowGate accountId =>
    match s.gates.lookup (normalizedTelegramAccountId accountId) with
    | some _ => none
    | none => some { s with gates := s.gates.insert (normalizedTelegramAccountId accountId) .other }
  | .returnGate accountId =>
    match s.gates.lookup (normalizedTelegramAccountId accountId) with
    | some .other => some { s with gates := s.gates.erase (normalizedTelegramAccountId accountId) }
    | _ => none
  | .clearElapsed accountId observedDeadline =>
    some { s with
      deadlines := s.deadlines.clearTelegramTopicCleanupRetryDeadlineIfElapsed accountId observedDeadline s.now }
  | .elapse nanoseconds => some { s with now := s.now + nanoseconds }

/-- The mutation of the caller is under way. -/
def Mutating (s : GateSystem) (n : Nat) (caller : MutationCaller) : Prop :=
  s.callers.lookup n = some caller ∧ caller.stage = .mutating

end GateSystem

end MochiPort

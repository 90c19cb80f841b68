import Mathlib.Data.List.Sort
import MochiPort.RecentKeys
import MochiPort.RemoteClients

namespace MochiPort

/-- The typing indicator of one item; the times of its sends and its notifications, which only end waits
early, are left out. -/
structure TelegramTypingState where
  generation : Int
  sending : Bool
  dirty : Bool
  finished : Bool
  revision : Nat
  deriving DecidableEq

inductive TelegramTypingSendAction where
  | continue | stop
  deriving DecidableEq

/-- The part of the runtime state that the typing operations read and write. `recorded` is the log of the keys
that were recorded as completed, newest first. -/
structure TelegramTyping where
  byItem : Table String TelegramTypingState
  nextGeneration : Int
  suspendedThreads : List String
  completed : RecentKeys String
  recorded : List String

def telegramCompletedTypingHistoryMax : Nat := 512

def i64Max : Int := 0x7fffffffffffffff

def telegramTypingThreadPrefix (threadId : String) : String := threadId ++ "\x1f"

def telegramTypingKey (threadId itemId : String) : String := telegramTypingThreadPrefix threadId ++ itemId

def keyOfThread (threadId key : String) : Bool :=
  (telegramTypingThreadPrefix threadId).toList.isPrefixOf key.toList

namespace TelegramTyping

variable (r : TelegramTyping)

def new : TelegramTyping := ⟨∅, 0, [], .empty, []⟩

def store (key : String) (typing : TelegramTypingState) : TelegramTyping :=
  { r with byItem := r.byItem.insert key typing }

/-- `remember_completed_telegram_typing`. -/
def rememberCompleted (key : String) : TelegramTyping :=
  { r with
    completed := r.completed.remember telegramCompletedTypingHistoryMax key
    recorded := if key ∈ r.completed.keys then r.recorded else key :: r.recorded }

def removeTelegramTyping (key : String) : TelegramTyping := { r with byItem := r.byItem.erase key }

def nextTypingGeneration : Int :=
  let next := min (r.nextGeneration + 1) i64Max
  if next ≤ 0 then 1 else next

def startTelegramTyping (threadId itemId : String) : TelegramTyping × Option Int :=
  let key := telegramTypingKey threadId itemId
  if threadId ∈ r.suspendedThreads || key ∈ r.completed.keys then (r, none)
  else if (r.byItem.lookup key).isNone && r.byItem.keys.any (keyOfThread threadId) then (r, none)
  else
    let made := match r.byItem.lookup key with
      | some typing => (r, typing)
      | none =>
        ({ r with nextGeneration := r.nextTypingGeneration },
          ⟨r.nextTypingGeneration, false, false, false, 0⟩)
    if made.2.sending then (r, none)
    else
      (made.1.store key { made.2 with
        sending := true
        dirty := true
        revision := min (made.2.revision + 1) u64Max }, some made.2.generation)

/-- The part of a stop that is about one item: it is to be finished, by a new driver where none is sending. -/
def stopItem (terminal : Bool) (threadId itemId : String) : TelegramTyping × List (String × Int × Bool) :=
  let key := telegramTypingKey threadId itemId
  let r := if terminal then r.rememberCompleted key else r
  match r.byItem.lookup key with
  | none => (r, [])
  | some typing =>
    (r.store key { typing with
      dirty := true
      finished := true
      revision := min (typing.revision + 1) u64Max
      sending := true }, [(itemId, typing.generation, !typing.sending)])

def stopItems (terminal : Bool) (threadId : String) (r : TelegramTyping) :
    List String → TelegramTyping × List (String × Int × Bool)
  | [] => (r, [])
  | itemId :: rest =>
    let stopped := r.stopItem terminal threadId itemId
    let others := stopItems terminal threadId stopped.1 rest
    (others.1, stopped.2 ++ others.2)

/-- `stop_telegram_typing_for_thread`; the thread's current turn is the one that ends where no turn is named. -/
def stopTelegramTypingForThread (threadId : String) (terminal : Bool) (terminalTurnId currentTurn : Option String) :
    TelegramTyping × List (String × Int × Bool) :=
  let r := match if terminal then terminalTurnId.or currentTurn else none with
    | some turnId => r.rememberCompleted (telegramTypingKey threadId ("turn:" ++ turnId))
    | none => r
  let itemIds := (r.byItem.keys.filter (keyOfThread threadId)).map fun key =>
    String.ofList (key.toList.drop (telegramTypingThreadPrefix threadId).length)
  stopItems terminal threadId r (itemIds.insertionSort (· ≤ ·))

def finishTelegramTypingForThread (threadId : String) (currentTurn : Option String) :
    TelegramTyping × List (String × Int × Bool) :=
  r.stopTelegramTypingForThread threadId true none currentTurn

def suspendTelegramTypingForPersistentMessage (threadId : String) (terminal : Bool)
    (turnId currentTurn : Option String) : TelegramTyping × List (String × Int × Bool) :=
  { r with suspendedThreads := r.suspendedThreads.insert threadId }.stopTelegramTypingForThread threadId terminal
    turnId currentTurn

def resumeTelegramTypingAfterPersistentMessage (threadId : String) : TelegramTyping :=
  { r with suspendedThreads := r.suspendedThreads.filter (· ≠ threadId) }

def takeTelegramTypingSnapshot (key : String) (generation : Int) : TelegramTyping × Option (Bool × Nat) :=
  match r.byItem.lookup key with
  | none => (r, none)
  | some typing =>
    if typing.generation ≠ generation then (r, none)
    else if !typing.sending || !typing.dirty then (r.store key { typing with sending := false }, none)
    else (r.store key { typing with dirty := false }, some (typing.finished, typing.revision))

/-- Whether `telegram_typing_send_delay_ms` names a delay. -/
def hasSendDelay (key : String) (generation : Int) : Bool :=
  (r.byItem.lookup key).any fun typing => typing.generation = generation && typing.sending && typing.dirty

/-- Whether `telegram_typing_wait_for_update` names something to wait for. -/
def waitsForUpdate (key : String) (generation : Int) : Bool :=
  (r.byItem.lookup key).any fun typing =>
    typing.generation = generation && typing.sending && !typing.dirty && !typing.finished

def cancelTelegramTypingGeneration (key : String) (generation : Int) : TelegramTyping :=
  if (r.byItem.lookup key).any fun typing => typing.generation = generation then
    (r.rememberCompleted key).removeTelegramTyping key
  else r

/-- An unfinished item is marked as due for a send. -/
def markDue (typing : TelegramTypingState) : TelegramTypingState :=
  if typing.finished || typing.dirty then typing
  else { typing with dirty := true, revision := min (typing.revision + 1) u64Max }

def markTelegramTypingRenewalDue (key : String) (generation : Int) : TelegramTyping × Bool :=
  match r.byItem.lookup key with
  | none => (r, false)
  | some typing =>
    if typing.generation ≠ generation || !typing.sending then (r, false)
    else (r.store key (markDue typing), true)

def wakeTelegramTypingForThread (threadId : String) : TelegramTyping :=
  { r with byItem := r.byItem.mapValues fun key typing => if keyOfThread threadId key then markDue typing else typing }

def completeTelegramTypingSend (key : String) (generation : Int) (revision : Nat) (succeeded : Bool) :
    TelegramTyping × TelegramTypingSendAction :=
  match r.byItem.lookup key with
  | none => (r, .stop)
  | some typing =>
    if typing.generation ≠ generation then (r, .stop)
    else if !succeeded then
      if typing.finished then (r.removeTelegramTyping key, .stop)
      else (r.store key { typing with sending := false, dirty := true }, .stop)
    else if typing.dirty || typing.revision ≠ revision then (r, .continue)
    else if typing.finished then (r.removeTelegramTyping key, .stop)
    else (r, .continue)

/-- Every one of the keys is recorded as completed and its item removed. -/
def clearKeys (r : TelegramTyping) : List String → TelegramTyping
  | [] => r
  | key :: rest => clearKeys ((r.rememberCompleted key).removeTelegramTyping key) rest

def clearTelegramTypingForThread (threadId : String) : TelegramTyping :=
  r.clearKeys (r.byItem.keys.filter (keyOfThread threadId))

/-- `clear_all_telegram_typing`, with which a bridge generation begins and ends. -/
def clearAllTelegramTyping : TelegramTyping :=
  { r with suspendedThreads := [] }.clearKeys r.byItem.keys

def refusesStart (threadId itemId : String) : Bool :=
  let key := telegramTypingKey threadId itemId
  threadId ∈ r.suspendedThreads || key ∈ r.completed.keys
    || ((r.byItem.lookup key).isNone && r.byItem.keys.any (keyOfThread threadId))
    || (r.byItem.lookup key).any fun typing => typing.sending

variable {r}

variable {threadId itemId : String}

theorem startTelegramTyping_of_refuses (h : r.refusesStart threadId itemId = true) :
    r.startTelegramTyping threadId itemId = (r, none) := by
  unfold refusesStart at h
  unfold startTelegramTyping
  dsimp only at h ⊢
  split
  next => rfl
  next hopen =>
    split
    next => rfl
    next hfree =>
      have hsending : ((r.byItem.lookup (telegramTypingKey threadId itemId)).any fun typing => typing.sending) = true := by
        simpa [hopen, hfree] using h
      cases hlookup : r.byItem.lookup (telegramTypingKey threadId itemId) with
      | none =>
        rw [hlookup] at hsending
        cases hsending
      | some typing =>
        rw [hlookup] at hsending
        exact if_pos hsending

theorem startTelegramTyping_of_idle {typing : TelegramTypingState} (h : r.refusesStart threadId itemId = false)
    (hlookup : r.byItem.lookup (telegramTypingKey threadId itemId) = some typing) :
    typing.sending = false ∧ r.startTelegramTyping threadId itemId =
      (r.store (telegramTypingKey threadId itemId) { typing with
        sending := true
        dirty := true
        revision := min (typing.revision + 1) u64Max }, some typing.generation) := by
  unfold refusesStart at h
  unfold startTelegramTyping
  dsimp only at h ⊢
  rw [hlookup] at h ⊢
  simp only [Option.isNone_some, Bool.false_and, Bool.or_false, Option.any_some, Bool.or_eq_false_iff] at h
  obtain ⟨hopen, hidle⟩ := h
  refine ⟨hidle, ?_⟩
  simp [hopen, hidle]

theorem startTelegramTyping_of_none (h : r.refusesStart threadId itemId = false)
    (hlookup : r.byItem.lookup (telegramTypingKey threadId itemId) = none) :
    r.startTelegramTyping threadId itemId =
      ({ r with nextGeneration := r.nextTypingGeneration }.store (telegramTypingKey threadId itemId)
        ⟨r.nextTypingGeneration, true, true, false, min 1 u64Max⟩, some r.nextTypingGeneration) := by
  unfold refusesStart at h
  unfold startTelegramTyping
  dsimp only at h ⊢
  rw [hlookup] at h ⊢
  simp only [Option.isNone_none, Bool.true_and, Option.any_none, Bool.or_false, Bool.or_eq_false_iff] at h
  obtain ⟨hopen, hfree⟩ := h
  simp [hopen, hfree]

theorem nextTypingGeneration_eq (hpositive : 0 ≤ r.nextGeneration) (hroom : r.nextGeneration < i64Max) :
    r.nextTypingGeneration = r.nextGeneration + 1 := by
  unfold nextTypingGeneration
  dsimp only
  omega

/-- The record of completed keys is that of the newest ones of the log. -/
def Recorded (r : TelegramTyping) : Prop :=
  r.completed.Follows telegramCompletedTypingHistoryMax r.recorded

namespace Recorded

section

variable (h : r.Recorded)
include h

theorem rememberCompleted (key : String) : (r.rememberCompleted key).Recorded := by
  unfold TelegramTyping.rememberCompleted Recorded
  by_cases hkey : key ∈ r.completed.keys
  · dsimp only
    rw [if_pos hkey, RecentKeys.remember, if_pos hkey]
    exact h
  · dsimp only
    rw [if_neg hkey]
    exact RecentKeys.Follows.remember h hkey

theorem clearKeys (keys : List String) : (r.clearKeys keys).Recorded := by
  induction keys generalizing r with
  | nil => exact h
  | cons key rest ih => exact ih (h.rememberCompleted key)

theorem stopItem (terminal : Bool) (threadId itemId : String) : (r.stopItem terminal threadId itemId).1.Recorded := by
  have hremembered : (if terminal then r.rememberCompleted (telegramTypingKey threadId itemId) else r).Recorded := by
    split
    next => exact h.rememberCompleted _
    next => exact h
  unfold TelegramTyping.stopItem
  dsimp only
  split
  next => exact hremembered
  next => exact hremembered

theorem stopItems (terminal : Bool) (threadId : String) (itemIds : List String) :
    (TelegramTyping.stopItems terminal threadId r itemIds).1.Recorded := by
  induction itemIds generalizing r with
  | nil => exact h
  | cons itemId rest ih => exact ih (h.stopItem terminal threadId itemId)

theorem stop (threadId : String) (terminal : Bool) (turnId currentTurn : Option String) :
    (r.stopTelegramTypingForThread threadId terminal turnId currentTurn).1.Recorded := by
  apply stopItems
  split
  next => exact h.rememberCompleted _
  next => exact h

theorem startTelegramTyping (threadId itemId : String) : (r.startTelegramTyping threadId itemId).1.Recorded := by
  cases hrefuses : r.refusesStart threadId itemId with
  | true =>
    rw [startTelegramTyping_of_refuses hrefuses]
    exact h
  | false =>
    cases hlookup : r.byItem.lookup (telegramTypingKey threadId itemId) with
    | none =>
      rw [startTelegramTyping_of_none hrefuses hlookup]
      exact h
    | some typing =>
      rw [(startTelegramTyping_of_idle hrefuses hlookup).2]
      exact h

theorem refusesStart {threadId itemId : String}
    (hkey : telegramTypingKey threadId itemId ∈ r.recorded.take telegramCompletedTypingHistoryMax) :
    r.refusesStart threadId itemId = true := by
  have hcompleted := (RecentKeys.Follows.mem_iff h _).mpr hkey
  simp [TelegramTyping.refusesStart, hcompleted]

end

end Recorded

end TelegramTyping

end MochiPort

import Mathlib.Data.Finset.Basic
import MochiPort.Tables

namespace MochiPort

inductive ImPlatformKind where
  | feishu
  | telegram
  | wechat
  | wecom
  deriving DecidableEq

structure RouteTarget where
  platform : ImPlatformKind
  conversationKey : String
  accountId : String
  chatId : String
  remoteClientKey : String
  deriving DecidableEq

/-- The runtime's routes, turn slots and queues, over the type `T` of a queued turn. -/
structure RuntimeState (T : Type) where
  bridgeGeneration : Nat
  routeByThread : Table String RouteTarget
  currentTurnByThread : Table String String
  startingTurnByThread : Finset String
  turnStartedAtByThread : Table String Nat
  turnFinishedAtByThread : Table String Nat
  pendingTelegramTurnsByConversation : Table String (List T)

inductive TelegramQueueEnqueueOutcome where
  | added (position : Nat)
  | full
  | notRunning
  deriving DecidableEq

def telegramQueuedTurnsMaxCount : Nat := 8

namespace RuntimeState

variable {T : Type} (s : RuntimeState T)

def empty : RuntimeState T := ⟨0, ∅, ∅, ∅, ∅, ∅, ∅⟩

def bindRoute (threadId : String) (route : RouteTarget) : RuntimeState T :=
  { s with routeByThread := s.routeByThread.insert threadId route }

def routedTo (conversationKey threadId : String) : Bool :=
  (s.routeByThread.lookup threadId).any (·.conversationKey = conversationKey)

/-- Every thread of the conversation loses its route and its turn slots, and with the first of them
the conversation loses its queue. -/
def unbindRoutesForConversation (conversationKey : String) : RuntimeState T :=
  let keeps {V : Type} (m : Table String V) : Table String V :=
    m.retain fun threadId _ => !s.routedTo conversationKey threadId
  let bound := s.routeByThread.keys.any (s.routedTo conversationKey)
  { s with
    routeByThread := keeps s.routeByThread
    currentTurnByThread := keeps s.currentTurnByThread
    startingTurnByThread := s.startingTurnByThread.filter fun threadId => !s.routedTo conversationKey threadId
    turnStartedAtByThread := keeps s.turnStartedAtByThread
    turnFinishedAtByThread := keeps s.turnFinishedAtByThread
    pendingTelegramTurnsByConversation :=
      if bound then s.pendingTelegramTurnsByConversation.erase conversationKey
      else s.pendingTelegramTurnsByConversation }

def markTurnStarted (threadId turnId : String) (nowMs : Nat) : RuntimeState T :=
  { s with
    startingTurnByThread := s.startingTurnByThread.erase threadId
    currentTurnByThread := s.currentTurnByThread.insert threadId turnId
    turnStartedAtByThread := s.turnStartedAtByThread.insert threadId nowMs }

/-- The runtime with the thread marked, unless the thread has a turn that is running or starting. -/
def tryMarkTurnStarting (threadId : String) : Option (RuntimeState T) :=
  if (s.currentTurnByThread.lookup threadId).isSome then none
  else if threadId ∈ s.startingTurnByThread then none
  else some { s with startingTurnByThread := insert threadId s.startingTurnByThread }

def clearTurnStarting (threadId : String) : RuntimeState T :=
  { s with startingTurnByThread := s.startingTurnByThread.erase threadId }

def messageIsStaleForLatestTurn (threadId : String) (receivedAtMs : Nat) : Bool :=
  0 < receivedAtMs &&
    ((s.turnFinishedAtByThread.lookup threadId).any (receivedAtMs < ·) ||
      (s.turnStartedAtByThread.lookup threadId).any (receivedAtMs < ·))

/-- The runtime after the completion of the given turn, or of whichever turn is current, and whether
the completion took effect. -/
def markTurnCompleted (threadId : String) (turnId : Option String) (nowMs : Nat) : RuntimeState T × Bool :=
  if turnId.any fun turnId => s.currentTurnByThread.lookup threadId ≠ some turnId then (s, false)
  else
    ({ s with
      startingTurnByThread := s.startingTurnByThread.erase threadId
      currentTurnByThread := s.currentTurnByThread.erase threadId
      turnFinishedAtByThread := s.turnFinishedAtByThread.insert threadId nowMs }, true)

def turnInProgress (threadId : String) : Bool :=
  (s.currentTurnByThread.lookup threadId).isSome || threadId ∈ s.startingTurnByThread

def queueOf (conversationKey : String) : List T :=
  (s.pendingTelegramTurnsByConversation.lookup conversationKey).getD []

def enqueueTelegramTurn (conversationKey : String) (turn : T) : RuntimeState T × Option Nat :=
  let queue := s.queueOf conversationKey
  let store queue := { s with
    pendingTelegramTurnsByConversation := s.pendingTelegramTurnsByConversation.insert conversationKey queue }
  if telegramQueuedTurnsMaxCount ≤ queue.length then (store queue, none)
  else (store (queue ++ [turn]), some (queue.length + 1))

def enqueueTelegramTurnIfActive (conversationKey : String) (turn : T) : RuntimeState T × TelegramQueueEnqueueOutcome :=
  match s.routeByThread.findKey? (·.conversationKey = conversationKey) with
  | none => (s, .notRunning)
  | some threadId =>
    if s.turnInProgress threadId then
      match s.enqueueTelegramTurn conversationKey turn with
      | (s, some position) => (s, .added position)
      | (s, none) => (s, .full)
    else (s, .notRunning)

def takeNextTelegramTurn (conversationKey : String) : RuntimeState T × Option T :=
  match s.pendingTelegramTurnsByConversation.lookup conversationKey with
  | none => (s, none)
  | some queue =>
    let rest := queue.tail
    let pending := s.pendingTelegramTurnsByConversation
    ({ s with
      pendingTelegramTurnsByConversation :=
        if rest = [] then pending.erase conversationKey else pending.insert conversationKey rest },
      queue.head?)

def requeueTelegramTurnFront (conversationKey : String) (turn : T) : RuntimeState T :=
  { s with
    pendingTelegramTurnsByConversation :=
      s.pendingTelegramTurnsByConversation.insert conversationKey (turn :: s.queueOf conversationKey) }

def clearTelegramQueue (conversationKey : String) : RuntimeState T :=
  { s with
    pendingTelegramTurnsByConversation := s.pendingTelegramTurnsByConversation.erase conversationKey }

/-- A new bridge generation starts without queues; routes and turn slots stay. -/
def startBridgeGeneration : RuntimeState T :=
  { s with
    bridgeGeneration := min (s.bridgeGeneration + 1) (UInt64.size - 1)
    pendingTelegramTurnsByConversation := ∅ }

variable {s}

variable {threadId conversationKey : String}

theorem unbind_current {turnId : String}
    (h : (s.unbindRoutesForConversation conversationKey).currentTurnByThread.lookup threadId = some turnId) :
    s.currentTurnByThread.lookup threadId = some turnId := by
  simp only [unbindRoutesForConversation, Table.lookup_retain, Option.filter_eq_some_iff] at h
  exact h.1

theorem mem_unbind_starting :
    threadId ∈ (s.unbindRoutesForConversation conversationKey).startingTurnByThread ↔
      threadId ∈ s.startingTurnByThread ∧ s.routedTo conversationKey threadId = false := by
  simp [unbindRoutesForConversation]

theorem tryMarkTurnStarting_eq_some {marked : RuntimeState T} (h : s.tryMarkTurnStarting threadId = some marked) :
    s.currentTurnByThread.lookup threadId = none ∧
      marked = { s with startingTurnByThread := insert threadId s.startingTurnByThread } := by
  unfold tryMarkTurnStarting at h
  split at h
  next => cases h
  next hcurrent =>
    split at h
    next => cases h
    next => exact ⟨by simpa using hcurrent, (Option.some.inj h).symm⟩

theorem markTurnCompleted_cases (threadId turnId : String) (nowMs : Nat) :
    (s.currentTurnByThread.lookup threadId ≠ some turnId ∧
      s.markTurnCompleted threadId (some turnId) nowMs = (s, false)) ∨
    (s.currentTurnByThread.lookup threadId = some turnId ∧
      s.markTurnCompleted threadId (some turnId) nowMs =
        ({ s with
          startingTurnByThread := s.startingTurnByThread.erase threadId
          currentTurnByThread := s.currentTurnByThread.erase threadId
          turnFinishedAtByThread := s.turnFinishedAtByThread.insert threadId nowMs }, true)) := by
  by_cases hcurrent : s.currentTurnByThread.lookup threadId = some turnId
  · exact .inr ⟨hcurrent, by simp [markTurnCompleted, hcurrent]⟩
  · exact .inl ⟨hcurrent, by simp [markTurnCompleted, hcurrent]⟩

theorem queue_insert (pending : Table String (List T)) (conversationKey : String) (queue : List T) (key : String) :
    ((pending.insert conversationKey queue).lookup key).getD [] =
      if key = conversationKey then queue else (pending.lookup key).getD [] := by
  rw [Table.lookup_insert_eq]
  split <;> rfl

theorem queue_erase (pending : Table String (List T)) (conversationKey key : String) :
    ((pending.erase conversationKey).lookup key).getD [] =
      if key = conversationKey then [] else (pending.lookup key).getD [] := by
  rw [Table.lookup_erase_eq]
  split <;> rfl

theorem queueOf_unbind (s : RuntimeState T) (conversationKey key : String) :
    (s.unbindRoutesForConversation conversationKey).queueOf key =
      if key = conversationKey ∧ s.routeByThread.keys.any (s.routedTo conversationKey) = true then []
      else s.queueOf key := by
  by_cases hbound : s.routeByThread.keys.any (s.routedTo conversationKey) = true
  · simp only [unbindRoutesForConversation, hbound, if_true, and_true]
    exact queue_erase ..
  · rw [if_neg fun hgone => hbound hgone.2]
    simp only [unbindRoutesForConversation, hbound]
    rfl

theorem enqueueTelegramTurnIfActive_cases (conversationKey : String) (turn : T) :
    ∃ pending, (s.enqueueTelegramTurnIfActive conversationKey turn).1 =
        { s with pendingTelegramTurnsByConversation := pending } ∧
      ((∀ position, (s.enqueueTelegramTurnIfActive conversationKey turn).2 ≠ .added position) ∧
          (∀ key, (pending.lookup key).getD [] = s.queueOf key) ∨
        (∃ position, (s.enqueueTelegramTurnIfActive conversationKey turn).2 = .added position) ∧
          (∃ threadId, s.routedTo conversationKey threadId = true ∧ s.turnInProgress threadId = true) ∧
          ∀ key, (pending.lookup key).getD [] =
            if key = conversationKey then s.queueOf key ++ [turn] else s.queueOf key) := by
  unfold enqueueTelegramTurnIfActive
  split
  next => exact ⟨s.pendingTelegramTurnsByConversation, rfl, .inl ⟨by simp, fun _ => rfl⟩⟩
  next threadId hfound =>
    obtain ⟨route, hroute, hkey⟩ := Table.lookup_of_findKey? hfound
    have hrouted : s.routedTo conversationKey threadId = true := by
      simpa [routedTo, hroute] using hkey
    split
    next hbusy =>
      unfold enqueueTelegramTurn
      split
      next state position hadd =>
        dsimp only at hadd
        split at hadd
        next => cases hadd
        next =>
          cases hadd
          refine ⟨_, rfl, .inr ⟨⟨_, rfl⟩, ⟨threadId, hrouted, hbusy⟩, fun key => ?_⟩⟩
          rw [queue_insert]
          split
          next he => rw [he]
          next => rfl
      next state hfull =>
        dsimp only at hfull
        split at hfull
        next =>
          cases hfull
          refine ⟨_, rfl, .inl ⟨by simp, fun key => ?_⟩⟩
          rw [queue_insert]
          split
          next he => rw [he]
          next => rfl
        next => cases hfull
    next => exact ⟨s.pendingTelegramTurnsByConversation, rfl, .inl ⟨by simp, fun _ => rfl⟩⟩

theorem takeNextTelegramTurn_cases (conversationKey : String) :
    ∃ pending, (s.takeNextTelegramTurn conversationKey).1 = { s with pendingTelegramTurnsByConversation := pending } ∧
      (s.takeNextTelegramTurn conversationKey).2 = (s.queueOf conversationKey).head? ∧
      ∀ key, (pending.lookup key).getD [] =
        if key = conversationKey then (s.queueOf key).tail else s.queueOf key := by
  unfold takeNextTelegramTurn
  split
  next hnone =>
    refine ⟨s.pendingTelegramTurnsByConversation, rfl, by simp [queueOf, hnone], fun key => ?_⟩
    split
    next he =>
      subst he
      simp [queueOf, hnone]
    next => rfl
  next queue hqueue =>
    refine ⟨_, rfl, by simp [queueOf, hqueue], fun key => ?_⟩
    by_cases hrest : queue.tail = []
    · rw [if_pos hrest, queue_erase]
      split
      next he =>
        subst he
        simp [queueOf, hqueue, hrest]
      next => rfl
    · rw [if_neg hrest, queue_insert]
      split
      next he =>
        subst he
        simp [queueOf, hqueue]
      next => rfl

theorem turnInProgress_iff : s.turnInProgress threadId = true ↔
    (s.currentTurnByThread.lookup threadId).isSome = true ∨ threadId ∈ s.startingTurnByThread := by
  simp [turnInProgress]

variable {threadId thread : String}

theorem turnInProgress_markTurnStarted (turnId : String) (nowMs : Nat)
    (h : thread = threadId ∨ s.turnInProgress thread = true) :
    (s.markTurnStarted threadId turnId nowMs).turnInProgress thread = true := by
  rw [turnInProgress_iff] at h ⊢
  simp only [markTurnStarted, Table.lookup_insert_eq, Finset.mem_erase]
  by_cases he : thread = threadId
  · simp [he]
  · simpa [he] using h

theorem turnInProgress_clearTurnStarting (h : s.turnInProgress thread = true)
    (hkept : thread ≠ threadId ∨ (s.currentTurnByThread.lookup thread).isSome = true) :
    (s.clearTurnStarting threadId).turnInProgress thread = true := by
  rw [turnInProgress_iff] at h ⊢
  simp only [clearTurnStarting, Finset.mem_erase]
  rcases hkept with hne | hcurrent
  · exact h.imp_right fun hm => ⟨hne, hm⟩
  · exact .inl hcurrent

theorem turnInProgress_markTurnCompleted (turnId : Option String) (nowMs : Nat) (h : s.turnInProgress thread = true)
    (hne : thread ≠ threadId) : (s.markTurnCompleted threadId turnId nowMs).1.turnInProgress thread = true := by
  unfold markTurnCompleted
  split
  next => exact h
  next =>
    rw [turnInProgress_iff] at h ⊢
    simp only [Table.lookup_erase_eq, if_neg hne, Finset.mem_erase]
    exact h.imp_right fun hm => ⟨hne, hm⟩

theorem turnInProgress_unbind {thread : String} (h : s.turnInProgress thread = true)
    (hrouted : s.routedTo conversationKey thread = false) :
    (s.unbindRoutesForConversation conversationKey).turnInProgress thread = true := by
  rw [turnInProgress_iff] at h ⊢
  refine h.imp (fun hcurrent => ?_) fun hm => mem_unbind_starting.mpr ⟨hm, hrouted⟩
  obtain ⟨turnId, hcurrent⟩ := Option.isSome_iff_exists.mp hcurrent
  simp [unbindRoutesForConversation, Table.lookup_retain, hcurrent, hrouted]

theorem turnInProgress_tryMark {marked : RuntimeState T} (hmark : s.tryMarkTurnStarting threadId = some marked)
    (h : s.turnInProgress thread = true) : thread ≠ threadId ∧ marked.turnInProgress thread = true := by
  have hfree : s.turnInProgress threadId = false := by
    unfold tryMarkTurnStarting at hmark
    split at hmark
    next => cases hmark
    next hcurrent =>
      split at hmark
      next => cases hmark
      next hstarting => simpa [turnInProgress, hstarting] using hcurrent
  have hne : thread ≠ threadId := by
    rintro rfl
    rw [hfree] at h
    cases h
  obtain ⟨-, rfl⟩ := tryMarkTurnStarting_eq_some hmark
  refine ⟨hne, ?_⟩
  rw [turnInProgress_iff] at h ⊢
  exact h.imp_right fun hm => Finset.mem_insert_of_mem hm

theorem queueOf_markTurnCompleted (s : RuntimeState T) (threadId : String) (turnId : Option String)
    (nowMs : Nat) (key : String) : (s.markTurnCompleted threadId turnId nowMs).1.queueOf key = s.queueOf key := by
  unfold markTurnCompleted
  split <;> rfl

theorem tryMarkTurnStarting_keeps {marked : RuntimeState T} (hmark : s.tryMarkTurnStarting threadId = some marked) :
    marked.routeByThread = s.routeByThread ∧ (∀ key, marked.queueOf key = s.queueOf key) ∧
      ∀ thread, s.turnInProgress thread = true → thread ≠ threadId ∧ marked.turnInProgress thread = true := by
  have hturns := fun thread => @turnInProgress_tryMark _ s threadId thread marked hmark
  obtain ⟨-, rfl⟩ := tryMarkTurnStarting_eq_some hmark
  exact ⟨rfl, fun _ => rfl, hturns⟩

end RuntimeState

end MochiPort

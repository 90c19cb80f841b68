import MochiPort.Runs
import MochiPort.ThreadRoutes

namespace MochiPort

open List RuntimeState

/-- What a task that has ended a turn does before it turns to the queue: `/stop` sends a message, `/exit`
is about to clear the queue, and the others wait for the lock on the starts from queues. -/
inductive HandlerPhase where
  | stopping
  | exiting
  | waiting
  deriving DecidableEq

structure QueueHandler where
  conversationKey : String
  phase : HandlerPhase
  deriving DecidableEq

/-- Where the holder of the lock on the starts from queues stands: between two messages, with one that it
has taken (then also with the thread of its conversation), with a `turn/start` under way, or on its way
out, to put the message back or to clear the queue. -/
inductive DispatchPhase where
  | looping
  | taken (message : Nat)
  | found (message : Nat) (threadId : String)
  | requested (threadId : String)
  | busy (message : Nat)
  | clearing
  deriving DecidableEq

structure Dispatcher where
  conversationKey : String
  phase : DispatchPhase
  deriving DecidableEq

/-- The runtime with its queues of messages, and the tasks that work on them. A message is known by its
number in the order of queueing. -/
structure QueueSystem where
  runtime : RuntimeState Nat
  -- the starts outside of the queues that wait for a response: thread and conversation
  directs : Table Nat (String × String)
  handlers : Table Nat QueueHandler
  dispatcher : Option Dispatcher
  -- the conversation of each message
  queued : List String
  -- the messages with which a `turn/start` was sent, with their conversations, in this order
  sent : List (String × Nat)
  -- the messages that a clear removed, or that were taken and given up with a notice to the chat
  dropped : List Nat

/-- Threads, turns and conversations that a step names are what earlier critical sections of its task
have read. -/
inductive QueueStep where
  | bindThread (threadId : String) (route : RouteTarget)
  | rebindApprovalRoute (threadId : String) (route : RouteTarget)
  | unbind (conversationKey : String)
  | startBridgeGeneration
  | enqueue (conversationKey : String)
  | startDirect (call : Nat) (threadId conversationKey : String) (receivedAtMs : Nat)
  | directStarted (call : Nat) (turnId : String) (nowMs : Nat)
  | directFailed (call : Nat)
  | directStale (call : Nat)
  | turnStarted (threadId turnId : String) (nowMs : Nat)
  -- `next` is the Telegram conversation to dispatch next: none without a route or an API for it, and for
  -- the cleanup of orphaned turns
  | completeTurn (handler : Nat) (threadId : String) (turnId next : Option String) (nowMs : Nat)
  | stopTurn (handler : Nat) (conversationKey threadId turnId : String) (nowMs : Nat)
  | stopMessage (handler : Nat) (delivered : Bool)
  | exitTurn (handler : Nat) (conversationKey : String) (active : Option (String × String)) (nowMs : Nat)
  | exitQueue (handler : Nat)
  | lockQueueStart (handler : Nat)
  | takeNext
  | refuse
  | findThread
  | tryMark (nowMs : Nat)
  | started (turnId : String) (nowMs : Nat)
  | failed
  | stale
  | requeue
  | clearQueue

namespace QueueSystem

/-- The conversation loses its threads, and with the first of them its queue. -/
def unbindRoutes (s : QueueSystem) (conversationKey : String) : QueueSystem :=
  { s with
    runtime := s.runtime.unbindRoutesForConversation conversationKey
    dropped :=
      if s.runtime.routeByThread.keys.any (s.runtime.routedTo conversationKey) then
        s.runtime.queueOf conversationKey ++ s.dropped
      else s.dropped }

def clearTelegramQueue (s : QueueSystem) (conversationKey : String) : QueueSystem :=
  { s with
    runtime := s.runtime.clearTelegramQueue conversationKey
    dropped := s.runtime.queueOf conversationKey ++ s.dropped }

def step (s : QueueSystem) : QueueStep → Option QueueSystem
  | .bindThread threadId route =>
    let unbound := s.unbindRoutes route.conversationKey
    some { unbound with runtime := unbound.runtime.bindRoute threadId route }
  | .rebindApprovalRoute threadId route => some { s with runtime := s.runtime.bindRoute threadId route }
  | .unbind conversationKey => some (s.unbindRoutes conversationKey)
  | .startBridgeGeneration =>
    some { s with
      runtime := s.runtime.startBridgeGeneration
      dropped := s.runtime.pendingTelegramTurnsByConversation.entries.flatMap (·.2) ++ s.dropped }
  | .enqueue conversationKey =>
    let outcome := s.runtime.enqueueTelegramTurnIfActive conversationKey s.queued.length
    match outcome.2 with
    | .added _ => some { s with runtime := outcome.1, queued := s.queued ++ [conversationKey] }
    | _ => some { s with runtime := outcome.1 }
  | .startDirect call threadId conversationKey receivedAtMs =>
    if (s.directs.lookup call).isSome then none
    else
      match s.runtime.tryMarkTurnStarting threadId with
      | none => some s
      | some runtime =>
        if runtime.messageIsStaleForLatestTurn threadId receivedAtMs then
          some { s with runtime := runtime.clearTurnStarting threadId }
        else some { s with runtime := runtime, directs := s.directs.insert call (threadId, conversationKey) }
  | .directStarted call turnId nowMs =>
    (s.directs.lookup call).map fun (threadId, _) =>
      { s with runtime := s.runtime.markTurnStarted threadId turnId nowMs, directs := s.directs.erase call }
  | .directFailed call =>
    (s.directs.lookup call).map fun (threadId, _) =>
      { s with runtime := s.runtime.clearTurnStarting threadId, directs := s.directs.erase call }
  | .directStale call =>
    (s.directs.lookup call).map fun (_, conversationKey) =>
      { s.unbindRoutes conversationKey with directs := s.directs.erase call }
  | .turnStarted threadId turnId nowMs =>
    some { s with runtime := s.runtime.markTurnStarted threadId turnId nowMs }
  | .completeTurn handler threadId turnId next nowMs =>
    if (s.handlers.lookup handler).isSome then none
    else
      let completed := s.runtime.markTurnCompleted threadId turnId nowMs
      match completed.2, next with
      | true, some conversationKey =>
        some { s with runtime := completed.1, handlers := s.handlers.insert handler ⟨conversationKey, .waiting⟩ }
      | _, _ => some { s with runtime := completed.1 }
  | .stopTurn handler conversationKey threadId turnId nowMs =>
    if (s.handlers.lookup handler).isSome then none
    else
      some { s with
        runtime := (s.runtime.markTurnCompleted threadId (some turnId) nowMs).1
        handlers := s.handlers.insert handler ⟨conversationKey, .stopping⟩ }
  -- an undelivered message ends the command before it turns to the queue
  | .stopMessage handler delivered =>
    match s.handlers.lookup handler with
    | some ⟨conversationKey, .stopping⟩ =>
      if delivered then some { s with handlers := s.handlers.insert handler ⟨conversationKey, .waiting⟩ }
      else some { s with handlers := s.handlers.erase handler }
    | _ => none
  | .exitTurn handler conversationKey active nowMs =>
    if (s.handlers.lookup handler).isSome then none
    else
      some { s with
        runtime :=
          match active with
          | none => s.runtime
          | some (threadId, turnId) => (s.runtime.markTurnCompleted threadId (some turnId) nowMs).1
        handlers := s.handlers.insert handler ⟨conversationKey, .exiting⟩ }
  | .exitQueue handler =>
    match s.handlers.lookup handler with
    | some ⟨conversationKey, .exiting⟩ =>
      some { s.clearTelegramQueue conversationKey with handlers := s.handlers.erase handler }
    | _ => none
  | .lockQueueStart handler =>
    match s.handlers.lookup handler, s.dispatcher with
    | some ⟨conversationKey, .waiting⟩, none =>
      let dispatcher := ⟨conversationKey, .looping⟩
      some { s with handlers := s.handlers.erase handler, dispatcher := some dispatcher }
    | _, _ => none
  | .takeNext =>
    match s.dispatcher with
    | some ⟨conversationKey, .looping⟩ =>
      let next := s.runtime.takeNextTelegramTurn conversationKey
      let dispatcher := next.2.map fun message => ⟨conversationKey, .taken message⟩
      some { s with runtime := next.1, dispatcher := dispatcher }
    | _ => none
  | .refuse =>
    match s.dispatcher with
    | some ⟨conversationKey, .taken message⟩ => some { s with dispatcher := some ⟨conversationKey, .busy message⟩ }
    | _ => none
  | .findThread =>
    match s.dispatcher with
    | some ⟨conversationKey, .taken message⟩ =>
      match s.runtime.routeByThread.findKey? (·.conversationKey = conversationKey) with
      | some threadId => some { s with dispatcher := some ⟨conversationKey, .found message threadId⟩ }
      | none =>
        some { s with dispatcher := some ⟨conversationKey, .clearing⟩, dropped := message :: s.dropped }
    | _ => none
  | .tryMark nowMs =>
    match s.dispatcher with
    | some ⟨conversationKey, .found message threadId⟩ =>
      match s.runtime.tryMarkTurnStarting threadId with
      | none => some { s with dispatcher := some ⟨conversationKey, .busy message⟩ }
      | some runtime =>
        if runtime.messageIsStaleForLatestTurn threadId nowMs then
          some { s with
            runtime := runtime.clearTurnStarting threadId
            dispatcher := some ⟨conversationKey, .looping⟩
            dropped := message :: s.dropped }
        else
          some { s with
            runtime := runtime
            dispatcher := some ⟨conversationKey, .requested threadId⟩
            sent := s.sent ++ [(conversationKey, message)] }
    | _ => none
  | .started turnId nowMs =>
    match s.dispatcher with
    | some ⟨_, .requested threadId⟩ =>
      some { s with runtime := s.runtime.markTurnStarted threadId turnId nowMs, dispatcher := none }
    | _ => none
  | .failed =>
    match s.dispatcher with
    | some ⟨conversationKey, .requested threadId⟩ =>
      some { s with
        runtime := s.runtime.clearTurnStarting threadId
        dispatcher := some ⟨conversationKey, .looping⟩ }
    | _ => none
  | .stale =>
    match s.dispatcher with
    | some ⟨conversationKey, .requested _⟩ =>
      some { s.unbindRoutes conversationKey with dispatcher := some ⟨conversationKey, .clearing⟩ }
    | _ => none
  | .requeue =>
    match s.dispatcher with
    | some ⟨conversationKey, .busy message⟩ =>
      some { s with
        runtime := s.runtime.requeueTelegramTurnFront conversationKey message
        dispatcher := none }
    | _ => none
  | .clearQueue =>
    match s.dispatcher with
    | some ⟨conversationKey, .clearing⟩ => some { s.clearTelegramQueue conversationKey with dispatcher := none }
    | _ => none

/-- The program starts with the routes that it has restored. -/
def start (routeByThread : Table String RouteTarget) : QueueSystem :=
  ⟨{ empty with routeByThread := routeByThread }, ∅, ∅, none, [], [], []⟩

def sentOf (s : QueueSystem) (conversationKey : String) : List Nat :=
  (s.sent.filter (·.1 = conversationKey)).map (·.2)

/-- The message that the dispatcher has taken and not yet sent. -/
def heldOf (s : QueueSystem) (conversationKey : String) : List Nat :=
  match s.dispatcher with
  | some ⟨key, .taken message⟩ | some ⟨key, .found message _⟩ | some ⟨key, .busy message⟩ =>
    if conversationKey = key then [message] else []
  | _ => []

/-- The messages of a conversation: first those that were sent, then the one that is taken, then those in
the queue. -/
def line (s : QueueSystem) (conversationKey : String) : List Nat :=
  s.sentOf conversationKey ++ s.heldOf conversationKey ++ s.runtime.queueOf conversationKey

/-- Every message is in the line of its conversation, in the order of queueing, or dropped. -/
structure Lined (s : QueueSystem) : Prop where
  ordered : ∀ key, (s.line key).Pairwise (· < ·)
  own : ∀ key, ∀ message ∈ s.line key, s.queued[message]? = some key
  somewhere : ∀ key message, s.queued[message]? = some key → message ∈ s.line key ∨ message ∈ s.dropped
  dropped : ∀ message ∈ s.dropped, message < s.queued.length ∧ ∀ key, message ∉ s.line key

variable {s t : QueueSystem}

section

variable (hs : s.Lined)
include hs

theorem Lined.shrink (hqueued : t.queued = s.queued) (hline : ∀ key, (t.line key).Sublist (s.line key))
    (hdropped : ∀ message, message ∈ t.dropped ↔
      message ∈ s.dropped ∨ ∃ key, message ∈ s.line key ∧ message ∉ t.line key) : t.Lined := by
  refine ⟨fun key => (hs.ordered key).sublist (hline key), fun key message hm => ?_,
    fun key message hm => ?_, fun message hm => ?_⟩
  · rw [hqueued]
    exact hs.own key message ((hline key).subset hm)
  · rw [hqueued] at hm
    rcases hs.somewhere key message hm with hline | hd
    · by_cases ht : message ∈ t.line key
      · exact .inl ht
      · exact .inr ((hdropped message).mpr (.inr ⟨key, hline, ht⟩))
    · exact .inr ((hdropped message).mpr (.inl hd))
  · rw [hqueued]
    rcases (hdropped message).mp hm with hd | ⟨key, hin, hout⟩
    · obtain ⟨hlt, hnot⟩ := hs.dropped message hd
      exact ⟨hlt, fun other ho => hnot other ((hline other).subset ho)⟩
    · have hown := hs.own key message hin
      refine ⟨(List.getElem?_eq_some_iff.mp hown).1, fun other ho => ?_⟩
      have hother := hs.own other message ((hline other).subset ho)
      rw [hown] at hother
      cases hother
      exact hout ho

theorem Lined.move (hqueued : t.queued = s.queued) (hdropped : t.dropped = s.dropped)
    (hline : ∀ key, t.line key = s.line key) : t.Lined := by
  refine hs.shrink hqueued (fun key => ?_) fun message => ?_
  · rw [hline key]
  · rw [hdropped]
    refine ⟨.inl, fun h => ?_⟩
    rcases h with hd | ⟨key, hin, hout⟩
    · exact hd
    · rw [hline key] at hout
      exact absurd hin hout

theorem Lined.clear (gone : String → Prop) (hqueued : t.queued = s.queued)
    (hsent : ∀ key, t.sentOf key ++ t.heldOf key = s.sentOf key ++ s.heldOf key)
    (hgone : ∀ key, gone key → t.runtime.queueOf key = [])
    (hkept : ∀ key, ¬gone key → t.runtime.queueOf key = s.runtime.queueOf key)
    (hdropped : ∀ message, message ∈ t.dropped ↔
      message ∈ s.dropped ∨ ∃ key, gone key ∧ message ∈ s.runtime.queueOf key) : t.Lined := by
  refine hs.shrink hqueued (fun key => ?_) fun message => ?_
  · unfold line
    rw [hsent key]
    by_cases hkey : gone key
    · rw [hgone key hkey, append_nil]
      exact sublist_append_left ..
    · rw [hkept key hkey]
  · rw [hdropped message]
    refine or_congr_right ⟨fun ⟨key, hkey, hin⟩ => ⟨key, ?_, ?_⟩, fun ⟨key, hin, hout⟩ => ⟨key, ?_⟩⟩
    · exact mem_append_right _ hin
    · unfold line
      rw [hsent key, hgone key hkey, append_nil]
      intro hearlier
      have hlt := (pairwise_append.mp (hs.ordered key)).2.2 message hearlier message hin
      omega
    · unfold line at hin hout
      rw [hsent key] at hout
      have hkey : gone key := by
        by_contra hkey
        rw [hkept key hkey] at hout
        exact hout hin
      rw [hgone key hkey, append_nil] at hout
      rcases mem_append.mp hin with hearlier | hlast
      · exact absurd hearlier hout
      · exact ⟨hkey, hlast⟩

section

variable (conversationKey : String)

theorem Lined.unbindRoutes : (s.unbindRoutes conversationKey).Lined := by
  have hqueue : ∀ key, (s.unbindRoutes conversationKey).runtime.queueOf key =
      if key = conversationKey ∧ s.runtime.routeByThread.keys.any (s.runtime.routedTo conversationKey) = true then []
      else s.runtime.queueOf key :=
    fun key => queueOf_unbind s.runtime conversationKey key
  refine hs.clear (fun key => key = conversationKey ∧
    s.runtime.routeByThread.keys.any (s.runtime.routedTo conversationKey) = true)
    rfl (fun _ => rfl) ?_ ?_ fun message => ?_
  · intro key hgone
    rw [hqueue, if_pos hgone]
  · intro key hkept
    rw [hqueue, if_neg hkept]
  · by_cases hbound : s.runtime.routeByThread.keys.any (s.runtime.routedTo conversationKey) = true
    · simp [QueueSystem.unbindRoutes, hbound, or_comm]
    · simp [QueueSystem.unbindRoutes, hbound]

theorem Lined.clearTelegramQueue : (s.clearTelegramQueue conversationKey).Lined := by
  have hqueue : ∀ key, (s.clearTelegramQueue conversationKey).runtime.queueOf key =
      if key = conversationKey then [] else s.runtime.queueOf key := fun key => queue_erase ..
  refine hs.clear (· = conversationKey) rfl (fun _ => rfl) ?_ ?_ fun message => ?_
  · intro key hkey
    rw [hqueue, if_pos hkey]
  · intro key hkey
    rw [hqueue, if_neg hkey]
  · simp [QueueSystem.clearTelegramQueue, or_comm]

theorem Lined.startBridgeGeneration :
    Lined { s with
      runtime := s.runtime.startBridgeGeneration
      dropped := s.runtime.pendingTelegramTurnsByConversation.entries.flatMap (·.2) ++ s.dropped } := by
  refine hs.clear (fun _ => True) rfl (fun _ => rfl) (fun _ _ => rfl) (fun _ h => absurd trivial h) ?_
  intro message
  simp only [mem_append, mem_flatMap, true_and]
  rw [or_comm]
  refine or_congr_right ⟨fun ⟨entry, hentry, hm⟩ => ⟨entry.1, ?_⟩, fun ⟨key, hm⟩ => ?_⟩
  · rw [queueOf, Table.lookup_eq_some_iff.mpr hentry]
    exact hm
  · unfold queueOf at hm
    cases hlookup : s.runtime.pendingTelegramTurnsByConversation.lookup key with
    | none => simp [hlookup] at hm
    | some queue =>
      rw [hlookup] at hm
      exact ⟨⟨key, queue⟩, Table.lookup_eq_some_iff.mp hlookup, hm⟩

theorem Lined.enqueue (runtime : RuntimeState Nat) (hqueue : ∀ key, runtime.queueOf key =
      if key = conversationKey then s.runtime.queueOf key ++ [s.queued.length] else s.runtime.queueOf key) :
    Lined { s with runtime := runtime, queued := s.queued ++ [conversationKey] } := by
  have hfresh : ∀ key, ∀ message ∈ s.line key, message < s.queued.length :=
    fun key message hm => (List.getElem?_eq_some_iff.mp (hs.own key message hm)).1
  have hline : ∀ key, line { s with runtime := runtime, queued := s.queued ++ [conversationKey] } key =
      if key = conversationKey then s.line key ++ [s.queued.length] else s.line key := by
    intro key
    refine (congrArg (s.sentOf key ++ s.heldOf key ++ ·) (hqueue key)).trans ?_
    split
    next => exact (append_assoc ..).symm
    next => rfl
  refine ⟨fun key => ?_, fun key message hm => ?_, fun key message hm => ?_, fun message hm => ?_⟩
  · rw [hline]
    split
    next =>
      refine pairwise_append.mpr ⟨hs.ordered key, pairwise_singleton _ _, ?_⟩
      intro message hm last hlast
      rw [mem_singleton.mp hlast]
      exact hfresh key message hm
    next => exact hs.ordered key
  · rw [hline] at hm
    split at hm
    next he =>
      rcases mem_append.mp hm with hm | hm
      · rw [List.getElem?_append_left (hfresh key message hm)]
        exact hs.own key message hm
      · rw [mem_singleton.mp hm, he]
        exact List.getElem?_concat_length
    next =>
      rw [List.getElem?_append_left (hfresh key message hm)]
      exact hs.own key message hm
  · rw [hline]
    by_cases hlt : message < s.queued.length
    · rw [List.getElem?_append_left hlt] at hm
      rcases hs.somewhere key message hm with hin | hd
      · refine .inl ?_
        split
        next => exact mem_append_left _ hin
        next => exact hin
      · exact .inr hd
    · have hlen := (List.getElem?_eq_some_iff.mp hm).1
      rw [length_append, length_singleton] at hlen
      have hlast : message = s.queued.length := by omega
      subst hlast
      rw [List.getElem?_concat_length] at hm
      cases hm
      rw [if_pos rfl]
      exact .inl (mem_append_right _ (mem_singleton_self _))
  · obtain ⟨hlt, hnot⟩ := hs.dropped message hm
    refine ⟨?_, fun key hin => ?_⟩
    · rw [length_append]
      omega
    · rw [hline] at hin
      split at hin
      next =>
        rcases mem_append.mp hin with hin | hin
        · exact hnot key hin
        · rw [mem_singleton.mp hin] at hlt
          omega
      next => exact hnot key hin

end

theorem Lined.handOver (runtime : RuntimeState Nat) (dispatcher : Option Dispatcher)
    (hmoved : ∀ key, heldOf { s with dispatcher := dispatcher } key ++ runtime.queueOf key =
      s.heldOf key ++ s.runtime.queueOf key) : Lined { s with runtime := runtime, dispatcher := dispatcher } := by
  refine hs.move rfl rfl fun key => ?_
  unfold line
  rw [append_assoc, append_assoc]
  exact congrArg (s.sentOf key ++ ·) (hmoved key)

variable {conversationKey : String}

theorem Lined.giveUp {message : Nat} (runtime : RuntimeState Nat) (dispatcher : Option Dispatcher)
    (hheld : ∀ key, s.heldOf key = if key = conversationKey then [message] else [])
    (hfree : ∀ key, heldOf { s with dispatcher := dispatcher } key = [])
    (hqueue : ∀ key, runtime.queueOf key = s.runtime.queueOf key) :
    Lined { s with runtime := runtime, dispatcher := dispatcher, dropped := message :: s.dropped } := by
  have hold : ∀ key, s.line key =
      s.sentOf key ++ (if key = conversationKey then [message] else []) ++ s.runtime.queueOf key := by
    intro key
    rw [line, hheld]
  have hnew : ∀ key,
      line { s with runtime := runtime, dispatcher := dispatcher, dropped := message :: s.dropped } key =
        s.sentOf key ++ s.runtime.queueOf key := by
    intro key
    refine (congrArg (s.sentOf key ++ · ++ runtime.queueOf key) (hfree key)).trans ?_
    rw [append_nil, hqueue]
  have hgone : message ∈ s.line conversationKey := by simp [hold]
  have hnot : message ∉ s.sentOf conversationKey ++ s.runtime.queueOf conversationKey := by
    have hordered := hs.ordered conversationKey
    rw [hold, if_pos rfl, append_assoc, pairwise_append, singleton_append,
      pairwise_cons] at hordered
    obtain ⟨-, ⟨hlater, -⟩, hearlier⟩ := hordered
    intro hm
    rcases mem_append.mp hm with hm | hm
    · exact Nat.lt_irrefl _ (hearlier message hm message (mem_cons_self ..))
    · exact Nat.lt_irrefl _ (hlater message hm)
  refine hs.shrink rfl (fun key => ?_) fun other => ?_
  · rw [hold, hnew]
    exact (sublist_append_left ..).append_right _
  · refine mem_cons.trans ⟨fun h => ?_, fun h => ?_⟩
    · rcases h with rfl | hd
      · refine .inr ⟨conversationKey, hgone, ?_⟩
        rwa [hnew]
      · exact .inl hd
    · rcases h with hd | ⟨key, hin, hout⟩
      · exact .inr hd
      · refine .inl ?_
        rw [hold] at hin
        rw [hnew] at hout
        by_cases hkey : key = conversationKey
        · rw [if_pos hkey] at hin
          simp only [mem_append, mem_singleton, not_or] at hin hout
          rcases hin with (hsent | rfl) | hqueued
          · exact absurd hsent hout.1
          · rfl
          · exact absurd hqueued hout.2
        · rw [if_neg hkey, append_nil] at hin
          exact absurd hin hout

theorem Lined.send {message : Nat} (runtime : RuntimeState Nat) (dispatcher : Option Dispatcher)
    (hheld : ∀ key, s.heldOf key = if key = conversationKey then [message] else [])
    (hfree : ∀ key, heldOf { s with dispatcher := dispatcher } key = [])
    (hqueue : ∀ key, runtime.queueOf key = s.runtime.queueOf key) :
    let sent := s.sent ++ [(conversationKey, message)]
    Lined { s with runtime := runtime, dispatcher := dispatcher, sent := sent } := by
  refine hs.move rfl rfl fun key => ?_
  have hsent : sentOf { s with sent := s.sent ++ [(conversationKey, message)] } key =
      s.sentOf key ++ if key = conversationKey then [message] else [] := by
    unfold sentOf
    by_cases hkey : key = conversationKey
    · simp [hkey]
    · simp [hkey, Ne.symm hkey]
  rw [line, line, hheld, ← hsent, ← hqueue]
  exact congrArg (sentOf { s with sent := s.sent ++ [(conversationKey, message)] } key ++ · ++ runtime.queueOf key)
    (hfree key) |>.trans (by rw [append_nil])

theorem Lined.keep (runtime : RuntimeState Nat) (directs : Table Nat (String × String))
    (handlers : Table Nat QueueHandler) (hqueue : ∀ key, runtime.queueOf key = s.runtime.queueOf key) :
    Lined { s with runtime := runtime, directs := directs, handlers := handlers } :=
  hs.move rfl rfl fun key => congrArg (s.sentOf key ++ s.heldOf key ++ ·) (hqueue key)

theorem takeNext_lined (hdispatcher : s.dispatcher = some ⟨conversationKey, .looping⟩) :
    let next := s.runtime.takeNextTelegramTurn conversationKey
    let dispatcher := next.2.map fun message => ⟨conversationKey, .taken message⟩
    Lined { s with runtime := next.1, dispatcher := dispatcher } := by
  obtain ⟨pending, hruntime, hhead, hpending⟩ :=
    takeNextTelegramTurn_cases (s := s.runtime) conversationKey
  dsimp only
  rw [hruntime, hhead]
  refine hs.handOver _ _ fun key => ?_
  have hfree : s.heldOf key = [] := by
    unfold heldOf
    rw [hdispatcher]
  have hrest : queueOf { s.runtime with pendingTelegramTurnsByConversation := pending } key =
      if key = conversationKey then (s.runtime.queueOf key).tail else s.runtime.queueOf key :=
    hpending key
  rw [hfree, hrest, nil_append]
  unfold heldOf
  cases hqueue : s.runtime.queueOf conversationKey with
  | nil =>
    simp only [List.head?_nil, Option.map_none, nil_append]
    split
    next he => rw [he, hqueue]; rfl
    next => rfl
  | cons message rest =>
    simp only [List.head?_cons, Option.map_some]
    split
    next he => rw [he, hqueue]; rfl
    next => rfl

theorem step_lined {a : QueueStep} (h : s.step a = some t) : t.Lined := by
  cases a with
  | bindThread threadId route =>
    cases h
    exact (hs.unbindRoutes route.conversationKey).keep _ _ _ fun _ => rfl
  | rebindApprovalRoute threadId route
  | turnStarted threadId turnId nowMs => cases h; exact hs.keep _ _ _ fun _ => rfl
  | unbind conversationKey => cases h; exact hs.unbindRoutes conversationKey
  | startBridgeGeneration => cases h; exact hs.startBridgeGeneration
  | enqueue conversationKey =>
    obtain ⟨pending, hruntime, ⟨hnot, hpending⟩ | ⟨⟨position, hadded⟩, -, hpending⟩⟩ :=
      enqueueTelegramTurnIfActive_cases (s := s.runtime) conversationKey s.queued.length
    · simp only [step] at h
      cases h
      rw [hruntime]
      exact hs.keep _ _ _ hpending
    · simp only [step, hadded, hruntime] at h
      cases h
      exact hs.enqueue conversationKey _ hpending
  | startDirect call threadId conversationKey receivedAtMs =>
    simp only [step] at h
    split at h
    next => cases h
    split at h
    next => cases h; exact hs
    next marked hmark =>
      obtain ⟨-, hqueue, -⟩ := tryMarkTurnStarting_keeps hmark
      split at h
      next => cases h; exact hs.keep _ _ _ hqueue
      next => cases h; exact hs.keep _ _ _ hqueue
  | directStarted call turnId nowMs | directFailed call =>
    obtain ⟨direct, hdirect, rfl⟩ := Option.map_eq_some_iff.mp h
    exact hs.keep _ _ _ fun _ => rfl
  | directStale call =>
    obtain ⟨direct, hdirect, rfl⟩ := Option.map_eq_some_iff.mp h
    exact (hs.unbindRoutes direct.2).keep _ _ _ fun _ => rfl
  | completeTurn handler threadId turnId next nowMs =>
    have hqueue := queueOf_markTurnCompleted s.runtime threadId turnId nowMs
    simp only [step] at h
    split at h
    next => cases h
    split at h
    next => cases h; exact hs.keep _ _ _ hqueue
    next => cases h; exact hs.keep _ _ _ hqueue
  | stopTurn handler conversationKey threadId turnId nowMs =>
    simp only [step] at h
    split at h
    next => cases h
    next => cases h; exact hs.keep _ _ _ (queueOf_markTurnCompleted _ _ _ _)
  | stopMessage handler delivered =>
    simp only [step] at h
    split at h
    next =>
      split at h
      next => cases h; exact hs.keep _ _ _ fun _ => rfl
      next => cases h; exact hs.keep _ _ _ fun _ => rfl
    next => cases h
  | exitTurn handler conversationKey active nowMs =>
    simp only [step] at h
    split at h
    next => cases h
    cases h
    refine hs.keep _ _ _ fun key => ?_
    cases active with
    | none => rfl
    | some turn => exact queueOf_markTurnCompleted ..
  | exitQueue handler =>
    simp only [step] at h
    split at h
    next conversationKey _ => cases h; exact (hs.clearTelegramQueue conversationKey).keep _ _ _ fun _ => rfl
    next => cases h
  | lockQueueStart handler =>
    simp only [step] at h
    split at h
    next hdispatcher =>
      cases h
      refine hs.move rfl rfl fun key => ?_
      simp [line, heldOf, sentOf, hdispatcher]
    next => cases h
  | takeNext =>
    simp only [step] at h
    split at h
    next hdispatcher => cases h; exact takeNext_lined hs hdispatcher
    next => cases h
  | refuse =>
    simp only [step] at h
    split at h
    next hdispatcher =>
      cases h
      refine hs.handOver _ _ fun key => ?_
      simp [heldOf, hdispatcher]
    next => cases h
  | findThread =>
    simp only [step] at h
    split at h
    next conversationKey message hdispatcher =>
      split at h
      next =>
        cases h
        refine hs.handOver _ _ fun key => ?_
        simp [heldOf, hdispatcher]
      next =>
        cases h
        refine @Lined.giveUp s hs conversationKey message _ _ (fun key => ?_) (fun _ => rfl) fun _ => rfl
        simp [heldOf, hdispatcher]
    next => cases h
  | tryMark nowMs =>
    simp only [step] at h
    split at h
    next conversationKey message threadId hdispatcher =>
      have hheld : ∀ key, s.heldOf key = if key = conversationKey then [message] else [] := by
        intro key
        simp [heldOf, hdispatcher]
      split at h
      next =>
        cases h
        refine hs.handOver _ _ fun key => ?_
        simp [heldOf, hdispatcher]
      next marked hmark =>
        obtain ⟨-, hqueue, -⟩ := tryMarkTurnStarting_keeps hmark
        split at h
        next => cases h; exact hs.giveUp _ _ hheld (fun _ => rfl) hqueue
        next => cases h; exact hs.send _ _ hheld (fun _ => rfl) hqueue
    next => cases h
  | started turnId nowMs | failed =>
    simp only [step] at h
    split at h
    next hdispatcher =>
      cases h
      refine hs.handOver _ _ fun key => ?_
      simp only [heldOf, hdispatcher]
      rfl
    next => cases h
  | stale =>
    simp only [step] at h
    split at h
    next conversationKey _ hdispatcher =>
      cases h
      refine (hs.unbindRoutes conversationKey).move rfl rfl fun key => ?_
      simp [line, heldOf, sentOf, QueueSystem.unbindRoutes, hdispatcher]
    next => cases h
  | requeue =>
    simp only [step] at h
    split at h
    next conversationKey message hdispatcher =>
      cases h
      refine hs.handOver _ _ fun key => ?_
      have hqueue : (s.runtime.requeueTelegramTurnFront conversationKey message).queueOf key =
          if key = conversationKey then message :: s.runtime.queueOf conversationKey
          else s.runtime.queueOf key := queue_insert ..
      rw [hqueue]
      simp only [heldOf, hdispatcher]
      split
      next he => rw [he]; rfl
      next => rfl
    next => cases h
  | clearQueue =>
    simp only [step] at h
    split at h
    next conversationKey hdispatcher =>
      cases h
      refine (hs.clearTelegramQueue conversationKey).move rfl rfl fun key => ?_
      simp [line, heldOf, sentOf, QueueSystem.clearTelegramQueue, hdispatcher]
    next => cases h

end

theorem start_lined (routeByThread : Table String RouteTarget) : (start routeByThread).Lined := by
  have hline : ∀ key, (start routeByThread).line key = [] := fun _ => rfl
  refine ⟨fun key => ?_, fun key message hm => ?_, fun key message hm => ?_, fun message hm => ?_⟩
  · rw [hline]
    exact .nil
  · rw [hline] at hm
    cases hm
  · cases hm
  · cases hm

end QueueSystem

end MochiPort

import MochiPort.QueuedTurns

namespace MochiPort

open List Option RuntimeState

namespace QueueSystem

/-- A thread of the conversation, other than `but`, has a turn that is running or starting. -/
def Busy (s : QueueSystem) (conversationKey : String) (but : Option String) : Prop :=
  ∃ threadId, some threadId ≠ but ∧ s.runtime.keyOf threadId = some conversationKey ∧
    s.runtime.turnInProgress threadId = true

/-- A task other than `but` has ended a turn and is on its way to the queue of the conversation. -/
def Handled (s : QueueSystem) (conversationKey : String) (but : Option Nat) : Prop :=
  ∃ handler, some handler ≠ but ∧
    (s.handlers.lookup handler).map (·.conversationKey) = some conversationKey

def Dispatching (s : QueueSystem) (conversationKey : String) : Prop :=
  s.dispatcher.map (·.conversationKey) = some conversationKey

/-- The queue of the conversation is empty, or a turn or a task leads to it, also without the given
thread and the given task. -/
def AttendedBut (s : QueueSystem) (conversationKey : String) (thread : Option String) (handler : Option Nat) : Prop :=
  s.runtime.queueOf conversationKey = [] ∨ s.Busy conversationKey thread ∨
    s.Handled conversationKey handler ∨ s.Dispatching conversationKey

def Bound (s : QueueSystem) (conversationKey : String) : Prop :=
  ∃ threadId, s.runtime.keyOf threadId = some conversationKey

/-- No bound conversation has a queue that nothing leads to. -/
def Attended (s : QueueSystem) : Prop :=
  ∀ conversationKey, s.Bound conversationKey → s.AttendedBut conversationKey none none

/-- A thread that gets a route finds the new conversation attended or brings a turn to it, and leaves
its old one attended or unbound. -/
def RouteAttended (s : QueueSystem) (threadId conversationKey : String) : Prop :=
  (s.Bound conversationKey ∨ s.runtime.turnInProgress threadId = true ∨
    s.AttendedBut conversationKey none none) ∧
  ∀ old ∈ s.runtime.keyOf threadId, old ≠ conversationKey →
    s.AttendedBut old (some threadId) none ∨
      ∀ thread ∈ s.runtime.routeByThread.keys, s.runtime.keyOf thread = some old → thread = threadId

/-- The end of a turn is followed by a look at the queue, or the queue is attended without the thread. -/
def EndAttended (s : QueueSystem) (threadId : String) (next : Option String) : Prop :=
  ∀ key ∈ s.runtime.keyOf threadId, next = some key ∨ s.AttendedBut key (some threadId) none

def CompletionAttended (s : QueueSystem) (threadId : String) (turnId next : Option String) : Prop :=
  (∀ ended ∈ turnId, s.runtime.currentTurnByThread.lookup threadId = some ended) →
    s.EndAttended threadId next

def FailureAttended (s : QueueSystem) (threadId : String) : Prop :=
  (s.runtime.currentTurnByThread.lookup threadId).isSome = true ∨ s.EndAttended threadId none

/-- What a step takes away from the attendance of a queue is made up for at once. -/
def Attentive (s : QueueSystem) : QueueStep → Prop
  | .bindThread threadId route | .rebindApprovalRoute threadId route =>
    s.RouteAttended threadId route.conversationKey
  | .directFailed call => ∀ direct ∈ s.directs.lookup call, s.FailureAttended direct.1
  | .completeTurn _ threadId turnId next _ => s.CompletionAttended threadId turnId next
  | .stopTurn _ conversationKey threadId turnId _ =>
    s.CompletionAttended threadId (some turnId) (some conversationKey)
  | .exitTurn _ conversationKey active _ =>
    ∀ turn ∈ active, s.CompletionAttended turn.1 (some turn.2) (some conversationKey)
  | .stopMessage handler delivered =>
    delivered = true ∨ ∀ found ∈ s.handlers.lookup handler,
      s.Bound found.conversationKey → s.AttendedBut found.conversationKey none (some handler)
  | .started _ _ =>
    ∀ dispatcher ∈ s.dispatcher, s.Bound dispatcher.conversationKey →
      s.runtime.queueOf dispatcher.conversationKey = [] ∨ s.Busy dispatcher.conversationKey none ∨
        s.Handled dispatcher.conversationKey none ∨
        ∃ threadId ∈ s.runtime.routeByThread.keys, dispatcher.phase = .requested threadId ∧
          s.runtime.keyOf threadId = some dispatcher.conversationKey
  | .failed =>
    ∀ dispatcher ∈ s.dispatcher, ∀ threadId ∈ s.runtime.routeByThread.keys,
      dispatcher.phase = .requested threadId → s.FailureAttended threadId
  | .requeue =>
    ∀ dispatcher ∈ s.dispatcher, s.Bound dispatcher.conversationKey →
      s.Busy dispatcher.conversationKey none ∨ s.Handled dispatcher.conversationKey none
  | _ => True

theorem mem_keys_of_keyOf {s : QueueSystem} {threadId key : String} (h : s.runtime.keyOf threadId = some key) :
    threadId ∈ s.runtime.routeByThread.keys := by
  obtain ⟨route, hroute, -⟩ := map_eq_some_iff.mp h
  exact AList.lookup_isSome.mp (isSome_of_eq_some hroute)

instance (s : QueueSystem) (key : String) (but : Option String) : Decidable (s.Busy key but) :=
  decidable_of_iff (∃ threadId ∈ s.runtime.routeByThread.keys, some threadId ≠ but ∧
      s.runtime.keyOf threadId = some key ∧ s.runtime.turnInProgress threadId = true)
    ⟨fun ⟨threadId, _, h⟩ => ⟨threadId, h⟩, fun ⟨threadId, h⟩ => ⟨threadId, mem_keys_of_keyOf h.2.1, h⟩⟩

instance (s : QueueSystem) (key : String) (but : Option Nat) : Decidable (s.Handled key but) :=
  decidable_of_iff (∃ handler ∈ s.handlers.keys, some handler ≠ but ∧
      (s.handlers.lookup handler).map (·.conversationKey) = some key)
    ⟨fun ⟨handler, _, h⟩ => ⟨handler, h⟩, fun ⟨handler, h⟩ =>
      ⟨handler, AList.lookup_isSome.mp (by simpa using congrArg Option.isSome h.2), h⟩⟩

instance (s : QueueSystem) (key : String) : Decidable (s.Dispatching key) :=
  inferInstanceAs (Decidable (_ = _))

instance (s : QueueSystem) (key : String) (thread : Option String) (handler : Option Nat) :
    Decidable (s.AttendedBut key thread handler) :=
  inferInstanceAs (Decidable (_ ∨ _))

instance (s : QueueSystem) (key : String) : Decidable (s.Bound key) :=
  decidable_of_iff (∃ threadId ∈ s.runtime.routeByThread.keys, s.runtime.keyOf threadId = some key)
    ⟨fun ⟨threadId, _, h⟩ => ⟨threadId, h⟩, fun ⟨threadId, h⟩ => ⟨threadId, mem_keys_of_keyOf h, h⟩⟩

instance (s : QueueSystem) (threadId conversationKey : String) : Decidable (s.RouteAttended threadId conversationKey) :=
  inferInstanceAs (Decidable (_ ∧ _))

instance (s : QueueSystem) (threadId : String) (next : Option String) : Decidable (s.EndAttended threadId next) := by
  unfold EndAttended
  infer_instance

instance (s : QueueSystem) (threadId : String) (turnId next : Option String) :
    Decidable (s.CompletionAttended threadId turnId next) := by
  unfold CompletionAttended
  infer_instance

instance (s : QueueSystem) (threadId : String) : Decidable (s.FailureAttended threadId) :=
  inferInstanceAs (Decidable (_ ∨ _))

instance (s : QueueSystem) (a : QueueStep) : Decidable (s.Attentive a) := by
  cases a <;> unfold Attentive <;> infer_instance

variable {s t : QueueSystem}

theorem AttendedBut.of_busy {key threadId : String} (hkey : s.runtime.keyOf threadId = some key)
    (h : s.runtime.turnInProgress threadId = true) : s.AttendedBut key none none :=
  .inr (.inl ⟨threadId, some_ne_none threadId, hkey, h⟩)

variable {key : String}

theorem AttendedBut.of_handled (h : s.Handled key none) : s.AttendedBut key none none :=
  .inr (.inr (.inl h))

theorem AttendedBut.of_dispatching (h : s.Dispatching key) : s.AttendedBut key none none :=
  .inr (.inr (.inr h))

theorem AttendedBut.carry {but : Option String} (hs : s.AttendedBut key but none)
    (hqueue : s.runtime.queueOf key = [] → t.runtime.queueOf key = [])
    (hbusy : ∀ thread, some thread ≠ but → s.runtime.keyOf thread = some key →
      s.runtime.turnInProgress thread = true → t.AttendedBut key none none)
    (hhandled : s.Handled key none → t.AttendedBut key none none)
    (hdispatching : s.Dispatching key → t.AttendedBut key none none) : t.AttendedBut key none none := by
  rcases hs with hempty | ⟨thread, hne, hkey, hturn⟩ | hhandler | hdispatcher
  · exact .inl (hqueue hempty)
  · exact hbusy thread hne hkey hturn
  · exact hhandled hhandler
  · exact hdispatching hdispatcher

theorem Attended.lose (hs : s.Attended) (threadId : String)
    (hroutes : t.runtime.routeByThread = s.runtime.routeByThread)
    (hqueue : ∀ key, t.runtime.queueOf key = s.runtime.queueOf key)
    (hothers : ∀ thread, thread ≠ threadId → s.runtime.turnInProgress thread = true →
      t.runtime.turnInProgress thread = true) (hhandled : ∀ key, s.Handled key none → t.Handled key none)
    (hdispatching : ∀ key, s.Dispatching key → t.Dispatching key)
    (hlost : ∀ key, s.runtime.keyOf threadId = some key → s.runtime.turnInProgress threadId = true →
      t.AttendedBut key none none ∨ s.AttendedBut key (some threadId) none) : t.Attended := by
  have hkeyOf := keyOf_congr hroutes
  have hcarry : ∀ {key but}, s.AttendedBut key but none →
      (but = none → s.runtime.keyOf threadId = some key → s.runtime.turnInProgress threadId = true →
        t.AttendedBut key none none) →
      (but = none ∨ but = some threadId) → t.AttendedBut key none none := by
    intro key but hattended hown hbut
    refine hattended.carry (fun h => (hqueue key).trans h) (fun thread hne hkey hturn => ?_)
      (fun h => .of_handled (hhandled key h)) fun h => .of_dispatching (hdispatching key h)
    by_cases hthread : thread = threadId
    · subst hthread
      rcases hbut with hbut | hbut
      · exact hown hbut hkey hturn
      · exact absurd hbut.symm hne
    · exact .of_busy ((hkeyOf thread).trans hkey) (hothers thread hthread hturn)
  rintro key ⟨thread, hkey⟩
  rw [hkeyOf] at hkey
  refine hcarry (hs key ⟨thread, hkey⟩) (fun _ hown hturn => ?_) (.inl rfl)
  rcases hlost key hown hturn with hattended | hattended
  · exact hattended
  · exact hcarry hattended (fun h => absurd h (some_ne_none _)) (.inr rfl)

theorem Attended.keep (hs : s.Attended) (hroutes : t.runtime.routeByThread = s.runtime.routeByThread)
    (hqueue : ∀ key, s.runtime.queueOf key = [] → t.runtime.queueOf key = [])
    (hturns : ∀ thread, s.runtime.turnInProgress thread = true → t.runtime.turnInProgress thread = true)
    (hhandled : ∀ key, t.Bound key → s.Handled key none → t.AttendedBut key none none)
    (hdispatching : ∀ key, t.Bound key → s.Dispatching key → t.AttendedBut key none none) : t.Attended := by
  have hkeyOf := keyOf_congr hroutes
  rintro key ⟨thread, hkey⟩
  have hbound : t.Bound key := ⟨thread, hkey⟩
  rw [hkeyOf] at hkey
  exact (hs key ⟨thread, hkey⟩).carry (hqueue key)
    (fun busy _ hbusy hturn => .of_busy ((hkeyOf busy).trans hbusy) (hturns busy hturn))
    (hhandled key hbound) (hdispatching key hbound)

theorem Attended.sameTasks (hs : s.Attended) (runtime : RuntimeState Nat) (directs : Table Nat (String × String))
    (hroutes : runtime.routeByThread = s.runtime.routeByThread)
    (hqueue : ∀ key, runtime.queueOf key = s.runtime.queueOf key)
    (hturns : ∀ thread, s.runtime.turnInProgress thread = true → runtime.turnInProgress thread = true) :
    Attended { s with runtime := runtime, directs := directs } := by
  refine hs.keep hroutes (fun key h => ?_) hturns (fun _ _ h => .of_handled h) fun _ _ h => .of_dispatching h
  exact (hqueue key).trans h

variable {conversationKey : String}

theorem AttendedBut.unbindRoutes {key : String} {but : Option String} (hs : s.AttendedBut key but none)
    (hne : key ≠ conversationKey) : (s.unbindRoutes conversationKey).AttendedBut key but none := by
  have hqueue : (s.unbindRoutes conversationKey).runtime.queueOf key = s.runtime.queueOf key :=
    (queueOf_unbind ..).trans (if_neg fun hgone => hne hgone.1)
  rcases hs with hempty | ⟨thread, hbut, hkey, hturn⟩ | hhandler | hdispatcher
  · exact .inl (hqueue.trans hempty)
  · refine .inr (.inl ⟨thread, hbut, (keyOf_unbindRoutes ..).mpr ⟨hkey, hne⟩, ?_⟩)
    refine turnInProgress_unbind hturn ?_
    rw [Bool.eq_false_iff, ne_eq, routedTo_iff, hkey]
    exact fun h => hne (Option.some.inj h)
  · exact .inr (.inr (.inl hhandler))
  · exact .inr (.inr (.inr hdispatcher))

theorem Attended.unbindRoutes (hs : s.Attended) (conversationKey : String) :
    (s.unbindRoutes conversationKey).Attended := by
  rintro key ⟨thread, hkey⟩
  obtain ⟨hkey, hne⟩ := (keyOf_unbindRoutes ..).mp hkey
  exact (hs key ⟨thread, hkey⟩).unbindRoutes hne

theorem queueOf_unbindRoutes (hbound : s.Bound conversationKey) :
    (s.unbindRoutes conversationKey).runtime.queueOf conversationKey = [] := by
  obtain ⟨thread, hkey⟩ := hbound
  have hany : s.runtime.routeByThread.keys.any (s.runtime.routedTo conversationKey) = true :=
    any_eq_true.mpr ⟨thread, mem_keys_of_keyOf hkey, routedTo_iff.mpr hkey⟩
  exact (queueOf_unbind ..).trans (if_pos ⟨rfl, hany⟩)

variable {threadId : String}

theorem Attended.bindRoute (hs : s.Attended) {route : RouteTarget}
    (hroute : s.RouteAttended threadId route.conversationKey) :
    Attended { s with runtime := s.runtime.bindRoute threadId route } := by
  obtain ⟨hnew, hold⟩ := hroute
  have hcarry : ∀ {key but}, s.AttendedBut key but none →
      (key = route.conversationKey ∨ s.runtime.keyOf threadId ≠ some key ∨ but = some threadId) →
      AttendedBut { s with runtime := s.runtime.bindRoute threadId route } key none none := by
    intro key but hattended hwho
    refine hattended.carry (fun h => h) (fun thread hne hkey hturn => ?_)
      (fun h => .of_handled h) fun h => .of_dispatching h
    refine .of_busy ?_ hturn
    rw [keyOf_bindRoute]
    split
    next he =>
      subst he
      rcases hwho with rfl | hwho | rfl
      · rfl
      · exact absurd hkey hwho
      · exact absurd rfl hne
    next => exact hkey
  rintro key ⟨thread, hkey⟩
  by_cases hkeys : key = route.conversationKey
  · subst hkeys
    rcases hnew with hbound | hturn | hattended
    · exact hcarry (hs _ hbound) (.inl rfl)
    · exact .of_busy ((keyOf_bindRoute ..).trans (if_pos rfl)) hturn
    · exact hcarry hattended (.inl rfl)
  · rw [keyOf_bindRoute] at hkey
    split at hkey
    next => exact absurd (Option.some.inj hkey).symm hkeys
    next hthread =>
      by_cases hown : s.runtime.keyOf threadId = some key
      · rcases hold key hown hkeys with hattended | hlast
        · exact hcarry hattended (.inr (.inr rfl))
        · exact absurd (hlast thread (mem_keys_of_keyOf hkey) hkey) hthread
      · exact hcarry (hs key ⟨thread, hkey⟩) (.inr (.inl hown))

theorem RouteAttended.unbindRoutes {threadId : String} (h : s.RouteAttended threadId conversationKey) :
    (s.unbindRoutes conversationKey).RouteAttended threadId conversationKey := by
  obtain ⟨hnew, hold⟩ := h
  refine ⟨?_, fun old hkey hne => ?_⟩
  · by_cases hbound : s.Bound conversationKey
    · exact .inr (.inr (.inl (queueOf_unbindRoutes hbound)))
    · rcases hnew with hbound' | hturn | hempty | ⟨thread, _, hkey, _⟩ | hhandler | hdispatcher
      · exact absurd hbound' hbound
      · refine .inr (.inl (turnInProgress_unbind hturn ?_))
        rw [Bool.eq_false_iff, ne_eq, routedTo_iff]
        exact fun hkey => hbound ⟨threadId, hkey⟩
      · refine .inr (.inr (.inl ((queueOf_unbind ..).trans ?_)))
        rw [hempty, ite_self]
      · exact absurd ⟨thread, hkey⟩ hbound
      · exact .inr (.inr (.of_handled hhandler))
      · exact .inr (.inr (.of_dispatching hdispatcher))
  · obtain ⟨hkey, -⟩ := (keyOf_unbindRoutes ..).mp hkey
    rcases hold old hkey hne with hattended | hlast
    · exact .inl (hattended.unbindRoutes hne)
    · refine .inr fun thread _ hthread => ?_
      obtain ⟨hthread, -⟩ := (keyOf_unbindRoutes ..).mp hthread
      exact hlast thread (mem_keys_of_keyOf hthread) hthread

variable {handler : Nat}

variable {found : QueueHandler}

theorem Handled.insert (h : s.Handled key none)
    (hfound : ∀ old, s.handlers.lookup handler = some old → old.conversationKey = found.conversationKey)
    (ht : t.handlers = s.handlers.insert handler found) : t.Handled key none := by
  obtain ⟨other, hne, hother⟩ := h
  refine ⟨other, hne, ?_⟩
  rw [ht, Table.lookup_insert_eq]
  split
  next he =>
    subst he
    obtain ⟨old, hold, hkey⟩ := map_eq_some_iff.mp hother
    rw [map_some, ← hfound old hold, hkey]
  next => exact hother

theorem Handled.insertNew (h : s.Handled key none) (hnew : ¬(s.handlers.lookup handler).isSome = true)
    (ht : t.handlers = s.handlers.insert handler found) : t.Handled key none := by
  refine h.insert (fun old hold => ?_) ht
  rw [hold] at hnew
  exact absurd rfl hnew

theorem handled_insert (ht : t.handlers = s.handlers.insert handler found) : t.Handled found.conversationKey none := by
  refine ⟨handler, some_ne_none handler, ?_⟩
  rw [ht, Table.lookup_insert_eq, if_pos rfl]
  rfl

theorem Handled.erase (h : s.Handled key none) (hfound : s.handlers.lookup handler = some found) :
    key = found.conversationKey ∨ Handled { s with handlers := s.handlers.erase handler } key none := by
  obtain ⟨other, hne, hother⟩ := h
  by_cases he : other = handler
  · subst he
    rw [hfound] at hother
    exact .inl (Option.some.inj hother).symm
  · refine .inr ⟨other, hne, ?_⟩
    rwa [Table.lookup_erase_eq, if_neg he]

section

variable (hs : s.Attended)
include hs

theorem Attended.complete {turnId next : Option String} (nowMs : Nat)
    (hend : s.CompletionAttended threadId turnId next) (handlers : Table Nat QueueHandler)
    (hhandled : ∀ key, s.Handled key none → Handled { s with handlers := handlers } key none)
    (hnext : ∀ key, next = some key → (s.runtime.markTurnCompleted threadId turnId nowMs).2 = true →
      Handled { s with handlers := handlers } key none) :
    let runtime := (s.runtime.markTurnCompleted threadId turnId nowMs).1
    Attended { s with runtime := runtime, handlers := handlers } := by
  by_cases hother : (turnId.any fun turnId => s.runtime.currentTurnByThread.lookup threadId ≠ some turnId) = true
  · simp only [markTurnCompleted, hother, if_true]
    exact hs.keep rfl (fun _ h => h) (fun _ h => h) (fun key _ h => .of_handled (hhandled key h))
      fun key _ h => .of_dispatching h
  · have hended : ∀ ended ∈ turnId, s.runtime.currentTurnByThread.lookup threadId = some ended := by
      intro ended hm
      cases hm
      simpa using hother
    refine hs.lose threadId ?_ (queueOf_markTurnCompleted _ _ _ _)
      (fun thread hne h => turnInProgress_markTurnCompleted turnId nowMs h hne) hhandled
      (fun _ h => h) fun key hkey _ => ?_
    · simp only [markTurnCompleted, hother]
      rfl
    · rcases hend hended key hkey with hlook | hattended
      · refine .inl (.inr (.inr (.inl (hnext key hlook ?_))))
        simp only [markTurnCompleted, hother]
        rfl
      · exact .inr hattended

theorem Attended.clearTurnStarting (hfail : s.FailureAttended threadId)
    (ht : t.runtime = s.runtime.clearTurnStarting threadId) (hhandlers : t.handlers = s.handlers)
    (hdispatching : ∀ key, s.Dispatching key → t.Dispatching key) : t.Attended := by
  have hhandled : ∀ key, s.Handled key none → t.Handled key none := by
    intro key h
    rwa [Handled, hhandlers]
  refine hs.lose threadId (by rw [ht]; rfl) (fun _ => by rw [ht]; rfl) (fun thread hne h => ?_) hhandled
    hdispatching fun key hkey hturn => ?_
  · rw [ht]
    exact turnInProgress_clearTurnStarting h (.inl hne)
  · rcases hfail with hcurrent | hend
    · refine .inl (@AttendedBut.of_busy t key threadId ?_ ?_)
      · rw [ht]
        exact hkey
      · rw [ht]
        exact turnInProgress_clearTurnStarting hturn (.inr hcurrent)
    · rcases hend key hkey with hnone | hattended
      · cases hnone
      · exact .inr hattended

theorem Attended.finish {dispatcher : Dispatcher} (hdispatcher : s.dispatcher = some dispatcher)
    (hroutes : t.runtime.routeByThread = s.runtime.routeByThread) (hhandlers : t.handlers = s.handlers)
    (hqueue : ∀ key, key ≠ dispatcher.conversationKey → s.runtime.queueOf key = [] → t.runtime.queueOf key = [])
    (hturns : ∀ thread, s.runtime.turnInProgress thread = true → t.runtime.turnInProgress thread = true)
    (hown : t.Bound dispatcher.conversationKey → t.AttendedBut dispatcher.conversationKey none none) :
    t.Attended := by
  have hkeyOf := keyOf_congr hroutes
  rintro key ⟨thread, hkey⟩
  by_cases he : key = dispatcher.conversationKey
  · subst he
    exact hown ⟨thread, hkey⟩
  · rw [hkeyOf] at hkey
    refine (hs key ⟨thread, hkey⟩).carry (hqueue key he)
      (fun busy _ hbusy hturn => .of_busy ((hkeyOf busy).trans hbusy) (hturns busy hturn))
      (fun h => .of_handled (by rwa [Handled, hhandlers])) fun h => ?_
    rw [Dispatching, hdispatcher] at h
    exact absurd (Option.some.inj h).symm he

theorem enqueue_attended (h : s.step (.enqueue conversationKey) = some t) : t.Attended := by
  obtain ⟨pending, hruntime, ⟨hnot, hpending⟩ | ⟨⟨position, hadded⟩, ⟨busy, hrouted, hturn⟩, hpending⟩⟩ :=
    enqueueTelegramTurnIfActive_cases (s := s.runtime) conversationKey s.queued.length
  · simp only [step] at h
    cases h
    rw [hruntime]
    exact hs.sameTasks _ _ rfl hpending fun _ h => h
  · simp only [step, hadded, hruntime] at h
    cases h
    rintro key ⟨thread, hkey⟩
    by_cases he : key = conversationKey
    · subst he
      exact .of_busy (routedTo_iff.mp hrouted) hturn
    · refine (hs key ⟨thread, hkey⟩).carry (fun h => (hpending key).trans ?_)
        (fun _ _ hbusy hturn => .of_busy hbusy hturn) (fun h => .of_handled h) fun h => .of_dispatching h
      rw [if_neg he, h]

theorem takeNext_attended (h : s.step .takeNext = some t) : t.Attended := by
  simp only [step] at h
  split at h
  next conversationKey hdispatcher =>
    cases h
    obtain ⟨pending, hruntime, hhead, hpending⟩ :=
      takeNextTelegramTurn_cases (s := s.runtime) conversationKey
    rw [hruntime, hhead]
    refine hs.finish hdispatcher rfl rfl (fun key hne h => (hpending key).trans ?_) (fun _ h => h) fun _ => ?_
    · rwa [if_neg hne]
    · cases hqueue : s.runtime.queueOf conversationKey with
      | nil =>
        refine .inl ((hpending conversationKey).trans ?_)
        rw [if_pos rfl, hqueue]
        rfl
      | cons message rest => exact .of_dispatching rfl
  next => cases h

theorem step_attended {a : QueueStep} (hguard : s.Attentive a) (h : s.step a = some t) : t.Attended := by
  -- a dispatcher that goes on with the same conversation
  have hgoesOn : ∀ {dispatcher : Dispatcher} {phase : DispatchPhase} (runtime : RuntimeState Nat)
      (sent : List (String × Nat)) (dropped : List Nat), s.dispatcher = some dispatcher →
      runtime.routeByThread = s.runtime.routeByThread →
      (∀ key, s.runtime.queueOf key = [] → runtime.queueOf key = []) →
      (∀ thread, s.runtime.turnInProgress thread = true → runtime.turnInProgress thread = true) →
      let next : Dispatcher := ⟨dispatcher.conversationKey, phase⟩
      Attended { s with runtime := runtime, dispatcher := some next, sent := sent, dropped := dropped } :=
    fun runtime sent dropped hdispatcher hroutes hqueue hturns =>
      hs.finish hdispatcher hroutes rfl (fun key _ => hqueue key) hturns fun _ => .of_dispatching rfl
  have hphase : ∀ {dispatcher : Dispatcher} {phase : DispatchPhase} (dropped : List Nat),
      s.dispatcher = some dispatcher →
      let next : Dispatcher := ⟨dispatcher.conversationKey, phase⟩
      Attended { s with dispatcher := some next, dropped := dropped } :=
    fun dropped hdispatcher =>
      hgoesOn s.runtime s.sent dropped hdispatcher rfl (fun _ h => h) fun _ h => h
  cases a with
  | bindThread threadId route =>
    cases h
    exact (hs.unbindRoutes route.conversationKey).bindRoute (RouteAttended.unbindRoutes hguard)
  | rebindApprovalRoute threadId route => cases h; exact hs.bindRoute hguard
  | unbind conversationKey => cases h; exact hs.unbindRoutes conversationKey
  | startBridgeGeneration => cases h; exact fun key _ => .inl rfl
  | enqueue conversationKey => exact enqueue_attended hs h
  | startDirect call threadId conversationKey receivedAtMs =>
    simp only [step] at h
    split at h
    next => cases h
    split at h
    next => cases h; exact hs
    next marked hmark =>
      obtain ⟨hroutes, hqueue, hturns⟩ := tryMarkTurnStarting_keeps hmark
      split at h
      next =>
        cases h
        refine hs.sameTasks _ _ hroutes hqueue fun thread h => ?_
        obtain ⟨hne, hkept⟩ := hturns thread h
        exact turnInProgress_clearTurnStarting hkept (.inl hne)
      next =>
        cases h
        exact hs.sameTasks _ _ hroutes hqueue fun thread h => (hturns thread h).2
  | directStarted call turnId nowMs =>
    obtain ⟨direct, hdirect, rfl⟩ := map_eq_some_iff.mp h
    exact hs.sameTasks _ _ rfl (fun _ => rfl) fun thread h =>
      turnInProgress_markTurnStarted turnId nowMs (.inr h)
  | directFailed call =>
    obtain ⟨direct, hdirect, rfl⟩ := map_eq_some_iff.mp h
    exact hs.clearTurnStarting (hguard direct hdirect) rfl rfl fun _ h => h
  | directStale call =>
    obtain ⟨direct, hdirect, rfl⟩ := map_eq_some_iff.mp h
    exact hs.unbindRoutes direct.2
  | turnStarted threadId turnId nowMs =>
    cases h
    exact hs.sameTasks _ _ rfl (fun _ => rfl) fun thread h =>
      turnInProgress_markTurnStarted turnId nowMs (.inr h)
  | completeTurn handler threadId turnId next nowMs =>
    simp only [step] at h
    split at h
    next => cases h
    next hnew =>
      split at h
      next conversationKey _ _ =>
        cases h
        refine hs.complete nowMs hguard _ (fun key h => h.insertNew hnew rfl) fun key hkey _ => ?_
        cases hkey
        exact @handled_insert _ _ handler ⟨_, .waiting⟩ rfl
      next hno =>
        cases h
        exact hs.complete nowMs hguard s.handlers (fun _ h => h) fun key hkey heffect =>
          absurd hkey (hno key heffect)
  | stopTurn handler conversationKey threadId turnId nowMs =>
    simp only [step] at h
    obtain ⟨hnew, h⟩ := ite_none_left_eq_some.mp h
    cases h
    refine hs.complete nowMs hguard _ (fun key h => h.insertNew hnew rfl) fun key hkey _ => ?_
    cases hkey
    exact @handled_insert _ _ handler ⟨conversationKey, .stopping⟩ rfl
  | stopMessage handler delivered =>
    simp only [step] at h
    split at h
    next conversationKey hfound =>
      split at h
      next =>
        cases h
        refine hs.keep rfl (fun _ h => h) (fun _ h => h) (fun _ _ h => .of_handled (h.insert ?_ rfl))
          fun _ _ h => .of_dispatching h
        intro old hold
        rw [hfound] at hold
        cases hold
        rfl
      next hundelivered =>
        cases h
        refine hs.keep rfl (fun _ h => h) (fun _ h => h) (fun key hbound h => ?_)
          fun _ _ h => .of_dispatching h
        rcases h.erase hfound with rfl | h
        · rcases hguard with hdelivered | hattended
          · exact absurd hdelivered hundelivered
          · rcases hattended _ hfound hbound with hempty | hbusy | ⟨other, hne, hother⟩ | hdispatcher
            · exact .inl hempty
            · exact .inr (.inl hbusy)
            · refine .of_handled ⟨other, some_ne_none other, ?_⟩
              rwa [Table.lookup_erase_eq, if_neg fun he => hne (congrArg some he)]
            · exact .of_dispatching hdispatcher
        · exact .of_handled h
    next => cases h
  | exitTurn handler conversationKey active nowMs =>
    simp only [step] at h
    obtain ⟨hnew, h⟩ := ite_none_left_eq_some.mp h
    have hinsert : ∀ key, s.Handled key none →
        Handled { s with handlers := s.handlers.insert handler ⟨conversationKey, .exiting⟩ } key none :=
      fun key h => h.insertNew hnew rfl
    cases h
    cases active with
    | none =>
      exact hs.keep rfl (fun _ h => h) (fun _ h => h) (fun key _ h => .of_handled (hinsert key h))
        fun _ _ h => .of_dispatching h
    | some turn =>
      refine hs.complete nowMs (hguard turn rfl) _ hinsert fun key hkey _ => ?_
      cases hkey
      exact @handled_insert _ _ handler ⟨conversationKey, .exiting⟩ rfl
  | exitQueue handler =>
    simp only [step] at h
    split at h
    next conversationKey hfound =>
      cases h
      have hqueue : ∀ key, (s.runtime.clearTelegramQueue conversationKey).queueOf key =
          if key = conversationKey then [] else s.runtime.queueOf key := fun key => queue_erase ..
      refine hs.keep rfl (fun key h => (hqueue key).trans ?_) (fun _ h => h) (fun key _ h => ?_)
        fun _ _ h => .of_dispatching h
      · rw [h, ite_self]
      · rcases h.erase hfound with rfl | h
        · exact .inl ((hqueue _).trans (if_pos rfl))
        · exact .of_handled h
    next => cases h
  | lockQueueStart handler =>
    simp only [step] at h
    split at h
    next conversationKey hfound hdispatcher =>
      cases h
      refine hs.keep rfl (fun _ h => h) (fun _ h => h) (fun key _ h => ?_) fun key _ h => ?_
      · rcases h.erase hfound with rfl | h
        · exact .of_dispatching rfl
        · exact .of_handled h
      · rw [Dispatching, hdispatcher] at h
        cases h
    next => cases h
  | takeNext => exact takeNext_attended hs h
  | refuse =>
    simp only [step] at h
    split at h
    next hdispatcher => cases h; exact hphase s.dropped hdispatcher
    next => cases h
  | findThread =>
    simp only [step] at h
    split at h
    next hdispatcher =>
      split at h
      next => cases h; exact hphase s.dropped hdispatcher
      next => cases h; exact hphase _ hdispatcher
    next => cases h
  | tryMark nowMs =>
    simp only [step] at h
    split at h
    next conversationKey message threadId hdispatcher =>
      split at h
      next => cases h; exact hphase s.dropped hdispatcher
      next marked hmark =>
        obtain ⟨hroutes, hqueue, hturns⟩ := tryMarkTurnStarting_keeps hmark
        split at h
        next =>
          cases h
          refine hgoesOn _ _ _ hdispatcher hroutes (fun key h => (hqueue key).trans h) fun thread h => ?_
          obtain ⟨hne, hkept⟩ := hturns thread h
          exact turnInProgress_clearTurnStarting hkept (.inl hne)
        next =>
          cases h
          exact hgoesOn _ _ _ hdispatcher hroutes (fun key h => (hqueue key).trans h)
            fun thread h => (hturns thread h).2
    next => cases h
  | started turnId nowMs =>
    simp only [step] at h
    split at h
    next conversationKey threadId hdispatcher =>
      cases h
      have hturns := fun thread h =>
        @turnInProgress_markTurnStarted _ s.runtime threadId thread turnId nowMs (.inr h)
      refine hs.finish hdispatcher rfl rfl (fun _ _ h => h) hturns fun hbound => ?_
      rcases hguard _ hdispatcher hbound with hempty | ⟨busy, _, hkey, hturn⟩ | hhandled | ⟨thread, _, hphase, hkey⟩
      · exact .inl hempty
      · exact .of_busy hkey (hturns busy hturn)
      · exact .of_handled hhandled
      · cases hphase
        exact .of_busy hkey (turnInProgress_markTurnStarted turnId nowMs (.inl rfl))
    next => cases h
  | failed =>
    simp only [step] at h
    split at h
    next conversationKey threadId hdispatcher =>
      cases h
      have hdispatching : ∀ key, s.Dispatching key →
          Dispatching { s with dispatcher := some ⟨conversationKey, .looping⟩ } key := by
        intro key h
        rw [Dispatching, hdispatcher] at h
        exact h
      by_cases hrouted : threadId ∈ s.runtime.routeByThread.keys
      · exact hs.clearTurnStarting (hguard _ hdispatcher threadId hrouted rfl) rfl rfl hdispatching
      · refine hs.clearTurnStarting (.inr fun key hkey => absurd (mem_keys_of_keyOf hkey) hrouted) rfl rfl hdispatching
    next => cases h
  | stale =>
    simp only [step] at h
    split at h
    next conversationKey threadId hdispatcher =>
      cases h
      exact (hs.unbindRoutes conversationKey).finish hdispatcher rfl rfl (fun _ _ h => h) (fun _ h => h)
        fun _ => .of_dispatching rfl
    next => cases h
  | requeue =>
    simp only [step] at h
    split at h
    next conversationKey message hdispatcher =>
      cases h
      refine hs.finish hdispatcher rfl rfl (fun key hne h => ?_) (fun _ h => h) fun hbound => ?_
      · exact (queue_insert ..).trans ((if_neg hne).trans h)
      · rcases hguard _ hdispatcher hbound with hbusy | hhandled
        · exact .inr (.inl hbusy)
        · exact .of_handled hhandled
    next => cases h
  | clearQueue =>
    simp only [step] at h
    split at h
    next conversationKey hdispatcher =>
      cases h
      have hqueue : ∀ key, (s.runtime.clearTelegramQueue conversationKey).queueOf key =
          if key = conversationKey then [] else s.runtime.queueOf key := fun key => queue_erase ..
      refine hs.finish hdispatcher rfl rfl (fun key _ h => (hqueue key).trans ?_) (fun _ h => h) fun _ => ?_
      · rw [h, ite_self]
      · exact .inl ((hqueue _).trans (if_pos rfl))
    next => cases h

end

theorem start_attended (routeByThread : Table String RouteTarget) : (start routeByThread).Attended :=
  fun _ _ => .inl rfl

theorem Lined.sent_nodup (hs : s.Lined) : (s.sent.map (·.2)).Nodup := by
  have hordered : ∀ key, (s.sentOf key).Nodup := by
    intro key
    have hsent := (pairwise_append.mp (pairwise_append.mp (hs.ordered key)).1).1
    exact hsent.imp fun hlt => Nat.ne_of_lt hlt
  have hown : ∀ start ∈ s.sent, s.queued[start.2]? = some start.1 := by
    intro start hm
    refine hs.own start.1 start.2 (mem_append_left _ (mem_append_left _ ?_))
    exact mem_map_of_mem (mem_filter.mpr ⟨hm, decide_eq_true rfl⟩)
  unfold sentOf at hordered
  generalize s.sent = sent at hordered hown
  induction sent with
  | nil => exact .nil
  | cons start sent ih =>
    rw [map_cons, nodup_cons]
    refine ⟨fun hm => ?_, ih (fun key => ?_) fun other hm => hown other (mem_cons_of_mem _ hm)⟩
    · obtain ⟨other, hm, hmessage⟩ := mem_map.mp hm
      have hkey : other.1 = start.1 := by
        have hother := hown other (mem_cons_of_mem _ hm)
        rw [hmessage, hown start (mem_cons_self ..)] at hother
        exact (Option.some.inj hother).symm
      have hfirst := hordered start.1
      rw [filter_cons_of_pos (by simp), map_cons, nodup_cons] at hfirst
      refine hfirst.1 (hmessage ▸ mem_map_of_mem (mem_filter.mpr ⟨hm, decide_eq_true hkey⟩))
    · exact (hordered key).sublist (((sublist_cons_self start sent).filter _).map _)

/-- In every run each conversation's messages are sent in the order of queueing, each at most once and
none that was dropped, and none is lost; while every step is attentive, no bound conversation has a queue
that nothing leads to. -/
theorem queued_turns_attended {routeByThread : Table String RouteTarget} {steps : List QueueStep}
    (h : Runs.run step (start routeByThread) steps = some s) :
    (∀ key, (s.line key).Pairwise (· < ·)) ∧ (s.sent.map (·.2)).Nodup ∧
    (∀ key message, (key, message) ∈ s.sent → s.queued[message]? = some key ∧ message ∉ s.dropped) ∧
    (∀ key message, s.queued[message]? = some key → message ∈ s.line key ∨ message ∈ s.dropped) ∧
    (Runs.Meets step Attentive (start routeByThread) steps → s.Attended) := by
  have hs : s.Lined := Runs.run_invariant Lined (fun _ _ _ hs h => step_lined hs h) (start_lined _) h
  refine ⟨hs.ordered, hs.sent_nodup, fun key message hm => ?_, hs.somewhere, fun hattentive => ?_⟩
  · have hin : message ∈ s.line key := by
      refine mem_append_left _ (mem_append_left _ ?_)
      exact mem_map.mpr ⟨(key, message), mem_filter.mpr ⟨hm, decide_eq_true rfl⟩, rfl⟩
    exact ⟨hs.own key message hin, fun hd => (hs.dropped message hd).2 key hin⟩
  · exact Runs.run_invariant_of_meets Attended (fun _ _ _ hs hg h => step_attended hs hg h)
      (start_attended _) hattentive h

def chatRoute : RouteTarget := ⟨.telegram, "telegram:bot:7", "bot", "7", "im:telegram:7"⟩

/-- A message that is queued while a turn runs is sent after the turn's completion. -/
def dispatchedTurn : List QueueStep :=
  [.bindThread "thread" chatRoute, .turnStarted "thread" "first" 10, .enqueue "telegram:bot:7",
    .completeTurn 0 "thread" (some "first") (some "telegram:bot:7") 20, .lockQueueStart 0, .takeNext,
    .findThread, .tryMark 30, .started "second" 31]

theorem queued_turns_attended_dispatched :
    ∃ s, Runs.run step (start ∅) dispatchedTurn = some s ∧ s.sent = [("telegram:bot:7", 0)] ∧
      (s.line "telegram:bot:7").Pairwise (· < ·) ∧ s.Attended := by
  have hrun : ((Runs.run step (start ∅) dispatchedTurn).map (·.sent)) = some [("telegram:bot:7", 0)] := by
    decide +kernel
  obtain ⟨s, hs, hsent⟩ := map_eq_some_iff.mp hrun
  obtain ⟨hordered, -, -, -, hattended⟩ := queued_turns_attended hs
  exact ⟨s, hs, hsent, hordered _, hattended (by decide +kernel)⟩

/-- The message of `/stop` is not delivered, and the command ends before it turns to the queue. -/
theorem stopped_queue_stranded :
    ¬∀ (routeByThread : Table String RouteTarget) (steps : List QueueStep) (s : QueueSystem),
      Runs.run step (start routeByThread) steps = some s → s.Attended := by
  intro h
  have hrun : ((Runs.run step (start ∅)
      [.bindThread "thread" chatRoute, .turnStarted "thread" "first" 10, .enqueue "telegram:bot:7",
        .stopTurn 0 "telegram:bot:7" "thread" "first" 20, .stopMessage 0 false]).map fun s =>
        decide (s.Bound "telegram:bot:7" ∧ ¬s.AttendedBut "telegram:bot:7" none none)) = some true := by
    decide +kernel
  obtain ⟨s, hs, he⟩ := map_eq_some_iff.mp hrun
  obtain ⟨hbound, hnot⟩ := of_decide_eq_true he
  exact hnot (h _ _ s hs _ hbound)

end QueueSystem

end MochiPort

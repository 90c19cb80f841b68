import MochiPort.ThreadBindings
import MochiPort.ThreadLifecycle
import MochiPort.TopicBindings

namespace MochiPort

open Table

structure StoredTopicBinding extends TelegramTopicBindingState where
  codexTitle : String
  topicName : String
  lastSyncedCodexTitle : String
  lastSyncedTopicName : String
  telegramState : String
  deriving DecidableEq

def StoredTopicBinding.default : StoredTopicBinding where
  toTelegramTopicBindingState := TelegramTopicBindingState.default
  codexTitle := ""
  topicName := ""
  lastSyncedCodexTitle := ""
  lastSyncedTopicName := ""
  telegramState := "open"

/-- What a binding changes: the routes of the runtime, and what is persisted of bindings. -/
structure BoundThreads where
  runtime : RuntimeState Unit
  imThreadBindings : Table String String
  telegramTopicBindingStates : Table String StoredTopicBinding

structure BindRequest where
  route : RouteTarget
  threadId : String
  remoteClientKey : String
  expectedGeneration : Option Nat

/-- What the call finds around it: the generation when it begins, what its checks read after that, and whether the
state file can be written. -/
structure BindSurroundings where
  lifecycleGeneration : Nat
  latestLifecycleGeneration : Nat
  lifecycleIntents : LifecycleIntents
  cleanupRegistrations : Finset String
  topicStates : Table String StoredTopicBinding
  save : Except String Unit

namespace BindRequest

def isTelegramTopicRoute (request : BindRequest) : Bool :=
  request.route.platform = .telegram && (splitTelegramMessageTarget request.route.chatId).2.isSome

def bindingState (request : BindRequest) (lifecycleGeneration : Nat) : StoredTopicBinding :=
  let binding := { StoredTopicBinding.default with
    threadId := request.threadId
    lifecycleGeneration := lifecycleGeneration }
  if (splitTelegramMessageTarget request.route.chatId).2.isNone then { binding with telegramState := "open" }
  else binding

end BindRequest

def BindSurroundings.allowsTopicBinding (env : BindSurroundings) (threadId : String) : Bool :=
  if env.lifecycleGeneration < env.latestLifecycleGeneration then false
  else telegramThreadAllowsTopicBinding env.lifecycleIntents threadId env.lifecycleGeneration

def BindSurroundings.cleanupPending (env : BindSurroundings) (conversationKey : String) : Bool :=
  conversationKey ∈ env.cleanupRegistrations ||
    (env.topicStates.lookup conversationKey).any (·.cleanupPending)

namespace BoundThreads

/-- Why the call goes no further than its checks. -/
def refusal (s : BoundThreads) (env : BindSurroundings) (request : BindRequest) : Option String :=
  if request.expectedGeneration.any (env.lifecycleGeneration ≠ ·) then
    some ("bridge generation changed before binding Telegram Topic for " ++ request.threadId)
  else if request.isTelegramTopicRoute && !env.allowsTopicBinding request.threadId then
    some ("Telegram Topic binding is blocked by the current Codex thread lifecycle for " ++ request.threadId)
  else if request.isTelegramTopicRoute && env.cleanupPending request.route.conversationKey then
    some ("Telegram Topic cleanup is still in progress for " ++ request.route.conversationKey)
  else if request.expectedGeneration.any (s.runtime.bridgeGeneration ≠ ·) ||
      (request.isTelegramTopicRoute && s.runtime.bridgeGeneration ≠ env.lifecycleGeneration) then
    some ("bridge generation changed while binding Telegram Topic for " ++ request.threadId)
  else none

/-- Both maps and the states after the binding, which has not been saved yet. -/
def bound (s : BoundThreads) (request : BindRequest) : BoundThreads :=
  let lifecycleGeneration := s.runtime.bridgeGeneration
  let runtime := s.runtime.unbindRoutesForConversation request.route.conversationKey
  let bindings := s.imThreadBindings.retain fun _ boundThreadId => boundThreadId ≠ request.threadId
  let states := s.telegramTopicBindingStates.retain fun _ binding => binding.threadId ≠ request.threadId
  { runtime := runtime.bindRoute request.threadId { request.route with remoteClientKey := request.remoteClientKey }
    imThreadBindings :=
      if request.route.platform = .telegram then bindings.insert request.route.conversationKey request.threadId
      else bindings
    telegramTopicBindingStates :=
      if request.route.platform = .telegram then
        states.insert request.route.conversationKey (request.bindingState lifecycleGeneration)
      else states }

def bindThreadToRouteForGeneration (s : BoundThreads) (env : BindSurroundings) (request : BindRequest) :
    Except String Unit × BoundThreads :=
  match s.refusal env request with
  | some message => (.error message, s)
  | none =>
    let t := s.bound request
    if t.imThreadBindings.differs s.imThreadBindings ||
        t.telegramTopicBindingStates.differs s.telegramTopicBindingStates then (env.save, t)
    else (.ok (), t)

structure SameBindings (s t : BoundThreads) : Prop where
  routes : ∀ threadId, t.runtime.routeByThread.lookup threadId = s.runtime.routeByThread.lookup threadId
  bindings : ∀ conversationKey, t.imThreadBindings.lookup conversationKey = s.imThreadBindings.lookup conversationKey

/-- The thread is the only one of the conversation, with the route that is to be bound. -/
structure Routed (s : BoundThreads) (request : BindRequest) : Prop where
  route : s.runtime.routeByThread.lookup request.threadId =
    some { request.route with remoteClientKey := request.remoteClientKey }
  alone : ∀ threadId route, s.runtime.routeByThread.lookup threadId = some route →
    route.conversationKey = request.route.conversationKey → threadId = request.threadId

/-- The thread is persisted for the conversation, and for no other one. -/
def Paired (s : BoundThreads) (request : BindRequest) : Prop :=
  ∀ conversationKey, s.imThreadBindings.lookup conversationKey = some request.threadId ↔
    request.route.platform = .telegram ∧ conversationKey = request.route.conversationKey

/-- Nothing but a fresh state of the conversation is persisted of the thread's Topic. -/
structure Stated (s : BoundThreads) (request : BindRequest) : Prop where
  fresh : request.route.platform = .telegram →
    s.telegramTopicBindingStates.lookup request.route.conversationKey =
      some (request.bindingState s.runtime.bridgeGeneration)
  alone : ∀ conversationKey binding, s.telegramTopicBindingStates.lookup conversationKey = some binding →
    binding.threadId = request.threadId →
      request.route.platform = .telegram ∧ conversationKey = request.route.conversationKey

variable {s : BoundThreads} {env : BindSurroundings} {request : BindRequest}

section

variable (s) (request)

theorem routes_bound_iff :
    (∀ threadId, (s.bound request).runtime.routeByThread.lookup threadId =
      s.runtime.routeByThread.lookup threadId) ↔ s.Routed request := by
  have hlookup : ∀ threadId, (s.bound request).runtime.routeByThread.lookup threadId =
      if threadId = request.threadId then some { request.route with remoteClientKey := request.remoteClientKey }
      else (s.runtime.routeByThread.lookup threadId).filter
        fun _ => !s.runtime.routedTo request.route.conversationKey threadId := by
    intro threadId
    show AList.lookup threadId (AList.insert _ _ (retain _ _)) = _
    rw [lookup_insert_eq, lookup_retain]
  constructor
  · intro hsame
    refine ⟨?_, fun threadId route hroute hkey => ?_⟩
    · rw [← hsame, hlookup, if_pos rfl]
    · by_contra hne
      have hkept := hsame threadId
      rw [hlookup, if_neg hne, hroute, Option.filter_eq_some_iff] at hkept
      have hrouted : s.runtime.routedTo request.route.conversationKey threadId = true := by
        rw [RuntimeState.routedTo, hroute, Option.any_some, hkey, decide_eq_true rfl]
      rw [hrouted] at hkept
      exact Bool.noConfusion hkept.2
  · intro hrouted threadId
    rw [hlookup]
    by_cases hthread : threadId = request.threadId
    · rw [if_pos hthread, hthread, hrouted.route]
    · rw [if_neg hthread]
      cases hroute : s.runtime.routeByThread.lookup threadId with
      | none => rfl
      | some route =>
        have hother : route.conversationKey ≠ request.route.conversationKey :=
          fun hkey => hthread (hrouted.alone threadId route hroute hkey)
        have hkept : s.runtime.routedTo request.route.conversationKey threadId = false := by
          rw [RuntimeState.routedTo, hroute, Option.any_some, decide_eq_false hother]
        rw [Option.filter_some, hkept]
        rfl

theorem bindings_bound_iff :
    (∀ key, (s.bound request).imThreadBindings.lookup key = s.imThreadBindings.lookup key) ↔ s.Paired request := by
  have hlookup : ∀ key, (s.bound request).imThreadBindings.lookup key =
      if request.route.platform = .telegram ∧ key = request.route.conversationKey then some request.threadId
      else (s.imThreadBindings.lookup key).filter (· ≠ request.threadId) := by
    intro key
    unfold bound
    dsimp only
    by_cases htelegram : request.route.platform = .telegram
    · rw [if_pos htelegram, lookup_insert_eq, lookup_retain]
      simp only [htelegram, true_and]
    · rw [if_neg htelegram, lookup_retain, if_neg (fun h => htelegram h.1)]
  constructor
  · intro hsame key
    rw [← hsame, hlookup]
    by_cases howner : request.route.platform = .telegram ∧ key = request.route.conversationKey
    · rw [if_pos howner]
      exact ⟨fun _ => howner, fun _ => rfl⟩
    · rw [if_neg howner, Option.filter_eq_some_iff]
      exact ⟨fun h => absurd rfl (of_decide_eq_true h.2), fun h => absurd h howner⟩
  · intro hpaired key
    rw [hlookup]
    by_cases howner : request.route.platform = .telegram ∧ key = request.route.conversationKey
    · rw [if_pos howner, (hpaired key).mpr howner]
    · rw [if_neg howner]
      cases hthread : s.imThreadBindings.lookup key with
      | none => rfl
      | some thread =>
        have hother : thread ≠ request.threadId := by
          intro he
          rw [he] at hthread
          exact howner ((hpaired key).mp hthread)
        exact Option.filter_some_pos (decide_eq_true hother)

theorem states_bound_iff :
    (∀ key, (s.bound request).telegramTopicBindingStates.lookup key = s.telegramTopicBindingStates.lookup key) ↔
      s.Stated request := by
  have hlookup : ∀ key, (s.bound request).telegramTopicBindingStates.lookup key =
      if request.route.platform = .telegram ∧ key = request.route.conversationKey then
        some (request.bindingState s.runtime.bridgeGeneration)
      else (s.telegramTopicBindingStates.lookup key).filter (·.threadId ≠ request.threadId) := by
    intro key
    unfold bound
    dsimp only
    by_cases htelegram : request.route.platform = .telegram
    · rw [if_pos htelegram, lookup_insert_eq, lookup_retain]
      simp only [htelegram, true_and]
    · rw [if_neg htelegram, lookup_retain, if_neg (fun h => htelegram h.1)]
  constructor
  · intro hsame
    refine ⟨fun htelegram => ?_, fun key binding hbinding hthread => ?_⟩
    · rw [← hsame, hlookup, if_pos ⟨htelegram, rfl⟩]
    · by_contra howner
      have hkept := hsame key
      rw [hlookup, if_neg howner, hbinding, Option.filter_eq_some_iff] at hkept
      exact of_decide_eq_true hkept.2 hthread
  · intro hstated key
    rw [hlookup]
    by_cases howner : request.route.platform = .telegram ∧ key = request.route.conversationKey
    · rw [if_pos howner, howner.2, hstated.fresh howner.1]
    · rw [if_neg howner]
      cases hbinding : s.telegramTopicBindingStates.lookup key with
      | none => rfl
      | some binding =>
        have hother : binding.threadId ≠ request.threadId :=
          fun he => howner (hstated.alone key binding hbinding he)
        exact Option.filter_some_pos (decide_eq_true hother)

end

theorem bind_of_refusal {message : String} (h : s.refusal env request = some message) :
    s.bindThreadToRouteForGeneration env request = (.error message, s) := by
  rw [bindThreadToRouteForGeneration, h]

theorem bind_of_no_refusal (h : s.refusal env request = none) :
    (s.Paired request ∧ s.Stated request →
      s.bindThreadToRouteForGeneration env request = (.ok (), s.bound request)) ∧
    (¬(s.Paired request ∧ s.Stated request) →
      s.bindThreadToRouteForGeneration env request = (env.save, s.bound request)) := by
  have hdiffers : ((s.bound request).imThreadBindings.differs s.imThreadBindings ||
      (s.bound request).telegramTopicBindingStates.differs s.telegramTopicBindingStates) = false ↔
      s.Paired request ∧ s.Stated request := by
    rw [Bool.or_eq_false_iff, differs_eq_false_iff, differs_eq_false_iff, bindings_bound_iff,
      states_bound_iff]
  constructor
  · intro hstored
    rw [bindThreadToRouteForGeneration, h]
    dsimp only
    rw [hdiffers.mpr hstored, if_neg Bool.false_ne_true]
  · intro hstored
    rw [bindThreadToRouteForGeneration, h]
    rw [if_pos (Bool.eq_true_of_not_eq_false (mt hdiffers.mp hstored))]

/-- A binding that fails leaves the routes and the bindings as they were when, and only when, a check refused it, the
state could be saved or needed no save, or there was nothing for it to change. -/
theorem bind_atomic_iff (s : BoundThreads) (env : BindSurroundings) (request : BindRequest) :
    (∀ message, (s.bindThreadToRouteForGeneration env request).1 = .error message →
        s.SameBindings (s.bindThreadToRouteForGeneration env request).2) ↔
      (s.refusal env request).isSome ∨ env.save = .ok () ∨ s.Paired request ∧ (s.Stated request ∨ s.Routed request) := by
  cases hrefusal : s.refusal env request with
  | some message =>
    rw [bind_of_refusal hrefusal]
    exact ⟨fun _ => .inl rfl, fun _ _ _ => ⟨fun _ => rfl, fun _ => rfl⟩⟩
  | none =>
    obtain ⟨hstored, hunstored⟩ := @bind_of_no_refusal s env request hrefusal
    by_cases hpersisted : s.Paired request ∧ s.Stated request
    · rw [hstored hpersisted]
      exact ⟨fun _ => .inr (.inr ⟨hpersisted.1, .inl hpersisted.2⟩), fun _ message h => by cases h⟩
    rw [hunstored hpersisted]
    cases hsave : env.save with
    | ok saved => exact ⟨fun _ => .inr (.inl rfl), fun _ message h => by cases h⟩
    | error message =>
      constructor
      · intro hatomic
        obtain ⟨hroutes, hbindings⟩ := hatomic message rfl
        have hpaired := (bindings_bound_iff s request).mp hbindings
        exact .inr (.inr ⟨hpaired, .inr ((routes_bound_iff s request).mp hroutes)⟩)
      · rintro (h | h | ⟨hpaired, hstated | hrouted⟩) _ _
        · cases h
        · cases h
        · exact absurd ⟨hpaired, hstated⟩ hpersisted
        · exact ⟨(routes_bound_iff s request).mpr hrouted, (bindings_bound_iff s request).mpr hpaired⟩

/-- A private chat binds its first thread, and the state file cannot be written. -/
def firstBinding : BindRequest :=
  ⟨⟨.telegram, "telegram:a:42", "a", "42", "im:telegram:0"⟩, "thread", "im:telegram:0", none⟩

def fullDisk : BindSurroundings := ⟨0, 0, ∅, ∅, ∅, .error "No space left on device"⟩

/-- The route and the binding of a failed call stay. -/
theorem failed_save_leaves_binding :
    (bindThreadToRouteForGeneration ⟨.empty, ∅, ∅⟩ fullDisk firstBinding).1 = .error "No space left on device" ∧
      ¬SameBindings ⟨.empty, ∅, ∅⟩ (bindThreadToRouteForGeneration ⟨.empty, ∅, ∅⟩ fullDisk firstBinding).2 := by
  refine ⟨by decide, fun hsame => ?_⟩
  have hroute := hsame.routes "thread"
  exact absurd hroute (by decide)

end BoundThreads

end MochiPort

import MochiPort.BindingRestore
import MochiPort.Runs

namespace MochiPort

/-- Where the holder of the lock on binding operations stands between two critical sections of a
clear: before the runtime routes go, or before the persisted thread goes. -/
inductive ClearStage where
  | matched (conversationKey : String)
  | forgetting (conversationKey : String)
  deriving DecidableEq

inductive BindingEvent where
  | bound (conversationKey : String)
  | cleared (conversationKey : String)
  deriving DecidableEq

/-- The routes of the runtime and the persisted bindings, with what is under way on them: a clear,
and approvals that have looked up the route of their thread. -/
structure BindingSystem where
  runtime : RuntimeState Unit
  imThreadBindings : Table String String
  clearing : Option ClearStage
  approvals : Table Nat (String × RouteTarget)
  log : List BindingEvent

inductive BindingStep where
  -- `blocked` tells whether the Topic's lifecycle or a cleanup forbids the binding
  | bindThreadToRoute (platform : ImPlatformKind) (accountId chatId threadId remoteClientKey : String)
      (expectedGeneration : Option Nat) (blocked : Bool)
  | clearThreadBinding (conversationKey : String)
  | clearThreadBindingIfMatches (conversationKey threadId : String)
  | unbindMatched
  | clearThreadBindingForThread (threadId remoteClientKey : String)
  | forgetPersistedThreadBinding
  | lookUpApprovalRoute (approval : Nat) (threadId : String)
  | rebindApprovalRoute (approval : Nat)
  | startBridgeGeneration

namespace BindingSystem

variable (digest : String → String)

/-- The critical section of a binding that passed its checks, on both maps. -/
def bindRoute (s : BindingSystem) (route : RouteTarget) (threadId remoteClientKey : String) : BindingSystem :=
  let runtime := s.runtime.unbindRoutesForConversation route.conversationKey
  let bindings := s.imThreadBindings.retain fun _ boundThreadId => boundThreadId ≠ threadId
  { s with
    runtime := runtime.bindRoute threadId { route with remoteClientKey := remoteClientKey }
    imThreadBindings :=
      if route.platform = .telegram then bindings.insert route.conversationKey threadId else bindings
    log := .bound route.conversationKey :: s.log }

def unbind (s : BindingSystem) (conversationKey : String) : BindingSystem :=
  { s with
    runtime := s.runtime.unbindRoutesForConversation conversationKey
    clearing := some (.forgetting conversationKey)
    log := .cleared conversationKey :: s.log }

def step (s : BindingSystem) : BindingStep → Option BindingSystem
  | .bindThreadToRoute platform accountId chatId threadId remoteClientKey expectedGeneration blocked =>
    if s.clearing.isSome then none
    else
      let route := routeForChat digest platform accountId chatId
      let telegramTopicRoute :=
        route.platform = .telegram && (splitTelegramMessageTarget route.chatId).2.isSome
      if expectedGeneration.any (· ≠ s.runtime.bridgeGeneration) || (telegramTopicRoute && blocked) then some s
      else some (s.bindRoute route threadId remoteClientKey)
  | .clearThreadBinding conversationKey =>
    if s.clearing.isSome then none else some (s.unbind conversationKey)
  | .clearThreadBindingIfMatches conversationKey threadId =>
    if s.clearing.isSome then none
    else if s.imThreadBindings.lookup conversationKey = some threadId then
      some { s with clearing := some (.matched conversationKey) }
    else some s
  | .unbindMatched =>
    match s.clearing with
    | some (.matched conversationKey) => some (s.unbind conversationKey)
    | _ => none
  | .clearThreadBindingForThread threadId remoteClientKey =>
    if s.clearing.isSome then none
    else
      match s.runtime.routeByThread.lookup threadId with
      | none => some s
      | some route =>
        if route.remoteClientKey ≠ remoteClientKey then some s else some (s.unbind route.conversationKey)
  | .forgetPersistedThreadBinding =>
    match s.clearing with
    | some (.forgetting conversationKey) =>
      some { s with
        imThreadBindings :=
          if isTelegramKey conversationKey then s.imThreadBindings.erase conversationKey
          else s.imThreadBindings
        clearing := none }
    | _ => none
  | .lookUpApprovalRoute approval threadId =>
    match s.runtime.routeByThread.lookup threadId with
    | none => some s
    | some route => some { s with approvals := s.approvals.insert approval (threadId, route) }
  | .rebindApprovalRoute approval =>
    match s.approvals.lookup approval with
    | none => none
    | some (threadId, route) =>
      some { s with
        runtime := s.runtime.bindRoute threadId route
        approvals := s.approvals.erase approval }
  | .startBridgeGeneration => some { s with runtime := s.runtime.startBridgeGeneration }

/-- The program starts with what it restores from the persisted bindings. -/
def restored (accounts : List TelegramConfig) (persisted : PersistedBindings) : BindingSystem :=
  let (runtime, cleaned, _) := restorePersistedImBindings digest accounts persisted
  ⟨runtime, cleaned.imThreadBindings, none, ∅, []⟩

/-- An approval writes its route back while its thread is routed to the same conversation. -/
def StillRouted (s : BindingSystem) : BindingStep → Prop
  | .rebindApprovalRoute approval => ∀ found ∈ s.approvals.lookup approval,
    s.runtime.keyOf found.1 = some found.2.conversationKey
  | _ => True

instance (s : BindingSystem) (a : BindingStep) : Decidable (s.StillRouted a) := by
  cases a <;> unfold StillRouted <;> infer_instance

variable {digest} {s t : BindingSystem}

/-- The last thing that happened to the conversation was that it was cleared. -/
def Cleared (log : List BindingEvent) (conversationKey : String) : Prop :=
  ∃ newer older, log = newer ++ .cleared conversationKey :: older ∧ .bound conversationKey ∉ newer

theorem Cleared.of_bound {log : List BindingEvent} {key conversationKey : String}
    (h : Cleared (.bound key :: log) conversationKey) : conversationKey ≠ key ∧ Cleared log conversationKey := by
  obtain ⟨newer, older, hlog, hnew⟩ := h
  cases newer with
  | nil => cases hlog
  | cons event newer =>
    obtain ⟨rfl, htail⟩ := List.cons.inj hlog
    exact ⟨fun he => hnew (he ▸ List.mem_cons_self ..), newer, older, htail,
      fun hm => hnew (List.mem_cons_of_mem _ hm)⟩

theorem Cleared.of_cleared {log : List BindingEvent} {key conversationKey : String}
    (h : Cleared (.cleared key :: log) conversationKey) (hne : conversationKey ≠ key) :
    Cleared log conversationKey := by
  obtain ⟨newer, older, hlog, hnew⟩ := h
  cases newer with
  | nil =>
    obtain ⟨he, -⟩ := List.cons.inj hlog
    cases he
    exact absurd rfl hne
  | cons event newer =>
    obtain ⟨rfl, htail⟩ := List.cons.inj hlog
    exact ⟨newer, older, htail, fun hm => hnew (List.mem_cons_of_mem _ hm)⟩

/-- One thread for each conversation; the persisted threads are the routed ones, but for the
conversation that is being forgotten; a cleared conversation has no thread. -/
structure Bound (s : BindingSystem) : Prop where
  unique : ∀ key thread thread', s.runtime.keyOf thread = some key → s.runtime.keyOf thread' = some key →
    thread = thread'
  agree : ∀ key thread, isTelegramKey key = true → s.clearing ≠ some (.forgetting key) →
    (s.imThreadBindings.lookup key = some thread ↔ s.runtime.keyOf thread = some key)
  cleared : ∀ key, Cleared s.log key → ∀ thread, s.runtime.keyOf thread ≠ some key

theorem restored_bound (accounts : List TelegramConfig) (persisted : PersistedBindings) :
    (restored digest accounts persisted).Bound := by
  have hsound := restorePersistedImBindings_sound (T := Unit) digest accounts persisted
  have hagree := @SoundRestore.keyOf_iff Unit _ _ _ _ hsound
    fun key route hroute => (validPersistedTelegramRoute_key hroute).1
  refine ⟨fun key thread thread' h h' => ?_, fun key thread _ _ => hagree.symm,
    fun key ⟨newer, older, hlog, _⟩ => ?_⟩
  · have hlookup := hagree.mp h
    rw [hagree.mp h'] at hlookup
    exact (Option.some.inj hlookup).symm
  · exact absurd hlog (by simp [restored])

theorem bindRoute_bound (hs : s.Bound) (hidle : s.clearing = none) (platform : ImPlatformKind)
    (accountId chatId threadId remoteClientKey : String) :
    (s.bindRoute (routeForChat digest platform accountId chatId) threadId remoteClientKey).Bound := by
  have hplatform := isTelegramKey_routeForChat digest platform accountId chatId
  have hroute : (routeForChat digest platform accountId chatId).platform = platform := rfl
  generalize routeForChat digest platform accountId chatId = route at hplatform hroute
  have hkey : ∀ thread key,
      (s.bindRoute route threadId remoteClientKey).runtime.keyOf thread = some key ↔
        if thread = threadId then key = route.conversationKey
        else s.runtime.keyOf thread = some key ∧ key ≠ route.conversationKey := by
    intro thread key
    simp only [bindRoute, keyOf_bindRoute]
    split
    next => exact Option.some_inj.trans eq_comm
    next => exact keyOf_unbindRoutes ..
  have hpersisted : ∀ key thread, isTelegramKey key = true →
      ((s.bindRoute route threadId remoteClientKey).imThreadBindings.lookup key = some thread ↔
        if key = route.conversationKey then thread = threadId
        else s.imThreadBindings.lookup key = some thread ∧ thread ≠ threadId) := by
    intro key thread htelegram
    simp only [bindRoute]
    by_cases hsame : key = route.conversationKey
    · rw [hsame, hplatform, decide_eq_true_eq] at htelegram
      rw [if_pos (hroute.trans htelegram), if_pos hsame, Table.lookup_insert_eq, if_pos hsame]
      exact Option.some_inj.trans eq_comm
    · rw [if_neg hsame]
      have hretain : (s.imThreadBindings.retain fun _ bound => bound ≠ threadId).lookup key = some thread ↔
          s.imThreadBindings.lookup key = some thread ∧ thread ≠ threadId := by
        rw [Table.lookup_retain, Option.filter_eq_some_iff, decide_eq_true_eq]
      split
      next => rw [Table.lookup_insert_eq, if_neg hsame]; exact hretain
      next => exact hretain
  refine ⟨fun key thread thread' h h' => ?_, fun key thread htelegram _ => ?_, fun key hc thread h => ?_⟩
  · rw [hkey] at h h'
    split at h
    next he =>
      split at h'
      next he' => rw [he, he']
      next => exact absurd h h'.2
    next =>
      split at h'
      next => exact absurd h' h.2
      next => exact hs.unique key thread thread' h.1 h'.1
  · rw [hkey, hpersisted key thread htelegram, hs.agree key thread htelegram (by rw [hidle]; simp)]
    by_cases hsame : key = route.conversationKey
    · by_cases hthread : thread = threadId <;> simp [hsame, hthread]
    · by_cases hthread : thread = threadId <;> simp [hsame, hthread]
  · obtain ⟨hne, hc⟩ := Cleared.of_bound hc
    rw [hkey] at h
    split at h
    next => exact hne h
    next => exact hs.cleared key hc thread h.1

theorem unbind_bound (hs : s.Bound) (conversationKey : String)
    (hidle : ∀ key, s.clearing ≠ some (.forgetting key)) : (s.unbind conversationKey).Bound := by
  refine ⟨fun key thread thread' h h' => ?_, fun key thread htelegram hforgetting => ?_,
    fun key hc thread h => ?_⟩
  · exact hs.unique key thread thread' ((keyOf_unbindRoutes ..).mp h).1 ((keyOf_unbindRoutes ..).mp h').1
  · have hne : key ≠ conversationKey := fun he => hforgetting (he ▸ rfl)
    refine (hs.agree key thread htelegram (hidle key)).trans ⟨fun h => ?_, fun h => ?_⟩
    · exact (keyOf_unbindRoutes ..).mpr ⟨h, hne⟩
    · exact ((keyOf_unbindRoutes ..).mp h).1
  · obtain ⟨h, hne⟩ := (keyOf_unbindRoutes ..).mp h
    exact hs.cleared key (hc.of_cleared hne) thread h

theorem forget_bound (hs : s.Bound) {conversationKey : String}
    (hforgetting : s.clearing = some (.forgetting conversationKey))
    (hcleared : ∀ thread, s.runtime.keyOf thread ≠ some conversationKey) :
    Bound { s with
      imThreadBindings :=
        if isTelegramKey conversationKey then s.imThreadBindings.erase conversationKey
        else s.imThreadBindings
      clearing := none } := by
  refine { hs with agree := fun key thread htelegram _ => ?_ }
  by_cases hsame : key = conversationKey
  · subst hsame
    rw [if_pos htelegram, Table.lookup_erase_eq, if_pos rfl]
    exact ⟨fun h => (by cases h), fun h => absurd h (hcleared thread)⟩
  · have hagree := hs.agree key thread htelegram (by
      rw [hforgetting]
      exact fun he => hsame (ClearStage.forgetting.inj (Option.some.inj he)).symm)
    split
    next => rwa [Table.lookup_erase_eq, if_neg hsame]
    next => exact hagree

/-- While a clear is about to forget the conversation, nothing is routed to it. -/
def ForgettingCleared (s : BindingSystem) : Prop :=
  ∀ key, s.clearing = some (.forgetting key) → Cleared s.log key

theorem unbind_forgettingCleared (s : BindingSystem) (conversationKey : String) :
    (s.unbind conversationKey).ForgettingCleared := by
  intro key h
  obtain rfl := ClearStage.forgetting.inj (Option.some.inj h)
  exact ⟨[], s.log, rfl, List.not_mem_nil⟩

theorem step_bound {a : BindingStep} (hs : s.Bound ∧ s.ForgettingCleared) (hrouted : s.StillRouted a)
    (h : s.step digest a = some t) : t.Bound ∧ t.ForgettingCleared := by
  obtain ⟨hb, hf⟩ := hs
  have hunbind : ∀ conversationKey, (∀ key, s.clearing ≠ some (.forgetting key)) →
      (s.unbind conversationKey).Bound ∧ (s.unbind conversationKey).ForgettingCleared :=
    fun conversationKey hidle => ⟨unbind_bound hb conversationKey hidle, unbind_forgettingCleared s _⟩
  have hidle : ¬s.clearing.isSome = true → ∀ key, s.clearing ≠ some (.forgetting key) := by
    intro hnone key he
    rw [he] at hnone
    exact hnone rfl
  cases a with
  | bindThreadToRoute platform accountId chatId threadId remoteClientKey expectedGeneration blocked =>
    simp only [step] at h
    split at h
    next => cases h
    next hnone =>
      split at h
      next => cases h; exact ⟨hb, hf⟩
      next =>
        cases h
        have hclearing := Option.not_isSome_iff_eq_none.mp hnone
        refine ⟨bindRoute_bound hb hclearing .., fun key hforgetting => ?_⟩
        exact absurd hforgetting (hidle hnone key)
  | clearThreadBinding conversationKey =>
    simp only [step] at h
    split at h
    next => cases h
    next hnone => cases h; exact hunbind conversationKey (hidle hnone)
  | clearThreadBindingIfMatches conversationKey threadId =>
    simp only [step] at h
    split at h
    next => cases h
    next hnone =>
      split at h
      next =>
        cases h
        refine ⟨{ hb with agree := fun key thread htelegram _ => ?_ }, fun key he => by cases he⟩
        exact hb.agree key thread htelegram (hidle hnone key)
      next => cases h; exact ⟨hb, hf⟩
  | unbindMatched =>
    simp only [step] at h
    split at h
    next conversationKey hmatched =>
      cases h
      exact hunbind conversationKey fun key he => by rw [hmatched] at he; cases he
    next => cases h
  | clearThreadBindingForThread threadId remoteClientKey =>
    simp only [step] at h
    split at h
    next => cases h
    next hnone =>
      split at h
      next => cases h; exact ⟨hb, hf⟩
      next route _ =>
        split at h
        next => cases h; exact ⟨hb, hf⟩
        next => cases h; exact hunbind route.conversationKey (hidle hnone)
  | forgetPersistedThreadBinding =>
    simp only [step] at h
    split at h
    next conversationKey hforgetting =>
      cases h
      refine ⟨forget_bound hb hforgetting fun thread => ?_, fun key he => by cases he⟩
      exact hb.cleared conversationKey (hf conversationKey hforgetting) thread
    next => cases h
  | lookUpApprovalRoute approval threadId =>
    simp only [step] at h
    split at h
    next => cases h; exact ⟨hb, hf⟩
    next => cases h; exact ⟨{ hb with }, hf⟩
  | rebindApprovalRoute approval =>
    simp only [step] at h
    split at h
    next => cases h
    next threadId route hfound =>
      cases h
      have hkey : ∀ thread, (s.runtime.bindRoute threadId route).keyOf thread = s.runtime.keyOf thread := by
        intro thread
        rw [keyOf_bindRoute]
        split
        next he => rw [he]; exact (hrouted _ hfound).symm
        next => rfl
      refine ⟨⟨fun key thread thread' h h' => ?_, fun key thread htelegram hc => ?_,
        fun key hc thread h => ?_⟩, hf⟩
      · exact hb.unique key thread thread' ((hkey thread).symm.trans h) ((hkey thread').symm.trans h')
      · exact (hb.agree key thread htelegram hc).trans (by rw [hkey])
      · exact hb.cleared key hc thread ((hkey thread).symm.trans h)
  | startBridgeGeneration => cases h; exact ⟨{ hb with }, hf⟩

/-- While approvals write back only routes that still hold, a conversation has one thread at most,
between the operations the persisted bindings are the routes of the Telegram conversations, and a
cleared binding stays away until the next bind. -/
theorem bindings_agree {accounts : List TelegramConfig} {persisted : PersistedBindings}
    {steps : List BindingStep}
    (hrouted : Runs.Meets (step digest) StillRouted (restored digest accounts persisted) steps)
    (h : Runs.run (step digest) (restored digest accounts persisted) steps = some s) :
    (∀ key thread thread', s.runtime.keyOf thread = some key → s.runtime.keyOf thread' = some key →
      thread = thread') ∧
    (s.clearing = none → ∀ key thread, isTelegramKey key = true →
      (s.imThreadBindings.lookup key = some thread ↔ s.runtime.keyOf thread = some key)) ∧
    ∀ newer key older, s.log = newer ++ .cleared key :: older → .bound key ∉ newer →
      (∀ thread, s.runtime.keyOf thread ≠ some key) ∧
      (s.clearing = none → isTelegramKey key = true → s.imThreadBindings.lookup key = none) := by
  have hstart : (restored digest accounts persisted).Bound ∧ (restored digest accounts persisted).ForgettingCleared :=
    ⟨restored_bound accounts persisted, fun key he => by cases he⟩
  obtain ⟨hb, -⟩ := Runs.run_invariant_of_meets (fun s : BindingSystem => s.Bound ∧ s.ForgettingCleared)
    (fun _ _ _ hs hg h => step_bound hs hg h) hstart hrouted h
  have hagree : s.clearing = none → ∀ key thread, isTelegramKey key = true →
      (s.imThreadBindings.lookup key = some thread ↔ s.runtime.keyOf thread = some key) :=
    fun hnone key thread htelegram => hb.agree key thread htelegram (by rw [hnone]; simp)
  refine ⟨hb.unique, hagree, fun newer key older hlog hnew => ?_⟩
  have hcleared := hb.cleared key ⟨newer, older, hlog, hnew⟩
  refine ⟨hcleared, fun hnone htelegram => ?_⟩
  rw [Option.eq_none_iff_forall_ne_some]
  exact fun thread hlookup => hcleared thread ((hagree hnone key thread htelegram).mp hlookup)

/-- The digest of the text `telegram:bot:42`. -/
def chatDigest (_ : String) : String := "1708400ce6c4db18"

/-- A chat is bound, an approval looks up its route and writes it back, and the chat is cleared. -/
def approvedThenCleared : List BindingStep :=
  [.bindThreadToRoute .telegram "bot" "42" "thread" "im:telegram:42" none false,
    .lookUpApprovalRoute 0 "thread", .rebindApprovalRoute 0, .clearThreadBinding "telegram:bot:42",
    .forgetPersistedThreadBinding]

theorem bindings_agree_approved :
    ∃ s, Runs.run (step chatDigest) (restored chatDigest [] ⟨∅, ∅⟩) approvedThenCleared = some s ∧
      s.runtime.keyOf "thread" ≠ some "telegram:bot:42" := by
  have hrun : ((Runs.run (step chatDigest) (restored chatDigest [] ⟨∅, ∅⟩) approvedThenCleared).map (·.log)) =
      some [.cleared "telegram:bot:42", .bound "telegram:bot:42"] := by
    decide +kernel
  obtain ⟨s, hs, hlog⟩ := Option.map_eq_some_iff.mp hrun
  have hlaws := bindings_agree (by decide +kernel) hs
  exact ⟨s, hs, (hlaws.2.2 [] "telegram:bot:42" [.bound "telegram:bot:42"] hlog List.not_mem_nil).1 "thread"⟩

/-- The chat is cleared between the approval's lookup and its writing back. -/
theorem cleared_binding_comes_back :
    ¬∀ (steps : List BindingStep) (s : BindingSystem),
      Runs.run (step chatDigest) (restored chatDigest [] ⟨∅, ∅⟩) steps = some s →
      ∀ newer key older, s.log = newer ++ .cleared key :: older → .bound key ∉ newer →
        ∀ thread, s.runtime.keyOf thread ≠ some key := by
  intro h
  have hrun : ((Runs.run (step chatDigest) (restored chatDigest [] ⟨∅, ∅⟩)
      [.bindThreadToRoute .telegram "bot" "42" "thread" "im:telegram:42" none false,
        .lookUpApprovalRoute 0 "thread", .clearThreadBinding "telegram:bot:42",
        .forgetPersistedThreadBinding, .rebindApprovalRoute 0]).map fun s =>
        (s.log, s.runtime.keyOf "thread")) =
      some ([.cleared "telegram:bot:42", .bound "telegram:bot:42"], some "telegram:bot:42") := by
    decide +kernel
  obtain ⟨s, hs, he⟩ := Option.map_eq_some_iff.mp hrun
  obtain ⟨hlog, hkey⟩ := Prod.mk.inj he
  exact h _ s hs [] "telegram:bot:42" [.bound "telegram:bot:42"] hlog List.not_mem_nil "thread" hkey

end BindingSystem

end MochiPort

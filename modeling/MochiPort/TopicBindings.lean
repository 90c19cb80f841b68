import MochiPort.TelegramProgress
import MochiPort.ThreadLifecycle
import MochiPort.ThreadRoutes

namespace MochiPort

open Table

def telegramTopicStateGraceMs : Nat := 300000

inductive TelegramTopicLifecycle where
  | active
  | archived
  | deleted
  | missingGrace
  | missingDelete
  deriving DecidableEq

def TelegramTopicLifecycle.codexState : TelegramTopicLifecycle → String
  | .active => "active"
  | .archived => "archived"
  | .deleted => "deleted"
  | .missingGrace => "missing"
  | .missingDelete => "missing"

/-- The persisted lifecycle of a binding; its titles and names are left out. -/
structure TelegramTopicBindingState where
  threadId : String
  codexState : String
  archivedAtMs : Option Nat
  missingAtMs : Option Nat
  lifecycleGeneration : Nat
  lifecycleRevision : Nat
  lastCheckedAtMs : Nat
  deriving DecidableEq

abbrev TopicStates := Table String TelegramTopicBindingState

/-- A conversation of a Topic: the platform of its key is Telegram and its chat names a Topic. -/
def isTelegramTopicKey (conversationKey : String) : Bool :=
  (splitConversationKey conversationKey).any fun parts =>
    parts.1 = .telegram && (splitTelegramMessageTarget parts.2.2).2.isSome

namespace TelegramTopicBindingState

def default : TelegramTopicBindingState := ⟨"", "active", none, none, 0, 0, 0⟩

/-- The Codex states in which the Topic is to be deleted. -/
def cleanupPending (binding : TelegramTopicBindingState) : Bool :=
  binding.codexState = "archived" || binding.codexState = "deleted" || binding.codexState = "missing"

def lifecycleChanged (before after : TelegramTopicBindingState) : Bool :=
  before.lifecycleGeneration ≠ after.lifecycleGeneration || before.codexState ≠ after.codexState

/-- Sets the lifecycle and tells whether it has changed. -/
def applyBindingLifecycle (binding : TelegramTopicBindingState) (lifecycle : TelegramTopicLifecycle)
    (generation now : Nat) : TelegramTopicBindingState × Bool :=
  let next := { binding with
    codexState := lifecycle.codexState
    archivedAtMs :=
      match lifecycle with
      | .archived => binding.archivedAtMs.or (some now)
      | .deleted => binding.archivedAtMs.or (some now)
      | _ => none
    missingAtMs :=
      match lifecycle with
      | .missingGrace => binding.missingAtMs.or (some now)
      | .missingDelete => binding.missingAtMs.or (some now)
      | _ => none
    lifecycleGeneration := generation
    lastCheckedAtMs := now }
  (next, binding.lifecycleChanged next)

def raiseRevision (binding : TelegramTopicBindingState) : TelegramTopicBindingState :=
  { binding with lifecycleRevision := saturatingAdd binding.lifecycleRevision 1 }

def keptDeleted (binding : TelegramTopicBindingState) (generation : Nat) (lifecycle : TelegramTopicLifecycle) :
    TelegramTopicLifecycle :=
  if binding.lifecycleGeneration = generation ∧ binding.codexState = "deleted" then .deleted else lifecycle

/-- `lifecycle` is what the lists of active and archived sessions show. -/
def updateTelegramTopicLifecycle (binding : TelegramTopicBindingState) (lifecycle : TelegramTopicLifecycle)
    (generation now : Nat) : TelegramTopicBindingState :=
  let applied := binding.applyBindingLifecycle (binding.keptDeleted generation lifecycle) generation now
  if applied.2 then applied.1.raiseRevision else applied.1

/-- `telegram_thread_lifecycle_intent_for_binding` -/
def lifecycleIntent (binding : TelegramTopicBindingState) (nowMs : Nat) : Option TelegramThreadLifecycleState :=
  if binding.codexState = "active" then some .active
  else if binding.codexState = "archived" then some .archived
  else if binding.codexState = "deleted" then some .deleted
  else if binding.codexState = "missing" &&
      binding.missingAtMs.any fun missingAt => telegramTopicStateGraceMs ≤ nowMs - missingAt then some .deleted
  else none

def mergeTelegramTopicLifecycleState (current next : TelegramTopicBindingState) : TelegramTopicBindingState :=
  { current with
    threadId := next.threadId
    codexState := next.codexState
    archivedAtMs := next.archivedAtMs
    missingAtMs := next.missingAtMs
    lifecycleGeneration := next.lifecycleGeneration
    lifecycleRevision :=
      if current.lifecycleChanged next then
        max (saturatingAdd current.lifecycleRevision 1) next.lifecycleRevision
      else max current.lifecycleRevision next.lifecycleRevision
    lastCheckedAtMs := next.lastCheckedAtMs }

def conflictsWithNewerLifecycle (current binding : TelegramTopicBindingState) (moved : Bool) : Bool :=
  current.lifecycleGeneration > binding.lifecycleGeneration ||
    (current.lifecycleGeneration = binding.lifecycleGeneration &&
      ((current.codexState = "deleted" && binding.codexState ≠ "deleted") ||
        (binding.codexState = "active" && current.cleanupPending) ||
        (!moved && current.codexState ≠ binding.codexState)))

end TelegramTopicBindingState

open TelegramTopicBindingState in
/-- The lifecycle of one binding after an archive or a deletion of its thread. -/
def markBinding (threadId : String) (lifecycle : TelegramTopicLifecycle) (generation now : Nat)
    (states : TopicStates) (conversationKey : String) : TopicStates :=
  if isTelegramTopicKey conversationKey then
    let binding := (states.lookup conversationKey).getD default
    if binding.lifecycleGeneration > generation then states
    else
      let lifecycle := binding.keptDeleted generation lifecycle
      let binding := { binding with threadId := threadId }
      states.insert conversationKey (binding.applyBindingLifecycle lifecycle generation now).1.raiseRevision
  else states

/-- The lifecycle of one binding after its thread was restored. -/
def unarchiveBinding (generation now : Nat) (states : TopicStates) (conversationKey : String) : TopicStates :=
  match states.lookup conversationKey with
  | none => states
  | some binding =>
    if binding.lifecycleGeneration > generation ∨
        (binding.codexState = "deleted" ∧ binding.lifecycleGeneration = generation) then states
    else states.insert conversationKey (binding.applyBindingLifecycle .active generation now).1.raiseRevision

def boundKeys (bindings : Table String String) (threadId : String) : List String :=
  (bindings.entries.filter fun entry => entry.2 = threadId).map Sigma.fst

def markTelegramTopicBindingsForCleanup (bindings : Table String String) (states : TopicStates)
    (threadId : String) (lifecycle : TelegramTopicLifecycle) (generation now : Nat) : TopicStates :=
  (boundKeys bindings threadId).foldl (markBinding threadId lifecycle generation now) states

def unarchiveTelegramTopicForCodexThread (bindings : Table String String) (states : TopicStates)
    (threadId : String) (generation now : Nat) : TopicStates :=
  ((boundKeys bindings threadId).filter isTelegramKey).foldl (unarchiveBinding generation now) states

/-- Where a commit of a reconciliation goes if it is not dropped, and whether it replaces the lifecycle there or is
merged with it. `exactly` tells whether the binding is as it was read, `intent` whether the lifecycle is an intent
for the thread. -/
def commitTarget (bindings : Table String String) (states : TopicStates) (conversationKey threadId : String)
    (exactly intent : Bool) (binding : TelegramTopicBindingState) : Option (Option (String × Bool)) :=
  if exactly then some (some (conversationKey, true))
  else if intent then
    match (bindings.entries.find? fun entry => entry.2 = threadId && isTelegramKey entry.1).map Sigma.fst with
    | none => some none
    | some currentKey =>
      let current := (states.lookup currentKey).getD .default
      if current.conflictsWithNewerLifecycle binding (currentKey ≠ conversationKey) then none
      else some (some (currentKey, false))
  else none

/-- The lifecycle that a commit writes at its target. -/
def TopicStates.committed (states : TopicStates) (binding : TelegramTopicBindingState) :
    String × Bool → TelegramTopicBindingState
  | (_, true) => binding
  | (currentKey, false) => ((states.lookup currentKey).getD .default).mergeTelegramTopicLifecycleState binding

/-- Commits what a reconciliation found out about a binding. `othersMatch` tells whether the names that are left out
are as they were read, `observed` whether the thread's intent had the revision that was read. -/
def persistTelegramTopicBindingState (bindings : Table String String) (states : TopicStates)
    (conversationKey threadId : String) (expected : Option TelegramTopicBindingState) (othersMatch : Bool)
    (binding : TelegramTopicBindingState) (observed : Bool) (nowMs : Nat) : TopicStates :=
  let exactly := bindings.lookup conversationKey = some threadId && states.lookup conversationKey = expected &&
    othersMatch
  let intent := (binding.lifecycleIntent nowMs).isSome
  match commitTarget bindings states conversationKey threadId exactly intent binding with
  | some (some target) =>
    if intent && !observed then states else states.insert target.1 (states.committed binding target)
  | _ => states

namespace TelegramTopicBindingState

variable {binding next : TelegramTopicBindingState}

/-- A later lifecycle of the same binding has a newer revision or is the same lifecycle. -/
def Newer (binding next : TelegramTopicBindingState) : Prop :=
  next.threadId = binding.threadId ∧ (binding.lifecycleRevision < next.lifecycleRevision ∨
    next.lifecycleRevision = binding.lifecycleRevision ∧
      next.lifecycleGeneration = binding.lifecycleGeneration ∧ next.codexState = binding.codexState)

theorem Newer.revision_le (h : binding.Newer next) : binding.lifecycleRevision ≤ next.lifecycleRevision := by
  rcases h.2 with hlt | ⟨heq, _⟩ <;> omega

theorem lifecycleChanged_eq_false (h : binding.lifecycleChanged next = false) :
    next.lifecycleGeneration = binding.lifecycleGeneration ∧ next.codexState = binding.codexState := by
  simp only [lifecycleChanged, Bool.or_eq_false_iff, decide_eq_false_iff_not, not_not] at h
  exact ⟨h.1.symm, h.2.symm⟩

section

variable (hroom : binding.lifecycleRevision < u64Max)
include hroom

theorem newer_raiseRevision (lifecycle : TelegramTopicLifecycle) (generation now : Nat) :
    binding.Newer (binding.applyBindingLifecycle lifecycle generation now).1.raiseRevision := by
  refine ⟨rfl, .inl ?_⟩
  have hraised : (binding.applyBindingLifecycle lifecycle generation now).1.raiseRevision.lifecycleRevision =
      binding.lifecycleRevision + 1 := saturatingAdd_one hroom
  omega

theorem newer_update (lifecycle : TelegramTopicLifecycle)
    (generation now : Nat) : binding.Newer (binding.updateTelegramTopicLifecycle lifecycle generation now) := by
  simp only [updateTelegramTopicLifecycle]
  split
  next => exact newer_raiseRevision hroom _ generation now
  next hsame =>
    refine ⟨rfl, .inr ⟨rfl, ?_⟩⟩
    exact lifecycleChanged_eq_false (Bool.eq_false_of_not_eq_true hsame)

theorem newer_merge (hthread : next.threadId = binding.threadId) :
    binding.Newer (binding.mergeTelegramTopicLifecycleState next) := by
  refine ⟨hthread, ?_⟩
  cases hchanged : binding.lifecycleChanged next with
  | true =>
    left
    have hrevision : (binding.mergeTelegramTopicLifecycleState next).lifecycleRevision =
        max (binding.lifecycleRevision + 1) next.lifecycleRevision := by
      simp only [mergeTelegramTopicLifecycleState, hchanged, if_true, saturatingAdd_one hroom]
    omega
  | false =>
    have hrevision : (binding.mergeTelegramTopicLifecycleState next).lifecycleRevision =
        max binding.lifecycleRevision next.lifecycleRevision := by
      simp [mergeTelegramTopicLifecycleState, hchanged]
    have hsame := lifecycleChanged_eq_false hchanged
    by_cases hlt : binding.lifecycleRevision < next.lifecycleRevision
    · left
      omega
    · right
      exact ⟨by omega, hsame⟩

end

end TelegramTopicBindingState

/-- Each binding keeps its lifecycle or gets a newer one, and none is made. -/
abbrev Rewritten (states next : TopicStates) : Prop := Table.Evolves TelegramTopicBindingState.Newer states next

/-- Every bound conversation has the lifecycle of its thread. -/
def Paired (bindings : Table String String) (states : TopicStates) : Prop :=
  ∀ key, bindings.lookup key = (states.lookup key).map TelegramTopicBindingState.threadId

def Unsaturated (states : TopicStates) : Prop :=
  ∀ key binding, states.lookup key = some binding → binding.lifecycleRevision < u64Max

section

variable {bindings : Table String String} {states next : TopicStates}
  {R : TelegramTopicBindingState → TelegramTopicBindingState → Prop}

theorem Paired.evolves (hpaired : Paired bindings states) (h : Table.Evolves R states next)
    (hR : ∀ {before after}, R before after → after.threadId = before.threadId) : Paired bindings next := by
  intro key
  rw [hpaired key]
  rcases h key with heq | ⟨before, after, hbefore, hafter, hchanged⟩
  · rw [heq]
  · rw [hbefore, hafter, Option.map_some, Option.map_some, hR hchanged]

section

variable (hpaired : Paired bindings states)
include hpaired

theorem Paired.retain (threadId : String) :
    Paired (bindings.retain fun _ boundThreadId => boundThreadId ≠ threadId)
      (states.retain fun _ found => found.threadId ≠ threadId) := by
  intro key
  rw [lookup_retain, lookup_retain, hpaired key]
  cases states.lookup key with
  | none => rfl
  | some found =>
    by_cases hthread : found.threadId = threadId
    · simp [Option.filter, hthread]
    · simp [Option.filter, hthread]

theorem Paired.insert (key : String) (found : TelegramTopicBindingState) :
    Paired (bindings.insert key found.threadId) (states.insert key found) := by
  intro other
  rw [lookup_insert_eq, lookup_insert_eq]
  split
  · rfl
  · exact hpaired other

theorem Paired.erase (key : String) : Paired (bindings.erase key) (states.erase key) := by
  intro other
  rw [lookup_erase_eq, lookup_erase_eq]
  split
  · rfl
  · exact hpaired other

omit hpaired in
theorem mem_boundKeys {threadId key : String} (h : key ∈ boundKeys bindings threadId) :
    bindings.lookup key = some threadId := by
  obtain ⟨entry, hentry, rfl⟩ := List.mem_map.mp h
  obtain ⟨hmem, hthread⟩ := List.mem_filter.mp hentry
  have hlookup := lookup_eq_some_iff.mpr hmem
  rw [hlookup, of_decide_eq_true hthread]

omit hpaired in
theorem boundKeys_nodup (bindings : Table String String) (threadId : String) : (boundKeys bindings threadId).Nodup := by
  have hsub : (bindings.entries.filter fun entry => entry.2 = threadId).Sublist bindings.entries :=
    List.filter_sublist
  exact bindings.nodupKeys.sublist hsub

theorem Paired.lookup {key threadId : String}
    (hbound : bindings.lookup key = some threadId) :
    ∃ binding, states.lookup key = some binding ∧ binding.threadId = threadId := by
  rw [hpaired key] at hbound
  exact Option.map_eq_some_iff.mp hbound

end

/-- What `markBinding` makes of the lifecycle that it finds. -/
def markedState (threadId : String) (lifecycle : TelegramTopicLifecycle) (generation now : Nat) (key : String)
    (found : Option TelegramTopicBindingState) : Option TelegramTopicBindingState :=
  if isTelegramTopicKey key then
    let binding := found.getD TelegramTopicBindingState.default
    if binding.lifecycleGeneration > generation then found
    else some (({ binding with threadId := threadId } : TelegramTopicBindingState).applyBindingLifecycle
      (binding.keptDeleted generation lifecycle) generation now).1.raiseRevision
  else found

theorem lookup_markBinding (threadId : String) (lifecycle : TelegramTopicLifecycle) (generation now : Nat)
    (states : TopicStates) (key other : String) :
    (markBinding threadId lifecycle generation now states key).lookup other =
      if other = key then markedState threadId lifecycle generation now key (states.lookup key)
      else states.lookup other := by
  simp only [markBinding, markedState]
  by_cases hother : other = key
  · subst hother
    rw [if_pos rfl]
    split
    · split
      · rfl
      · exact AList.lookup_insert states
    · rfl
  · rw [if_neg hother]
    split
    · split
      · rfl
      · exact AList.lookup_insert_ne hother
    · rfl

theorem mark_evolves (hpaired : Paired bindings states) (threadId : String) (lifecycle : TelegramTopicLifecycle)
    (generation now : Nat) (hR : ∀ {key binding}, states.lookup key = some binding →
      ¬binding.lifecycleGeneration > generation → R binding (binding.applyBindingLifecycle
        (binding.keptDeleted generation lifecycle) generation now).1.raiseRevision) :
    Table.Evolves R states
      (markTelegramTopicBindingsForCleanup bindings states threadId lifecycle generation now) := by
  apply evolves_foldl (lookup_markBinding threadId lifecycle generation now) (boundKeys_nodup bindings threadId)
  intro key hkey
  obtain ⟨binding, hbinding, hthread⟩ := hpaired.lookup (mem_boundKeys hkey)
  subst hthread
  rw [hbinding]
  simp only [markedState, Option.getD_some]
  split
  · split
    · exact .inl rfl
    next hcurrent => exact .inr ⟨binding, _, rfl, rfl, hR hbinding hcurrent⟩
  · exact .inl rfl

/-- What `unarchiveBinding` makes of the lifecycle that it finds. -/
def unarchivedState (generation now : Nat) (_key : String) (found : Option TelegramTopicBindingState) :
    Option TelegramTopicBindingState :=
  found.map fun binding =>
    if binding.lifecycleGeneration > generation ∨
        (binding.codexState = "deleted" ∧ binding.lifecycleGeneration = generation) then binding
    else (binding.applyBindingLifecycle .active generation now).1.raiseRevision

theorem lookup_unarchiveBinding (generation now : Nat) (states : TopicStates) (key other : String) :
    (unarchiveBinding generation now states key).lookup other =
      if other = key then unarchivedState generation now key (states.lookup key) else states.lookup other := by
  simp only [unarchiveBinding, unarchivedState]
  by_cases hother : other = key
  · subst hother
    rw [if_pos rfl]
    cases hfound : states.lookup other with
    | none => exact hfound
    | some binding =>
      simp only [Option.map_some]
      split
      · exact hfound
      · exact AList.lookup_insert states
  · rw [if_neg hother]
    split
    · rfl
    · split
      · rfl
      · exact AList.lookup_insert_ne hother

theorem unarchive_evolves (threadId : String) (generation now : Nat)
    (hR : ∀ {key binding}, states.lookup key = some binding → ¬(binding.lifecycleGeneration > generation ∨
      binding.codexState = "deleted" ∧ binding.lifecycleGeneration = generation) →
        R binding (binding.applyBindingLifecycle .active generation now).1.raiseRevision) :
    Table.Evolves R states (unarchiveTelegramTopicForCodexThread bindings states threadId generation now) := by
  have hnodup : ((boundKeys bindings threadId).filter isTelegramKey).Nodup :=
    (boundKeys_nodup bindings threadId).filter _
  apply evolves_foldl (lookup_unarchiveBinding generation now) hnodup
  intro key _
  cases hbinding : states.lookup key with
  | none => exact .inl rfl
  | some binding =>
    simp only [unarchivedState, Option.map_some]
    split
    · exact .inl rfl
    next hcurrent => exact .inr ⟨binding, _, rfl, rfl, hR hbinding hcurrent⟩

section

variable (hroom : Unsaturated states)
include hroom

theorem mark_rewritten (hpaired : Paired bindings states) (threadId : String) (lifecycle : TelegramTopicLifecycle)
    (generation now : Nat) :
    Rewritten states (markTelegramTopicBindingsForCleanup bindings states threadId lifecycle generation now) :=
  mark_evolves hpaired threadId lifecycle generation now fun hbinding _ =>
    TelegramTopicBindingState.newer_raiseRevision (hroom _ _ hbinding) ..

theorem unarchive_rewritten (threadId : String) (generation now : Nat) :
    Rewritten states (unarchiveTelegramTopicForCodexThread bindings states threadId generation now) :=
  unarchive_evolves threadId generation now fun hbinding _ =>
    TelegramTopicBindingState.newer_raiseRevision (hroom _ _ hbinding) ..

end

theorem commitTarget_cases {conversationKey threadId : String} {exactly intent : Bool}
    {binding : TelegramTopicBindingState} {target : String × Bool}
    (h : commitTarget bindings states conversationKey threadId exactly intent binding = some (some target)) :
    target = (conversationKey, true) ∧ exactly = true ∨
      ∃ key, target = (key, false) ∧ intent = true ∧ bindings.lookup key = some threadId ∧
        ((states.lookup key).getD .default).conflictsWithNewerLifecycle binding (key ≠ conversationKey) = false := by
  simp only [commitTarget] at h
  split at h
  next hexact =>
    cases h
    exact .inl ⟨rfl, hexact⟩
  next =>
    split at h
    next hintent =>
      split at h
      next => cases h
      next currentKey hfound =>
        split at h
        next => cases h
        next hconflict =>
          cases h
          obtain ⟨entry, hentry, rfl⟩ := Option.map_eq_some_iff.mp hfound
          have hbound := lookup_eq_some_iff.mpr (List.mem_of_find?_eq_some hentry)
          have hthread := List.find?_some hentry
          simp only [Bool.and_eq_true, decide_eq_true_eq] at hthread
          rw [hthread.1] at hbound
          exact .inr ⟨entry.1, rfl, hintent, hbound, Bool.eq_false_of_not_eq_true hconflict⟩
    next => cases h

theorem persist_rewritten (hpaired : Paired bindings states) (hroom : Unsaturated states) (key threadId : String)
    (expected : Option TelegramTopicBindingState) (othersMatch observed : Bool)
    (lifecycle : TelegramTopicLifecycle) (generation now nowMs : Nat) :
    Rewritten states (persistTelegramTopicBindingState bindings states key threadId expected othersMatch
      (({ expected.getD TelegramTopicBindingState.default with threadId := threadId } :
        TelegramTopicBindingState).updateTelegramTopicLifecycle lifecycle generation now) observed nowMs) := by
  have hthread : (({ expected.getD TelegramTopicBindingState.default with threadId := threadId } :
      TelegramTopicBindingState).updateTelegramTopicLifecycle lifecycle generation now).threadId = threadId := by
    simp only [TelegramTopicBindingState.updateTelegramTopicLifecycle]
    split <;> rfl
  unfold persistTelegramTopicBindingState
  dsimp only
  split
  next target htarget =>
    split
    next => exact Table.Evolves.refl states
    rcases commitTarget_cases htarget with ⟨rfl, hexact⟩ | ⟨currentKey, rfl, _, hbound, _⟩
    · simp only [Bool.and_eq_true, decide_eq_true_eq] at hexact
      obtain ⟨⟨hbound, hexpected⟩, _⟩ := hexact
      obtain ⟨binding, hbinding, hbindingThread⟩ := hpaired.lookup hbound
      subst hbindingThread
      apply evolves_insert hbinding
      rw [← hexpected, hbinding]
      exact TelegramTopicBindingState.newer_update (hroom key binding hbinding) lifecycle generation now
    · obtain ⟨binding, hbinding, hbindingThread⟩ := hpaired.lookup hbound
      apply evolves_insert hbinding
      rw [TopicStates.committed, hbinding, Option.getD_some]
      exact TelegramTopicBindingState.newer_merge (hroom currentKey binding hbinding)
        (hthread.trans hbindingThread.symm)
  next => exact Table.Evolves.refl states

end

end MochiPort

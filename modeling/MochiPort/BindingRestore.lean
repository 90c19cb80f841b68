import Mathlib.Data.String.Basic
import MochiPort.SortedTables
import MochiPort.TopicBindings

namespace MochiPort

open RustText Table

/-- The part of the persisted state that the start of the program cleans. -/
structure PersistedBindings where
  imThreadBindings : Table String String
  telegramTopicBindingStates : TopicStates

/-- What the loop over the persisted bindings has restored: routes, bindings, the threads in them and Topic states. -/
structure RestoreLoop (T : Type) where
  runtime : RuntimeState T
  imThreadBindings : Table String String
  claimedThreads : Finset String
  topicStates : TopicStates

namespace RestoreLoop

variable {T : Type}

def start : RestoreLoop T := ⟨.empty, ∅, ∅, ∅⟩

/-- The state of a restored binding; its generation is that of an earlier start. -/
def restoredState (states : TopicStates) (conversationKey threadId : String) : TelegramTopicBindingState :=
  { (states.lookup conversationKey).getD .default with threadId := threadId, lifecycleGeneration := 0 }

def step (valid : String → Option RouteTarget) (states : TopicStates) (loop : RestoreLoop T)
    (conversationKey threadId : String) : RestoreLoop T :=
  let threadId := trim threadId
  if threadId = "" then loop
  else
    match valid conversationKey with
    | none => loop
    | some route =>
      if threadId ∈ loop.claimedThreads then loop
      else
        { runtime := loop.runtime.bindRoute threadId route
          imThreadBindings := loop.imThreadBindings.insert conversationKey threadId
          claimedThreads := insert threadId loop.claimedThreads
          topicStates := loop.topicStates.insert conversationKey (restoredState states conversationKey threadId) }

def run (valid : String → Option RouteTarget) (states : TopicStates) (loop : RestoreLoop T)
    (bindings : List (Sigma fun _ : String => String)) : RestoreLoop T :=
  bindings.foldl (fun loop binding => loop.step valid states binding.1 binding.2) loop

end RestoreLoop

/-- The runtime with the restored routes, the cleaned state, and whether it is to be saved. -/
def restorePersistedImBindings {T : Type} (digest : String → String) (accounts : List TelegramConfig)
    (persisted : PersistedBindings) : RuntimeState T × PersistedBindings × Bool :=
  let loop := RestoreLoop.start.run (validPersistedTelegramRoute digest accounts)
    persisted.telegramTopicBindingStates persisted.imThreadBindings.sorted
  let changed := loop.imThreadBindings.differs persisted.imThreadBindings ||
    loop.topicStates.differs persisted.telegramTopicBindingStates
  (loop.runtime, ⟨loop.imThreadBindings, loop.topicStates⟩, changed)

namespace RestoreLoop

variable {T : Type} {valid : String → Option RouteTarget} {states : TopicStates} {loop : RestoreLoop T}
  {done bindings : List (Sigma fun _ : String => String)} {key thread conversationKey threadId : String}

def Claims (valid : String → Option RouteTarget) (binding : Sigma fun _ : String => String) (thread : String) : Prop :=
  trim binding.2 = thread ∧ thread ≠ "" ∧ valid binding.1 ≠ none

/-- The loop has kept, of the bindings so far, the first one that claims each thread. -/
structure RestoredFrom (valid : String → Option RouteTarget) (states : TopicStates)
    (done : List (Sigma fun _ : String => String)) (loop : RestoreLoop T) : Prop where
  claimed : ∀ thread, thread ∈ loop.claimedThreads ↔ ∃ binding ∈ done, Claims valid binding thread
  kept : ∀ key thread, loop.imThreadBindings.lookup key = some thread ↔
    (∃ binding ∈ done, binding.1 = key ∧ Claims valid binding thread) ∧
      ∀ binding ∈ done, Claims valid binding thread → key ≤ binding.1
  routes : ∀ thread route, loop.runtime.routeByThread.lookup thread = some route ↔
    ∃ key, loop.imThreadBindings.lookup key = some thread ∧ valid key = some route
  topics : ∀ key, loop.topicStates.lookup key =
    (loop.imThreadBindings.lookup key).map fun thread => restoredState states key thread

variable {binding : Sigma fun _ : String => String}

theorem Claims.unique {thread' : String}
    (h : Claims valid binding thread) (h' : Claims valid binding thread') : thread' = thread :=
  h'.1.symm.trans h.1

theorem step_cases (valid : String → Option RouteTarget) (states : TopicStates) (loop : RestoreLoop T)
    (binding : Sigma fun _ : String => String) :
    (∀ thread, ¬Claims valid binding thread) ∧ loop.step valid states binding.1 binding.2 = loop ∨
    ∃ thread route, Claims valid binding thread ∧ valid binding.1 = some route ∧
      (thread ∈ loop.claimedThreads ∧ loop.step valid states binding.1 binding.2 = loop ∨
        thread ∉ loop.claimedThreads ∧ loop.step valid states binding.1 binding.2 =
          { runtime := loop.runtime.bindRoute thread route
            imThreadBindings := loop.imThreadBindings.insert binding.1 thread
            claimedThreads := insert thread loop.claimedThreads
            topicStates := loop.topicStates.insert binding.1 (restoredState states binding.1 thread) }) := by
  simp only [step]
  by_cases hthread : trim binding.2 = ""
  · refine .inl ⟨fun thread hclaims => hclaims.2.1 (hclaims.1.symm.trans hthread), ?_⟩
    simp only [hthread, if_true]
  · cases hroute : valid binding.1 with
    | none =>
      refine .inl ⟨fun thread hclaims => hclaims.2.2 hroute, ?_⟩
      simp only [hthread, if_false]
    | some route =>
      refine .inr ⟨trim binding.2, route, ⟨rfl, hthread, by simp [hroute]⟩, rfl, ?_⟩
      by_cases hclaimed : trim binding.2 ∈ loop.claimedThreads
      · refine .inl ⟨hclaimed, ?_⟩
        simp only [hthread, hclaimed, if_false, if_true]
      · refine .inr ⟨hclaimed, ?_⟩
        simp only [hthread, hclaimed, if_false]

theorem start_restoredFrom : RestoredFrom valid states [] (start : RestoreLoop T) where
  claimed := by simp [start]
  kept := by simp [start]
  routes := by simp [start, RuntimeState.empty]
  topics := by simp [start]

theorem RestoredFrom.step (h : RestoredFrom valid states done loop) (hgreatest : ∀ earlier ∈ done, earlier.1 < binding.1) :
    RestoredFrom valid states (done ++ [binding]) (loop.step valid states binding.1 binding.2) := by
  have hmem : ∀ other, other ∈ done ++ [binding] ↔ other ∈ done ∨ other = binding := by simp
  have hfresh : loop.imThreadBindings.lookup binding.1 = none := by
    refine Option.eq_none_iff_forall_not_mem.mpr fun thread hthread => ?_
    obtain ⟨⟨earlier, hearlier, hkey, -⟩, -⟩ := (h.kept _ _).mp hthread
    exact absurd (hgreatest earlier hearlier) (by simp [hkey])
  rcases step_cases valid states loop binding with ⟨hnone, hstep⟩ | ⟨thread, route, hclaims, hroute, hcases⟩
  · rw [hstep]
    refine ⟨fun thread => ?_, fun key thread => ?_, h.routes, h.topics⟩
    · rw [h.claimed]
      simp only [hmem, or_and_right, exists_or, exists_eq_left, hnone, or_false]
    · rw [h.kept]
      simp only [hmem, or_and_right, exists_or, exists_eq_left, hnone, and_false, or_false, or_imp, forall_and,
        forall_eq, false_imp_iff, and_true]
  · rcases hcases with ⟨hclaimed, hstep⟩ | ⟨hfree, hstep⟩
    · obtain ⟨owner, howner, howns⟩ := (h.claimed thread).mp hclaimed
      rw [hstep]
      refine ⟨fun other => ?_, fun key other => ?_, h.routes, h.topics⟩
      · rw [h.claimed]
        constructor
        · rintro ⟨earlier, hearlier, hother⟩
          exact ⟨earlier, (hmem earlier).mpr (.inl hearlier), hother⟩
        · rintro ⟨earlier, hearlier, hother⟩
          rcases (hmem earlier).mp hearlier with hearlier | rfl
          · exact ⟨earlier, hearlier, hother⟩
          · exact ⟨owner, howner, (hclaims.unique hother) ▸ howns⟩
      · rw [h.kept]
        constructor
        · rintro ⟨⟨earlier, hearlier, rfl, hother⟩, hleast⟩
          refine ⟨⟨earlier, (hmem earlier).mpr (.inl hearlier), rfl, hother⟩, fun later hlater hclaims => ?_⟩
          rcases (hmem later).mp hlater with hlater | rfl
          · exact hleast later hlater hclaims
          · exact (hgreatest earlier hearlier).le
        · rintro ⟨⟨earlier, hearlier, rfl, hother⟩, hleast⟩
          rcases (hmem earlier).mp hearlier with hearlier | rfl
          · exact ⟨⟨earlier, hearlier, rfl, hother⟩, fun later hlater => hleast later ((hmem later).mpr (.inl hlater))⟩
          · have hle := hleast owner ((hmem owner).mpr (.inl howner)) ((hclaims.unique hother) ▸ howns)
            exact absurd hle (not_le_of_gt (hgreatest owner howner))
    · have hnew : ∀ earlier ∈ done, ¬Claims valid earlier thread := fun earlier hearlier hother =>
        hfree ((h.claimed thread).mpr ⟨earlier, hearlier, hother⟩)
      have hunkept : ∀ key, loop.imThreadBindings.lookup key ≠ some thread := by
        intro key hkey
        obtain ⟨⟨earlier, hearlier, -, hother⟩, -⟩ := (h.kept key thread).mp hkey
        exact hnew earlier hearlier hother
      rw [hstep]
      refine ⟨fun other => ?_, fun key other => ?_, fun other other' => ?_, fun key => ?_⟩
      · rw [Finset.mem_insert, h.claimed]
        constructor
        · rintro (rfl | ⟨earlier, hearlier, hother⟩)
          · exact ⟨binding, (hmem binding).mpr (.inr rfl), hclaims⟩
          · exact ⟨earlier, (hmem earlier).mpr (.inl hearlier), hother⟩
        · rintro ⟨earlier, hearlier, hother⟩
          rcases (hmem earlier).mp hearlier with hearlier | rfl
          · exact .inr ⟨earlier, hearlier, hother⟩
          · exact .inl (hclaims.unique hother)
      · rw [lookup_insert_eq]
        split
        next hkey =>
          subst hkey
          constructor
          · intro heq
            obtain rfl := Option.some.inj heq
            refine ⟨⟨binding, (hmem binding).mpr (.inr rfl), rfl, hclaims⟩, fun later hlater hlaims => ?_⟩
            rcases (hmem later).mp hlater with hlater | rfl
            · exact absurd hlaims (hnew later hlater)
            · exact le_rfl
          · rintro ⟨⟨earlier, hearlier, hkey, hother⟩, -⟩
            rcases (hmem earlier).mp hearlier with hearlier | rfl
            · exact absurd (hgreatest earlier hearlier) (by simp [hkey])
            · rw [hclaims.unique hother]
        next hkey =>
          rw [h.kept]
          constructor
          · rintro ⟨⟨earlier, hearlier, rfl, hother⟩, hleast⟩
            refine ⟨⟨earlier, (hmem earlier).mpr (.inl hearlier), rfl, hother⟩, fun later hlater hlaims => ?_⟩
            rcases (hmem later).mp hlater with hlater | rfl
            · exact hleast later hlater hlaims
            · exact (hgreatest earlier hearlier).le
          · rintro ⟨⟨earlier, hearlier, rfl, hother⟩, hleast⟩
            rcases (hmem earlier).mp hearlier with hearlier | rfl
            · exact ⟨⟨earlier, hearlier, rfl, hother⟩,
                fun later hlater => hleast later ((hmem later).mpr (.inl hlater))⟩
            · exact absurd rfl hkey
      · simp only [RuntimeState.bindRoute, lookup_insert_eq]
        by_cases hother : other = thread
        · subst hother
          rw [if_pos rfl]
          constructor
          · intro heq
            exact ⟨binding.1, if_pos rfl, hroute.trans heq⟩
          · rintro ⟨key, hkey, hvalid⟩
            split at hkey
            next he => rw [← hvalid, he, hroute]
            next => exact absurd hkey (hunkept key)
        · rw [if_neg hother, h.routes]
          constructor
          · rintro ⟨key, hkey, hvalid⟩
            have hne : key ≠ binding.1 := by
              rintro rfl
              rw [hfresh] at hkey
              cases hkey
            exact ⟨key, (if_neg hne).trans hkey, hvalid⟩
          · rintro ⟨key, hkey, hvalid⟩
            split at hkey
            next => exact absurd (Option.some.inj hkey).symm hother
            next => exact ⟨key, hkey, hvalid⟩
      · rw [lookup_insert_eq, lookup_insert_eq]
        split
        next he =>
          subst he
          rfl
        next => exact h.topics key

theorem RestoredFrom.run (h : RestoredFrom valid states done loop)
    (hincreasing : (done ++ bindings).Pairwise fun a b => a.1 < b.1) :
    RestoredFrom valid states (done ++ bindings) (loop.run valid states bindings) := by
  induction bindings generalizing done loop with
  | nil =>
    rw [List.append_nil]
    exact h
  | cons binding bindings ih =>
    have hstep : RestoredFrom valid states (done ++ [binding]) (loop.step valid states binding.1 binding.2) :=
      h.step fun earlier hearlier =>
        (List.pairwise_append.mp hincreasing).2.2 earlier hearlier binding List.mem_cons_self
    have hassoc : done ++ binding :: bindings = done ++ [binding] ++ bindings := by simp
    rw [hassoc] at hincreasing ⊢
    exact ih hstep hincreasing

theorem restored_restoredFrom (valid : String → Option RouteTarget) (states : TopicStates) (m : Table String String) :
    RestoredFrom valid states m.sorted ((start : RestoreLoop T).run valid states m.sorted) := by
  have hstart : RestoredFrom valid states [] (start : RestoreLoop T) := start_restoredFrom
  exact hstart.run m.sorted_increasing

end RestoreLoop

/-- The entry of the conversation names the thread, and its route is valid. -/
def PersistedBindings.Claims (persisted : PersistedBindings) (valid : String → Option RouteTarget)
    (conversationKey threadId : String) : Prop :=
  ∃ raw, persisted.imThreadBindings.lookup conversationKey = some raw ∧
    RestoreLoop.Claims valid ⟨conversationKey, raw⟩ threadId

/-- The same conversations are bound to the same threads, with the same states. -/
structure PersistedBindings.Same (persisted other : PersistedBindings) : Prop where
  bindings : ∀ key, persisted.imThreadBindings.lookup key = other.imThreadBindings.lookup key
  states : ∀ key, persisted.telegramTopicBindingStates.lookup key = other.telegramTopicBindingStates.lookup key

/-- Every thread is kept by the first of the conversations that claim it, and routed to it. -/
structure SoundRestore {T : Type} (valid : String → Option RouteTarget) (persisted : PersistedBindings)
    (runtime : RuntimeState T) (cleaned : PersistedBindings) : Prop where
  kept : ∀ key thread, cleaned.imThreadBindings.lookup key = some thread ↔
    persisted.Claims valid key thread ∧ ∀ key', persisted.Claims valid key' thread → key ≤ key'
  routed : ∀ thread route, runtime.routeByThread.lookup thread = some route ↔
    ∃ key, cleaned.imThreadBindings.lookup key = some thread ∧ valid key = some route
  states : ∀ key, cleaned.telegramTopicBindingStates.lookup key =
    (cleaned.imThreadBindings.lookup key).map fun thread =>
      RestoreLoop.restoredState persisted.telegramTopicBindingStates key thread

section

variable {T : Type} {valid : String → Option RouteTarget} {persisted persisted' cleaned cleaned' : PersistedBindings}
  {runtime runtime' : RuntimeState T} {digest : String → String} {accounts : List TelegramConfig}

theorem restorePersistedImBindings_sound (digest : String → String) (accounts : List TelegramConfig)
    (persisted : PersistedBindings) :
    SoundRestore (validPersistedTelegramRoute digest accounts) persisted
      (restorePersistedImBindings digest accounts persisted : RuntimeState T × _).1
      (restorePersistedImBindings digest accounts persisted : RuntimeState T × _).2.1 := by
  have hloop := RestoreLoop.restored_restoredFrom (T := T) (validPersistedTelegramRoute digest accounts)
    persisted.telegramTopicBindingStates persisted.imThreadBindings
  have hclaims : ∀ key thread, persisted.Claims (validPersistedTelegramRoute digest accounts) key thread ↔
      ∃ binding ∈ persisted.imThreadBindings.sorted, binding.1 = key ∧
        RestoreLoop.Claims (validPersistedTelegramRoute digest accounts) binding thread := by
    intro key thread
    constructor
    · rintro ⟨raw, hraw, hclaims⟩
      exact ⟨⟨key, raw⟩, mem_sorted.mpr hraw, rfl, hclaims⟩
    · rintro ⟨⟨key, raw⟩, hmem, rfl, hclaims⟩
      exact ⟨raw, mem_sorted.mp hmem, hclaims⟩
  refine ⟨fun key thread => ?_, hloop.routes, hloop.topics⟩
  rw [hclaims]
  refine (hloop.kept key thread).trans (and_congr_right fun _ => ?_)
  constructor
  · intro hleast key' hclaims'
    obtain ⟨binding, hmem, rfl, hbinding⟩ := (hclaims key' thread).mp hclaims'
    exact hleast binding hmem hbinding
  · intro hleast binding hmem hbinding
    exact hleast binding.1 ((hclaims binding.1 thread).mpr ⟨binding, hmem, rfl, hbinding⟩)

namespace SoundRestore

section

variable (h : SoundRestore valid persisted runtime cleaned)
include h

theorem key_unique {key key' thread : String} (hkey : cleaned.imThreadBindings.lookup key = some thread)
    (hkey' : cleaned.imThreadBindings.lookup key' = some thread) : key = key' := by
  obtain ⟨hclaims, hleast⟩ := (h.kept key thread).mp hkey
  obtain ⟨hclaims', hleast'⟩ := (h.kept key' thread).mp hkey'
  exact le_antisymm (hleast key' hclaims') (hleast' key hclaims)

theorem keyOf_iff (hvalid : ∀ key route, valid key = some route → route.conversationKey = key) {key thread : String} :
    runtime.keyOf thread = some key ↔ cleaned.imThreadBindings.lookup key = some thread := by
  rw [RuntimeState.keyOf, Option.map_eq_some_iff]
  constructor
  · rintro ⟨route, hroute, rfl⟩
    obtain ⟨key, hkey, hroute⟩ := (h.routed thread route).mp hroute
    rwa [hvalid key route hroute]
  · intro hkey
    obtain ⟨⟨raw, -, hclaims⟩, -⟩ := (h.kept key thread).mp hkey
    obtain ⟨route, hroute⟩ := Option.ne_none_iff_exists'.mp hclaims.2.2
    exact ⟨route, (h.routed thread route).mpr ⟨key, hkey, hroute⟩, hvalid key route hroute⟩

theorem again (h' : SoundRestore valid cleaned runtime' cleaned') :
    cleaned'.Same cleaned ∧ ∀ thread, runtime'.routeByThread.lookup thread = runtime.routeByThread.lookup thread := by
  have hclaims : ∀ key thread, cleaned.Claims valid key thread ↔ cleaned.imThreadBindings.lookup key = some thread := by
    intro key thread
    constructor
    · rintro ⟨raw, hraw, htrim, -, -⟩
      obtain ⟨⟨raw', -, htrim', -⟩, -⟩ := (h.kept key raw).mp hraw
      have hraw' : raw = thread := by
        rw [← htrim, ← htrim', trim_trim]
      exact hraw' ▸ hraw
    · intro hkey
      obtain ⟨⟨raw, -, htrim, hne, hroute⟩, -⟩ := (h.kept key thread).mp hkey
      have hthread : trim thread = thread := by rw [← htrim, trim_trim]
      exact ⟨thread, hkey, hthread, hne, hroute⟩
  have hbindings : ∀ key, cleaned'.imThreadBindings.lookup key = cleaned.imThreadBindings.lookup key := by
    intro key
    refine Option.ext fun thread => ?_
    rw [h'.kept, hclaims]
    constructor
    · exact And.left
    · intro hkey
      exact ⟨hkey, fun key' hkey' => (h.key_unique hkey ((hclaims key' thread).mp hkey')).le⟩
  refine ⟨⟨hbindings, fun key => ?_⟩, fun thread => Option.ext fun route => ?_⟩
  · rw [h'.states, hbindings, h.states]
    cases hkey : cleaned.imThreadBindings.lookup key with
    | none => rfl
    | some thread =>
      have hstate : cleaned.telegramTopicBindingStates.lookup key =
          some (RestoreLoop.restoredState persisted.telegramTopicBindingStates key thread) := by
        rw [h.states, hkey]
        rfl
      simp [RestoreLoop.restoredState, hstate]
  · rw [h'.routed, h.routed]
    simp only [hbindings]

end

end SoundRestore

theorem restorePersistedImBindings_congr (h : persisted'.Same persisted) :
    (restorePersistedImBindings digest accounts persisted' : RuntimeState T × _) =
      restorePersistedImBindings digest accounts persisted := by
  have hstate : RestoreLoop.restoredState persisted'.telegramTopicBindingStates =
      RestoreLoop.restoredState persisted.telegramTopicBindingStates := by
    funext key thread
    rw [RestoreLoop.restoredState, h.states]
    rfl
  have hloop : ∀ valid bindings, (RestoreLoop.start : RestoreLoop T).run valid persisted'.telegramTopicBindingStates
      bindings = RestoreLoop.start.run valid persisted.telegramTopicBindingStates bindings := by
    intro valid bindings
    simp only [RestoreLoop.run, RestoreLoop.step, hstate]
  have hdiffers : ∀ {V : Type} [DecidableEq V] (m : Table String V) {n n' : Table String V},
      (∀ key, n'.lookup key = n.lookup key) → m.differs n' = m.differs n := by
    intro V _ m n n' hsame
    rw [Bool.eq_iff_iff, ← not_iff_not, Bool.not_eq_true, Bool.not_eq_true, differs_eq_false_iff,
      differs_eq_false_iff]
    simp only [hsame]
  simp only [restorePersistedImBindings, sorted_congr h.bindings, hloop, hdiffers _ h.bindings, hdiffers _ h.states]

theorem restorePersistedImBindings_changed (digest : String → String) (accounts : List TelegramConfig)
    (persisted : PersistedBindings) :
    (restorePersistedImBindings digest accounts persisted : RuntimeState T × _).2.2 = true ↔
      ¬(restorePersistedImBindings digest accounts persisted : RuntimeState T × _).2.1.Same persisted := by
  have hsame : ∀ cleaned : PersistedBindings, cleaned.Same persisted ↔
      (cleaned.imThreadBindings.differs persisted.imThreadBindings ||
        cleaned.telegramTopicBindingStates.differs persisted.telegramTopicBindingStates) = false := by
    intro cleaned
    rw [Bool.or_eq_false_iff, differs_eq_false_iff, differs_eq_false_iff]
    exact ⟨fun h => ⟨h.bindings, h.states⟩, fun h => ⟨h.1, h.2⟩⟩
  rw [hsame, Bool.not_eq_false]
  rfl

end

/-- Every start of the program restores the same routes and bindings from the same entries, one thread for every
conversation and the other way round, and changes nothing the second time. -/
theorem bindings_restored {T : Type} (digest : String → String) (accounts : List TelegramConfig)
    (persisted : PersistedBindings) (runtime : RuntimeState T) (cleaned : PersistedBindings) (changed : Bool)
    (hrestored : restorePersistedImBindings digest accounts persisted = (runtime, cleaned, changed)) :
    (∀ reordered : PersistedBindings, reordered.Same persisted →
      restorePersistedImBindings digest accounts reordered = (runtime, cleaned, changed)) ∧
    (∀ thread key, runtime.keyOf thread = some key ↔ cleaned.imThreadBindings.lookup key = some thread) ∧
    (∀ thread thread' key, runtime.keyOf thread = some key → runtime.keyOf thread' = some key → thread = thread') ∧
    (∀ key key' thread, cleaned.imThreadBindings.lookup key = some thread →
      cleaned.imThreadBindings.lookup key' = some thread → key = key') ∧
    (∀ key thread, cleaned.imThreadBindings.lookup key = some thread ↔
      persisted.Claims (validPersistedTelegramRoute digest accounts) key thread ∧
      ∀ key', persisted.Claims (validPersistedTelegramRoute digest accounts) key' thread → key ≤ key') ∧
    (∀ thread route, runtime.routeByThread.lookup thread = some route → route.platform = .telegram ∧
      validPersistedTelegramRoute digest accounts route.conversationKey = some route) ∧
    (changed = true ↔ ¬cleaned.Same persisted) ∧
    ∀ runtime' : RuntimeState T, ∀ cleaned' changed',
      restorePersistedImBindings digest accounts cleaned = (runtime', cleaned', changed') →
      changed' = false ∧ cleaned'.Same cleaned ∧
        ∀ thread, runtime'.routeByThread.lookup thread = runtime.routeByThread.lookup thread := by
  have hsound := restorePersistedImBindings_sound (T := T) digest accounts persisted
  have hchanged := restorePersistedImBindings_changed (T := T) digest accounts persisted
  rw [hrestored] at hsound hchanged
  have hkeyOf := @SoundRestore.keyOf_iff T _ _ _ _ hsound fun key route hvalid => (validPersistedTelegramRoute_key hvalid).1
  refine ⟨fun reordered hsame => ?_, fun thread key => hkeyOf, fun thread thread' key hkey hkey' => ?_,
    fun key key' thread => hsound.key_unique, hsound.kept, fun thread route hroute => ?_, hchanged,
    fun runtime' cleaned' changed' hagain => ?_⟩
  · rw [restorePersistedImBindings_congr hsame, hrestored]
  · have hbound := (hkeyOf.mp hkey).symm.trans (hkeyOf.mp hkey')
    exact Option.some.inj hbound
  · obtain ⟨key, -, hvalid⟩ := (hsound.routed thread route).mp hroute
    obtain ⟨hroutekey, -⟩ := validPersistedTelegramRoute_key hvalid
    have hfilter := (Option.filter_eq_some_iff.mp hvalid).2
    simp only [Bool.and_eq_true, decide_eq_true_eq] at hfilter
    exact ⟨hfilter.1.1.1, hroutekey ▸ hvalid⟩
  · have hsound' := restorePersistedImBindings_sound (T := T) digest accounts cleaned
    have hchanged' := restorePersistedImBindings_changed (T := T) digest accounts cleaned
    rw [hagain] at hsound' hchanged'
    obtain ⟨hsame, hroutes⟩ := hsound.again hsound'
    refine ⟨?_, hsame, hroutes⟩
    cases hflag : changed' with
    | false => rfl
    | true => exact absurd hsame (hchanged'.mp hflag)

def restoringAccount : TelegramConfig := ⟨"active", true, "token", ["41", "42"], []⟩

def restoredTwice : RuntimeState Unit × PersistedBindings × Bool :=
  restorePersistedImBindings (fun _ => "digest") [restoringAccount]
    ⟨((∅ : Table String String).insert "telegram:active:42" "same").insert "telegram:active:41" " same ", ∅⟩

theorem same_thread_restored_once :
    restoredTwice.2.1.imThreadBindings.lookup "telegram:active:41" = some "same" ∧
      restoredTwice.2.1.imThreadBindings.lookup "telegram:active:42" ≠ some "same" := by
  have hrestored := bindings_restored (fun _ => "digest") [restoringAccount]
    ⟨((∅ : Table String String).insert "telegram:active:42" "same").insert "telegram:active:41" " same ", ∅⟩
    restoredTwice.1 restoredTwice.2.1 restoredTwice.2.2 rfl
  have hfirst : restoredTwice.2.1.imThreadBindings.lookup "telegram:active:41" = some "same" := by decide +kernel
  refine ⟨hfirst, fun hsecond => ?_⟩
  have hkeys := hrestored.2.2.2.1 "telegram:active:42" "telegram:active:41" "same" hsecond hfirst
  exact absurd hkeys (by decide)

/-- A Topic state that is missing counts as a change, though the bindings are as they were. -/
theorem unchanged_bindings_reported :
    let bindings : Table String String := (∅ : Table String String).insert "telegram:active:42" "thread"
    let restored : RuntimeState Unit × PersistedBindings × Bool :=
      restorePersistedImBindings (fun _ => "digest") [restoringAccount] ⟨bindings, ∅⟩
    (∀ key, restored.2.1.imThreadBindings.lookup key = bindings.lookup key) ∧ restored.2.2 = true := by
  intro bindings restored
  refine ⟨differs_eq_false_iff.mp ?_, ?_⟩
  · decide +kernel
  · decide +kernel

end MochiPort

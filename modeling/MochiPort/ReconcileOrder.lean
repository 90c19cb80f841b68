import MochiPort.TopicReconcile

namespace MochiPort

open Option Runs Table

namespace TelegramTopicBindingState

variable {binding after later : TelegramTopicBindingState}

structure SameLifecycle (binding after : TelegramTopicBindingState) : Prop where
  thread : after.threadId = binding.threadId
  state : after.codexState = binding.codexState
  generation : after.lifecycleGeneration = binding.lifecycleGeneration
  revision : after.lifecycleRevision = binding.lifecycleRevision

/-- What a later record of the same binding keeps: generation and revision never go backward, and a deletion
stays in its generation. -/
structure Advances (binding after : TelegramTopicBindingState) : Prop where
  thread : after.threadId = binding.threadId
  generation : binding.lifecycleGeneration ≤ after.lifecycleGeneration
  revision : binding.lifecycleRevision ≤ after.lifecycleRevision
  deleted : binding.codexState = "deleted" → after.lifecycleGeneration = binding.lifecycleGeneration →
    after.codexState = "deleted"

theorem SameLifecycle.trans (h : binding.SameLifecycle after) (h' : after.SameLifecycle later) :
    binding.SameLifecycle later :=
  ⟨h'.thread.trans h.thread, h'.state.trans h.state, h'.generation.trans h.generation,
    h'.revision.trans h.revision⟩

theorem SameLifecycle.advances (h : binding.SameLifecycle after) : binding.Advances after :=
  ⟨h.thread, h.generation.ge, h.revision.ge, fun hdeleted _ => h.state.trans hdeleted⟩

theorem Advances.refl (binding : TelegramTopicBindingState) : binding.Advances binding :=
  ⟨rfl, le_rfl, le_rfl, fun hdeleted _ => hdeleted⟩

theorem Advances.trans (h : binding.Advances after) (h' : after.Advances later) : binding.Advances later where
  thread := h'.thread.trans h.thread
  generation := h.generation.trans h'.generation
  revision := h.revision.trans h'.revision
  deleted hdeleted hgeneration := by
    have hfirst := h.generation
    have hsecond := h'.generation
    have hmiddle := h.deleted hdeleted (by omega)
    exact h'.deleted hmiddle (by omega)

/-- What a step of the bridge generation makes of a record: it advances, and its lifecycle is the same or is of
that generation. -/
structure Progresses (generation : Nat) (binding after : TelegramTopicBindingState) : Prop where
  advances : binding.Advances after
  dated : binding.SameLifecycle after ∨ after.lifecycleGeneration = generation
  fits : after.lifecycleRevision ≤ u64Max

theorem SameLifecycle.progresses (h : binding.SameLifecycle after) (hfits : binding.lifecycleRevision ≤ u64Max)
    (generation : Nat) : Progresses generation binding after :=
  ⟨h.advances, .inl h, h.revision.trans_le hfits⟩

theorem le_saturatingAdd {a : Nat} (h : a ≤ u64Max) : a ≤ saturatingAdd a 1 :=
  Nat.le_min.mpr ⟨Nat.le_succ a, h⟩

variable {generation : Nat}

theorem keptDeleted_eq (hdeleted : binding.codexState = "deleted")
    (hgeneration : binding.lifecycleGeneration = generation) (lifecycle : TelegramTopicLifecycle) :
    binding.keptDeleted generation lifecycle = .deleted :=
  if_pos ⟨hgeneration, hdeleted⟩

theorem progresses_raise (hcurrent : binding.lifecycleGeneration ≤ generation)
    (hfits : binding.lifecycleRevision ≤ u64Max) {lifecycle : TelegramTopicLifecycle}
    (hdeleted : binding.codexState = "deleted" → binding.lifecycleGeneration = generation → lifecycle = .deleted)
    (now : Nat) :
    Progresses generation binding (binding.applyBindingLifecycle lifecycle generation now).1.raiseRevision where
  advances := by
    refine ⟨rfl, hcurrent, le_saturatingAdd hfits, ?_⟩
    intro hstate hgeneration
    have hlifecycle := hdeleted hstate hgeneration.symm
    subst hlifecycle
    rfl
  dated := .inr rfl
  fits := Nat.min_le_right ..

theorem progresses_update (hcurrent : binding.lifecycleGeneration ≤ generation)
    (hfits : binding.lifecycleRevision ≤ u64Max) (lifecycle : TelegramTopicLifecycle) (now : Nat) :
    Progresses generation binding (binding.updateTelegramTopicLifecycle lifecycle generation now) := by
  have hdeleted : binding.codexState = "deleted" → binding.lifecycleGeneration = generation →
      binding.keptDeleted generation lifecycle = .deleted :=
    fun hstate hgeneration => keptDeleted_eq hstate hgeneration lifecycle
  have hraised := progresses_raise hcurrent hfits hdeleted now
  simp only [updateTelegramTopicLifecycle]
  split
  · exact hraised
  · exact ⟨⟨rfl, hcurrent, le_rfl, hraised.advances.deleted⟩, .inr rfl, hfits⟩

variable {current : TelegramTopicBindingState}

theorem conflictsWithNewerLifecycle_eq_false {moved : Bool}
    (h : current.conflictsWithNewerLifecycle binding moved = false) :
    current.lifecycleGeneration ≤ binding.lifecycleGeneration ∧
      (current.lifecycleGeneration = binding.lifecycleGeneration →
        (current.codexState = "deleted" → binding.codexState = "deleted") ∧
        ¬(binding.codexState = "active" ∧ current.cleanupPending = true) ∧
        (moved = false → current.codexState = binding.codexState)) := by
  simp only [conflictsWithNewerLifecycle, Bool.or_eq_false_iff, Bool.and_eq_false_iff, decide_eq_false_iff_not,
    not_lt, Bool.not_eq_false'] at h
  obtain ⟨hle, hsame⟩ := h
  refine ⟨hle, ?_⟩
  intro hgeneration
  obtain ⟨⟨hdeleted, hpending⟩, hstate⟩ := hsame.resolve_left (not_not.mpr hgeneration)
  refine ⟨?_, ?_, ?_⟩
  · intro hcurrent
    have hkept := hdeleted.resolve_left (not_not.mpr hcurrent)
    exact not_not.mp hkept
  · rintro ⟨hactive, hcleanup⟩
    rcases hpending with hnot | hnot
    · exact hnot hactive
    · rw [hcleanup] at hnot
      cases hnot
  · intro hmoved
    rcases hstate with hyes | hnot
    · rw [hmoved] at hyes
      cases hyes
    · exact not_not.mp hnot

theorem progresses_merge {moved : Bool}
    (hfits : current.lifecycleRevision ≤ u64Max) (hnext : binding.lifecycleRevision ≤ u64Max)
    (hthread : binding.threadId = current.threadId)
    (hconflict : current.conflictsWithNewerLifecycle binding moved = false) :
    Progresses binding.lifecycleGeneration current (current.mergeTelegramTopicLifecycleState binding) := by
  obtain ⟨hle, hsame⟩ := conflictsWithNewerLifecycle_eq_false hconflict
  have hraised := le_saturatingAdd hfits
  have hbound : saturatingAdd current.lifecycleRevision 1 ≤ u64Max := Nat.min_le_right ..
  refine ⟨⟨hthread, hle, ?_, ?_⟩, .inr rfl, ?_⟩
  · simp only [mergeTelegramTopicLifecycleState]
    split <;> omega
  · intro hdeleted hgeneration
    have hequal : binding.lifecycleGeneration = current.lifecycleGeneration := hgeneration
    exact (hsame hequal.symm).1 hdeleted
  · simp only [mergeTelegramTopicLifecycleState]
    split <;> omega

end TelegramTopicBindingState

open TelegramTopicBindingState

/-- Each record is left or progresses, and none is made or removed. -/
abbrev Progressed (generation : Nat) (states next : TopicStates) : Prop :=
  Table.Evolves (Progresses generation) states next

section

variable {generation : Nat} {bindings : Table String String} {states next : TopicStates}

/-- Every lifecycle revision is a `u64`. -/
def RevisionsFit (states : TopicStates) : Prop :=
  ∀ key binding, states.lookup key = some binding → binding.lifecycleRevision ≤ u64Max

theorem mark_progressed (hpaired : Paired bindings states) (hfits : RevisionsFit states) (threadId : String)
    (lifecycle : TelegramTopicLifecycle) (generation now : Nat) :
    Progressed generation states
      (markTelegramTopicBindingsForCleanup bindings states threadId lifecycle generation now) := by
  apply mark_evolves hpaired
  intro key binding hbinding hcurrent
  refine progresses_raise (not_lt.mp hcurrent) (hfits key binding hbinding) ?_ now
  intro hdeleted hgeneration
  exact keptDeleted_eq hdeleted hgeneration lifecycle

theorem unarchive_progressed (hfits : RevisionsFit states) (threadId : String) (generation now : Nat) :
    Progressed generation states
      (unarchiveTelegramTopicForCodexThread bindings states threadId generation now) := by
  apply unarchive_evolves
  intro key binding hbinding hcurrent
  obtain ⟨hle, hnot⟩ := not_or.mp hcurrent
  refine progresses_raise (not_lt.mp hle) (hfits key binding hbinding) ?_ now
  intro hdeleted hgeneration
  exact absurd ⟨hdeleted, hgeneration⟩ hnot

end

/-- The steps that make a new binding of the conversation. -/
def RecordStep.Binds (a : RecordStep) (key : String) : Prop :=
  match a with
  | .bind conversationKey _ => conversationKey = key
  | _ => False

namespace TopicRecords

variable {s t : TopicRecords} {a : RecordStep} {n : Nat} {reconcile : Reconcile}

/-- What holds between the steps. `dated` says what a reconciliation can still meet at its commit: the lifecycle
that it has read, or one that was written in its own generation. -/
structure Sound (s : TopicRecords) : Prop where
  paired : Paired s.imThreadBindings s.topicStates
  fits : RevisionsFit s.topicStates
  current : ∀ {key binding}, s.topicStates.lookup key = some binding →
    binding.lifecycleGeneration ≤ s.bridgeGeneration
  bounded : s.bridgeGeneration ≤ u64Max
  read : ∀ {n reconcile}, s.reconciles.lookup n = some reconcile → reconcile.generation ≤ s.bridgeGeneration ∧
    ∀ binding, reconcile.expectedState = some binding → binding.lifecycleRevision ≤ u64Max
  dated : ∀ {n reconcile found}, s.reconciles.lookup n = some reconcile →
    reconcile.generation = s.bridgeGeneration → s.topicStates.lookup reconcile.conversationKey = some found →
    (∃ binding, reconcile.expectedState = some binding ∧ binding.SameLifecycle found) ∨
      found.lifecycleGeneration = reconcile.generation

theorem Sound.progressed (hs : s.Sound) {next : TopicRecords}
    (hnext : Progressed s.bridgeGeneration s.topicStates next.topicStates)
    (hbindings : next.imThreadBindings = s.imThreadBindings) (hgeneration : next.bridgeGeneration = s.bridgeGeneration)
    (hreconciles : ∀ n reconcile, next.reconciles.lookup n = some reconcile →
      s.reconciles.lookup n = some reconcile) : next.Sound where
  paired := by
    rw [hbindings]
    exact hs.paired.evolves hnext fun hprogress => hprogress.advances.thread
  fits := by
    intro key after hafter
    obtain ⟨before, hbefore, rfl | hprogress⟩ := hnext.of_some hafter
    · exact hs.fits key before hbefore
    · exact hprogress.fits
  current := by
    intro key after hafter
    obtain ⟨before, hbefore, rfl | hprogress⟩ := hnext.of_some hafter
    · exact hgeneration ▸ hs.current hbefore
    · have hle := hs.current hbefore
      rcases hprogress.dated with hsame | hdated
      · have heq := hsame.generation
        omega
      · omega
  bounded := hgeneration ▸ hs.bounded
  read hn := hgeneration ▸ hs.read (hreconciles _ _ hn)
  dated := by
    intro n reconcile after hn hreconcile hafter
    have hn := hreconciles n reconcile hn
    obtain ⟨before, hbefore, rfl | hprogress⟩ := hnext.of_some hafter
    · exact hs.dated hn (hreconcile.trans hgeneration) hbefore
    · rcases hprogress.dated with hsame | hdated
      · rcases hs.dated hn (hreconcile.trans hgeneration) hbefore with ⟨binding, hread, hfirst⟩ | hfound
        · exact .inl ⟨binding, hread, hfirst.trans hsame⟩
        · exact .inr (hsame.generation.trans hfound)
      · exact .inr (hdated.trans (hreconcile.trans hgeneration).symm)

theorem reconciled_eq (expected : Option TelegramTopicBindingState) (threadId : String)
    (activeIds archivedIds : List String) (generation now : Nat) :
    (reconciled expected threadId activeIds archivedIds generation now).threadId = threadId ∧
      (reconciled expected threadId activeIds archivedIds generation now).lifecycleGeneration = generation ∧
      ((∀ binding, expected = some binding → binding.lifecycleRevision ≤ u64Max) →
        (reconciled expected threadId activeIds archivedIds generation now).lifecycleRevision ≤ u64Max) := by
  simp only [reconciled, updateTelegramTopicLifecycle]
  split
  · exact ⟨rfl, rfl, fun _ => Nat.min_le_right ..⟩
  · refine ⟨rfl, rfl, ?_⟩
    intro hfits
    cases expected with
    | none => exact Nat.zero_le u64Max
    | some binding => exact hfits binding rfl

theorem exactlyMatches_eq_true (h : s.exactlyMatches reconcile = true) :
    s.imThreadBindings.lookup reconcile.conversationKey = some reconcile.threadId ∧
      s.topicStates.lookup reconcile.conversationKey = reconcile.expectedState ∧
      s.namesOf reconcile.conversationKey = reconcile.expectedNames := by
  simp only [exactlyMatches, boundTo, Bool.and_eq_true, decide_eq_true_eq] at h
  exact ⟨h.1.1, h.1.2, h.2⟩

inductive Commits (s : TopicRecords) (reconcile : Reconcile) : TopicRecords → Prop where
  | dropped (lifecycles : ThreadIntents) : Commits s reconcile { s with lifecycles := lifecycles }
  | replaced (before after : TelegramTopicBindingState) (names : TelegramTopicNames) (lifecycles : ThreadIntents)
      (current : s.bridgeGeneration = reconcile.generation) (matched : s.exactlyMatches reconcile = true)
      (found : s.topicStates.lookup reconcile.conversationKey = some before)
      (progresses : Progresses reconcile.generation before after) :
      Commits s reconcile { s with
        lifecycles := lifecycles
        topicStates := s.topicStates.insert reconcile.conversationKey after
        topicNames := s.topicNames.insert reconcile.conversationKey names }
  | merged (key : String) (before next : TelegramTopicBindingState) (lifecycles : ThreadIntents)
      (current : s.bridgeGeneration = reconcile.generation) (found : s.topicStates.lookup key = some before)
      (thread : before.threadId = reconcile.threadId) (generation : next.lifecycleGeneration = reconcile.generation)
      (revision : s.lifecycles.revision reconcile.threadId reconcile.generation = some reconcile.lifecycleRevision)
      (conflict : before.conflictsWithNewerLifecycle next (key ≠ reconcile.conversationKey) = false)
      (progresses : Progresses reconcile.generation before (before.mergeTelegramTopicLifecycleState next)) :
      Commits s reconcile { s with
        lifecycles := lifecycles
        topicStates := s.topicStates.insert key (before.mergeTelegramTopicLifecycleState next) }

section

variable (hs : s.Sound)
include hs

theorem persistReconciled_commits (hn : s.reconciles.lookup n = some reconcile)
    (activeIds archivedIds : List String) (now : Nat) (names : TelegramTopicNames) (nowMs : Nat) :
    Commits s reconcile (s.persistReconciled reconcile (reconciled reconcile.expectedState reconcile.threadId
      activeIds archivedIds reconcile.generation now) names nowMs) := by
  obtain ⟨hthread, hgeneration, hrevision⟩ := reconciled_eq reconcile.expectedState reconcile.threadId activeIds
    archivedIds reconcile.generation now
  simp only [persistReconciled]
  split
  · exact .dropped s.lifecycles
  next hcurrent =>
    split
    · exact .dropped s.lifecycles
    next target htarget =>
      generalize (reconciled reconcile.expectedState reconcile.threadId activeIds archivedIds reconcile.generation
        now).lifecycleIntent nowMs = intent at htarget ⊢
      generalize hobserve : s.lifecycles.observeIntent reconcile.threadId reconcile.generation
        reconcile.lifecycleRevision intent = observation
      obtain ⟨lifecycles, observed⟩ := observation
      split
      next hobserved =>
        rcases commitTarget_cases htarget with ⟨rfl, hexact⟩ | ⟨currentKey, rfl, hintent, hbound, hconflict⟩
        · obtain ⟨hbound, hstate, _⟩ := exactlyMatches_eq_true hexact
          obtain ⟨before, hbefore, hbeforeThread⟩ := hs.paired.lookup hbound
          refine .replaced before _ names lifecycles (not_not.mp hcurrent) hexact hbefore ?_
          rw [hbefore] at hstate
          rw [← hstate, ← hbeforeThread]
          have hle := hs.current hbefore
          have hprogress := progresses_update (hle.trans_eq (not_not.mp hcurrent)) (hs.fits _ before hbefore)
            (before.shownLifecycle before.threadId activeIds archivedIds now) now
          exact hprogress
        · obtain ⟨before, hbefore, hbeforeThread⟩ := hs.paired.lookup hbound
          obtain ⟨state, rfl⟩ := isSome_iff_exists.mp hintent
          have hread := ThreadIntents.observe_expected ((congrArg Prod.snd hobserve).trans hobserved)
          rw [hbefore, getD_some] at hconflict
          rw [TopicStates.committed, hbefore, getD_some]
          have hprogress := progresses_merge (hs.fits _ before hbefore) (hrevision (hs.read hn).2)
            (hthread.trans hbeforeThread.symm) hconflict
          rw [hgeneration] at hprogress
          exact .merged currentKey before _ lifecycles (not_not.mp hcurrent) hbefore hbeforeThread hgeneration hread
            hconflict hprogress
      next => exact .dropped lifecycles

omit hs in
theorem Commits.progressed (h : Commits s reconcile t) :
    Progressed s.bridgeGeneration s.topicStates t.topicStates ∧ t.imThreadBindings = s.imThreadBindings ∧
      t.bridgeGeneration = s.bridgeGeneration ∧ t.reconciles = s.reconciles := by
  cases h with
  | dropped => exact ⟨.refl _, rfl, rfl, rfl⟩
  | replaced before after names lifecycles current matched found progresses
  | merged key before next lifecycles current found thread generation revision conflict progresses =>
    rw [current]
    exact ⟨evolves_insert found progresses, rfl, rfl, rfl⟩

theorem writeNames_progressed (key : String) (now : Nat) (write : TelegramTopicNames → TelegramTopicNames) :
    Progressed s.bridgeGeneration s.topicStates (s.writeNames key now write).topicStates ∧
      (s.writeNames key now write).imThreadBindings = s.imThreadBindings ∧
      (s.writeNames key now write).bridgeGeneration = s.bridgeGeneration ∧
      (s.writeNames key now write).reconciles = s.reconciles := by
  unfold writeNames
  split
  · exact ⟨.refl _, rfl, rfl, rfl⟩
  next binding hbinding =>
    have hsame : binding.SameLifecycle { binding with lastCheckedAtMs := now } := ⟨rfl, rfl, rfl, rfl⟩
    exact ⟨evolves_insert hbinding (hsame.progresses (hs.fits key binding hbinding) _), rfl, rfl, rfl⟩

theorem Sound.writeNames (key : String) (now : Nat)
    (write : TelegramTopicNames → TelegramTopicNames) : (s.writeNames key now write).Sound := by
  obtain ⟨hnext, hbindings, hgeneration, hreconciles⟩ := writeNames_progressed hs key now write
  apply hs.progressed hnext hbindings hgeneration
  intro n reconcile hn
  exact hreconciles ▸ hn

theorem Sound.bindThread (key threadId : String) : (s.bindThread key threadId).Sound := by
  have hretained := hs.paired.retain threadId
  unfold TopicRecords.bindThread
  split
  · refine ⟨?_, ?_, ?_, hs.bounded, hs.read, ?_⟩
    · have hinserted := hretained.insert key { TelegramTopicBindingState.default with
        threadId := threadId
        lifecycleGeneration := s.bridgeGeneration }
      exact hinserted
    · intro other found hfound
      rcases of_lookup_insert hfound with ⟨_, rfl⟩ | ⟨_, hfound⟩
      · exact Nat.zero_le u64Max
      · exact hs.fits other found (of_lookup_retain hfound)
    · intro other found hfound
      rcases of_lookup_insert hfound with ⟨_, rfl⟩ | ⟨_, hfound⟩
      · exact le_rfl
      · exact hs.current (of_lookup_retain hfound)
    · intro n reconcile found hn hcurrent hfound
      rcases of_lookup_insert hfound with ⟨_, rfl⟩ | ⟨_, hfound⟩
      · exact .inr hcurrent.symm
      · exact hs.dated hn hcurrent (of_lookup_retain hfound)
  · exact ⟨hretained, fun other found hfound => hs.fits other found (of_lookup_retain hfound),
      fun hfound => hs.current (of_lookup_retain hfound), hs.bounded, hs.read,
      fun hn hcurrent hfound => hs.dated hn hcurrent (of_lookup_retain hfound)⟩

theorem Sound.forgetBinding (key : String) : (s.forgetBinding key).Sound := by
  unfold TopicRecords.forgetBinding
  split
  · exact ⟨hs.paired.erase key, fun other found hfound => hs.fits other found (of_lookup_erase hfound).2,
      fun hfound => hs.current (of_lookup_erase hfound).2, hs.bounded, hs.read,
      fun hn hcurrent hfound => hs.dated hn hcurrent (of_lookup_erase hfound).2⟩
  · exact hs

theorem Sound.snapshot (key threadId : String) (lifecycleRevision : Nat) :
    Sound { s with
      reconciles := s.reconciles.insert s.started ⟨key, threadId, s.topicStates.lookup key, s.namesOf key,
        s.bridgeGeneration, lifecycleRevision⟩
      started := s.started + 1 } := by
  refine ⟨hs.paired, hs.fits, hs.current, hs.bounded, ?_, ?_⟩
  · intro n reconcile hn
    rcases of_lookup_insert hn with ⟨_, rfl⟩ | ⟨_, hn⟩
    · exact ⟨le_rfl, fun binding hbinding => hs.fits key binding hbinding⟩
    · exact hs.read hn
  · intro n reconcile found hn hcurrent hfound
    rcases of_lookup_insert hn with ⟨_, rfl⟩ | ⟨_, hn⟩
    · exact .inl ⟨found, hfound, ⟨rfl, rfl, rfl, rfl⟩⟩
    · exact hs.dated hn hcurrent hfound

theorem Sound.intents (lifecycles : ThreadIntents) : Sound { s with lifecycles := lifecycles } :=
  ⟨hs.paired, hs.fits, hs.current, hs.bounded, hs.read, hs.dated⟩

theorem Sound.nextGeneration : Sound { s with bridgeGeneration := saturatingAdd s.bridgeGeneration 1 } := by
  have hlater := le_saturatingAdd hs.bounded
  refine ⟨hs.paired, hs.fits, fun hfound => (hs.current hfound).trans hlater, Nat.min_le_right .., ?_, ?_⟩
  · intro n reconcile hn
    exact ⟨(hs.read hn).1.trans hlater, (hs.read hn).2⟩
  · intro n reconcile found hn hcurrent hfound
    have hread := (hs.read hn).1
    have hcurrent : reconcile.generation = saturatingAdd s.bridgeGeneration 1 := hcurrent
    exact hs.dated hn (by omega) hfound

theorem Sound.lifecycle {outdated : Prop} [Decidable outdated] {next : TopicStates} (lifecycles : ThreadIntents)
    (hnext : ¬outdated → Progressed s.bridgeGeneration s.topicStates next) :
    Sound (if outdated then s else { s with lifecycles := lifecycles, topicStates := next }) := by
  split
  · exact hs
  next hcurrent => exact hs.progressed (hnext hcurrent) rfl rfl fun _ _ hn => hn

theorem Sound.commit {next : TopicRecords} (hnext : Commits s reconcile next) (n : Nat) :
    Sound { next with reconciles := s.reconciles.erase n } := by
  obtain ⟨hprogressed, hbindings, hgeneration, _⟩ := hnext.progressed
  have hkept : ∀ m found, (s.reconciles.erase n).lookup m = some found → s.reconciles.lookup m = some found :=
    fun _ _ hm => (of_lookup_erase hm).2
  exact hs.progressed hprogressed hbindings hgeneration hkept

omit hs in
theorem start_sound {restored : TopicStates} {names : Table String TelegramTopicNames}
    (hfits : ∀ entry ∈ restored.entries, entry.2.lifecycleRevision ≤ u64Max) : (start restored names).Sound where
  paired key := by
    have hstates := lookup_mapTo (fun binding : TelegramTopicBindingState =>
      { binding with lifecycleGeneration := 0 }) restored key
    have hbindings := lookup_mapTo TelegramTopicBindingState.threadId restored key
    simp only [start, hstates, hbindings, map_map, Function.comp_def]
  fits := by
    intro key binding hbinding
    have hstates := lookup_mapTo (fun binding : TelegramTopicBindingState =>
      { binding with lifecycleGeneration := 0 }) restored key
    obtain ⟨found, hfound, rfl⟩ := map_eq_some_iff.mp (hstates.symm.trans hbinding)
    exact hfits _ (lookup_eq_some_iff.mp hfound)
  current := by
    intro key binding hbinding
    have hstates := lookup_mapTo (fun binding : TelegramTopicBindingState =>
      { binding with lifecycleGeneration := 0 }) restored key
    obtain ⟨found, _, rfl⟩ := map_eq_some_iff.mp (hstates.symm.trans hbinding)
    exact le_rfl
  bounded := Nat.zero_le u64Max
  read h := nomatch h
  dated h := nomatch h

theorem Sound.writeNamesIf {allowed : Prop} [Decidable allowed] (key : String) (now : Nat)
    (write : TelegramTopicNames → TelegramTopicNames) :
    (if allowed then s.writeNames key now write else s).Sound := by
  split
  · exact hs.writeNames key now write
  · exact hs

omit hs in
theorem step_snapshot {key : String} (h : s.step (.snapshot key) = some t) :
    ∃ threadId lifecycleRevision, t = { s with
      reconciles := s.reconciles.insert s.started ⟨key, threadId, s.topicStates.lookup key, s.namesOf key,
        s.bridgeGeneration, lifecycleRevision⟩
      started := s.started + 1 } := by
  simp only [step] at h
  split at h
  next => cases h
  next threadId _ =>
    obtain ⟨lifecycleRevision, _, rfl⟩ := map_eq_some_iff.mp h
    exact ⟨threadId, lifecycleRevision, rfl⟩

theorem step_sound (h : s.step a = some t) : t.Sound := by
  cases a with
  | nextGeneration =>
    cases Option.some.inj h
    exact hs.nextGeneration
  | bind key threadId =>
    cases Option.some.inj h
    exact hs.bindThread key threadId
  | forget key =>
    cases Option.some.inj h
    exact hs.forgetBinding key
  | mark threadId lifecycle generation now =>
    cases Option.some.inj h
    apply hs.lifecycle
    intro hcurrent
    rw [not_not.mp hcurrent]
    exact mark_progressed hs.paired hs.fits threadId lifecycle generation now
  | unarchive threadId generation now =>
    cases Option.some.inj h
    apply hs.lifecycle
    intro hcurrent
    rw [not_not.mp hcurrent]
    split
    · exact unarchive_progressed hs.fits threadId generation now
    · exact .refl s.topicStates
  | beginStarted threadId generation =>
    cases Option.some.inj h
    exact hs.intents _
  | endStarted position =>
    obtain ⟨lifecycles, _, rfl⟩ := map_eq_some_iff.mp h
    exact hs.intents lifecycles
  | snapshot key =>
    obtain ⟨threadId, lifecycleRevision, rfl⟩ := step_snapshot h
    exact hs.snapshot key threadId lifecycleRevision
  | persist n activeIds archivedIds now nowMs names =>
    obtain ⟨reconcile, hn, rfl⟩ := map_eq_some_iff.mp h
    exact hs.commit (persistReconciled_commits hs hn activeIds archivedIds now names nowMs) n
  | beginNameUpdate key =>
    cases Option.some.inj h
    exact ⟨hs.paired, hs.fits, hs.current, hs.bounded, hs.read, hs.dated⟩
  | finishNameUpdate key token =>
    cases Option.some.inj h
    split
    · exact ⟨hs.paired, hs.fits, hs.current, hs.bounded, hs.read, hs.dated⟩
    · exact hs
  | persistServiceState | persistName =>
    cases Option.some.inj h
    exact hs.writeNames ..
  | recordTopicName | commitNameToCodex | commitName | persistTitle | persistAutoName | persistManualName =>
    cases Option.some.inj h
    exact hs.writeNamesIf ..

theorem run_sound {steps : List RecordStep} (h : run step s steps = some t) : t.Sound :=
  run_invariant Sound (fun _ _ _ => step_sound) hs h

end

/-- A commit of the reconciliation replaces names only in the record that it has read, as it has read it; and it
changes a lifecycle only where the record has the lifecycle that it has read, or merges it with the binding that
the thread has been moved to: the thread's intent is the one that it has read, and what is to be deleted is not made
active. -/
structure NeverOverwrites (s : TopicRecords) (reconcile : Reconcile) (t : TopicRecords) : Prop where
  names : ∀ key, t.namesOf key ≠ s.namesOf key → key = reconcile.conversationKey ∧
    s.imThreadBindings.lookup key = some reconcile.threadId ∧
    s.topicStates.lookup key = reconcile.expectedState ∧ s.namesOf key = reconcile.expectedNames
  lifecycle : ∀ {key before after}, s.topicStates.lookup key = some before →
    t.topicStates.lookup key = some after → before.lifecycleChanged after = true →
    key = reconcile.conversationKey ∧
        (∃ binding, reconcile.expectedState = some binding ∧ binding.SameLifecycle before) ∨
      key ≠ reconcile.conversationKey ∧ before.threadId = reconcile.threadId ∧
        s.lifecycles.revision reconcile.threadId reconcile.generation = some reconcile.lifecycleRevision ∧
        (before.lifecycleGeneration = reconcile.generation → before.cleanupPending = true →
          after.codexState ≠ "active")

/-- A commit whose snapshot is outdated is dropped or merged. An archive, a deletion or an unarchive leaves an intent
that no snapshot from before it expects, unless the snapshot's commit is a deletion. -/
def KeepsNewer (s : TopicRecords) (a : RecordStep) (t : TopicRecords) : Prop :=
  match a with
  | .persist n .. => ∀ reconcile, s.reconciles.lookup n = some reconcile → s.NeverOverwrites reconcile t
  | .mark threadId _ generation _ | .unarchive threadId generation _ =>
    t = s ∨ t.lifecycles.Supersedes s.lifecycles threadId generation
  | .recordTopicName key _ _ token _ => t = s ∨ s.nameUpdateIsCurrent key token = true
  | .commitNameToCodex key threadId topicName token _ =>
    t = s ∨ s.nameUpdateIsCurrent key token = true ∧ s.boundTo key threadId = true ∧
      (s.namesOf key).topicName = topicName
  | .commitName key threadId _ _ token _ =>
    t = s ∨ s.nameUpdateIsCurrent key token = true ∧ s.boundTo key threadId = true
  | .persistTitle key threadId _ token _ =>
    t = s ∨ s.nameUpdateIsCurrent key token = true ∧ s.boundTo key threadId = true
  | .persistManualName key threadId expectedState expectedNames _ _ =>
    t = s ∨ s.boundTo key threadId = true ∧ s.topicStates.lookup key = expectedState ∧
      s.namesOf key = expectedNames
  | _ => True

theorem namesOf_insert {names : TelegramTopicNames} {key other : String} {states : TopicStates}
    {lifecycles : ThreadIntents} (hne : other ≠ key) :
    namesOf { s with
      lifecycles := lifecycles, topicStates := states, topicNames := s.topicNames.insert key names } other =
      s.namesOf other := by
  unfold namesOf
  rw [AList.lookup_insert_ne hne]

theorem lifecycleChanged_self (binding : TelegramTopicBindingState) : binding.lifecycleChanged binding = false := by
  simp [lifecycleChanged]

theorem Commits.neverOverwrites (hs : s.Sound) (hn : s.reconciles.lookup n = some reconcile)
    (h : Commits s reconcile t) : s.NeverOverwrites reconcile t := by
  cases h with
  | dropped =>
    refine ⟨fun key hchanged => absurd rfl hchanged, ?_⟩
    intro key before after hbefore hafter hchanged
    rw [hbefore] at hafter
    cases hafter
    rw [lifecycleChanged_self] at hchanged
    cases hchanged
  | replaced found after names lifecycles current matched hfound progresses =>
    obtain ⟨hbound, hstate, hnames⟩ := exactlyMatches_eq_true matched
    refine ⟨?_, ?_⟩
    · intro key hchanged
      by_cases hkey : key = reconcile.conversationKey
      · subst hkey
        exact ⟨rfl, hbound, hstate, hnames⟩
      · exact absurd (namesOf_insert hkey) hchanged
    · intro key before later hbefore hlater hchanged
      rcases of_lookup_insert hlater with ⟨rfl, rfl⟩ | ⟨_, hlater⟩
      · rw [hbefore] at hstate
        exact .inl ⟨rfl, before, hstate.symm, ⟨rfl, rfl, rfl, rfl⟩⟩
      · rw [hbefore] at hlater
        cases hlater
        rw [lifecycleChanged_self] at hchanged
        cases hchanged
  | merged currentKey found next lifecycles current hfound thread generation revision conflict progresses =>
    obtain ⟨_, hsame⟩ := conflictsWithNewerLifecycle_eq_false conflict
    refine ⟨fun key hchanged => absurd rfl hchanged, ?_⟩
    intro key before later hbefore hlater hchanged
    rcases of_lookup_insert hlater with ⟨rfl, rfl⟩ | ⟨_, hlater⟩
    · rw [hfound] at hbefore
      cases hbefore
      by_cases hkey : key = reconcile.conversationKey
      · -- a lifecycle of this generation has the state that the commit asks for
        refine .inl ⟨hkey, ?_⟩
        subst hkey
        refine (hs.dated hn current.symm hfound).resolve_right ?_
        intro hgeneration
        have hstate := (hsame (hgeneration.trans generation.symm)).2.2 (by simp)
        have hunchanged : found.lifecycleChanged (found.mergeTelegramTopicLifecycleState next) = false := by
          simp [lifecycleChanged, mergeTelegramTopicLifecycleState, hgeneration, generation, hstate]
        rw [hunchanged] at hchanged
        cases hchanged
      · refine .inr ⟨hkey, thread, revision, ?_⟩
        intro hgeneration hpending hactive
        exact (hsame (hgeneration.trans generation.symm)).2.1 ⟨hactive, hpending⟩
    · rw [hbefore] at hlater
      cases hlater
      rw [lifecycleChanged_self] at hchanged
      cases hchanged

variable {key : String}

theorem writeNames_dropped {allowed : Prop} [Decidable allowed] {now : Nat}
    {write : TelegramTopicNames → TelegramTopicNames}
    (h : some (if allowed then s.writeNames key now write else s) = some t) : t = s ∨ allowed := by
  have heq := Option.some.inj h
  by_cases hallowed : allowed
  · exact .inr hallowed
  · rw [if_neg hallowed] at heq
    exact .inl heq.symm

theorem step_keepsNewer (hs : s.Sound) (h : s.step a = some t) : s.KeepsNewer a t := by
  cases a with
  | persist n activeIds archivedIds now nowMs names =>
    obtain ⟨reconcile, hn, rfl⟩ := map_eq_some_iff.mp h
    intro found hfound
    rw [hn] at hfound
    cases hfound
    have hkept := (persistReconciled_commits hs hn activeIds archivedIds now names nowMs).neverOverwrites hs hn
    exact ⟨hkept.names, hkept.lifecycle⟩
  | mark | unarchive =>
    cases Option.some.inj h
    split
    · exact .inl rfl
    · right
      exact s.lifecycles.supersedes_observe _ _ _
  | recordTopicName | commitNameToCodex | commitName | persistTitle | persistManualName =>
    rcases writeNames_dropped h with hdropped | hallowed
    · exact .inl hdropped
    · simp only [Bool.and_eq_true, decide_eq_true_eq] at hallowed
      first
        | exact .inr hallowed.1
        | exact .inr ⟨hallowed.1.1.1, hallowed.1.1.2, hallowed.2⟩
        | exact .inr ⟨hallowed.1.1.2, hallowed.1.2, hallowed.2⟩
  | _ => trivial

theorem step_advances (hs : s.Sound) (h : s.step a = some t) (hbinds : ¬a.Binds key)
    {after : TelegramTopicBindingState} (hafter : t.topicStates.lookup key = some after) :
    ∃ before, s.topicStates.lookup key = some before ∧ before.Advances after := by
  have hprogressed : ∀ {next : TopicStates}, Progressed s.bridgeGeneration s.topicStates next →
      next.lookup key = some after →
      ∃ before, s.topicStates.lookup key = some before ∧ before.Advances after := by
    intro next hnext hlookup
    obtain ⟨before, hbefore, rfl | hprogress⟩ := hnext.of_some hlookup
    · exact ⟨before, hbefore, .refl before⟩
    · exact ⟨before, hbefore, hprogress.advances⟩
  have hwritten : ∀ {allowed : Prop} [Decidable allowed] {conversationKey : String} {now : Nat}
      {write : TelegramTopicNames → TelegramTopicNames},
      some (if allowed then s.writeNames conversationKey now write else s) = some t →
      ∃ before, s.topicStates.lookup key = some before ∧ before.Advances after := by
    intro allowed _ conversationKey now write heq
    have heq := Option.some.inj heq
    subst heq
    split at hafter
    · exact hprogressed (writeNames_progressed hs conversationKey now write).1 hafter
    · exact ⟨after, hafter, .refl after⟩
  cases a with
  | nextGeneration | beginNameUpdate | beginStarted =>
    cases Option.some.inj h
    exact ⟨after, hafter, .refl after⟩
  | bind conversationKey threadId =>
    cases Option.some.inj h
    refine ⟨after, ?_, .refl after⟩
    simp only [bindThread] at hafter
    split at hafter
    · rcases of_lookup_insert hafter with ⟨hkey, _⟩ | ⟨_, hafter⟩
      · exact absurd hkey.symm hbinds
      · exact of_lookup_retain hafter
    · exact of_lookup_retain hafter
  | forget conversationKey =>
    cases Option.some.inj h
    refine ⟨after, ?_, .refl after⟩
    simp only [forgetBinding] at hafter
    split at hafter
    · exact (of_lookup_erase hafter).2
    · exact hafter
  | mark threadId lifecycle generation now =>
    cases Option.some.inj h
    split at hafter
    · exact ⟨after, hafter, .refl after⟩
    next hcurrent =>
      have hnext := mark_progressed hs.paired hs.fits threadId lifecycle generation now
      rw [← not_not.mp hcurrent] at hnext
      exact hprogressed hnext (not_not.mp hcurrent ▸ hafter)
  | unarchive threadId generation now =>
    cases Option.some.inj h
    split at hafter
    · exact ⟨after, hafter, .refl after⟩
    next hcurrent =>
      have hnext := @unarchive_progressed s.imThreadBindings _ hs.fits threadId generation now
      rw [← not_not.mp hcurrent] at hnext
      dsimp only at hafter
      split at hafter
      · exact hprogressed hnext (not_not.mp hcurrent ▸ hafter)
      · exact ⟨after, hafter, .refl after⟩
  | endStarted position =>
    obtain ⟨lifecycles, _, rfl⟩ := map_eq_some_iff.mp h
    exact ⟨after, hafter, .refl after⟩
  | snapshot conversationKey =>
    obtain ⟨threadId, lifecycleRevision, rfl⟩ := step_snapshot h
    exact ⟨after, hafter, .refl after⟩
  | persist n activeIds archivedIds now nowMs names =>
    obtain ⟨reconcile, hn, rfl⟩ := map_eq_some_iff.mp h
    exact hprogressed (persistReconciled_commits hs hn activeIds archivedIds now names nowMs).progressed.1 hafter
  | finishNameUpdate conversationKey token =>
    cases Option.some.inj h
    refine ⟨after, ?_, .refl after⟩
    split at hafter <;> exact hafter
  | persistServiceState | persistName =>
    cases Option.some.inj h
    exact hprogressed (writeNames_progressed hs _ _ _).1 hafter
  | recordTopicName | commitNameToCodex | commitName | persistTitle | persistAutoName | persistManualName =>
    exact hwritten h

theorem run_advances (hs : s.Sound) {later : List RecordStep} (h : run step s later = some t)
    (hbinds : ∀ a ∈ later, ¬a.Binds key) {before after : TelegramTopicBindingState}
    (hbefore : s.topicStates.lookup key = some before) (hafter : t.topicStates.lookup key = some after) :
    before.Advances after := by
  have hmeets : Runs.Meets step (fun _ a => ¬a.Binds key) s later :=
    meets_of_forall fun a ha _ => hbinds a ha
  have hinv : t.Sound ∧ ∀ found, t.topicStates.lookup key = some found → before.Advances found := by
    refine run_invariant_of_meets
      (fun u => u.Sound ∧ ∀ found, u.topicStates.lookup key = some found → before.Advances found) ?_ ?_ hmeets h
    · rintro u a v ⟨hu, hadvanced⟩ hnot hstep
      refine ⟨step_sound hu hstep, ?_⟩
      intro found hfound
      obtain ⟨middle, hmiddle, hadvances⟩ := step_advances hu hstep hnot hfound
      exact (hadvanced middle hmiddle).trans hadvances
    · refine ⟨hs, ?_⟩
      intro found hfound
      rw [hbefore] at hfound
      cases hfound
      exact .refl before
  exact hinv.2 after hafter

theorem commits_keep_newer {restored : TopicStates} {names : Table String TelegramTopicNames}
    {steps : List RecordStep} (hfits : ∀ entry ∈ restored.entries, entry.2.lifecycleRevision ≤ u64Max)
    (h : run step (start restored names) steps = some s) :
    (∀ {a t}, s.step a = some t → s.KeepsNewer a t) ∧
      ∀ {key later t before after}, run step s later = some t → (∀ a ∈ later, ¬a.Binds key) →
        s.topicStates.lookup key = some before → t.topicStates.lookup key = some after →
        before.Advances after := by
  have hs := run_sound (start_sound hfits) h
  exact ⟨fun {_ _} hstep => step_keepsNewer hs hstep,
    fun {_ _ _ _ _} hlater hbinds hbefore hafter => run_advances hs hlater hbinds hbefore hafter⟩

def reconciledTopic : String := "telegram:bot:-100|topic=7"

def restoredRecord : TopicStates :=
  (∅ : TopicStates).insert reconciledTopic ⟨"A", "active", none, none, 3, 4, 0⟩

/-- A Topic is renamed and its thread archived after a reconciliation has read the binding. -/
def renamedAndArchived : List RecordStep :=
  [.nextGeneration, .snapshot reconciledTopic, .beginNameUpdate reconciledTopic,
    .commitName reconciledTopic "A" "Title" "Topic" 1 5, .mark "A" .archived 1 5]

/-- The reconciliation's commit for a thread that it has seen active. -/
def staleCommit : RecordStep := .persist 0 ["A"] [] 6 6 ⟨"Old", "Old", "Old", "Old", "open"⟩

theorem commits_keep_newer_stale :
    ∃ s t, run step (start restoredRecord ∅) renamedAndArchived = some s ∧ s.step staleCommit = some t ∧
      t.namesOf reconciledTopic = ⟨"Title", "Topic", "Title", "Topic", "open"⟩ ∧
      s.KeepsNewer staleCommit t ∧
      ∀ before after, s.topicStates.lookup reconciledTopic = some before →
        t.topicStates.lookup reconciledTopic = some after → before.Advances after := by
  have hrun : (run step (start restoredRecord ∅) renamedAndArchived).any (fun s =>
      (s.step staleCommit).any fun t =>
        t.namesOf reconciledTopic = ⟨"Title", "Topic", "Title", "Topic", "open"⟩) = true := by
    decide +kernel
  obtain ⟨s, hs, hstep⟩ := (any_eq_true ..).mp hrun
  obtain ⟨t, ht, hnames⟩ := (any_eq_true ..).mp hstep
  obtain ⟨hkeeps, hadvances⟩ := commits_keep_newer (by decide +kernel) hs
  refine ⟨s, t, hs, ht, of_decide_eq_true hnames, hkeeps ht, ?_⟩
  intro before after
  have hlater : run step s [staleCommit] = some t := by simp [ht]
  exact hadvances hlater (by simp [staleCommit, RecordStep.Binds])

end TopicRecords

end MochiPort

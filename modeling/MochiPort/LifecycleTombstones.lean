import MochiPort.Runs
import MochiPort.ThreadLifecycle

namespace MochiPort

namespace ThreadLifecycles

variable {s t : ThreadLifecycles} {threadId : String} {generation : Nat}

/-- The map agrees with the log: an intent stands where the log leaves its thread, and an observed
thread has an intent of its generation or a later one, unless a newer generation has come. -/
structure Recorded (s : ThreadLifecycles) : Prop where
  lawful : History.Lawful StandingAllows s.log
  below : ∀ threadId intent, s.intents.lookup threadId = some intent →
    intent.generation ≤ s.latestGeneration
  entry : ∀ threadId intent, s.intents.lookup threadId = some intent →
    standing s.log threadId intent.generation = (intent.revision, intent.state)
  kept : ∀ threadId generation, lastObserved s.log threadId generation ≠ none →
    generation < s.latestGeneration ∨
      ∃ intent, s.intents.lookup threadId = some intent ∧ generation ≤ intent.generation
  inFlight : ∀ c ∈ s.calls, c.call.observes = true → c.generation ≤ s.latestGeneration
  revisions : ∀ threadId generation, (standing s.log threadId generation).1 < s.nextRevision

theorem start_recorded : start.Recorded where
  lawful := trivial
  below threadId intent h := by simp [start] at h
  entry threadId intent h := by simp [start] at h
  kept threadId generation h := absurd rfl h
  inFlight c hm := by simp [start] at hm
  revisions threadId generation := Nat.zero_lt_one

/-- The thread is unobserved in the generation, or has an intent of it or of a later one. -/
def Settled (s : ThreadLifecycles) (threadId : String) (generation : Nat) : Prop :=
  lastObserved s.log threadId generation = none ∨
    ∃ intent, s.intents.lookup threadId = some intent ∧ generation ≤ intent.generation

theorem Settled.standing_default (h : s.Settled threadId generation)
    (hold : ∀ intent, s.intents.lookup threadId = some intent → intent.generation < generation) :
    standing s.log threadId generation = (0, .active) := by
  rcases h with hnone | ⟨intent, hintent, hle⟩
  · rw [standing, hnone]; rfl
  · have hlt := hold intent hintent
    omega

section

variable (hs : s.Recorded)
include hs

theorem Recorded.retained (hg : generation ≤ s.latestGeneration) (newer : Bool) :
    Recorded { s with intents := retainGenerations s.intents generation newer } := by
  have hsub : ∀ id intent, (retainGenerations s.intents generation newer).lookup id = some intent →
      s.intents.lookup id = some intent := by
    intro id intent h
    rw [lookup_retainGenerations, Option.filter_eq_some_iff] at h
    exact h.1
  refine { hs with
    below := fun id intent h => hs.below id intent (hsub id intent h)
    entry := fun id intent h => hs.entry id intent (hsub id intent h)
    kept := fun id g h => ?_ }
  rcases hs.kept id g h with hlt | ⟨intent, hintent, hle⟩
  · exact .inl hlt
  · by_cases hgen : generation ≤ intent.generation
    · refine .inr ⟨intent, ?_, hle⟩
      rw [lookup_retainGenerations, hintent, Option.filter_some]
      simp [hgen]
    · have hlt : g < s.latestGeneration := by omega
      exact .inl hlt

omit hs in
theorem Settled.retained (h : s.Settled threadId generation) (newer : Bool) :
    Settled { s with intents := retainGenerations s.intents generation newer } threadId generation := by
  rcases h with hnone | ⟨intent, hintent, hle⟩
  · exact .inl hnone
  · refine .inr ⟨intent, ?_, hle⟩
    rw [lookup_retainGenerations, hintent, Option.filter_some]
    simp [hle]

theorem Recorded.answer {event : LifecycleEvent}
    (hevent : ∀ id g, observation id g event = none) (hallows : StandingAllows s.log event) :
    Recorded { s with log := event :: s.log } := by
  have hsame : ∀ id g, standing (event :: s.log) id g = standing s.log id g := by
    intro id g
    rw [standing_cons, hevent]
    rfl
  refine ⟨⟨hallows, hs.lawful⟩, hs.below, fun id intent h => ?_, fun id g h => ?_, hs.inFlight, fun id g => ?_⟩
  · exact (hsame id _).trans (hs.entry id intent h)
  · rw [lastObserved_cons, hevent] at h
    exact hs.kept id g h
  · rw [hsame]
    exact hs.revisions id g

omit hs in
theorem lookup_insert_kept {intents : LifecycleIntents} {intent : TelegramThreadLifecycleIntent}
    (hold : ∀ old, intents.lookup threadId = some old → old.generation ≤ intent.generation) {id : String}
    {g : Nat} (h : ∃ old, intents.lookup id = some old ∧ g ≤ old.generation) :
    ∃ new, (intents.insert threadId intent).lookup id = some new ∧ g ≤ new.generation := by
  obtain ⟨old, hlookup, hle⟩ := h
  rw [Table.lookup_insert_eq]
  split
  next he =>
    subst he
    have hgen := hold old hlookup
    exact ⟨intent, rfl, by omega⟩
  next => exact ⟨old, hlookup, hle⟩

section

variable (hg : generation ≤ s.latestGeneration)
include hg

section

variable (hold : ∀ intent, s.intents.lookup threadId = some intent → intent.generation ≤ generation)
include hold

theorem Recorded.started (hstanding : standing s.log threadId generation = (0, .active)) :
    Recorded { s with intents := s.intents.insert threadId ⟨generation, 0, .active⟩ } := by
  refine { hs with
    below := fun id intent h => ?_
    entry := fun id intent h => ?_
    kept := fun id g h => (hs.kept id g h).imp_right (lookup_insert_kept hold) }
  · rw [Table.lookup_insert_eq] at h
    split at h
    next => cases h; exact hg
    next => exact hs.below id intent h
  · rw [Table.lookup_insert_eq] at h
    split at h
    next he => cases h; rw [he]; exact hstanding
    next => exact hs.entry id intent h

theorem Recorded.observed {state : TelegramThreadLifecycleState}
    (hdeleted : (standing s.log threadId generation).2 = .deleted → state = .deleted)
    (hwrap : s.nextRevision + 1 < UInt64.size) :
    Recorded { s with
      intents := s.intents.insert threadId ⟨generation, s.nextRevision, state⟩
      nextRevision := (s.nextRevision + 1) % UInt64.size
      log := .observed threadId generation s.nextRevision state :: s.log } := by
  have hstanding : ∀ id g, standing (.observed threadId generation s.nextRevision state :: s.log) id g =
      if threadId = id ∧ generation = g then (s.nextRevision, state) else standing s.log id g := by
    intro id g
    rw [standing_cons]
    simp only [observation]
    split <;> rfl
  refine ⟨⟨⟨hs.revisions threadId generation, hdeleted⟩, hs.lawful⟩, fun id intent h => ?_,
    fun id intent h => ?_, fun id g h => ?_, hs.inFlight, fun id g => ?_⟩
  · rw [Table.lookup_insert_eq] at h
    split at h
    next => cases h; exact hg
    next => exact hs.below id intent h
  · rw [hstanding]
    rw [Table.lookup_insert_eq] at h
    split at h
    next he => cases h; simp [he]
    next he =>
      rw [if_neg fun hand => he hand.1.symm]
      exact hs.entry id intent h
  · rw [lastObserved_cons] at h
    by_cases hsame : threadId = id ∧ generation = g
    · obtain ⟨rfl, rfl⟩ := hsame
      exact .inr ⟨_, AList.lookup_insert _, Nat.le_refl _⟩
    · simp only [observation, if_neg hsame, Option.none_or] at h
      exact (hs.kept id g h).imp_right (lookup_insert_kept hold)
  · rw [hstanding, Nat.mod_eq_of_lt hwrap]
    split
    next => exact Nat.lt_succ_self _
    next => exact Nat.lt_succ_of_lt (hs.revisions id g)

end

omit hg in
theorem Recorded.standing_eq (hsettled : s.Settled threadId generation)
    (hold : ∀ intent, s.intents.lookup threadId = some intent → intent.generation ≤ generation) :
    (∃ intent, s.intents.lookup threadId = some intent ∧ intent.generation = generation ∧
      standing s.log threadId generation = (intent.revision, intent.state)) ∨
    ((∀ intent, s.intents.lookup threadId = some intent → intent.generation < generation) ∧
      standing s.log threadId generation = (0, .active)) := by
  by_cases hcurrent : ∃ intent, s.intents.lookup threadId = some intent ∧ intent.generation = generation
  · obtain ⟨intent, hintent, rfl⟩ := hcurrent
    exact .inl ⟨intent, hintent, rfl, hs.entry threadId intent hintent⟩
  · have hlt : ∀ intent, s.intents.lookup threadId = some intent → intent.generation < generation := by
      intro intent hintent
      have hle := hold intent hintent
      have hne : intent.generation ≠ generation := fun he => hcurrent ⟨intent, hintent, he⟩
      omega
    exact .inr ⟨hlt, hsettled.standing_default hlt⟩

theorem started_recorded (hsettled : s.Settled threadId generation) :
    let started := observeTelegramThreadStarted s.intents threadId generation
    Recorded { s with
      intents := started.1
      log := (if started.2 then [.returnedActive threadId generation] else []) ++ s.log } := by
  have hfresh : (∀ intent, s.intents.lookup threadId = some intent → intent.generation < generation) →
      Recorded { s with
        intents := s.intents.insert threadId ⟨generation, 0, .active⟩
        log := .returnedActive threadId generation :: s.log } := by
    intro hlt
    have hstanding := hsettled.standing_default hlt
    have hstarted := hs.started hg (fun intent h => Nat.le_of_lt (hlt intent h)) hstanding
    refine hstarted.answer (fun _ _ => rfl) ?_
    show (standing s.log threadId generation).2 = .active
    rw [hstanding]
  intro started
  show Recorded { s with
    intents := (observeTelegramThreadStarted s.intents threadId generation).1
    log := (if (observeTelegramThreadStarted s.intents threadId generation).2 then
      [.returnedActive threadId generation] else []) ++ s.log }
  unfold observeTelegramThreadStarted
  cases hlookup : s.intents.lookup threadId with
  | none => exact hfresh fun intent h => by rw [hlookup] at h; cases h
  | some intent =>
    dsimp only
    split
    next => exact hs
    split
    next hgen =>
      cases hstate : decide (intent.state = .active) with
      | false => exact hs
      | true =>
        refine hs.answer (fun _ _ => rfl) ?_
        show (standing s.log threadId generation).2 = .active
        rw [← hgen, hs.entry threadId intent hlookup]
        exact of_decide_eq_true hstate
    next hnewer hne =>
      refine hfresh fun other h => ?_
      rw [hlookup] at h
      cases h
      omega

end

variable {nextState : TelegramThreadLifecycleState}

omit hs in
theorem observeTelegramThreadLifecycleInner_eq_some {intents after : LifecycleIntents}
    {expectedRevision : Option Nat} {revision : Nat}
    (h : observeTelegramThreadLifecycleInner intents threadId generation expectedRevision nextState
      revision = some after) :
    (∀ intent, intents.lookup threadId = some intent → intent.generation ≤ generation) ∧
    (∀ expected, expectedRevision = some expected → expected =
      (((intents.lookup threadId).filter fun intent => intent.generation = generation).map
        (·.revision)).getD 0) ∧
    (∀ intent, intents.lookup threadId = some intent → intent.generation = generation →
      intent.state = .deleted → nextState = .deleted) ∧
    after = intents.insert threadId ⟨generation, revision, nextState⟩ := by
  unfold observeTelegramThreadLifecycleInner at h
  dsimp only at h
  split at h
  next => cases h
  next hnewer =>
    split at h
    next => cases h
    next hexpected =>
      split at h
      next => cases h
      next hdeleted =>
        refine ⟨fun intent hi => ?_, fun expected he => ?_, fun intent hi hgen hstate => ?_,
          (Option.some.inj h).symm⟩
        · simp only [hi, Option.any_some, decide_eq_true_eq] at hnewer
          omega
        · simpa [he] using hexpected
        · simpa [hi, hgen, hstate] using hdeleted

theorem observed_recorded (hg : generation ≤ s.latestGeneration)
    (hsettled : s.Settled threadId generation) (hwrap : s.nextRevision + 1 < UInt64.size)
    {expectedRevision : Option Nat} {after : LifecycleIntents}
    (h : observeTelegramThreadLifecycleInner s.intents threadId generation expectedRevision nextState
      s.nextRevision = some after) :
    Recorded { s with
      intents := after
      nextRevision := (s.nextRevision + 1) % UInt64.size
      log := (if nextState = .active then [.returnedActive threadId generation] else []) ++
        .observed threadId generation s.nextRevision nextState ::
          (expectedRevision.toList.map (.applied threadId generation) ++ s.log) } := by
  obtain ⟨hold, hexpected, hdeleted, rfl⟩ := observeTelegramThreadLifecycleInner_eq_some h
  have hstanding := hs.standing_eq hsettled hold
  have happlied : Recorded { s with log := expectedRevision.toList.map (.applied threadId generation) ++ s.log } := by
    cases expectedRevision with
    | none => exact hs
    | some expected =>
      refine hs.answer (fun _ _ => rfl) ?_
      show expected = (standing s.log threadId generation).1
      rw [hexpected expected rfl]
      rcases hstanding with ⟨intent, hintent, hgen, he⟩ | ⟨hlt, he⟩
      · rw [he, hintent, Option.filter_some]
        simp [hgen]
      · rw [he]
        cases hlookup : s.intents.lookup threadId with
        | none => rfl
        | some intent =>
          have hne : intent.generation ≠ generation := Nat.ne_of_lt (hlt intent hlookup)
          simp [Option.filter_some, hne]
  have hsame : standing (expectedRevision.toList.map (.applied threadId generation) ++ s.log) threadId
      generation = standing s.log threadId generation := by
    cases expectedRevision <;> rfl
  have hkeeps : (standing (expectedRevision.toList.map (.applied threadId generation) ++ s.log) threadId
      generation).2 = .deleted → nextState = .deleted := by
    intro hd
    rw [hsame] at hd
    rcases hstanding with ⟨intent, hintent, hgen, he⟩ | ⟨_, he⟩
    · rw [he] at hd
      exact hdeleted intent hintent hgen hd
    · rw [he] at hd
      cases hd
  have hobserved := happlied.observed hg hold hkeeps hwrap
  split
  next hactive =>
    refine hobserved.answer (fun _ _ => rfl) ?_
    simp [StandingAllows, standing_cons, observation, hactive]
  next => exact hobserved

theorem revision_recorded (hsettled : s.Settled threadId generation) :
    Recorded { s with
      log := (telegramThreadLifecycleRevision s.intents threadId generation).toList.map
        (.revisionReturned threadId generation) ++ s.log } := by
  cases hr : telegramThreadLifecycleRevision s.intents threadId generation with
  | none => exact hs
  | some revision =>
    refine hs.answer (fun _ _ => rfl) ?_
    show revision = (standing s.log threadId generation).1
    unfold telegramThreadLifecycleRevision at hr
    split at hr
    next intent hintent =>
      split at hr
      next => cases hr
      next hnewer =>
        split at hr
        next hgen => cases hr; rw [← hgen, hs.entry threadId intent hintent]
        next hne =>
          cases hr
          rw [hsettled.standing_default fun other ho => by
            rw [hintent] at ho
            cases ho
            omega]
    next hnone =>
      cases hr
      rw [hsettled.standing_default fun other ho => by rw [hnone] at ho; cases ho]

theorem allowed_recorded (hsettled : s.Settled threadId generation) :
    Recorded { s with
      log := (if telegramThreadAllowsTopicBinding s.intents threadId generation then
        [.allowed threadId generation] else []) ++ s.log } := by
  cases ha : telegramThreadAllowsTopicBinding s.intents threadId generation with
  | false => exact hs
  | true =>
    refine hs.answer (fun _ _ => rfl) ?_
    show (standing s.log threadId generation).2 = .active
    unfold telegramThreadAllowsTopicBinding at ha
    split at ha
    next intent hintent =>
      simp only [Bool.or_eq_true, Bool.and_eq_true, decide_eq_true_eq] at ha
      rcases ha with hlt | ⟨hgen, hstate⟩
      · rw [hsettled.standing_default fun other ho => by
          rw [hintent] at ho
          cases ho
          exact hlt]
      · rw [← hgen, hs.entry threadId intent hintent]
        exact hstate
    next hnone => rw [hsettled.standing_default fun other ho => by rw [hnone] at ho; cases ho]

theorem locked_recorded {c : LifecycleInFlight} (hg : c.call.observes = true → c.generation ≤ s.latestGeneration)
    (hsettled : s.Settled c.threadId c.generation) (hwrap : s.nextRevision + 1 < UInt64.size) :
    (s.locked c).Recorded := by
  obtain ⟨call, threadId, generation, newer⟩ := c
  cases call with
  | started => exact started_recorded (hs.retained (hg rfl) newer) (hg rfl) (hsettled.retained newer)
  | lifecycle expectedRevision nextState =>
    have hretained := hs.retained (hg rfl) newer
    simp only [locked]
    split
    next => exact hretained
    next after h => exact observed_recorded hretained (hg rfl) (hsettled.retained newer) hwrap h
  | revision => exact revision_recorded hs hsettled
  | allowsTopicBinding => exact allowed_recorded hs hsettled

end

/-- No call takes the lock for a thread whose observation in its generation a newer generation has
dropped, and the revisions do not run out. -/
def KeepsIntent (s : ThreadLifecycles) : Step → Prop
  | .lock position => ∀ c ∈ s.calls[position]?,
    (s.latestGeneration ≤ c.generation ∨
      (s.intents.lookup c.threadId).any (fun intent => c.generation ≤ intent.generation) = true ∨
      lastObserved s.log c.threadId c.generation = none) ∧ s.nextRevision + 1 < UInt64.size
  | _ => True

instance (s : ThreadLifecycles) (a : Step) : Decidable (s.KeepsIntent a) := by
  cases a <;> unfold KeepsIntent <;> infer_instance

theorem step_recorded {a : Step} (hs : s.Recorded) (hkeeps : s.KeepsIntent a) (h : s.step a = some t) : t.Recorded := by
  cases a with
  | begin call threadId generation =>
    simp only [step] at h
    split at h
    next => cases h; exact hs
    next hnew =>
      cases h
      have hle : s.latestGeneration ≤
          if call.observes then max s.latestGeneration generation else s.latestGeneration := by
        split <;> omega
      refine ⟨hs.lawful, fun id intent hi => (hs.below id intent hi).trans hle, hs.entry,
        fun id g hl => (hs.kept id g hl).imp_left (Nat.lt_of_lt_of_le · hle), fun c hm hobserves => ?_,
        hs.revisions⟩
      rcases List.mem_append.mp hm with hm | hm
      · exact (hs.inFlight c hm hobserves).trans hle
      · rw [List.mem_singleton.mp hm] at hobserves ⊢
        rw [show call.observes = true from hobserves]
        exact Nat.le_max_right ..
  | lock position =>
    simp only [step] at h
    split at h
    next c hc =>
      cases h
      obtain ⟨hsettled, hwrap⟩ := hkeeps c hc
      have hs' : Recorded { s with calls := s.calls.eraseIdx position } :=
        { hs with inFlight := fun other hm => hs.inFlight other (List.mem_of_mem_eraseIdx hm) }
      refine locked_recorded hs' (hs.inFlight c (List.mem_of_getElem? hc)) ?_ hwrap
      rcases hsettled with hlatest | hany | hnone
      · by_cases hseen : lastObserved s.log c.threadId c.generation = none
        · exact .inl hseen
        · rcases hs.kept _ _ hseen with hlt | hintent
          · omega
          · exact .inr hintent
      · obtain ⟨intent, hintent, hle⟩ := (Option.any_eq_true _ _).mp hany
        exact .inr ⟨intent, hintent, of_decide_eq_true hle⟩
      · exact .inl hnone
    next => cases h
  | abandon position =>
    cases h
    exact { hs with inFlight := fun other hm => hs.inFlight other (List.mem_of_mem_eraseIdx hm) }

/-- Within a generation a deletion is final, an archived thread waits for an observation that it is
active, and a conditional observation takes effect only at the revision it was given. -/
theorem lifecycle_tombstones_permanent {steps : List Step}
    (hkeeps : Runs.Meets step KeepsIntent start steps) (h : Runs.run step start steps = some s)
    (threadId : String) (generation : Nat) :
    (∀ revision event between,
      History.Between s.log (.observed threadId generation revision .deleted) event between →
      event ≠ .allowed threadId generation ∧ event ≠ .returnedActive threadId generation) ∧
    (∀ revision between,
      History.Between s.log (.observed threadId generation revision .archived)
        (.allowed threadId generation) between →
      ∃ r, .observed threadId generation r .active ∈ between) ∧
    ∀ expectedRevision between,
      History.Between s.log (.revisionReturned threadId generation expectedRevision)
        (.applied threadId generation expectedRevision) between →
      ∀ revision state, .observed threadId generation revision state ∉ between := by
  have hs : s.Recorded :=
    Runs.run_invariant_of_meets Recorded (fun _ _ _ hs hg h => step_recorded hs hg h) start_recorded hkeeps h
  exact ⟨fun _ _ _ hb => deleted_for_ever hs.lawful hb, fun _ _ hb => archived_until_active hs.lawful hb,
    fun _ _ hb => applied_at_revision hs.lawful hb⟩

/-- A thread is archived, made active again and deleted; after each of these it is asked whether it may be bound. -/
def archivedAndDeleted : List Step :=
  [.begin (.lifecycle none .archived) "thread" 7, .lock 0, .begin .allowsTopicBinding "thread" 7, .lock 0,
    .begin .revision "thread" 7, .lock 0, .begin (.lifecycle (some 1) .active) "thread" 7, .lock 0,
    .begin .allowsTopicBinding "thread" 7, .lock 0, .begin (.lifecycle (some 2) .deleted) "thread" 7, .lock 0,
    .begin .allowsTopicBinding "thread" 7, .begin .started "thread" 7, .lock 0, .lock 0, .begin .started "other" 8,
    .lock 0]

theorem lifecycle_tombstones_permanent_archived :
    ∃ s, Runs.run step start archivedAndDeleted = some s ∧
      s.log = [.returnedActive "other" 8, .observed "thread" 7 3 .deleted, .applied "thread" 7 2,
        .allowed "thread" 7, .returnedActive "thread" 7, .observed "thread" 7 2 .active, .applied "thread" 7 1,
        .revisionReturned "thread" 7 1, .observed "thread" 7 1 .archived] ∧
      (∀ between, History.Between s.log (.observed "thread" 7 1 .archived) (.allowed "thread" 7) between →
        ∃ r, .observed "thread" 7 r .active ∈ between) ∧
      ∀ event between, History.Between s.log (.observed "thread" 7 3 .deleted) event between →
        event ≠ .allowed "thread" 7 ∧ event ≠ .returnedActive "thread" 7 := by
  have hrun : (Runs.run step start archivedAndDeleted).map (·.log) =
      some [.returnedActive "other" 8, .observed "thread" 7 3 .deleted, .applied "thread" 7 2, .allowed "thread" 7,
        .returnedActive "thread" 7, .observed "thread" 7 2 .active, .applied "thread" 7 1,
        .revisionReturned "thread" 7 1, .observed "thread" 7 1 .archived] := by
    decide +kernel
  obtain ⟨s, hs, hlog⟩ := Option.map_eq_some_iff.mp hrun
  obtain ⟨hdeleted, harchived, -⟩ := lifecycle_tombstones_permanent (by decide +kernel) hs "thread" 7
  exact ⟨s, hs, hlog, harchived 1, hdeleted 3⟩

/-- A call waits for the lock while a newer generation drops the tombstone of its thread. -/
theorem purged_tombstone_revived :
    ¬∀ (steps : List Step) (s : ThreadLifecycles), Runs.run step start steps = some s →
      ∀ threadId generation revision event between,
        History.Between s.log (.observed threadId generation revision .deleted) event between →
        event ≠ .returnedActive threadId generation := by
  intro h
  have hrun : ((Runs.run step start
      [.begin (.lifecycle none .deleted) "thread" 7, .lock 0, .begin .started "thread" 7,
        .begin .started "other" 8, .lock 1, .lock 0]).map (·.log)) =
      some [.returnedActive "thread" 7, .returnedActive "other" 8, .observed "thread" 7 1 .deleted] := by
    decide +kernel
  obtain ⟨s, hs, hlog⟩ := Option.map_eq_some_iff.mp hrun
  exact h _ s hs "thread" 7 1 _ [.returnedActive "other" 8] ⟨[], [], hlog⟩ rfl

end ThreadLifecycles

end MochiPort

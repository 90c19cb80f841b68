import Mathlib.Data.List.Lemmas
import MochiPort.History
import MochiPort.Tables

namespace MochiPort

inductive TelegramThreadLifecycleState where
  | active
  | archived
  | deleted
  deriving DecidableEq

structure TelegramThreadLifecycleIntent where
  generation : Nat
  revision : Nat
  state : TelegramThreadLifecycleState
  deriving DecidableEq

abbrev LifecycleIntents := Table String TelegramThreadLifecycleIntent

/-- What the calls have done: an observation that took effect, and the answers that matter here.
`applied` stands for a conditional observation that took effect, just before its `observed`. -/
inductive LifecycleEvent where
  | observed (threadId : String) (generation revision : Nat) (state : TelegramThreadLifecycleState)
  | returnedActive (threadId : String) (generation : Nat)
  | allowed (threadId : String) (generation : Nat)
  | revisionReturned (threadId : String) (generation revision : Nat)
  | applied (threadId : String) (generation expectedRevision : Nat)
  deriving DecidableEq

inductive LifecycleCall where
  | started
  | lifecycle (expectedRevision : Option Nat) (nextState : TelegramThreadLifecycleState)
  | revision
  | allowsTopicBinding
  deriving DecidableEq

def LifecycleCall.observes : LifecycleCall → Bool
  | .started | .lifecycle .. => true
  | .revision | .allowsTopicBinding => false

/-- A call between its access to the latest generation and its lock on the intents; `newer` tells
whether it brought a new generation. -/
structure LifecycleInFlight where
  call : LifecycleCall
  threadId : String
  generation : Nat
  newer : Bool
  deriving DecidableEq

structure ThreadLifecycles where
  latestGeneration : Nat
  nextRevision : Nat
  intents : LifecycleIntents
  calls : List LifecycleInFlight
  log : List LifecycleEvent

/-- A call that brings a new generation drops the intents of the older ones. -/
def retainGenerations (intents : LifecycleIntents) (generation : Nat) (newer : Bool) : LifecycleIntents :=
  if newer then intents.retain fun _ intent => generation ≤ intent.generation else intents

theorem lookup_retainGenerations (intents : LifecycleIntents) (threadId : String) (generation : Nat) (newer : Bool) :
    (retainGenerations intents generation newer).lookup threadId =
      (intents.lookup threadId).filter fun intent => !newer || generation ≤ intent.generation := by
  unfold retainGenerations
  cases newer with
  | false =>
    simp only [Bool.false_eq_true, if_false]
    cases intents.lookup threadId <;> rfl
  | true => simp [Table.lookup_retain]

def observeTelegramThreadStarted (intents : LifecycleIntents) (threadId : String) (generation : Nat) :
    LifecycleIntents × Bool :=
  match intents.lookup threadId with
  | some intent =>
    if generation < intent.generation then (intents, false)
    else if intent.generation = generation then (intents, intent.state = .active)
    else (intents.insert threadId ⟨generation, 0, .active⟩, true)
  | none => (intents.insert threadId ⟨generation, 0, .active⟩, true)

/-- The intents after the observation, if it takes effect. -/
def observeTelegramThreadLifecycleInner (intents : LifecycleIntents) (threadId : String)
    (generation : Nat) (expectedRevision : Option Nat) (nextState : TelegramThreadLifecycleState)
    (revision : Nat) : Option LifecycleIntents :=
  let current := intents.lookup threadId
  if current.any fun intent => generation < intent.generation then none
  else
    let currentRevision :=
      ((current.filter fun intent => intent.generation = generation).map (·.revision)).getD 0
    if expectedRevision.any (· ≠ currentRevision) then none
    else if current.any fun intent =>
        intent.generation = generation && intent.state = .deleted && nextState ≠ .deleted then none
    else some (intents.insert threadId ⟨generation, revision, nextState⟩)

def telegramThreadLifecycleRevision (intents : LifecycleIntents) (threadId : String) (generation : Nat) : Option Nat :=
  match intents.lookup threadId with
  | some intent =>
    if generation < intent.generation then none
    else if intent.generation = generation then some intent.revision
    else some 0
  | none => some 0

def telegramThreadAllowsTopicBinding (intents : LifecycleIntents) (threadId : String) (generation : Nat) : Bool :=
  match intents.lookup threadId with
  | some intent => intent.generation < generation || (intent.generation = generation && intent.state = .active)
  | none => true

namespace ThreadLifecycles

/-- The part of a call that runs under the lock. -/
def locked (s : ThreadLifecycles) (c : LifecycleInFlight) : ThreadLifecycles :=
  match c.call with
  | .started =>
    let intents := retainGenerations s.intents c.generation c.newer
    let started := observeTelegramThreadStarted intents c.threadId c.generation
    let events := if started.2 then [.returnedActive c.threadId c.generation] else []
    { s with intents := started.1, log := events ++ s.log }
  | .lifecycle expectedRevision nextState =>
    let intents := retainGenerations s.intents c.generation c.newer
    match observeTelegramThreadLifecycleInner intents c.threadId c.generation expectedRevision nextState
        s.nextRevision with
    | none => { s with intents := intents }
    | some intents =>
      let applied := expectedRevision.toList.map (.applied c.threadId c.generation)
      let observed := .observed c.threadId c.generation s.nextRevision nextState
      let events := if nextState = .active then [.returnedActive c.threadId c.generation] else []
      { s with
        intents := intents
        nextRevision := (s.nextRevision + 1) % UInt64.size
        log := events ++ observed :: (applied ++ s.log) }
  | .revision =>
    let events := (telegramThreadLifecycleRevision s.intents c.threadId c.generation).toList.map
      (.revisionReturned c.threadId c.generation)
    { s with log := events ++ s.log }
  | .allowsTopicBinding =>
    let events :=
      if telegramThreadAllowsTopicBinding s.intents c.threadId c.generation then
        [.allowed c.threadId c.generation]
      else []
    { s with log := events ++ s.log }

inductive Step where
  | begin (call : LifecycleCall) (threadId : String) (generation : Nat)
  | lock (position : Nat)
  | abandon (position : Nat)

def step (s : ThreadLifecycles) : Step → Option ThreadLifecycles
  | .begin call threadId generation =>
    -- a call of an older generation is answered at once, with no effect
    if generation < s.latestGeneration then some s
    else
      let c := ⟨call, threadId, generation, decide (s.latestGeneration < generation)⟩
      let latestGeneration := if call.observes then max s.latestGeneration generation else s.latestGeneration
      some { s with latestGeneration := latestGeneration, calls := s.calls ++ [c] }
  | .lock position =>
    match s.calls[position]? with
    | some c => some ({ s with calls := s.calls.eraseIdx position }.locked c)
    | none => none
  | .abandon position => some { s with calls := s.calls.eraseIdx position }

def start : ThreadLifecycles := ⟨0, 1, ∅, [], []⟩

end ThreadLifecycles

/-- The revision and state of an observation of the thread in the generation. -/
def observation (threadId : String) (generation : Nat) : LifecycleEvent → Option (Nat × TelegramThreadLifecycleState)
  | .observed t g revision state => if t = threadId ∧ g = generation then some (revision, state) else none
  | _ => none

def lastObserved (log : List LifecycleEvent) (threadId : String) (generation : Nat) :
    Option (Nat × TelegramThreadLifecycleState) :=
  log.findSome? (observation threadId generation)

/-- The revision and state in which the log leaves the thread; before any observation it is active. -/
def standing (log : List LifecycleEvent) (threadId : String) (generation : Nat) : Nat × TelegramThreadLifecycleState :=
  (lastObserved log threadId generation).getD (0, .active)

def StandingAllows (log : List LifecycleEvent) : LifecycleEvent → Prop
  | .observed t g revision state =>
    (standing log t g).1 < revision ∧ ((standing log t g).2 = .deleted → state = .deleted)
  | .returnedActive t g => (standing log t g).2 = .active
  | .allowed t g => (standing log t g).2 = .active
  | .revisionReturned t g revision => revision = (standing log t g).1
  | .applied t g expectedRevision => expectedRevision = (standing log t g).1

section

open History

variable {log : List LifecycleEvent} {threadId : String} {generation : Nat}

variable {revision : Nat}

variable {state : TelegramThreadLifecycleState}

theorem observation_eq_some {event : LifecycleEvent} :
    observation threadId generation event = some (revision, state) ↔
      event = .observed threadId generation revision state := by
  cases event with
  | observed t g r st =>
    simp only [observation]
    split
    next h => obtain ⟨rfl, rfl⟩ := h; simp
    next h =>
      simp only [reduceCtorEq, LifecycleEvent.observed.injEq, false_iff]
      rintro ⟨rfl, rfl, _⟩
      exact h ⟨rfl, rfl⟩
  | _ => simp [observation]

theorem lastObserved_cons (event : LifecycleEvent) :
    lastObserved (event :: log) threadId generation =
      (observation threadId generation event).or (lastObserved log threadId generation) := by
  simp only [lastObserved, List.findSome?_cons]
  split
  next h => simp [h]
  next h => simp [h]

theorem standing_cons (event : LifecycleEvent) :
    standing (event :: log) threadId generation =
      (observation threadId generation event).getD (standing log threadId generation) := by
  rw [standing, lastObserved_cons]
  cases observation threadId generation event <;> rfl

theorem lastObserved_mem {seen : Nat × TelegramThreadLifecycleState}
    (h : lastObserved log threadId generation = some seen) : .observed threadId generation seen.1 seen.2 ∈ log := by
  obtain ⟨event, hm, he⟩ := List.exists_of_findSome?_eq_some h
  exact observation_eq_some.mp he ▸ hm

theorem standing_deleted (hl : Lawful StandingAllows log) (hm : .observed threadId generation revision .deleted ∈ log) :
    (standing log threadId generation).2 = .deleted := by
  induction log with
  | nil => cases hm
  | cons event log ih =>
    rw [standing_cons]
    cases ho : observation threadId generation event with
    | none =>
      rcases List.mem_cons.mp hm with rfl | hm
      · simp [observation] at ho
      · exact ih hl.2 hm
    | some seen =>
      obtain ⟨r, state⟩ := seen
      obtain rfl := observation_eq_some.mp ho
      rcases List.mem_cons.mp hm with he | hm
      · cases he; rfl
      · exact hl.1.2 (ih hl.2 hm)

theorem standing_revision_le {newer older : List LifecycleEvent} (hl : Lawful StandingAllows (newer ++ older)) :
    (standing older threadId generation).1 ≤ (standing (newer ++ older) threadId generation).1 := by
  induction newer with
  | nil => exact Nat.le_refl _
  | cons event newer ih =>
    have hle := ih hl.2
    rw [List.cons_append, @standing_cons _ threadId generation event]
    cases ho : observation threadId generation event with
    | none => exact hle
    | some seen =>
      obtain ⟨r, state⟩ := seen
      obtain rfl := observation_eq_some.mp ho
      have hlt : (standing (newer ++ older) threadId generation).1 < r := hl.1.1
      rw [Option.getD_some]
      omega

theorem standing_revision_lt {newer older : List LifecycleEvent} (hl : Lawful StandingAllows (newer ++ older)) (hm : .observed threadId generation revision state ∈ newer) :
    (standing older threadId generation).1 < (standing (newer ++ older) threadId generation).1 := by
  obtain ⟨front, back, rfl⟩ := List.append_of_mem hm
  rw [List.append_assoc, List.cons_append] at hl ⊢
  have hat := hl.of_append
  have hbelow := @standing_revision_le threadId generation _ _ hat.2
  have habove := @standing_revision_le threadId generation _ _ hl
  have hhead : standing (.observed threadId generation revision state :: (back ++ older)) threadId
      generation = (revision, state) := by
    simp [standing_cons, observation]
  have hlt := hat.1.1
  rw [hhead] at habove
  omega

variable {between : List LifecycleEvent}

section

variable (hl : Lawful StandingAllows log)
include hl

theorem deleted_for_ever {event : LifecycleEvent}
    (hb : Between log (.observed threadId generation revision .deleted) event between) :
    event ≠ .allowed threadId generation ∧ event ≠ .returnedActive threadId generation := by
  obtain ⟨older, hallows, hl⟩ := hl.of_between hb
  have hdeleted := standing_deleted hl (List.mem_append_right between (List.mem_cons_self ..))
  constructor
  · rintro rfl
    have hactive : (standing _ threadId generation).2 = .active := hallows
    rw [hdeleted] at hactive
    cases hactive
  · rintro rfl
    have hactive : (standing _ threadId generation).2 = .active := hallows
    rw [hdeleted] at hactive
    cases hactive

theorem archived_until_active (hb : Between log (.observed threadId generation revision .archived) (.allowed threadId generation) between) :
    ∃ r, .observed threadId generation r .active ∈ between := by
  obtain ⟨older, hallows, -⟩ := hl.of_between hb
  have hactive : (standing _ threadId generation).2 = .active := hallows
  rw [standing, lastObserved, List.findSome?_append] at hactive
  cases ho : between.findSome? (observation threadId generation) with
  | none => simp [ho, observation] at hactive
  | some seen =>
    rw [ho] at hactive
    have hm := lastObserved_mem ho
    rw [show seen.2 = .active from hactive] at hm
    exact ⟨seen.1, hm⟩

theorem applied_at_revision {expectedRevision : Nat}
    (hb : Between log (.revisionReturned threadId generation expectedRevision)
      (.applied threadId generation expectedRevision) between) (revision : Nat) (state : TelegramThreadLifecycleState) :
    .observed threadId generation revision state ∉ between := by
  intro hm
  obtain ⟨older, hallows, hl⟩ := hl.of_between hb
  have hlt := standing_revision_lt hl hm
  have happlied : expectedRevision = (standing _ threadId generation).1 := hallows
  have hreturned : expectedRevision = (standing older threadId generation).1 := hl.of_append.1
  have hskip : standing (.revisionReturned threadId generation expectedRevision :: older) threadId
      generation = standing older threadId generation := rfl
  rw [hskip] at hlt
  omega

end

end

end MochiPort

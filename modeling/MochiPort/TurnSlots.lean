import MochiPort.Runs
import MochiPort.RuntimeState

namespace MochiPort

open RuntimeState

/-- How far the event task has come with a turn that Codex has begun: `announced` after `turn/started`,
`closing` after the staleness check of `turn/completed`, `closed` after its handling. -/
inductive TurnPhase where
  | begun
  | announced
  | closing
  | closed
  deriving DecidableEq

structure CodexTurn where
  threadId : String
  phase : TurnPhase
  deriving DecidableEq

/-- A `turn/start` request that waits for its response, and the turn that Codex has begun for it. -/
structure StartRequest where
  threadId : String
  conversationKey : String
  turnId : Option String
  deriving DecidableEq

structure TurnSystem where
  runtime : RuntimeState Unit
  requests : Table Nat StartRequest
  turns : Table String CodexTurn
  -- the completions that took effect
  finished : List (String × String)

inductive TurnStep where
  | bind (threadId : String) (route : RouteTarget)
  | unbind (conversationKey : String)
  | tryStart (call : Nat) (threadId conversationKey : String) (receivedAtMs : Nat)
  -- `call` is the request that the turn answers, none for a turn of another client
  | beginTurn (turnId threadId : String) (call : Option Nat)
  | respond (call nowMs : Nat)
  | respondError (call : Nat)
  | respondStaleThread (call : Nat)
  | turnStarted (turnId : String) (routed : Bool) (nowMs : Nat)
  | checkTerminalTurn (turnId : String)
  | completeTurn (turnId : String) (nowMs : Nat)

namespace TurnSystem

def terminalTurnIsStale (s : TurnSystem) (threadId turnId : String) : Bool :=
  (s.runtime.currentTurnByThread.lookup threadId).any (· ≠ turnId)

def setPhase (s : TurnSystem) (turnId threadId : String) (phase : TurnPhase) : TurnSystem :=
  { s with turns := s.turns.insert turnId ⟨threadId, phase⟩ }

def step (s : TurnSystem) : TurnStep → Option TurnSystem
  | .bind threadId route => some { s with runtime := s.runtime.bindRoute threadId route }
  | .unbind conversationKey =>
    some { s with runtime := s.runtime.unbindRoutesForConversation conversationKey }
  | .tryStart call threadId conversationKey receivedAtMs =>
    if (s.requests.lookup call).isSome then none
    else
      match s.runtime.tryMarkTurnStarting threadId with
      | none => some s
      | some runtime =>
        if runtime.messageIsStaleForLatestTurn threadId receivedAtMs then
          some { s with runtime := runtime.clearTurnStarting threadId }
        else
          some { s with
            runtime := runtime
            requests := s.requests.insert call ⟨threadId, conversationKey, none⟩ }
  | .beginTurn turnId threadId call =>
    if (s.turns.lookup turnId).isSome then none
    else
      let begun := s.setPhase turnId threadId .begun
      match call with
      | none => some begun
      | some call =>
        match s.requests.lookup call with
        | some ⟨requested, conversationKey, none⟩ =>
          if requested = threadId then
            let request := ⟨threadId, conversationKey, some turnId⟩
            some { begun with requests := s.requests.insert call request }
          else none
        | _ => none
  | .respond call nowMs =>
    match s.requests.lookup call with
    | some ⟨threadId, _, some turnId⟩ =>
      some { s with
        runtime := s.runtime.markTurnStarted threadId turnId nowMs
        requests := s.requests.erase call }
    | _ => none
  | .respondError call =>
    match s.requests.lookup call with
    | some ⟨threadId, _, _⟩ =>
      some { s with
        runtime := s.runtime.clearTurnStarting threadId
        requests := s.requests.erase call }
    | none => none
  | .respondStaleThread call =>
    match s.requests.lookup call with
    | some ⟨_, conversationKey, _⟩ =>
      some { s with
        runtime := s.runtime.unbindRoutesForConversation conversationKey
        requests := s.requests.erase call }
    | none => none
  | .turnStarted turnId routed nowMs =>
    match s.turns.lookup turnId with
    | some ⟨threadId, .begun⟩ =>
      let announced := s.setPhase turnId threadId .announced
      if routed then some { announced with runtime := s.runtime.markTurnStarted threadId turnId nowMs }
      else some announced
    | _ => none
  | .checkTerminalTurn turnId =>
    match s.turns.lookup turnId with
    | some ⟨threadId, .announced⟩ =>
      some (s.setPhase turnId threadId (if s.terminalTurnIsStale threadId turnId then .closed else .closing))
    | _ => none
  | .completeTurn turnId nowMs =>
    match s.turns.lookup turnId with
    | some ⟨threadId, .closing⟩ =>
      let completed := s.runtime.markTurnCompleted threadId (some turnId) nowMs
      some { s.setPhase turnId threadId .closed with
        runtime := completed.1
        finished := if completed.2 then (threadId, turnId) :: s.finished else s.finished }
    | _ => none

def start : TurnSystem := ⟨.empty, ∅, ∅, []⟩

/-- A response finds the handling of its turn's completion unfinished, and after a stale thread the
mark of the start goes with the thread's binding or belongs to another request. -/
def AnsweredInTime (s : TurnSystem) : TurnStep → Prop
  | .respond call _ => ∀ request ∈ s.requests.lookup call, ∀ turnId ∈ request.turnId,
    (s.turns.lookup turnId).map (·.phase) ≠ some .closed
  | .respondStaleThread call => ∀ request ∈ s.requests.lookup call,
    s.runtime.routedTo request.conversationKey request.threadId = true ∨
      request.threadId ∉ s.runtime.startingTurnByThread ∨
      ∃ other ∈ s.requests.keys, other ≠ call ∧
        (s.requests.lookup other).any (·.threadId = request.threadId) = true
  | _ => True

instance (s : TurnSystem) (a : TurnStep) : Decidable (s.AnsweredInTime a) := by
  cases a <;> unfold AnsweredInTime <;> infer_instance

variable {s t : TurnSystem}

/-- A thread is not running and starting at once. -/
def Exclusive (s : TurnSystem) : Prop :=
  ∀ threadId ∈ s.runtime.startingTurnByThread, s.runtime.currentTurnByThread.lookup threadId = none

/-- The current turns are ones that Codex has begun on their threads and that are not closed, and a
starting thread has a request that waits. -/
structure Slots (s : TurnSystem) : Prop where
  current : ∀ threadId turnId, s.runtime.currentTurnByThread.lookup threadId = some turnId →
    ∃ phase, s.turns.lookup turnId = some ⟨threadId, phase⟩ ∧ phase ≠ .closed
  starting : ∀ threadId ∈ s.runtime.startingTurnByThread,
    ∃ call request, s.requests.lookup call = some request ∧ request.threadId = threadId
  requests : ∀ call request turnId, s.requests.lookup call = some request →
    request.turnId = some turnId → ∃ phase, s.turns.lookup turnId = some ⟨request.threadId, phase⟩
  finished : ∀ threadId turnId, (threadId, turnId) ∈ s.finished →
    s.turns.lookup turnId = some ⟨threadId, .closed⟩

theorem Slots.release (hs : s.Slots) (runtime : RuntimeState Unit)
    (hcurrent : ∀ threadId turnId, runtime.currentTurnByThread.lookup threadId = some turnId →
      s.runtime.currentTurnByThread.lookup threadId = some turnId)
    (hstarting : ∀ threadId ∈ runtime.startingTurnByThread, threadId ∈ s.runtime.startingTurnByThread) :
    Slots { s with runtime := runtime } :=
  { hs with
    current := fun threadId turnId h => hs.current threadId turnId (hcurrent threadId turnId h)
    starting := fun threadId h => hs.starting threadId (hstarting threadId h) }

theorem Slots.answer (hs : s.Slots) {call : Nat} {request : StartRequest}
    (hrequest : s.requests.lookup call = some request) (hmark : request.threadId ∉ s.runtime.startingTurnByThread ∨
      ∃ other otherRequest, other ≠ call ∧ s.requests.lookup other = some otherRequest ∧
        otherRequest.threadId = request.threadId) : Slots { s with requests := s.requests.erase call } := by
  refine { hs with
    starting := fun threadId h => ?_
    requests := fun other otherRequest turnId h => ?_ }
  · obtain ⟨other, otherRequest, hother, hthread⟩ := hs.starting threadId h
    by_cases hsame : other = call
    · subst hsame
      rw [hrequest] at hother
      cases hother
      subst hthread
      rcases hmark with hnot | ⟨other', otherRequest, hne, hlookup, hthread⟩
      · exact absurd h hnot
      · exact ⟨other', otherRequest, by rwa [Table.lookup_erase_eq, if_neg hne], hthread⟩
    · exact ⟨other, otherRequest, by rwa [Table.lookup_erase_eq, if_neg hsame], hthread⟩
  · rw [Table.lookup_erase_eq] at h
    split at h
    next => cases h
    next => exact hs.requests other otherRequest turnId h

variable {turnId threadId : String}

theorem Slots.setPhase (hs : s.Slots) {old : TurnPhase} (phase : TurnPhase)
    (hturn : s.turns.lookup turnId = some ⟨threadId, old⟩) (hold : old ≠ .closed)
    (hclosed : phase = .closed → s.runtime.currentTurnByThread.lookup threadId ≠ some turnId) :
    (s.setPhase turnId threadId phase).Slots := by
  have hlookup : ∀ id, (s.setPhase turnId threadId phase).turns.lookup id =
      if id = turnId then some ⟨threadId, phase⟩ else s.turns.lookup id :=
    fun id => Table.lookup_insert_eq ..
  refine ⟨fun thread turn h => ?_, hs.starting, fun call request turn h hr => ?_, fun thread turn h => ?_⟩
  · obtain ⟨p, hp, hne⟩ := hs.current thread turn h
    rw [hlookup]
    split
    next he =>
      subst he
      rw [hturn] at hp
      cases hp
      exact ⟨phase, rfl, fun hph => hclosed hph h⟩
    next => exact ⟨p, hp, hne⟩
  · obtain ⟨p, hp⟩ := hs.requests call request turn h hr
    rw [hlookup]
    split
    next he =>
      subst he
      rw [hturn] at hp
      cases hp
      exact ⟨phase, rfl⟩
    next => exact ⟨p, hp⟩
  · have hp := hs.finished thread turn h
    rw [hlookup]
    split
    next he =>
      subst he
      rw [hturn] at hp
      cases hp
      exact absurd rfl hold
    next => exact hp

theorem Slots.beginTurn (hs : s.Slots) {turnId : String} (threadId : String)
    (hnew : s.turns.lookup turnId = none) : (s.setPhase turnId threadId .begun).Slots := by
  have hlookup : ∀ id turn, s.turns.lookup id = some turn →
      (s.setPhase turnId threadId .begun).turns.lookup id = some turn := by
    intro id turn h
    have hne : id ≠ turnId := by
      rintro rfl
      rw [hnew] at h
      cases h
    exact (AList.lookup_insert_ne hne).trans h
  refine ⟨fun thread turn h => ?_, hs.starting, fun call request turn h hr => ?_,
    fun thread turn h => hlookup _ _ (hs.finished thread turn h)⟩
  · obtain ⟨p, hp, hne⟩ := hs.current thread turn h
    exact ⟨p, hlookup _ _ hp, hne⟩
  · obtain ⟨p, hp⟩ := hs.requests call request turn h hr
    exact ⟨p, hlookup _ _ hp⟩

theorem Slots.markTurnStarted (hs : s.Slots) {phase : TurnPhase} (nowMs : Nat)
    (hturn : s.turns.lookup turnId = some ⟨threadId, phase⟩) (hopen : phase ≠ .closed) :
    Slots { s with runtime := s.runtime.markTurnStarted threadId turnId nowMs } := by
  refine { hs with
    current := fun thread turn h => ?_
    starting := fun thread h => hs.starting thread (Finset.mem_of_mem_erase h) }
  simp only [RuntimeState.markTurnStarted, Table.lookup_insert_eq] at h
  split at h
  next he =>
    subst he
    cases h
    exact ⟨phase, hturn, hopen⟩
  next => exact hs.current thread turn h

theorem step_exclusive {a : TurnStep} (hs : s.Exclusive) (h : s.step a = some t) : t.Exclusive := by
  have hshrink : ∀ runtime : RuntimeState Unit,
      (∀ threadId turnId, runtime.currentTurnByThread.lookup threadId = some turnId →
        s.runtime.currentTurnByThread.lookup threadId = some turnId) →
      (∀ threadId ∈ runtime.startingTurnByThread, threadId ∈ s.runtime.startingTurnByThread) →
      ∀ threadId ∈ runtime.startingTurnByThread, runtime.currentTurnByThread.lookup threadId = none := by
    intro runtime hcurrent hstarting threadId hm
    rw [Option.eq_none_iff_forall_ne_some]
    intro turnId hc
    have hnone := hs threadId (hstarting threadId hm)
    rw [hcurrent threadId turnId hc] at hnone
    cases hnone
  have hstarted : ∀ (threadId turnId : String) (nowMs : Nat),
      ∀ thread ∈ (s.runtime.markTurnStarted threadId turnId nowMs).startingTurnByThread,
      (s.runtime.markTurnStarted threadId turnId nowMs).currentTurnByThread.lookup thread = none := by
    intro threadId turnId nowMs thread hm
    obtain ⟨hne, hm⟩ := Finset.mem_erase.mp hm
    exact (AList.lookup_insert_ne hne).trans (hs thread hm)
  cases a with
  | bind threadId route => cases h; exact hs
  | unbind conversationKey =>
    cases h
    exact hshrink _ (fun _ _ => unbind_current)
      fun threadId hm => (mem_unbind_starting.mp hm).1
  | tryStart call threadId conversationKey receivedAtMs =>
    simp only [step] at h
    split at h
    next => cases h
    split at h
    next => cases h; exact hs
    next runtime hmark =>
      obtain ⟨hnone, rfl⟩ := tryMarkTurnStarting_eq_some hmark
      split at h
      next =>
        cases h
        intro thread hm
        obtain ⟨hne, hm⟩ := Finset.mem_erase.mp hm
        exact hs thread (Finset.mem_of_mem_insert_of_ne hm hne)
      next =>
        cases h
        intro thread hm
        rcases Finset.mem_insert.mp hm with rfl | hm
        · exact hnone
        · exact hs thread hm
  | beginTurn turnId threadId call =>
    simp only [step] at h
    split at h
    next => cases h
    split at h
    next => cases h; exact hs
    split at h
    next =>
      split at h
      next => cases h; exact hs
      next => cases h
    next => cases h
  | respond call nowMs =>
    simp only [step] at h
    split at h
    next => cases h; exact hstarted _ _ _
    next => cases h
  | respondError call =>
    simp only [step] at h
    split at h
    next => cases h; exact hshrink _ (fun _ _ h => h) fun _ hm => Finset.mem_of_mem_erase hm
    next => cases h
  | respondStaleThread call =>
    simp only [step] at h
    split at h
    next =>
      cases h
      exact hshrink _ (fun _ _ => unbind_current)
        fun threadId hm => (mem_unbind_starting.mp hm).1
    next => cases h
  | turnStarted turnId routed nowMs =>
    simp only [step] at h
    split at h
    next =>
      split at h
      next => cases h; exact hstarted _ _ _
      next => cases h; exact hs
    next => cases h
  | checkTerminalTurn turnId =>
    simp only [step] at h
    split at h
    next => cases h; exact hs
    next => cases h
  | completeTurn turnId nowMs =>
    simp only [step] at h
    split at h
    next threadId _ =>
      cases h
      rcases @markTurnCompleted_cases _ s.runtime threadId turnId nowMs with
        ⟨_, he⟩ | ⟨_, he⟩
      · rw [he]
        exact hs
      · rw [he]
        intro thread hm
        obtain ⟨hne, hm⟩ := Finset.mem_erase.mp hm
        exact (AList.lookup_erase_ne hne).trans (hs thread hm)
    next => cases h

theorem completeTurn_slots (hs : s.Slots) (nowMs : Nat) (hturn : s.turns.lookup turnId = some ⟨threadId, .closing⟩) :
    let completed := s.runtime.markTurnCompleted threadId (some turnId) nowMs
    Slots { s.setPhase turnId threadId .closed with
      runtime := completed.1
      finished := if completed.2 then (threadId, turnId) :: s.finished else s.finished } := by
  rcases @markTurnCompleted_cases _ s.runtime threadId turnId nowMs with
    ⟨hcurrent, he⟩ | ⟨hcurrent, he⟩
  · dsimp only
    rw [he]
    exact hs.setPhase _ hturn (by decide) fun _ => hcurrent
  · dsimp only
    rw [he]
    have hreleased := hs.release
      { s.runtime with
        startingTurnByThread := s.runtime.startingTurnByThread.erase threadId
        currentTurnByThread := s.runtime.currentTurnByThread.erase threadId
        turnFinishedAtByThread := s.runtime.turnFinishedAtByThread.insert threadId nowMs }
      (fun thread turn h => by
        rw [Table.lookup_erase_eq] at h
        split at h
        next => cases h
        next => exact h)
      fun thread h => Finset.mem_of_mem_erase h
    have hclosed := hreleased.setPhase .closed hturn (by decide) fun _ h => by
      rw [Table.lookup_erase_eq, if_pos rfl] at h
      cases h
    refine { hclosed with finished := fun thread turn h => ?_ }
    rcases List.mem_cons.mp h with he | h
    · cases he
      exact AList.lookup_insert _
    · exact hclosed.finished thread turn h

theorem step_slots {a : TurnStep} (hs : s.Slots) (hanswered : s.AnsweredInTime a)
    (h : s.step a = some t) : t.Slots := by
  cases a with
  | bind threadId route => cases h; exact hs.release _ (fun _ _ h => h) fun _ h => h
  | unbind conversationKey =>
    cases h
    exact hs.release _ (fun _ _ => unbind_current)
      fun threadId hm => (mem_unbind_starting.mp hm).1
  | tryStart call threadId conversationKey receivedAtMs =>
    simp only [step] at h
    split at h
    next => cases h
    next hfresh =>
      split at h
      next => cases h; exact hs
      next runtime hmark =>
        obtain ⟨hnone, rfl⟩ := tryMarkTurnStarting_eq_some hmark
        split at h
        next =>
          cases h
          refine hs.release _ (fun _ _ h => h) fun thread hm => ?_
          obtain ⟨hne, hm⟩ := Finset.mem_erase.mp hm
          exact Finset.mem_of_mem_insert_of_ne hm hne
        next =>
          cases h
          have hne : ∀ {other request}, s.requests.lookup other = some request → other ≠ call := by
            rintro other request hother rfl
            rw [hother] at hfresh
            exact hfresh rfl
          refine { hs with
            starting := fun thread hm => ?_
            requests := fun other request turnId hother hturn => ?_ }
          · rcases Finset.mem_insert.mp hm with rfl | hm
            · exact ⟨call, _, AList.lookup_insert _, rfl⟩
            · obtain ⟨other, request, hother, hthread⟩ := hs.starting thread hm
              exact ⟨other, request, (AList.lookup_insert_ne (hne hother)).trans hother,
                hthread⟩
          · rw [Table.lookup_insert_eq] at hother
            split at hother
            next => cases hother; cases hturn
            next => exact hs.requests other request turnId hother hturn
  | beginTurn turnId threadId call =>
    simp only [step] at h
    split at h
    next => cases h
    next hnew =>
      have hbegun := hs.beginTurn threadId (Option.not_isSome_iff_eq_none.mp hnew)
      split at h
      next => cases h; exact hbegun
      next call =>
        split at h
        next requested conversationKey hrequest =>
          split at h
          next he =>
            cases h
            subst he
            refine { hbegun with
              starting := fun thread hm => ?_
              requests := fun other request turn hother hturn => ?_ }
            · obtain ⟨other, request, hother, hthread⟩ := hs.starting thread hm
              by_cases hsame : other = call
              · subst hsame
                rw [hrequest] at hother
                cases hother
                exact ⟨other, _, AList.lookup_insert _, hthread⟩
              · exact ⟨other, request, (AList.lookup_insert_ne hsame).trans hother, hthread⟩
            · rw [Table.lookup_insert_eq] at hother
              split at hother
              next =>
                cases hother
                cases hturn
                exact ⟨.begun, AList.lookup_insert _⟩
              next => exact hbegun.requests other request turn hother hturn
          next => cases h
        next => cases h
  | respond call nowMs =>
    simp only [step] at h
    split at h
    next threadId conversationKey turnId hrequest =>
      cases h
      obtain ⟨phase, hturn⟩ := hs.requests call _ turnId hrequest rfl
      have hopen : phase ≠ .closed := by
        rintro rfl
        exact hanswered _ hrequest turnId rfl (by rw [hturn]; rfl)
      refine (hs.markTurnStarted nowMs hturn hopen).answer hrequest (.inl ?_)
      exact Finset.notMem_erase threadId s.runtime.startingTurnByThread
    next => cases h
  | respondError call =>
    simp only [step] at h
    split at h
    next threadId conversationKey turnId hrequest =>
      cases h
      have hreleased := hs.release (s.runtime.clearTurnStarting threadId) (fun _ _ h => h)
        fun _ hm => Finset.mem_of_mem_erase hm
      refine hreleased.answer hrequest (.inl ?_)
      exact Finset.notMem_erase threadId s.runtime.startingTurnByThread
    next => cases h
  | respondStaleThread call =>
    simp only [step] at h
    split at h
    next threadId conversationKey turnId hrequest =>
      cases h
      have hreleased := hs.release (s.runtime.unbindRoutesForConversation conversationKey)
        (fun _ _ => unbind_current) fun _ hm => (mem_unbind_starting.mp hm).1
      refine hreleased.answer hrequest ?_
      rcases hanswered _ hrequest with hrouted | hnot | ⟨other, _, hne, hany⟩
      · refine .inl fun hm => ?_
        rw [(mem_unbind_starting.mp hm).2] at hrouted
        cases hrouted
      · exact .inl fun hm => hnot (mem_unbind_starting.mp hm).1
      · obtain ⟨otherRequest, hother, hthread⟩ := (Option.any_eq_true _ _).mp hany
        exact .inr ⟨other, otherRequest, hne, hother, of_decide_eq_true hthread⟩
    next => cases h
  | turnStarted turnId routed nowMs =>
    simp only [step] at h
    split at h
    next threadId hturn =>
      have hannounced := hs.setPhase .announced hturn (by decide) fun h => by cases h
      split at h
      next =>
        cases h
        exact hannounced.markTurnStarted nowMs (AList.lookup_insert _) (by decide)
      next => cases h; exact hannounced
    next => cases h
  | checkTerminalTurn turnId =>
    simp only [step] at h
    split at h
    next threadId hturn =>
      cases h
      refine hs.setPhase _ hturn (by decide) fun hphase hcurrent => ?_
      simp [terminalTurnIsStale, hcurrent] at hphase
    next => cases h
  | completeTurn turnId nowMs =>
    simp only [step] at h
    split at h
    next threadId hturn => cases h; exact completeTurn_slots hs nowMs hturn
    next => cases h

theorem start_slots : start.Slots where
  current threadId turnId h := by simp [start, empty] at h
  starting threadId hm := by simp [start, empty] at hm
  requests call request turnId h := by simp [start] at h
  finished threadId turnId h := by simp [start] at h

/-- No request waits for the thread, and every turn that Codex has begun on it is closed. -/
def Quiet (s : TurnSystem) (threadId : String) : Prop :=
  (∀ call request, s.requests.lookup call = some request → request.threadId ≠ threadId) ∧
    ∀ turnId turn, s.turns.lookup turnId = some turn → turn.threadId = threadId → turn.phase = .closed

/-- Running and starting exclude each other in every run; while responses come in time, a completed
turn never becomes current again, and a quiet thread takes the next message. -/
theorem completed_turn_stays_completed {steps : List TurnStep} (h : Runs.run step start steps = some s) :
    s.Exclusive ∧
    (Runs.Meets step AnsweredInTime start steps →
      (∀ threadId turnId, (threadId, turnId) ∈ s.finished →
        s.runtime.currentTurnByThread.lookup threadId ≠ some turnId) ∧
      ∀ threadId, s.Quiet threadId → s.runtime.turnInProgress threadId = false ∧
        (s.runtime.tryMarkTurnStarting threadId).isSome) := by
  have hexclusive : s.Exclusive := Runs.run_invariant Exclusive (fun _ _ _ hs h => step_exclusive hs h)
    (fun threadId hm => by simp [start, empty] at hm) h
  refine ⟨hexclusive, fun hanswered => ?_⟩
  have hs : s.Slots := Runs.run_invariant_of_meets Slots (fun _ _ _ hs hg h => step_slots hs hg h)
    start_slots hanswered h
  refine ⟨fun threadId turnId hfinished hcurrent => ?_, fun threadId ⟨hrequests, hturns⟩ => ?_⟩
  · obtain ⟨phase, hturn, hopen⟩ := hs.current threadId turnId hcurrent
    rw [hs.finished threadId turnId hfinished] at hturn
    cases hturn
    exact hopen rfl
  · have hcurrent : s.runtime.currentTurnByThread.lookup threadId = none := by
      rw [Option.eq_none_iff_forall_ne_some]
      intro turnId hcurrent
      obtain ⟨phase, hturn, hopen⟩ := hs.current threadId turnId hcurrent
      exact hopen (hturns turnId _ hturn rfl)
    have hstarting : threadId ∉ s.runtime.startingTurnByThread := by
      intro hm
      obtain ⟨call, request, hrequest, hthread⟩ := hs.starting threadId hm
      exact hrequests call request hrequest hthread
    simp [turnInProgress, tryMarkTurnStarting, hcurrent, hstarting]

def answeredTurn : List TurnStep :=
  [.tryStart 0 "thread" "chat" 5, .beginTurn "turn" "thread" (some 0), .turnStarted "turn" true 10,
    .respond 0 11, .checkTerminalTurn "turn", .completeTurn "turn" 20]

theorem completed_turn_stays_completed_answered :
    ∃ s, Runs.run step start answeredTurn = some s ∧ s.finished = [("thread", "turn")] ∧
      s.runtime.currentTurnByThread.lookup "thread" ≠ some "turn" := by
  have hrun : ((Runs.run step start answeredTurn).map (·.finished)) = some [("thread", "turn")] := by
    decide +kernel
  obtain ⟨s, hs, hfinished⟩ := Option.map_eq_some_iff.mp hrun
  refine ⟨s, hs, hfinished, ((completed_turn_stays_completed hs).2 (by decide +kernel)).1 _ _ ?_⟩
  rw [hfinished]
  exact List.mem_singleton_self _

/-- The response of the start is handled after both events of its turn. -/
theorem answered_after_completion :
    ¬∀ (steps : List TurnStep) (s : TurnSystem), Runs.run step start steps = some s →
      ∀ threadId turnId, (threadId, turnId) ∈ s.finished →
        s.runtime.currentTurnByThread.lookup threadId ≠ some turnId := by
  intro h
  have hrun : ((Runs.run step start
      [.tryStart 0 "thread" "chat" 5, .beginTurn "turn" "thread" (some 0), .turnStarted "turn" true 10,
        .checkTerminalTurn "turn", .completeTurn "turn" 20, .respond 0 21]).map fun s =>
        (s.finished, s.runtime.currentTurnByThread.lookup "thread")) =
      some ([("thread", "turn")], some "turn") := by
    decide +kernel
  obtain ⟨s, hs, he⟩ := Option.map_eq_some_iff.mp hrun
  obtain ⟨hfinished, hcurrent⟩ := Prod.mk.inj he
  exact h _ s hs "thread" "turn" (hfinished ▸ List.mem_singleton_self _) hcurrent

end TurnSystem

end MochiPort

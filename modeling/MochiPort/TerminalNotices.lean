import MochiPort.BoundedHistories
import MochiPort.RuntimeState

namespace MochiPort

open List Option

def terminalNoticeTurnHistoryMax : Nat := 256

structure TerminalStatusFallbackState where
  turnId : String
  token : UInt64
  eventDriverStarted : Bool
  serverDriverStarted : Bool

/-- The runtime with the notices and the fallback latches of its turns; a notice says whether its turn failed. -/
structure TerminalRuntime (T : Type) where
  runtime : RuntimeState T
  terminalNotices : BoundedHistory String Bool
  terminalStatusFallbackByThread : Table String TerminalStatusFallbackState
  nextTerminalStatusFallbackToken : UInt64

/-- What is called on the runtime; turns start and complete at a time in milliseconds. -/
inductive TerminalCall where
  | claimTerminalNotice (turnId : String) (failed : Bool)
  | releaseTerminalNotice (turnId : String)
  | registerTerminalStatusFallbackToken (threadId turnId : String)
  | startTerminalStatusFallback (threadId turnId : String)
  | cancelTerminalStatusFallback (threadId turnId : String)
  | claimTerminalStatusFallback (threadId turnId : String) (token : UInt64)
  | tryMarkTurnStarting (threadId : String)
  | clearTurnStarting (threadId : String)
  | markTurnStarted (threadId turnId : String) (nowMs : Nat)
  | markTurnCompleted (threadId : String) (turnId : Option String) (nowMs : Nat)
  deriving DecidableEq

/-- What came of a call: a notice or a latch was claimed, or a new latch was registered. -/
inductive TerminalEvent where
  | noticed (turnId : String) (failed : Bool)
  | latched (threadId turnId : String) (token : UInt64)
  | consumed (threadId turnId : String) (token : UInt64)
  deriving DecidableEq

namespace TerminalRuntime

variable {T : Type}

def start : TerminalRuntime T := ⟨.empty, .empty, ∅, 0⟩

def currentTurnId (s : TerminalRuntime T) (threadId : String) : Option String :=
  s.runtime.currentTurnByThread.lookup threadId

def claimTerminalNotice (s : TerminalRuntime T) (turnId : String) (failed : Bool) : TerminalRuntime T × Bool :=
  match s.terminalNotices.values.lookup turnId with
  | some previousFailed =>
    -- a late failure must still be visible after an optimistic success notice
    if failed && !previousFailed then ({ s with terminalNotices := s.terminalNotices.replace turnId true }, true)
    else (s, false)
  | none =>
    ({ s with terminalNotices := s.terminalNotices.record terminalNoticeTurnHistoryMax turnId failed }, true)

def releaseTerminalNotice (s : TerminalRuntime T) (turnId : String) : TerminalRuntime T :=
  { s with terminalNotices := s.terminalNotices.forget turnId }

def latch (s : TerminalRuntime T) (threadId turnId : String) (eventDriverStarted serverDriverStarted : Bool) :
    TerminalRuntime T × UInt64 :=
  let token := max (s.nextTerminalStatusFallbackToken + 1) 1
  ({ s with
    nextTerminalStatusFallbackToken := token
    terminalStatusFallbackByThread :=
      s.terminalStatusFallbackByThread.insert threadId ⟨turnId, token, eventDriverStarted, serverDriverStarted⟩ },
    token)

/-- The token of the latch, and whether the caller is to start the timer of the server. -/
def registerTerminalStatusFallbackToken (s : TerminalRuntime T) (threadId turnId : String) :
    TerminalRuntime T × Option (UInt64 × Bool) :=
  if s.currentTurnId threadId ≠ some turnId then (s, none)
  else
    match (s.terminalStatusFallbackByThread.lookup threadId).filter (·.turnId = turnId) with
    | some existing =>
      ({ s with
        terminalStatusFallbackByThread :=
          s.terminalStatusFallbackByThread.insert threadId { existing with serverDriverStarted := true } },
        some (existing.token, !existing.serverDriverStarted))
    | none =>
      let (s, token) := s.latch threadId turnId false true
      (s, some (token, true))

def startTerminalStatusFallback (s : TerminalRuntime T) (threadId turnId : String) :
    TerminalRuntime T × Option UInt64 :=
  if s.currentTurnId threadId ≠ some turnId then (s, none)
  else
    match s.terminalStatusFallbackByThread.lookup threadId with
    | some existing =>
      if existing.turnId ≠ turnId || existing.eventDriverStarted then (s, none)
      else
        ({ s with
          terminalStatusFallbackByThread :=
            s.terminalStatusFallbackByThread.insert threadId { existing with eventDriverStarted := true } },
          some existing.token)
    | none =>
      let (s, token) := s.latch threadId turnId true false
      (s, some token)

def cancelTerminalStatusFallback (s : TerminalRuntime T) (threadId turnId : String) : TerminalRuntime T :=
  if (s.terminalStatusFallbackByThread.lookup threadId).any (·.turnId = turnId) then
    { s with terminalStatusFallbackByThread := s.terminalStatusFallbackByThread.erase threadId }
  else s

def terminalStatusFallbackMatchesToken (s : TerminalRuntime T) (threadId turnId : String) (token : UInt64) : Bool :=
  (s.terminalStatusFallbackByThread.lookup threadId).any fun current =>
    current.turnId = turnId && current.token = token

def claimTerminalStatusFallback (s : TerminalRuntime T) (threadId turnId : String) (token : UInt64) :
    TerminalRuntime T × Bool :=
  if s.currentTurnId threadId ≠ some turnId || !s.terminalStatusFallbackMatchesToken threadId turnId token then
    (s, false)
  else ({ s with terminalStatusFallbackByThread := s.terminalStatusFallbackByThread.erase threadId }, true)

def markTurnStarted (s : TerminalRuntime T) (threadId turnId : String) (nowMs : Nat) : TerminalRuntime T :=
  { s with
    runtime := s.runtime.markTurnStarted threadId turnId nowMs
    terminalStatusFallbackByThread := s.terminalStatusFallbackByThread.erase threadId }

def markTurnCompleted (s : TerminalRuntime T) (threadId : String) (turnId : Option String) (nowMs : Nat) :
    TerminalRuntime T × Bool :=
  let (runtime, completed) := s.runtime.markTurnCompleted threadId turnId nowMs
  if completed then
    ({ s with
      runtime := runtime
      terminalStatusFallbackByThread := s.terminalStatusFallbackByThread.erase threadId }, true)
  else (s, false)

def call (s : TerminalRuntime T) : TerminalCall → TerminalRuntime T × Option TerminalEvent
  | .claimTerminalNotice turnId failed =>
    let (t, claimed) := s.claimTerminalNotice turnId failed
    (t, if claimed then some (.noticed turnId failed) else none)
  | .releaseTerminalNotice turnId => (s.releaseTerminalNotice turnId, none)
  | .registerTerminalStatusFallbackToken threadId turnId =>
    let known := (s.terminalStatusFallbackByThread.lookup threadId).any (·.turnId = turnId)
    let (t, registered) := s.registerTerminalStatusFallbackToken threadId turnId
    (t, if known then none else registered.map fun (token, _) => .latched threadId turnId token)
  | .startTerminalStatusFallback threadId turnId =>
    let known := (s.terminalStatusFallbackByThread.lookup threadId).isSome
    let (t, started) := s.startTerminalStatusFallback threadId turnId
    (t, if known then none else started.map fun token => .latched threadId turnId token)
  | .cancelTerminalStatusFallback threadId turnId => (s.cancelTerminalStatusFallback threadId turnId, none)
  | .claimTerminalStatusFallback threadId turnId token =>
    let (t, claimed) := s.claimTerminalStatusFallback threadId turnId token
    (t, if claimed then some (.consumed threadId turnId token) else none)
  | .tryMarkTurnStarting threadId => ({ s with runtime := (s.runtime.tryMarkTurnStarting threadId).getD s.runtime }, none)
  | .clearTurnStarting threadId => ({ s with runtime := s.runtime.clearTurnStarting threadId }, none)
  | .markTurnStarted threadId turnId nowMs => (s.markTurnStarted threadId turnId nowMs, none)
  | .markTurnCompleted threadId turnId nowMs => ((s.markTurnCompleted threadId turnId nowMs).1, none)

def calls (s : TerminalRuntime T) : List TerminalCall → TerminalRuntime T × List TerminalEvent
  | [] => (s, [])
  | a :: as =>
    let (t, event) := s.call a
    let (u, events) := t.calls as
    (u, event.toList ++ events)

end TerminalRuntime

def noticesOf (turnId : String) (log : List TerminalEvent) : List Bool :=
  log.filterMap fun event =>
    match event with
    | .noticed noticed failed => if noticed = turnId then some failed else none
    | _ => none

/-- The other turns of which a notice is claimed, each of them once. -/
def otherNotices (turnId : String) (log : List TerminalEvent) : List String :=
  (log.filterMap fun event =>
    match event with
    | .noticed noticed _ => if noticed = turnId then none else some noticed
    | _ => none).dedup

def TerminalEvent.latchThread : TerminalEvent → Option String
  | .noticed .. => none
  | .latched threadId .. => some threadId
  | .consumed threadId .. => some threadId

/-- The latch has been registered with the token, and no latch of the thread has been registered or consumed since. -/
def LatchRegistered (log : List TerminalEvent) (threadId turnId : String) (token : UInt64) : Prop :=
  ∃ earlier later, log = earlier ++ .latched threadId turnId token :: later ∧
    ∀ event ∈ later, event.latchThread ≠ some threadId

theorem LatchRegistered.append {log events : List TerminalEvent} {threadId turnId : String} {token : UInt64}
    (h : LatchRegistered log threadId turnId token) (hevents : ∀ event ∈ events, event.latchThread ≠ some threadId) :
    LatchRegistered (log ++ events) threadId turnId token := by
  obtain ⟨earlier, later, rfl, hlater⟩ := h
  refine ⟨earlier, later ++ events, by simp, fun event hevent => ?_⟩
  rcases mem_append.mp hevent with hevent | hevent
  · exact hlater event hevent
  · exact hevents event hevent

namespace TerminalRuntime

variable {T : Type} {s t : TerminalRuntime T} {a : TerminalCall} {event : Option TerminalEvent}
  {log : List TerminalEvent} {threadId turnId : String} {token : UInt64}

/-- What a call does to the latch of a thread: it registers it, or leaves its turn and token as they are. -/
def KeepsLatch (s t : TerminalRuntime T) (event : Option TerminalEvent) (threadId : String) : Prop :=
  ∀ latch, t.terminalStatusFallbackByThread.lookup threadId = some latch →
    event = some (.latched threadId latch.turnId latch.token) ∨
      (∃ before, s.terminalStatusFallbackByThread.lookup threadId = some before ∧ before.turnId = latch.turnId ∧
        before.token = latch.token) ∧ ∀ e ∈ event, e.latchThread ≠ some threadId

theorem keepsLatch_of_eq (h : t.terminalStatusFallbackByThread = s.terminalStatusFallbackByThread)
    (hevent : ∀ e ∈ event, e.latchThread ≠ some threadId) : KeepsLatch s t event threadId := by
  intro latch hlatch
  rw [h] at hlatch
  exact .inr ⟨⟨latch, hlatch, rfl, rfl⟩, hevent⟩

theorem keepsLatch_of_erase (thread : String)
    (h : t.terminalStatusFallbackByThread = s.terminalStatusFallbackByThread.erase thread)
    (hevent : ∀ e ∈ event, e.latchThread = some thread) : KeepsLatch s t event threadId := by
  intro latch hlatch
  rw [h] at hlatch
  obtain ⟨hne, hlatch⟩ := Table.of_lookup_erase hlatch
  refine .inr ⟨⟨latch, hlatch, rfl, rfl⟩, fun e he => ?_⟩
  rw [hevent e he]
  simpa using Ne.symm hne

theorem keepsLatch_of_replace {thread : String} {before after : TerminalStatusFallbackState}
    (h : t.terminalStatusFallbackByThread = s.terminalStatusFallbackByThread.insert thread after)
    (hbefore : s.terminalStatusFallbackByThread.lookup thread = some before) (hturn : before.turnId = after.turnId)
    (htoken : before.token = after.token) : KeepsLatch s t none threadId := by
  intro latch hlatch
  rw [h] at hlatch
  rcases Table.of_lookup_insert hlatch with ⟨rfl, rfl⟩ | ⟨-, hlatch⟩
  · exact .inr ⟨⟨before, hbefore, hturn, htoken⟩, by simp⟩
  · exact .inr ⟨⟨latch, hlatch, rfl, rfl⟩, by simp⟩

section

variable (s)

theorem keepsLatch_of_latch (thread turnId : String) (event server : Bool) (threadId : String) :
    KeepsLatch s (s.latch thread turnId event server).1
      (some (.latched thread turnId (s.latch thread turnId event server).2)) threadId := by
  intro latch hlatch
  rcases Table.of_lookup_insert hlatch with ⟨rfl, rfl⟩ | ⟨hne, hlatch⟩
  · exact .inl rfl
  · refine .inr ⟨⟨latch, hlatch, rfl, rfl⟩, fun e he => ?_⟩
    rw [← Option.some.inj he]
    simpa [TerminalEvent.latchThread] using Ne.symm hne

theorem call_register_keepsLatch (thread turnId threadId : String) :
    KeepsLatch s (s.call (.registerTerminalStatusFallbackToken thread turnId)).1
      (s.call (.registerTerminalStatusFallbackToken thread turnId)).2 threadId := by
  simp only [call, registerTerminalStatusFallbackToken]
  by_cases hcurrent : s.currentTurnId thread = some turnId
  · rw [if_neg (not_not_intro hcurrent)]
    cases hlatch : s.terminalStatusFallbackByThread.lookup thread with
    | none => exact keepsLatch_of_latch s thread turnId false true threadId
    | some existing =>
      by_cases hturn : existing.turnId = turnId
      · simp only [filter_some, any_some, hturn, decide_true, if_true]
        exact keepsLatch_of_replace rfl hlatch hturn rfl
      · simp only [filter_some, any_some, hturn, decide_false, Bool.false_eq_true, if_false]
        exact keepsLatch_of_latch s thread turnId false true threadId
  · rw [if_pos hcurrent]
    exact keepsLatch_of_eq rfl (by simp)

theorem call_start_keepsLatch (thread turnId threadId : String) :
    KeepsLatch s (s.call (.startTerminalStatusFallback thread turnId)).1
      (s.call (.startTerminalStatusFallback thread turnId)).2 threadId := by
  simp only [call, startTerminalStatusFallback]
  by_cases hcurrent : s.currentTurnId thread = some turnId
  · rw [if_neg (not_not_intro hcurrent)]
    cases hlatch : s.terminalStatusFallbackByThread.lookup thread with
    | none => exact keepsLatch_of_latch s thread turnId true false threadId
    | some existing =>
      by_cases hstarted : (existing.turnId ≠ turnId || existing.eventDriverStarted) = true
      · simp only [hstarted, if_true, isSome_some]
        exact keepsLatch_of_eq rfl (by simp)
      · simp only [hstarted, if_true, isSome_some]
        exact keepsLatch_of_replace rfl hlatch rfl rfl
  · rw [if_pos hcurrent]
    exact keepsLatch_of_eq rfl (by simp)

theorem call_keepsLatch (a : TerminalCall) (threadId : String) : KeepsLatch s (s.call a).1 (s.call a).2 threadId := by
  cases a with
  | claimTerminalNotice turnId failed =>
    have htable : (s.claimTerminalNotice turnId failed).1.terminalStatusFallbackByThread =
        s.terminalStatusFallbackByThread := by
      unfold claimTerminalNotice
      split
      next => split <;> rfl
      next => rfl
    refine keepsLatch_of_eq htable fun e he => ?_
    simp only [call, mem_def, ite_none_right_eq_some] at he
    rw [← Option.some.inj he.2]
    exact nofun
  | releaseTerminalNotice turnId | tryMarkTurnStarting thread
  | clearTurnStarting thread => exact keepsLatch_of_eq rfl nofun
  | registerTerminalStatusFallbackToken thread turnId => exact call_register_keepsLatch s thread turnId threadId
  | startTerminalStatusFallback thread turnId => exact call_start_keepsLatch s thread turnId threadId
  | cancelTerminalStatusFallback thread turnId =>
    simp only [call, cancelTerminalStatusFallback]
    split
    next => exact keepsLatch_of_erase thread rfl nofun
    next => exact keepsLatch_of_eq rfl nofun
  | claimTerminalStatusFallback thread turnId token =>
    simp only [call, claimTerminalStatusFallback]
    split
    next => exact keepsLatch_of_eq rfl (by simp)
    next =>
      refine keepsLatch_of_erase thread rfl fun e he => ?_
      rw [← Option.some.inj he]
      rfl
  | markTurnStarted thread turnId nowMs => exact keepsLatch_of_erase thread rfl nofun
  | markTurnCompleted thread turnId nowMs =>
    simp only [call, markTurnCompleted]
    split
    next => exact keepsLatch_of_erase thread rfl nofun
    next => exact keepsLatch_of_eq rfl nofun

end

theorem call_consumed (h : (s.call a).2 = some (.consumed threadId turnId token)) :
    a = .claimTerminalStatusFallback threadId turnId token ∧ s.currentTurnId threadId = some turnId ∧
      ∃ latch, s.terminalStatusFallbackByThread.lookup threadId = some latch ∧ latch.turnId = turnId ∧
        latch.token = token := by
  cases a with
  | claimTerminalNotice claimed failed =>
    simp only [call, ite_none_right_eq_some] at h
    cases h.2
  | registerTerminalStatusFallbackToken thread registered | startTerminalStatusFallback thread started =>
    simp only [call, ite_none_left_eq_some, map_eq_some_iff] at h
    obtain ⟨-, _, -, h⟩ := h
    cases h
  | claimTerminalStatusFallback thread claimed token' =>
    simp only [call, claimTerminalStatusFallback] at h
    split at h
    next => simp at h
    next hclaim =>
      cases h
      simp only [Bool.or_eq_true, decide_eq_true_eq, Bool.not_eq_true', not_or, not_not, Bool.not_eq_false,
        terminalStatusFallbackMatchesToken] at hclaim
      obtain ⟨hcurrent, hmatches⟩ := hclaim
      obtain ⟨latch, hlatch, hfits⟩ := (any_eq_true _ _).mp hmatches
      simp only [Bool.and_eq_true, decide_eq_true_eq] at hfits
      exact ⟨rfl, hcurrent, latch, hlatch, hfits⟩
  | _ => cases h

/-- Every latch has been registered, and every claim of a latch came after its registration. -/
structure Logged (log : List TerminalEvent) (s : TerminalRuntime T) : Prop where
  latches : ∀ threadId latch, s.terminalStatusFallbackByThread.lookup threadId = some latch →
    LatchRegistered log threadId latch.turnId latch.token
  claims : ∀ threadId turnId token earlier later, log = earlier ++ .consumed threadId turnId token :: later →
    LatchRegistered earlier threadId turnId token

theorem Logged.call (h : Logged log s) (a : TerminalCall) : Logged (log ++ (s.call a).2.toList) (s.call a).1 := by
  have hkeeps := call_keepsLatch s a
  refine ⟨fun threadId latch hlatch => ?_, fun threadId turnId token earlier later hlog => ?_⟩
  · rcases hkeeps threadId latch hlatch with hevent | ⟨⟨before, hbefore, hturn, htoken⟩, hevent⟩
    · rw [hevent]
      exact ⟨log, [], rfl, nofun⟩
    · have hregistered := (h.latches threadId before hbefore).append fun event (hmem : event ∈ (s.call a).2.toList) =>
        hevent event (mem_toList.mp hmem)
      rwa [hturn, htoken] at hregistered
  · rcases eq_nil_or_concat later with rfl | ⟨newer, last, rfl⟩
    · cases hevent : (s.call a).2 with
      | none =>
        rw [hevent, toList_none, append_nil] at hlog
        exact h.claims threadId turnId token earlier [] hlog
      | some event =>
        rw [hevent, toList_some] at hlog
        obtain ⟨rfl, hlast⟩ := append_inj' hlog rfl
        rw [singleton_inj.mp hlast] at hevent
        obtain ⟨-, -, latch, hlatch, rfl, rfl⟩ := call_consumed hevent
        exact h.latches threadId latch hlatch
    · cases hevent : (s.call a).2 with
      | none =>
        rw [hevent, toList_none, append_nil] at hlog
        exact h.claims threadId turnId token earlier _ hlog
      | some event =>
        rw [hevent, toList_some, concat_eq_append, ← cons_append, ← append_assoc] at hlog
        obtain ⟨hlog, -⟩ := append_inj' hlog rfl
        exact h.claims threadId turnId token earlier newer hlog

theorem calls_append (s : TerminalRuntime T) (as bs : List TerminalCall) :
    (s.calls (as ++ bs)).1 = ((s.calls as).1.calls bs).1 := by
  induction as generalizing s with
  | nil => rfl
  | cons a as ih => exact ih (s.call a).1

theorem Logged.calls (h : Logged log s) (as : List TerminalCall) : Logged (log ++ (s.calls as).2) (s.calls as).1 := by
  induction as generalizing s log with
  | nil =>
    rw [TerminalRuntime.calls, append_nil]
    exact h
  | cons a as ih =>
    have hrest := ih (h.call a)
    rw [append_assoc] at hrest
    exact hrest

theorem logged_start : Logged [] (start : TerminalRuntime T) where
  latches threadId latch hlatch := by simp [start] at hlatch
  claims threadId turnId token earlier later hlog := by simp at hlog

theorem call_notices (s : TerminalRuntime T) (a : TerminalCall) :
    (∃ turnId failed, a = .claimTerminalNotice turnId failed ∧
      ((s.terminalNotices.values.lookup turnId = none ∧ (s.call a).2 = some (.noticed turnId failed) ∧
          (s.call a).1.terminalNotices = s.terminalNotices.record terminalNoticeTurnHistoryMax turnId failed) ∨
        (s.terminalNotices.values.lookup turnId = some false ∧ failed = true ∧
          (s.call a).2 = some (.noticed turnId true) ∧
          (s.call a).1.terminalNotices = s.terminalNotices.replace turnId true) ∨
        (∃ previous, s.terminalNotices.values.lookup turnId = some previous ∧ (failed = false ∨ previous = true)) ∧
          (s.call a).2 = none ∧ (s.call a).1.terminalNotices = s.terminalNotices)) ∨
    (∃ turnId, a = .releaseTerminalNotice turnId ∧ (s.call a).2 = none ∧
      (s.call a).1.terminalNotices = s.terminalNotices.forget turnId) ∨
    ((∀ turnId failed, (s.call a).2 ≠ some (.noticed turnId failed)) ∧
      (s.call a).1.terminalNotices = s.terminalNotices) := by
  cases a with
  | claimTerminalNotice turnId failed =>
    refine .inl ⟨turnId, failed, rfl, ?_⟩
    obtain ⟨found, hfound⟩ : ∃ found, s.terminalNotices.values.lookup turnId = found := ⟨_, rfl⟩
    cases found with
    | none => simp [call, claimTerminalNotice, hfound]
    | some previous =>
      cases previous with
      | false => cases failed <;> simp [call, claimTerminalNotice, hfound]
      | true => simp [call, claimTerminalNotice, hfound]
  | releaseTerminalNotice turnId => exact .inr (.inl ⟨turnId, rfl, rfl, rfl⟩)
  | registerTerminalStatusFallbackToken thread turnId =>
    refine .inr (.inr ⟨?_, ?_⟩)
    · simp only [call]
      split <;> simp
    · simp only [call, registerTerminalStatusFallbackToken]
      split
      next => rfl
      next => split <;> rfl
  | startTerminalStatusFallback thread turnId =>
    refine .inr (.inr ⟨?_, ?_⟩)
    · simp only [call]
      split <;> simp
    · simp only [call, startTerminalStatusFallback]
      split
      next => rfl
      next =>
        split
        next => split <;> rfl
        next => rfl
  | cancelTerminalStatusFallback thread turnId =>
    refine .inr (.inr ⟨nofun, ?_⟩)
    simp only [call, cancelTerminalStatusFallback]
    split <;> rfl
  | claimTerminalStatusFallback thread turnId token =>
    refine .inr (.inr ⟨?_, ?_⟩)
    · simp [call]
    · simp only [call, claimTerminalStatusFallback]
      split <;> rfl
  | tryMarkTurnStarting thread | clearTurnStarting thread
  | markTurnStarted thread turnId nowMs => exact .inr (.inr ⟨nofun, rfl⟩)
  | markTurnCompleted thread turnId nowMs =>
    refine .inr (.inr ⟨nofun, ?_⟩)
    simp only [call, markTurnCompleted]
    split <;> rfl

section

variable (h : s.terminalNotices.Keyed terminalNoticeTurnHistoryMax)
include h

theorem call_keyed (a : TerminalCall) : (s.call a).1.terminalNotices.Keyed terminalNoticeTurnHistoryMax := by
  rcases call_notices s a with ⟨turnId, failed, -, hclaim⟩ | ⟨turnId, -, -, hforget⟩ | ⟨-, hsame⟩
  · rcases hclaim with ⟨hnew, -, hrecord⟩ | ⟨hprevious, -, -, hreplace⟩ | ⟨-, -, hsame⟩
    · rw [hrecord]
      exact h.record (by decide) hnew
    · rw [hreplace]
      exact h.replace (by simp [hprevious])
    · rw [hsame]
      exact h
  · rw [hforget]
    exact h.forget
  · rw [hsame]
    exact h

theorem calls_keyed (as : List TerminalCall) : (s.calls as).1.terminalNotices.Keyed terminalNoticeTurnHistoryMax := by
  induction as generalizing s with
  | nil => exact h
  | cons a as ih => exact ih (call_keyed h a)

end

/-- The notices of the turn so far, and what the history says of them. -/
inductive Noticed (s : TerminalRuntime T) (turnId : String) (others : List String) : List Bool → Prop where
  | nothing (h : s.terminalNotices.values.lookup turnId = none) : Noticed s turnId others []
  | success (h : s.terminalNotices.Recent turnId false others) : Noticed s turnId others [false]
  | failure (h : s.terminalNotices.Recent turnId true others) : Noticed s turnId others [true]
  | lateFailure (h : s.terminalNotices.Recent turnId true others) : Noticed s turnId others [false, true]

variable {flags : List Bool} {others : List String}

theorem Noticed.transfer (h : Noticed s turnId others flags)
    (hlookup : s.terminalNotices.values.lookup turnId = none → t.terminalNotices.values.lookup turnId = none)
    (hrecent : ∀ failed, s.terminalNotices.Recent turnId failed others → t.terminalNotices.Recent turnId failed others) :
    Noticed t turnId others flags := by
  cases h with
  | nothing h => exact .nothing (hlookup h)
  | success h => exact .success (hrecent false h)
  | failure h => exact .failure (hrecent true h)
  | lateFailure h => exact .lateFailure (hrecent true h)

variable {failed : Bool}

theorem noticesOf_other {other : String} (hne : other ≠ turnId) :
    noticesOf turnId (some (TerminalEvent.noticed other failed)).toList = [] := by
  simp [noticesOf, hne]

theorem noticesOf_self : noticesOf turnId (some (TerminalEvent.noticed turnId failed)).toList = [failed] := by
  simp [noticesOf]

theorem noticesOf_eq_nil (h : ∀ turnId failed, event ≠ some (.noticed turnId failed)) :
    noticesOf turnId event.toList = [] := by
  cases event with
  | none => rfl
  | some event =>
    cases event with
    | noticed noticed failed => exact absurd rfl (h noticed failed)
    | latched | consumed => rfl

theorem Noticed.claim (h : Noticed s turnId others flags) (hk : s.terminalNotices.Keyed terminalNoticeTurnHistoryMax)
    (hclaim : (s.terminalNotices.values.lookup turnId = none ∧ event = some (.noticed turnId failed) ∧
          t.terminalNotices = s.terminalNotices.record terminalNoticeTurnHistoryMax turnId failed) ∨
        (s.terminalNotices.values.lookup turnId = some false ∧ failed = true ∧ event = some (.noticed turnId true) ∧
          t.terminalNotices = s.terminalNotices.replace turnId true) ∨
        (∃ previous, s.terminalNotices.values.lookup turnId = some previous ∧ (failed = false ∨ previous = true)) ∧
          event = none ∧ t.terminalNotices = s.terminalNotices) :
    Noticed t turnId others (flags ++ noticesOf turnId event.toList) := by
  rcases hclaim with ⟨hnone, rfl, hrecord⟩ | ⟨hfalse, rfl, rfl, hreplace⟩ | ⟨-, rfl, hsame⟩
  · have hrecent : t.terminalNotices.Recent turnId failed others := by
      rw [hrecord]
      exact hk.recent_record (by decide) hnone
    rw [noticesOf_self]
    cases h with
    | nothing _ =>
      cases failed with
      | false => exact .success hrecent
      | true => exact .failure hrecent
    | success h | failure h | lateFailure h => simp [h.value] at hnone
  · rw [noticesOf_self]
    cases h with
    | nothing h => simp [h] at hfalse
    | success h =>
      refine .lateFailure ?_
      rw [hreplace]
      exact h.replace_self
    | failure h | lateFailure h => simp [h.value] at hfalse
  · have hnotices : flags ++ noticesOf turnId (none : Option TerminalEvent).toList = flags := append_nil flags
    rw [hnotices]
    exact h.transfer (fun hnone => by rwa [hsame]) (fun _ hrecent => by rwa [hsame])

theorem Noticed.claim_other {other : String} (failed : Bool) (h : Noticed s turnId others flags)
    (hk : s.terminalNotices.Keyed terminalNoticeTurnHistoryMax) (hself : turnId ∉ others) (hmem : other ∈ others)
    (hfew : ∀ l : List String, l.Nodup → l ⊆ others → l.length < terminalNoticeTurnHistoryMax)
    (hclaim : (s.terminalNotices.values.lookup other = none ∧
          t.terminalNotices = s.terminalNotices.record terminalNoticeTurnHistoryMax other failed) ∨
        t.terminalNotices = s.terminalNotices.replace other true) : Noticed t turnId others flags := by
  have hne : turnId ≠ other := fun heq => hself (heq ▸ hmem)
  rcases hclaim with ⟨hnew, hrecord⟩ | hreplace
  · refine h.transfer (fun hnone => ?_) (fun flag hrecent => ?_)
    · rw [hrecord]
      exact hk.lookup_record_none (by decide) hnew hne hnone
    · rw [hrecord]
      exact hrecent.record hk (by decide) hnew (List.Subset.refl others) hmem hself hfew
  · refine h.transfer (fun hnone => ?_) (fun flag hrecent => ?_)
    · rw [hreplace]
      change (s.terminalNotices.values.insert other true).lookup turnId = none
      rw [Table.lookup_insert_eq, if_neg hne]
      exact hnone
    · rw [hreplace]
      exact hrecent.replace hne

theorem Noticed.call (h : Noticed s turnId others flags) (hk : s.terminalNotices.Keyed terminalNoticeTurnHistoryMax)
    (hself : turnId ∉ others)
    (hfew : ∀ l : List String, l.Nodup → l ⊆ others → l.length < terminalNoticeTurnHistoryMax)
    (hrelease : a ≠ .releaseTerminalNotice turnId)
    (hothers : ∀ other failed, (s.call a).2 = some (.noticed other failed) → other ≠ turnId → other ∈ others) :
    Noticed (s.call a).1 turnId others (flags ++ noticesOf turnId (s.call a).2.toList) := by
  rcases call_notices s a with ⟨claimed, failed, rfl, hclaim⟩ | ⟨released, rfl, hevent, hforget⟩ | ⟨hevent, hsame⟩
  · by_cases hne : claimed = turnId
    · subst hne
      exact h.claim hk hclaim
    · rcases hclaim with ⟨hnew, hevent, hrecord⟩ | ⟨-, -, hevent, hreplace⟩ | ⟨-, hevent, hsame⟩
      · have hmem := hothers claimed failed hevent hne
        rw [hevent, noticesOf_other hne, append_nil]
        exact h.claim_other failed hk hself hmem hfew (.inl ⟨hnew, hrecord⟩)
      · have hmem := hothers claimed true hevent hne
        rw [hevent, noticesOf_other hne, append_nil]
        exact h.claim_other true hk hself hmem hfew (.inr hreplace)
      · rw [hevent]
        change Noticed _ turnId others (flags ++ [])
        rw [append_nil]
        exact h.transfer (fun hnone => by rwa [hsame]) (fun _ hrecent => by rwa [hsame])
  · have hne : turnId ≠ released := by
      rintro rfl
      exact hrelease rfl
    change Noticed _ turnId others (flags ++ [])
    rw [append_nil]
    refine h.transfer (fun hnone => ?_) (fun flag hrecent => ?_)
    · rw [hforget]
      exact BoundedHistory.lookup_forget_none hnone
    · rw [hforget]
      exact hrecent.forget hne
  · rw [noticesOf_eq_nil hevent, append_nil]
    exact h.transfer (fun hnone => by rwa [hsame]) (fun _ hrecent => by rwa [hsame])

theorem Noticed.calls {as : List TerminalCall} (h : Noticed s turnId others flags)
    (hk : s.terminalNotices.Keyed terminalNoticeTurnHistoryMax) (hself : turnId ∉ others)
    (hfew : ∀ l : List String, l.Nodup → l ⊆ others → l.length < terminalNoticeTurnHistoryMax)
    (hrelease : .releaseTerminalNotice turnId ∉ as)
    (hothers : ∀ other failed, .noticed other failed ∈ (s.calls as).2 → other ≠ turnId → other ∈ others) :
    Noticed (s.calls as).1 turnId others (flags ++ noticesOf turnId (s.calls as).2) := by
  induction as generalizing s flags with
  | nil =>
    change Noticed s turnId others (flags ++ [])
    rw [append_nil]
    exact h
  | cons a as ih =>
    have hstep := h.call hk hself hfew (fun heq => hrelease (heq ▸ mem_cons_self)) fun other failed hevent =>
      hothers other failed (mem_append_left _ (mem_toList.mpr hevent))
    have hrest := ih hstep (call_keyed hk a) (fun hmem => hrelease (mem_cons_of_mem a hmem))
      fun other failed hmem => hothers other failed (mem_append_right _ hmem)
    have hevents : noticesOf turnId (s.calls (a :: as)).2 =
        noticesOf turnId (s.call a).2.toList ++ noticesOf turnId ((s.call a).1.calls as).2 :=
      filterMap_append
    rw [hevents, ← append_assoc]
    exact hrest

theorem lookup_after_release {done : List TerminalCall} (h : done = [] ∨ done.getLast? = some (.releaseTerminalNotice turnId)) :
    ((start : TerminalRuntime T).calls done).1.terminalNotices.values.lookup turnId = none := by
  rcases h with rfl | hlast
  · rfl
  · obtain ⟨earlier, rfl⟩ := List.getLast?_eq_some_iff.mp hlast
    rw [calls_append]
    exact BoundedHistory.lookup_forget_self

end TerminalRuntime

theorem mem_otherNotices {turnId other : String} {failed : Bool} {log : List TerminalEvent}
    (h : .noticed other failed ∈ log) (hne : other ≠ turnId) : other ∈ otherNotices turnId log := by
  rw [otherNotices, mem_dedup, mem_filterMap]
  exact ⟨_, h, if_neg hne⟩

theorem not_mem_otherNotices (turnId : String) (log : List TerminalEvent) : turnId ∉ otherNotices turnId log := by
  rw [otherNotices, mem_dedup, mem_filterMap]
  rintro ⟨event, -, hevent⟩
  cases event with
  | noticed noticed failed =>
    simp only [ite_none_left_eq_some, Option.some.injEq] at hevent
    exact hevent.1 hevent.2
  | latched | consumed => cases hevent

namespace TerminalRuntime

variable {T : Type}

/-- In every run the history has the same keys as its order, the notices of a turn between two releases are at most a
success and then a failure, and each claim of a latch answers one registration. -/
theorem terminal_notices_exclusive (done : List TerminalCall) :
    let s := ((start : TerminalRuntime T).calls done).1
    let log := ((start : TerminalRuntime T).calls done).2
    (s.terminalNotices.order.Nodup ∧
      ∀ turnId, turnId ∈ s.terminalNotices.order ↔ (s.terminalNotices.values.lookup turnId).isSome = true) ∧
    (∀ turnId during, (done = [] ∨ done.getLast? = some (.releaseTerminalNotice turnId)) →
      .releaseTerminalNotice turnId ∉ during → (otherNotices turnId (s.calls during).2).length < 256 →
      (noticesOf turnId (s.calls during).2).count false ≤ 1 ∧ (noticesOf turnId (s.calls during).2).count true ≤ 1 ∧
        (noticesOf turnId (s.calls during).2).Pairwise fun _ later => later = true) ∧
    ∀ a threadId turnId token, (s.call a).2 = some (.consumed threadId turnId token) →
      a = .claimTerminalStatusFallback threadId turnId token ∧ s.currentTurnId threadId = some turnId ∧
        LatchRegistered log threadId turnId token := by
  intro s log
  have hkeyed : s.terminalNotices.Keyed terminalNoticeTurnHistoryMax := calls_keyed BoundedHistory.keyed_empty done
  have hlogged : Logged log s := logged_start.calls done
  refine ⟨⟨hkeyed.nodup, hkeyed.mem⟩, fun turnId during hstart hrelease hothers => ?_,
    fun a threadId turnId token hevent => ?_⟩
  · have hfew : ∀ l : List String, l.Nodup → l ⊆ otherNotices turnId (s.calls during).2 →
        l.length < terminalNoticeTurnHistoryMax := by
      intro l hnodup hsubset
      exact Nat.lt_of_le_of_lt (hnodup.subperm hsubset).length_le hothers
    have hnoticed : Noticed (s.calls during).1 turnId _ ([] ++ noticesOf turnId (s.calls during).2) :=
      (Noticed.nothing (lookup_after_release hstart)).calls hkeyed (not_mem_otherNotices turnId _) hfew hrelease
        fun other failed hmem hne => mem_otherNotices hmem hne
    generalize noticesOf turnId (s.calls during).2 = flags at hnoticed ⊢
    cases hnoticed <;> simp
  · obtain ⟨hcall, hcurrent, latch, hlatch, rfl, rfl⟩ := call_consumed hevent
    exact ⟨hcall, hcurrent, hlogged.latches threadId latch hlatch⟩

theorem released_turn_notices :
    (noticesOf "turn" (((start : TerminalRuntime Unit).calls [.releaseTerminalNotice "turn"]).1.calls
      [.claimTerminalNotice "turn" false, .claimTerminalNotice "turn" true]).2).Pairwise fun _ later => later = true :=
  ((terminal_notices_exclusive [.releaseTerminalNotice "turn"]).2.1 "turn"
    [.claimTerminalNotice "turn" false, .claimTerminalNotice "turn" true] (.inr rfl) (by decide) (by decide)).2.2

end TerminalRuntime

end MochiPort

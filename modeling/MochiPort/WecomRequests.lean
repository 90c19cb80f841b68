import MochiPort.JsonValues
import MochiPort.Runs
import MochiPort.Tables

namespace MochiPort

open List

/-- A command on its way to the WebSocket task; `result` is the call whose receiver waits for it. -/
structure WecomSendCommand where
  cmd : String
  reqId : Option String
  body : JsonValue
  result : Nat
  deriving DecidableEq

def responseReqId (value : JsonValue) : Option String :=
  ((value.get "headers").bind (·.get "req_id")).bind JsonValue.asStr

def responseField (value : JsonValue) (name : String) : Option JsonValue :=
  (value.get name).or ((value.get "body").bind (·.get name))

def responseOk (value : JsonValue) : Bool := ((responseField value "errcode").bind JsonValue.asI64).getD 0 = 0

def responseError (value : JsonValue) : String :=
  ((responseField value "errmsg").bind JsonValue.asStr).getD "unknown error"

/-- What a waiting call is told about an answer. -/
def responseResult (value : JsonValue) : Except String JsonValue :=
  if responseOk value then .ok value else .error ("WeCom send failed: " ++ responseError value)

/-- How the wait of a request ends: with an answer, which is that to the command of some call, because its entry is
dropped, or after thirty seconds. -/
inductive RequestEnd where
  | replied (value : JsonValue) (answers : Nat)
  | dropped
  | timedOut
  deriving DecidableEq

def RequestEnd.result : RequestEnd → Except String JsonValue
  | .replied value _ => responseResult value
  | .dropped => .error "WeCom acknowledgement channel closed"
  | .timedOut => .error "WeCom acknowledgement timed out"

/-- A connection: the commands on the outbound channel, the waiting calls by request id, the commands that the server
has not acknowledged yet in the order in which they were sent, and the calls that have ended. -/
structure WecomSocket where
  commands : List WecomSendCommand
  pending : Table String Nat
  unacknowledged : List (String × Nat)
  calls : Nat
  ended : Table Nat RequestEnd

inductive WecomSocketStep where
  | request (cmd : String) (reqId : Option String) (body : JsonValue)
  -- the task takes a command; `freshReqId` is the id that a command without one gets
  | sendCommand (freshReqId : String)
  -- the acknowledgement of the command of a call
  | acknowledged (call : Nat) (value : JsonValue)
  | timeOut (call : Nat)

namespace WecomSocket

variable (s : WecomSocket)

def start : WecomSocket := ⟨[], ∅, [], 0, ∅⟩

def waits (call : Nat) : Bool := (s.ended.lookup call).isNone

/-- A call that still waits ends; the others are past it. -/
def finish (call : Nat) (result : RequestEnd) : Table Nat RequestEnd :=
  if s.waits call then s.ended.insert call result else s.ended

def commandReqId (command : WecomSendCommand) (freshReqId : String) : String := command.reqId.getD freshReqId

/-- The entry that an insertion replaces is dropped, and its receiver with it. -/
def insertPending (reqId : String) (call : Nat) : WecomSocket := { s with
  pending := s.pending.insert reqId call
  ended := (s.pending.lookup reqId).elim s.ended fun waiter => s.finish waiter .dropped }

def removePending (reqId : String) (value : JsonValue) (answers : Nat) : WecomSocket := { s with
  pending := s.pending.erase reqId
  ended := (s.pending.lookup reqId).elim s.ended fun waiter => s.finish waiter (.replied value answers) }

/-- The server acknowledges each command once, those of one request id in their order. A fresh request id is not one of
those in use. -/
def step : WecomSocketStep → Option WecomSocket
  | .request cmd reqId body => some { s with
      commands := s.commands ++ [⟨cmd, reqId, body, s.calls⟩]
      calls := s.calls + 1 }
  | .sendCommand freshReqId =>
    match s.commands with
    | [] => none
    | command :: commands =>
      let reqId := commandReqId command freshReqId
      if command.reqId = none ∧ reqId ∈ s.unacknowledged.map Prod.fst then none
      else some { s.insertPending reqId command.result with
        commands := commands
        unacknowledged := s.unacknowledged ++ [(reqId, command.result)] }
  | .acknowledged call value =>
    (responseReqId value).bind fun reqId =>
      if s.unacknowledged.find? (fun sent => sent.1 = reqId) = some (reqId, call) then
        some { s.removePending reqId value call with unacknowledged := s.unacknowledged.erase (reqId, call) }
      else none
  | .timeOut call =>
    if call < s.calls ∧ s.waits call then some { s with ended := s.ended.insert call .timedOut } else none

/-- Every call that has ended has the acknowledgement of its own command, or ran into its own time-out. -/
def OwnAnswers : Prop :=
  ∀ call result, s.ended.lookup call = some result → result = .timedOut ∨ ∃ value, result = .replied value call

/-- No other call waits for an acknowledgement under the request id of the command that is sent or acknowledged. -/
def Undisputed : WecomSocketStep → Prop
  | .sendCommand freshReqId =>
    ∀ command commands, s.commands = command :: commands →
      ∀ call, (commandReqId command freshReqId, call) ∈ s.unacknowledged → s.waits call = false
  | .acknowledged answered value =>
    ∀ reqId, responseReqId value = some reqId →
      ∀ call, (reqId, call) ∈ s.unacknowledged → call ≠ answered → s.waits call = false
  | .request _ _ _ | .timeOut _ => True

def openCalls : List Nat := s.commands.map (·.result) ++ s.unacknowledged.map Prod.snd

/-- What keeps the answers their own: the entry of a request id is that of the one call that waits under it. -/
structure Tracked (s : WecomSocket) : Prop where
  distinct : s.openCalls.Nodup
  below : ∀ call ∈ s.openCalls, call < s.calls
  entered : ∀ reqId call, (reqId, call) ∈ s.unacknowledged → s.waits call = true →
    s.pending.lookup reqId = some call
  awaited : ∀ reqId call, s.pending.lookup reqId = some call → s.waits call = true →
    (reqId, call) ∈ s.unacknowledged
  own : s.OwnAnswers

theorem start_tracked : start.Tracked := by
  constructor
  case distinct => exact nodup_nil
  case below =>
    intro call hcall
    cases hcall
  case entered =>
    intro reqId call hsent
    cases hsent
  case awaited =>
    intro reqId call hentry
    cases hentry
  case own =>
    intro call result hended
    cases hended

variable {s}

variable {call : Nat}

theorem waits_iff : s.waits call = true ↔ s.ended.lookup call = none := Option.isNone_iff_eq_none

theorem finish_of_ended {result : RequestEnd} (h : s.waits call = false) : s.finish call result = s.ended := by
  rw [finish, h, if_neg (by decide)]

theorem finish_of_waits {result : RequestEnd} (h : s.waits call = true) :
    s.finish call result = s.ended.insert call result := by
  rw [finish, if_pos h]

theorem Tracked.request (hs : s.Tracked) (cmd : String) (reqId : Option String) (body : JsonValue) :
    Tracked { s with commands := s.commands ++ [⟨cmd, reqId, body, s.calls⟩], calls := s.calls + 1 } := by
  have hperm : (openCalls { s with commands := s.commands ++ [⟨cmd, reqId, body, s.calls⟩], calls := s.calls + 1 }).Perm
      (s.calls :: s.openCalls) := by
    unfold openCalls
    rw [map_append, append_assoc]
    exact perm_middle
  refine ⟨?_, ?_, hs.entered, hs.awaited, hs.own⟩
  · rw [hperm.nodup_iff, nodup_cons]
    refine ⟨?_, hs.distinct⟩
    intro hmem
    exact absurd (hs.below s.calls hmem) (lt_irrefl _)
  · intro call hcall
    dsimp only
    rcases mem_cons.mp (hperm.mem_iff.mp hcall) with hnew | hold
    · omega
    · have hlt := hs.below call hold
      omega

variable {reqId : String}

theorem Tracked.send (hs : s.Tracked) {command : WecomSendCommand} {commands : List WecomSendCommand}
    (hcommands : s.commands = command :: commands)
    (hfree : ∀ call, (reqId, call) ∈ s.unacknowledged → s.waits call = false) :
    Tracked { s.insertPending reqId command.result with
      commands := commands
      unacknowledged := s.unacknowledged ++ [(reqId, command.result)] } := by
  have hended : (s.insertPending reqId command.result).ended = s.ended := by
    unfold insertPending
    cases hentry : s.pending.lookup reqId with
    | none => rfl
    | some waiter =>
      refine finish_of_ended ?_
      by_contra hwaits
      rw [Bool.not_eq_false] at hwaits
      exact absurd (hfree waiter (hs.awaited reqId waiter hentry hwaits)) (by rw [hwaits]; decide)
  have hperm : (openCalls { s.insertPending reqId command.result with
      commands := commands
      unacknowledged := s.unacknowledged ++ [(reqId, command.result)] }).Perm s.openCalls := by
    unfold openCalls
    rw [hcommands, map_append, ← append_assoc]
    exact perm_append_singleton _ _
  have hwaits : ∀ call, waits { s.insertPending reqId command.result with
      commands := commands
      unacknowledged := s.unacknowledged ++ [(reqId, command.result)] } call = s.waits call := by
    intro call
    exact congrArg (fun ended : Table Nat RequestEnd => (ended.lookup call).isNone) hended
  constructor
  case distinct => exact hperm.nodup_iff.mpr hs.distinct
  case below =>
    intro call hcall
    exact hs.below call (hperm.mem_iff.mp hcall)
  case entered =>
    intro sentId call hsent hwait
    rw [hwaits] at hwait
    have hlookup : (s.pending.insert reqId command.result).lookup sentId =
        if sentId = reqId then some command.result else s.pending.lookup sentId := Table.lookup_insert_eq _ _ _ _
    refine hlookup.trans ?_
    rcases mem_append.mp hsent with hold | hnew
    · by_cases hsame : sentId = reqId
      · rw [hsame] at hold
        have hgone := hfree call hold
        rw [hwait] at hgone
        cases hgone
      · rw [if_neg hsame]
        exact hs.entered sentId call hold hwait
    · rw [mem_singleton, Prod.mk.injEq] at hnew
      rw [if_pos hnew.1, hnew.2]
  case awaited =>
    intro sentId call hentry hwait
    rw [hwaits] at hwait
    rcases Table.of_lookup_insert hentry with ⟨hsame, hcall⟩ | ⟨_, hold⟩
    · rw [hsame, hcall]
      exact mem_append_right _ (mem_singleton_self _)
    · exact mem_append_left _ (hs.awaited sentId call hold hwait)
  case own =>
    intro call result hresult
    exact hs.own call result ((congrArg (fun ended : Table Nat RequestEnd => ended.lookup call) hended).symm.trans hresult)

theorem lookup_finish (call other : Nat) (result : RequestEnd) :
    (s.finish call result).lookup other =
      if other = call ∧ s.waits call = true then some result else s.ended.lookup other := by
  by_cases hwaits : s.waits call = true
  · rw [finish_of_waits hwaits, Table.lookup_insert_eq]
    simp only [hwaits, and_true]
  · rw [Bool.not_eq_true] at hwaits
    rw [finish_of_ended hwaits, hwaits, if_neg fun h => by cases h.2]

theorem Tracked.removePending_ended (hs : s.Tracked) (value : JsonValue) (hsent : (reqId, call) ∈ s.unacknowledged)
    (hfree : ∀ other, (reqId, other) ∈ s.unacknowledged → other ≠ call → s.waits other = false) :
    (s.removePending reqId value call).ended = s.finish call (.replied value call) := by
  unfold removePending
  cases hentry : s.pending.lookup reqId with
  | none =>
    have hgone : s.waits call = false := by
      by_contra hwaits
      rw [Bool.not_eq_false] at hwaits
      rw [hs.entered reqId call hsent hwaits] at hentry
      cases hentry
    exact (finish_of_ended hgone).symm
  | some waiter =>
    dsimp only [Option.elim_some]
    by_cases hsame : waiter = call
    · rw [hsame]
    · have hwaiter : s.waits waiter = false := by
        by_contra hwaits
        rw [Bool.not_eq_false] at hwaits
        have hgone := hfree waiter (hs.awaited reqId waiter hentry hwaits) hsame
        rw [hwaits] at hgone
        cases hgone
      have hgone : s.waits call = false := by
        by_contra hwaits
        rw [Bool.not_eq_false] at hwaits
        exact hsame (Option.some.inj (hentry.symm.trans (hs.entered reqId call hsent hwaits)))
      rw [finish_of_ended hwaiter, finish_of_ended hgone]

theorem Tracked.acknowledge (hs : s.Tracked) (value : JsonValue) (hsent : (reqId, call) ∈ s.unacknowledged)
    (hfree : ∀ other, (reqId, other) ∈ s.unacknowledged → other ≠ call → s.waits other = false) :
    Tracked { s.removePending reqId value call with unacknowledged := s.unacknowledged.erase (reqId, call) } := by
  have hended := hs.removePending_ended value hsent hfree
  have hnodup : s.unacknowledged.Nodup := List.Nodup.of_map _ (nodup_append.mp hs.distinct).2.1
  have herase : ∀ sent, sent ∈ s.unacknowledged.erase (reqId, call) ↔ sent ≠ (reqId, call) ∧ sent ∈ s.unacknowledged :=
    fun sent => hnodup.mem_erase_iff
  have hsub : (openCalls { s.removePending reqId value call with
      unacknowledged := s.unacknowledged.erase (reqId, call) }).Sublist s.openCalls :=
    (List.Sublist.refl _).append (erase_sublist.map _)
  have hlookup : ∀ other, (s.removePending reqId value call).ended.lookup other =
      if other = call ∧ s.waits call = true then some (.replied value call) else s.ended.lookup other := by
    intro other
    rw [hended]
    exact lookup_finish call other _
  have hwaits : ∀ other, waits { s.removePending reqId value call with
      unacknowledged := s.unacknowledged.erase (reqId, call) } other = true → s.waits other = true ∧ other ≠ call := by
    intro other hwait
    have hnone := (hlookup other).symm.trans (waits_iff.mp hwait)
    by_cases hsame : other = call
    · by_cases hcall : s.waits call = true
      · rw [if_pos ⟨hsame, hcall⟩] at hnone
        cases hnone
      · rw [if_neg fun h => hcall h.2, hsame] at hnone
        exact absurd (waits_iff.mpr hnone) hcall
    · rw [if_neg fun h => hsame h.1] at hnone
      exact ⟨waits_iff.mpr hnone, hsame⟩
  constructor
  case distinct => exact hs.distinct.sublist hsub
  case below =>
    intro other hother
    exact hs.below other (hsub.subset hother)
  case entered =>
    intro sentId other hother hwait
    obtain ⟨hwait, hne⟩ := hwaits other hwait
    obtain ⟨_, hold⟩ := (herase _).mp hother
    have hid : sentId ≠ reqId := by
      intro hid
      rw [hid] at hold
      have hgone := hfree other hold hne
      rw [hwait] at hgone
      cases hgone
    exact (AList.lookup_erase_ne hid).trans (hs.entered sentId other hold hwait)
  case awaited =>
    intro sentId other hentry hwait
    obtain ⟨hwait, hne⟩ := hwaits other hwait
    obtain ⟨_, hold⟩ := Table.of_lookup_erase hentry
    refine (herase _).mpr ⟨?_, hs.awaited sentId other hold hwait⟩
    intro heq
    exact hne (Prod.mk.inj heq).2
  case own =>
    intro other result hresult
    have hresult := (hlookup other).symm.trans hresult
    by_cases hown : other = call ∧ s.waits call = true
    · rw [if_pos hown] at hresult
      rw [hown.1]
      exact .inr ⟨value, (Option.some.inj hresult).symm⟩
    · rw [if_neg hown] at hresult
      exact hs.own other result hresult

theorem Tracked.timeOut (hs : s.Tracked) (call : Nat) : Tracked { s with ended := s.ended.insert call .timedOut } := by
  have hwaits : ∀ other, waits { s with ended := s.ended.insert call .timedOut } other = true →
      s.waits other = true := by
    intro other hwait
    have hnone := waits_iff.mp hwait
    rw [Table.lookup_insert_eq] at hnone
    split at hnone
    next => cases hnone
    next => exact waits_iff.mpr hnone
  refine ⟨hs.distinct, hs.below, ?_, ?_, ?_⟩
  · intro reqId other hsent hwait
    exact hs.entered reqId other hsent (hwaits other hwait)
  · intro reqId other hentry hwait
    exact hs.awaited reqId other hentry (hwaits other hwait)
  · intro other result hresult
    rcases Table.of_lookup_insert hresult with ⟨_, hresult⟩ | ⟨_, hold⟩
    · exact .inl hresult
    · exact hs.own other result hold

variable {a : WecomSocketStep} {t : WecomSocket}

theorem step_cases (h : s.step a = some t) :
    (∃ cmd reqId body, a = .request cmd reqId body ∧
      t = { s with commands := s.commands ++ [⟨cmd, reqId, body, s.calls⟩], calls := s.calls + 1 }) ∨
    (∃ freshReqId command commands, a = .sendCommand freshReqId ∧ s.commands = command :: commands ∧
      t = { s.insertPending (commandReqId command freshReqId) command.result with
        commands := commands
        unacknowledged := s.unacknowledged ++ [(commandReqId command freshReqId, command.result)] }) ∨
    (∃ call value reqId, a = .acknowledged call value ∧ responseReqId value = some reqId ∧
      (reqId, call) ∈ s.unacknowledged ∧
      t = { s.removePending reqId value call with unacknowledged := s.unacknowledged.erase (reqId, call) }) ∨
    (∃ call, a = .timeOut call ∧ t = { s with ended := s.ended.insert call .timedOut }) := by
  cases a with
  | request cmd reqId body => exact .inl ⟨cmd, reqId, body, rfl, (Option.some.inj h).symm⟩
  | sendCommand freshReqId =>
    simp only [step] at h
    split at h
    next => cases h
    next command commands hcommands =>
      split at h
      next => cases h
      next => exact .inr (.inl ⟨freshReqId, command, commands, rfl, hcommands, (Option.some.inj h).symm⟩)
  | acknowledged call value =>
    obtain ⟨reqId, hreqId, h⟩ := Option.bind_eq_some_iff.mp h
    split at h
    next hfirst =>
      exact .inr (.inr (.inl ⟨call, value, reqId, rfl, hreqId, mem_of_find?_eq_some hfirst,
        (Option.some.inj h).symm⟩))
    next => cases h
  | timeOut call =>
    simp only [step] at h
    split at h
    next => exact .inr (.inr (.inr ⟨call, rfl, (Option.some.inj h).symm⟩))
    next => cases h

theorem step_tracked (hs : s.Tracked) (hguard : s.Undisputed a) (h : s.step a = some t) : t.Tracked := by
  rcases step_cases h with ⟨cmd, reqId, body, rfl, rfl⟩ | ⟨freshReqId, command, commands, rfl, hcommands, rfl⟩ |
    ⟨call, value, reqId, rfl, hreqId, hsent, rfl⟩ | ⟨call, rfl, rfl⟩
  · exact hs.request cmd reqId body
  · exact hs.send hcommands (hguard command commands hcommands)
  · exact hs.acknowledge value hsent (hguard reqId hreqId)
  · exact hs.timeOut call

theorem undisputed_of_own (hs : s.Tracked) (h : s.step a = some t) (hown : t.OwnAnswers) : s.Undisputed a := by
  rcases step_cases h with ⟨cmd, reqId, body, rfl, rfl⟩ | ⟨freshReqId, command, commands, rfl, hcommands, rfl⟩ |
    ⟨answered, value, reqId, rfl, hreqId, hsent, rfl⟩ | ⟨call, rfl, rfl⟩
  · trivial
  · intro other others hothers call hcall
    obtain ⟨rfl, rfl⟩ := List.cons.inj (hcommands.symm.trans hothers)
    by_contra hwaits
    rw [Bool.not_eq_false] at hwaits
    have hended : (s.insertPending (commandReqId command freshReqId) command.result).ended =
        s.ended.insert call .dropped := by
      unfold insertPending
      rw [hs.entered _ call hcall hwaits, Option.elim_some, finish_of_waits hwaits]
    have hlookup : (s.insertPending (commandReqId command freshReqId) command.result).ended.lookup call =
        some .dropped := by
      rw [hended]
      exact AList.lookup_insert _
    rcases hown call .dropped hlookup with hbad | ⟨_, hbad⟩
    · cases hbad
    · cases hbad
  · intro otherId hotherId call hcall hne
    have hid := Option.some.inj (hreqId.symm.trans hotherId)
    rw [← hid] at hcall
    by_contra hwaits
    rw [Bool.not_eq_false] at hwaits
    have hended : (s.removePending reqId value answered).ended = s.ended.insert call (.replied value answered) := by
      unfold removePending
      rw [hs.entered reqId call hcall hwaits, Option.elim_some, finish_of_waits hwaits]
    have hlookup : (s.removePending reqId value answered).ended.lookup call = some (.replied value answered) := by
      rw [hended]
      exact AList.lookup_insert _
    rcases hown call _ hlookup with hbad | ⟨_, hbad⟩
    · cases hbad
    · have hsame := (RequestEnd.replied.inj hbad).2
      exact hne hsame.symm
  · trivial

/-- The calls of a run end with their own acknowledgements or time-outs if and only if nobody else waits under the
request id of a command when it is sent or acknowledged. -/
theorem own_acknowledgements_iff {t : WecomSocket} {steps : List WecomSocketStep}
    (hrun : Runs.run step start steps = some t) :
    (∀ done rest reached, steps = done ++ rest → Runs.run step start done = some reached → reached.OwnAnswers) ↔
      Runs.Meets step Undisputed start steps := by
  refine Runs.forall_prefix_iff_meets Tracked ?_ ?_ ?_ start_tracked hrun
  · intro s hs
    exact hs.own
  · intro s a t hs hguard h
    exact step_tracked hs hguard h
  · intro s a t hs h hown
    exact undisputed_of_own hs h hown

/-- Two updates of the stream of one callback, the second one sent before the first is acknowledged. -/
def twoUpdates : List WecomSocketStep :=
  [.request "aibot_respond_msg" (some "callback") .null, .request "aibot_respond_msg" (some "callback") .null,
    .sendCommand "", .sendCommand ""]

theorem own_acknowledgements_iff_twoUpdates :
    (∀ done rest reached, twoUpdates = done ++ rest → Runs.run step start done = some reached →
      reached.OwnAnswers) ↔ Runs.Meets step Undisputed start twoUpdates := by
  have hsome : (Runs.run step start twoUpdates).isSome := by decide +kernel
  obtain ⟨t, hrun⟩ := Option.isSome_iff_exists.mp hsome
  exact own_acknowledgements_iff hrun

/-- The first call fails although its command was sent and the server may acknowledge it. -/
theorem replaced_entry_dropped :
    ¬∀ (steps : List WecomSocketStep) (t : WecomSocket), Runs.run step start steps = some t → t.OwnAnswers := by
  intro h
  have hlookup : (Runs.run step start twoUpdates).bind (fun t => t.ended.lookup 0) = some .dropped := by
    decide +kernel
  obtain ⟨t, hrun, hdropped⟩ := Option.bind_eq_some_iff.mp hlookup
  rcases h twoUpdates t hrun 0 .dropped hdropped with hbad | ⟨_, hbad⟩
  · cases hbad
  · cases hbad

end WecomSocket

end MochiPort

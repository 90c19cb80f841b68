import MochiPort.Attendance
import MochiPort.SingleInitialize

/-! The recovery tasks of the clients that an app server has reported as unknown. -/

namespace MochiPort

open Attendance

structure RecoveryFields where
  recoveryAttempt : Nat
  recoveryStartedAtMs : Option Nat
  deriving DecidableEq

/-- How far a recovery has come, from the moment at which its flag is set. It is `starting` until the task is spawned;
`reset` lies between the two locks of `reset_remote_control_client_for_key`, and `resubscribing` behind the end of the
recovery proper. -/
inductive RecoveryStage where
  | starting
  | resetting
  | reset (clientKey : String)
  | admitted (clientKey : String) (initializeId : Nat)
  | sending (clientKey : String) (initializeId : Nat)
  | waiting
  | initialized
  | reconnecting (reason : String)
  | resubscribing
  | ended
  deriving DecidableEq

namespace RecoveryStage

def running (stage : RecoveryStage) : Bool := stage ≠ .ended

def recovering (stage : RecoveryStage) : Bool := stage ≠ .resubscribing && stage ≠ .ended

end RecoveryStage

structure RecoveryTask where
  connectionEpoch : Nat
  clientKey : String
  stage : RecoveryStage
  deriving DecidableEq

/-- The remote state, with the recovery fields of the clients and the tasks at work on it. `closes`
are the Close messages that were put on the outbound channels, and `ended` the connections whose websocket tasks are
over. -/
structure RecoverySystem where
  remote : PendingRemote
  recovery : Nat × String → RecoveryFields
  tasks : List RecoveryTask
  closes : List (Nat × String)
  ended : List Nat
  nextConnectionEpoch : Nat
  nextRequestId : Nat

inductive RecoveryStep where
  | startRecovery (connectionEpoch : Nat) (clientKey clientId streamId uuidLike : String) (nowMs : Nat)
  | spawn (task : Nat)
  -- the call is dropped with the work queue of its connection
  | abandon (task : Nat)
  | reset (task : Nat) (uuidLike : String)
  | tryAdmit (task : Nat) (draining : Bool)
  | enterInitialize (task : Nat) (uuidLike : String) (buildOk : Bool)
  | sendInitialize (task : Nat)
  | waitReady (task : Nat)
  | waitFailed (task : Nat) (timedOut : Bool)
  | finish (task : Nat)
  | forceReconnect (task : Nat)
  | resubscribed (task : Nat)
  | initializeResult (connectionEpoch : Nat) (clientKey userAgent : Option String) (clientId streamId : String)
  | initializedNotification (connectionEpoch : Nat) (clientKey : String)
  -- whatever else enters a client or writes its other fields
  | writeClient (connectionEpoch : Nat) (clientKey : String) (client : PendingClient)
  | connect (sourceKind : RemoteControlSourceKind) (uuidLike : String)
  | socketEnds (connectionEpoch : Nat)
  | cleanupConnection (connectionEpoch : Nat)

def clientAt (remote : PendingRemote) (client : Nat × String) : Option PendingClient :=
  (connectionForEpochLocked remote client.1).bind (·.clients.lookup client.2)

def outboundTxForConnectionEpochLocked (remote : PendingRemote) (connectionEpoch : Nat) : Bool :=
  (connectionForEpochLocked remote connectionEpoch).any fun connection => connection.connected && connection.outboundTx

namespace RecoverySystem

variable (s : RecoverySystem)

def start : RecoverySystem := ⟨⟨∅⟩, fun _ => ⟨0, none⟩, [], [], [], 0, 0⟩

/-- A client that is not there would be entered without a recovery. -/
def fieldsAt (client : Nat × String) : RecoveryFields :=
  if (clientAt s.remote client).isSome then s.recovery client else ⟨0, none⟩

/-- The remote state with whichever clients entered; none of them changes its key. -/
def setRemote (remote : PendingRemote) : RecoverySystem := { s with remote := remote, recovery := s.fieldsAt }

def setFields (client : Nat × String) (fields : RecoveryFields) : RecoverySystem :=
  { s with recovery := Function.update s.recovery client fields }

def moveTo (task : Nat) (stage : RecoveryStage) : RecoverySystem :=
  { s with tasks := s.tasks.modify task fun task => { task with stage := stage } }

/-- The flag of the client that `client_state_mut_for_connection_locked` finds is cleared. -/
def clearRecovery (connectionEpoch : Nat) (clientKey : String) : RecoverySystem :=
  match connectionForEpochLocked s.remote connectionEpoch with
  | none => s
  | some connection =>
    let client := (connectionEpoch, clientKeyOnConnection connection clientKey)
    s.setFields client { s.recovery client with recoveryStartedAtMs := none }

/-- Whether `start_remote_control_client_recovery` sets the flag and spawns a task. -/
def mayStart (connectionEpoch : Nat) (clientKey clientId streamId uuidLike : String) : Bool :=
  (connectionForEpochLocked s.remote connectionEpoch).any fun connection =>
    let ensured := ensureClientState connection
      (resolveRemoteClientKeyForConnectionLocked s.remote connectionEpoch clientKey) uuidLike
    connection.connected && ensured.2.clientId = clientId && ensured.2.streamId = streamId &&
      (s.fieldsAt (connectionEpoch, ensured.1)).recoveryStartedAtMs.isNone

def startRecovery (connectionEpoch : Nat) (clientKey clientId streamId uuidLike : String) (nowMs : Nat) :
    RecoverySystem :=
  match connectionForEpochLocked s.remote connectionEpoch with
  | none => s
  | some connection =>
    if !connection.connected then s
    else
      let resolved := resolveRemoteClientKeyForConnectionLocked s.remote connectionEpoch clientKey
      let ensured := ensureClientState connection resolved uuidLike
      if s.mayStart connectionEpoch clientKey clientId streamId uuidLike then
        let s := s.setRemote (startRemoteControlClientRecovery s.remote connectionEpoch clientKey uuidLike)
        let attempt := min ((s.recovery (connectionEpoch, ensured.1)).recoveryAttempt + 1) u64Max
        { s.setFields (connectionEpoch, ensured.1) ⟨attempt, some nowMs⟩ with
          tasks := s.tasks ++ [⟨connectionEpoch, resolved, .starting⟩] }
      else s.setRemote (setConnection s.remote connectionEpoch (setClient connection ensured.1 ensured.2))

/-- Whether the answer of a client's `initialize` moves the client to the key of its source. -/
def migrates (connection : PendingConnection) (oldClientKey : String) (newSourceKind : RemoteControlSourceKind)
    (clientId streamId : String) : Bool :=
  newSourceKind ≠ .unknown && isLegacyDefaultClientKey oldClientKey &&
    oldClientKey ≠ sourceDefaultClientKey newSourceKind &&
    (connection.clients.lookup (sourceDefaultClientKey newSourceKind)).isNone &&
    (connection.clients.lookup oldClientKey).any fun client => client.clientId = clientId && client.streamId = streamId

def migrateSourceDefaultClientKey (connectionEpoch : Nat) (oldClientKey : String)
    (newSourceKind : RemoteControlSourceKind) (clientId streamId : String) : RecoverySystem :=
  let migrated := migrateSourceDefaultClientKeyLocked s.remote connectionEpoch oldClientKey newSourceKind
    clientId streamId
  let oldClientKey := normalizeRemoteClientKey oldClientKey
  if migrated.2 = oldClientKey then { s with remote := migrated.1 }
  else { s.setFields (connectionEpoch, migrated.2) (s.recovery (connectionEpoch, oldClientKey)) with remote := migrated.1 }

def handleInitializeResult (connectionEpoch : Nat) (clientKey userAgent : Option String)
    (clientId streamId : String) : RecoverySystem :=
  let recorded := recordSourceKind s.remote connectionEpoch userAgent
  match clientKey with
  | none => { s with remote := recorded.1 }
  | some clientKey =>
    let migrated := migrateSourceDefaultClientKeyLocked recorded.1 connectionEpoch clientKey recorded.2
      clientId streamId
    let s := migrateSourceDefaultClientKey { s with remote := recorded.1 } connectionEpoch clientKey recorded.2
      clientId streamId
    { s.clearRecovery connectionEpoch migrated.2 with
      remote := markInitialized s.remote connectionEpoch migrated.2 }

def step (s : RecoverySystem) : RecoveryStep → Option RecoverySystem
  | .startRecovery connectionEpoch clientKey clientId streamId uuidLike nowMs =>
    some (s.startRecovery connectionEpoch clientKey clientId streamId uuidLike nowMs)
  | .spawn i =>
    (s.tasks[i]?).bind fun task => if task.stage = .starting then some (s.moveTo i .resetting) else none
  | .abandon i =>
    (s.tasks[i]?).bind fun task =>
      if task.stage = .starting ∧ task.connectionEpoch ∈ s.ended then some (s.moveTo i .ended) else none
  | .reset i uuidLike =>
    (s.tasks[i]?).bind fun task =>
      if task.stage = .resetting then
        if connectionExistsLocked s.remote task.connectionEpoch then
          let clientKey := resolveRemoteClientKeyForConnectionLocked s.remote task.connectionEpoch task.clientKey
          let remote := (resetRemoteControlClientForKey s.remote task.connectionEpoch task.clientKey uuidLike).1
          some ((s.setRemote remote).moveTo i (.reset clientKey))
        else some (s.moveTo i .waiting)
      else none
  | .tryAdmit i draining =>
    (s.tasks[i]?).bind fun task =>
      match task.stage with
      | .reset clientKey =>
        if draining then some (s.moveTo i .ended)
        else some { s.moveTo i (.admitted clientKey s.nextRequestId) with nextRequestId := s.nextRequestId + 1 }
      | _ => none
  | .enterInitialize i uuidLike buildOk =>
    (s.tasks[i]?).bind fun task =>
      match task.stage with
      | .admitted clientKey initializeId =>
        let remote := sendInitializeLocked s.remote task.connectionEpoch clientKey uuidLike initializeId buildOk
        let entered := (connectionForEpochLocked s.remote task.connectionEpoch).isSome && buildOk
        some ((s.setRemote remote).moveTo i (if entered then .sending clientKey initializeId else .ended))
      | _ => none
  | .sendInitialize i =>
    (s.tasks[i]?).bind fun task =>
      match task.stage with
      | .sending clientKey initializeId =>
        if outboundTxForConnectionEpochLocked s.remote task.connectionEpoch ∧ task.connectionEpoch ∉ s.ended then
          some (s.moveTo i .waiting)
        else
          let remote := removePending s.remote task.connectionEpoch clientKey (toString initializeId)
          some ((s.setRemote remote).moveTo i .ended)
      | _ => none
  | .waitReady i =>
    (s.tasks[i]?).bind fun task =>
      let clientKey := resolveRemoteClientKeyForConnectionLocked s.remote task.connectionEpoch task.clientKey
      if task.stage = .waiting ∧ outboundTxForConnectionEpochLocked s.remote task.connectionEpoch ∧
          (clientStateForConnectionLocked s.remote task.connectionEpoch clientKey).any (·.initialized) then
        some (s.moveTo i .initialized)
      else none
  | .waitFailed i timedOut =>
    (s.tasks[i]?).bind fun task =>
      if task.stage = .waiting then
        some (s.moveTo i (.reconnecting
          (if timedOut then "same-stream initialize timed out" else "same-stream initialize failed")))
      else none
  | .finish i =>
    (s.tasks[i]?).bind fun task =>
      if task.stage = .initialized then
        let clientKey := resolveRemoteClientKeyForConnectionLocked s.remote task.connectionEpoch task.clientKey
        if connectionExistsLocked s.remote task.connectionEpoch ∧
            (clientStateForConnectionLocked s.remote task.connectionEpoch clientKey).isSome then
          some ((s.clearRecovery task.connectionEpoch clientKey).moveTo i .resubscribing)
        else some (s.moveTo i .ended)
      else none
  | .forceReconnect i =>
    (s.tasks[i]?).bind fun task =>
      match task.stage with
      | .reconnecting reason =>
        if outboundTxForConnectionEpochLocked s.remote task.connectionEpoch ∧ task.connectionEpoch ∉ s.ended then
          some { s.moveTo i .ended with closes := s.closes ++ [(task.connectionEpoch, reason)] }
        else some (s.moveTo i .ended)
      | _ => none
  | .resubscribed i =>
    (s.tasks[i]?).bind fun task => if task.stage = .resubscribing then some (s.moveTo i .ended) else none
  | .initializeResult connectionEpoch clientKey userAgent clientId streamId =>
    some (s.handleInitializeResult connectionEpoch clientKey userAgent clientId streamId)
  | .initializedNotification connectionEpoch clientKey =>
    some { s.clearRecovery connectionEpoch clientKey with remote := markInitialized s.remote connectionEpoch clientKey }
  | .writeClient connectionEpoch clientKey client =>
    (connectionForEpochLocked s.remote connectionEpoch).bind fun connection =>
      some (s.setRemote (setConnection s.remote connectionEpoch
        (setClient connection (clientKeyOnConnection connection clientKey) client)))
  | .connect sourceKind uuidLike =>
    let connectionEpoch := s.nextConnectionEpoch + 1
    let remote := setConnection s.remote connectionEpoch (openConnection sourceKind uuidLike)
    some { s.setRemote (pruneInactiveRemoteConnectionsLocked remote) with nextConnectionEpoch := connectionEpoch }
  | .socketEnds connectionEpoch => some { s with ended := s.ended ++ [connectionEpoch] }
  | .cleanupConnection connectionEpoch =>
    some (s.setRemote (pruneInactiveRemoteConnectionsLocked ⟨s.remote.connections.erase connectionEpoch⟩))

/-- The connection is open, and its websocket tasks run. -/
def Live (connectionEpoch : Nat) : Prop :=
  connectionExistsLocked s.remote connectionEpoch = true ∧ connectionEpoch ∉ s.ended

/-- The client belongs to a live connection and has the recovery flag set. -/
def Recovering (client : Nat × String) : Prop :=
  s.Live client.1 ∧ (clientAt s.remote client).isSome = true ∧ (s.recovery client).recoveryStartedAtMs.isSome = true

def CloseQueued (client : Nat × String) : Prop := ∃ close ∈ s.closes, close.1 = client.1

/-- A task is about the client that its key stands for now. -/
def About (task : RecoveryTask) (client : Nat × String) : Prop :=
  task.connectionEpoch = client.1 ∧ connectionExistsLocked s.remote client.1 = true ∧
    resolveRemoteClientKeyForConnectionLocked s.remote client.1 task.clientKey = client.2

def Recovers (i : Nat) (client : Nat × String) : Prop :=
  ∃ task, s.tasks[i]? = some task ∧ task.stage.recovering = true ∧ s.About task client

def RunsFor (i : Nat) (client : Nat × String) : Prop :=
  ∃ task, s.tasks[i]? = some task ∧ task.stage.running = true ∧ s.About task client

/-- A client whose flag is set is being recovered, or its connection is about to be closed; and no client has two tasks. -/
structure Sound : Prop where
  neverStuck : Attended s.Recovering s.CloseQueued s.Recovers
  single : Exclusive s.RunsFor

/-- Nothing is left to be recovered if a task gives up. -/
def Dispensable (i : Nat) : Prop :=
  ∀ client, s.RunsFor i client → s.Recovering client → s.CloseQueued client

/-- What has to be so for the recoveries to stay sound: none is started while a task of an earlier one runs for the
client; a task fails to send its `initialize` only if it is dispensable; and no other client takes the place of a
default client that is recovering. -/
def Recoverable : RecoveryStep → Prop
  | .startRecovery connectionEpoch clientKey clientId streamId uuidLike _ =>
    s.mayStart connectionEpoch clientKey clientId streamId uuidLike = true → ∀ i,
      ¬s.RunsFor i (connectionEpoch, resolveRemoteClientKeyForConnectionLocked s.remote connectionEpoch clientKey)
  | .tryAdmit i draining => draining = true → s.Dispensable i
  | .enterInitialize i _ buildOk => buildOk = false → s.Dispensable i
  | .initializeResult connectionEpoch clientKey userAgent clientId streamId =>
    ∀ oldClientKey connection, clientKey.map normalizeRemoteClientKey = some oldClientKey →
      connectionForEpochLocked s.remote connectionEpoch = some connection →
      oldClientKey ≠ connection.defaultClientKey →
      migrates connection oldClientKey (recordSourceKind s.remote connectionEpoch userAgent).2 clientId streamId = true →
      s.Recovering (connectionEpoch, connection.defaultClientKey) →
      s.CloseQueued (connectionEpoch, connection.defaultClientKey)
  | _ => True

end RecoverySystem

end MochiPort

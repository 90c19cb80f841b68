import MochiPort.PendingRequests

/-! The calls that initialize a client of a connection, or reset it first. -/

namespace MochiPort

/-- The keys of the `initialize` requests that are pending for a client. -/
def pendingInitializes (remote : PendingRemote) (connectionEpoch : Nat) (clientKey : String) : List String :=
  match (connectionForEpochLocked remote connectionEpoch).bind (·.clients.lookup clientKey) with
  | none => []
  | some client => (client.pending.entries.filter fun entry => entry.2.method = "initialize").map Sigma.fst

/-- How far a call has come. From `due` on it has found no `initialize` request pending, or has taken what was
pending, and `since` names those that have come since. -/
inductive InitializeStage where
  | idle
  | resolved (connectionEpoch : Nat) (clientKey : String)
  | due (connectionEpoch : Nat) (clientKey : String) (since : List String)
  | admitted (connectionEpoch : Nat) (clientKey : String) (since : List String)
  | numbered (connectionEpoch : Nat) (clientKey : String) (since : List String) (initializeId : Nat)
  | sending (connectionEpoch : Nat) (clientKey : String) (initializeId : Nat)
  | ended
  deriving DecidableEq

structure InitializeWindow where
  connectionEpoch : Nat
  clientKey : String
  since : List String

namespace InitializeStage

def window : InitializeStage → Option InitializeWindow
  | .due connectionEpoch clientKey since => some ⟨connectionEpoch, clientKey, since⟩
  | .admitted connectionEpoch clientKey since => some ⟨connectionEpoch, clientKey, since⟩
  | .numbered connectionEpoch clientKey since _ => some ⟨connectionEpoch, clientKey, since⟩
  | _ => none

def noting (newcomers : Nat → String → List String) : InitializeStage → InitializeStage
  | .due connectionEpoch clientKey since =>
    .due connectionEpoch clientKey (since ++ newcomers connectionEpoch clientKey)
  | .admitted connectionEpoch clientKey since =>
    .admitted connectionEpoch clientKey (since ++ newcomers connectionEpoch clientKey)
  | .numbered connectionEpoch clientKey since initializeId =>
    .numbered connectionEpoch clientKey (since ++ newcomers connectionEpoch clientKey) initializeId
  | stage => stage

end InitializeStage

structure InitializeSystem where
  remote : PendingRemote
  nextConnectionEpoch : Nat
  nextRequestId : Nat
  stage : Nat → InitializeStage

inductive InitializeStep where
  | resolve (call connectionEpoch : Nat) (clientKey : String)
  | check (call : Nat) (uuidLike : String)
  | reset (call connectionEpoch : Nat) (clientKey uuidLike : String)
  | tryAdmit (call : Nat) (draining : Bool)
  | takeRequestId (call : Nat)
  | insert (call : Nat) (uuidLike : String) (buildOk : Bool)
  | sent (call : Nat)
  | sendFailed (call : Nat)
  | cancel (call : Nat)
  | takeResponse (connectionEpoch : Nat) (clientKey requestKey : String)
  | initializeResult (connectionEpoch : Nat) (clientKey userAgent : Option String) (clientId streamId : String)
  | initializedNotification (connectionEpoch : Nat) (clientKey : String)
  | startRecovery (connectionEpoch : Nat) (clientKey uuidLike : String)
  | connect (sourceKind : RemoteControlSourceKind) (uuidLike : String)
  | cleanupConnection (connectionEpoch : Nat)

/-- The check of `ensure_remote_control_client_initialized`: the client as it is afterwards, and whether it is to be
initialized. -/
def checkInitialize (remote : PendingRemote) (connectionEpoch : Nat) (clientKey uuidLike : String) :
    PendingRemote × Bool :=
  match connectionForEpochLocked remote connectionEpoch with
  | none => (remote, false)
  | some connection =>
    if !connection.connected then (remote, false)
    else
      let client := (ensureClientState connection clientKey uuidLike).2
      let write client := setConnection remote connectionEpoch
        (setClient connection (clientKeyOnConnection connection clientKey) client)
      let clientInitializing := client.pending.entries.any fun entry =>
        entry.2.method = "initialize" && entry.2.connectionEpoch = connectionEpoch
      if clientInitializing || client.initialized then (write client, false)
      else (write { client with lastAppPongStatus := none }, true)

namespace InitializeSystem

def start : InitializeSystem := ⟨⟨∅⟩, 0, 0, fun _ => .idle⟩

def moveTo (s : InitializeSystem) (call : Nat) (next : InitializeStage) : InitializeSystem :=
  { s with stage := Function.update s.stage call next }

def newcomers (s : InitializeSystem) (remote : PendingRemote) (connectionEpoch : Nat) (clientKey : String) :
    List String :=
  (pendingInitializes remote connectionEpoch clientKey).filter
    (· ∉ pendingInitializes s.remote connectionEpoch clientKey)

def setRemote (s : InitializeSystem) (remote : PendingRemote) : InitializeSystem :=
  { s with remote := remote, stage := fun call => (s.stage call).noting (s.newcomers remote) }

def step (s : InitializeSystem) : InitializeStep → Option InitializeSystem
  | .resolve call connectionEpoch clientKey =>
    -- a caller has the epoch from a connection that has been opened
    if s.stage call = .idle ∧ connectionEpoch ≤ s.nextConnectionEpoch then
      some (s.moveTo call (.resolved connectionEpoch
        (resolveRemoteClientKeyForConnectionLocked s.remote connectionEpoch clientKey)))
    else none
  | .check call uuidLike =>
    match s.stage call with
    | .resolved connectionEpoch clientKey =>
      let (remote, shouldInitialize) := checkInitialize s.remote connectionEpoch clientKey uuidLike
      some ((s.setRemote remote).moveTo call
        (if shouldInitialize then .due connectionEpoch clientKey [] else .ended))
    | _ => none
  | .reset call connectionEpoch clientKey uuidLike =>
    if s.stage call = .idle then
      let resolved := resolveRemoteClientKeyForConnectionLocked s.remote connectionEpoch clientKey
      let remote := (resetRemoteControlClientForKey s.remote connectionEpoch clientKey uuidLike).1
      some ((s.setRemote remote).moveTo call
        (if connectionExistsLocked s.remote connectionEpoch then .due connectionEpoch resolved [] else .ended))
    else none
  | .tryAdmit call draining =>
    match s.stage call with
    | .due connectionEpoch clientKey since =>
      some (s.moveTo call (if draining then .ended else .admitted connectionEpoch clientKey since))
    | _ => none
  | .takeRequestId call =>
    match s.stage call with
    | .admitted connectionEpoch clientKey since =>
      some ({ s with nextRequestId := s.nextRequestId + 1 }.moveTo call
        (.numbered connectionEpoch clientKey since s.nextRequestId))
    | _ => none
  | .insert call uuidLike buildOk =>
    match s.stage call with
    | .numbered connectionEpoch clientKey _ initializeId =>
      let remote := sendInitializeLocked s.remote connectionEpoch clientKey uuidLike initializeId buildOk
      let entered := (connectionForEpochLocked s.remote connectionEpoch).isSome && buildOk
      some ((s.setRemote remote).moveTo call
        (if entered then .sending connectionEpoch clientKey initializeId else .ended))
    | _ => none
  | .sent call =>
    match s.stage call with
    | .sending _ _ _ => some (s.moveTo call .ended)
    | _ => none
  | .sendFailed call =>
    match s.stage call with
    | .sending connectionEpoch clientKey initializeId =>
      let remote := removePending s.remote connectionEpoch clientKey (toString initializeId)
      some ((s.setRemote remote).moveTo call .ended)
    | _ => none
  | .cancel call => some (s.moveTo call .ended)
  | .takeResponse connectionEpoch clientKey requestKey =>
    some (s.setRemote (removePending s.remote connectionEpoch clientKey requestKey))
  | .initializeResult connectionEpoch clientKey userAgent clientId streamId =>
    some (s.setRemote (handleInitializeResult s.remote connectionEpoch clientKey userAgent clientId streamId))
  | .initializedNotification connectionEpoch clientKey =>
    some (s.setRemote (markInitialized s.remote connectionEpoch clientKey))
  | .startRecovery connectionEpoch clientKey uuidLike =>
    some (s.setRemote (startRemoteControlClientRecovery s.remote connectionEpoch clientKey uuidLike))
  | .connect sourceKind uuidLike =>
    let connectionEpoch := s.nextConnectionEpoch + 1
    let remote := setConnection s.remote connectionEpoch (openConnection sourceKind uuidLike)
    some { s.setRemote (pruneInactiveRemoteConnectionsLocked remote) with nextConnectionEpoch := connectionEpoch }
  | .cleanupConnection connectionEpoch =>
    some (s.setRemote (pruneInactiveRemoteConnectionsLocked ⟨s.remote.connections.erase connectionEpoch⟩))

/-- An `initialize` request is entered when none is pending that has come since the call looked. -/
def Undisturbed (s : InitializeSystem) : InitializeStep → Prop
  | .insert call _ buildOk => buildOk = true → ∀ window ∈ (s.stage call).window, ∀ requestKey ∈ window.since,
      requestKey ∉ pendingInitializes s.remote window.connectionEpoch window.clientKey
  | _ => True

instance (s : InitializeSystem) (a : InitializeStep) : Decidable (s.Undisturbed a) := by
  cases a <;> unfold Undisturbed <;> infer_instance

end InitializeSystem

end MochiPort

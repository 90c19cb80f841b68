import MochiPort.PendingEntries
import MochiPort.Runs

namespace MochiPort

structure RegisteredRequest where
  connectionEpoch : Nat
  requestId : Nat
  clientKey : String
  deriving DecidableEq

/-- How far a call of `request_once_with_timeout_for_client_inner` has come. `removing` lies between a
failed send or a timeout and the lock under which the entry is taken out. -/
inductive RequestStage where
  | idle
  | admitted
  | ready (requestId : Nat) (clientKey : String)
  | sending (request : RegisteredRequest)
  | waiting (request : RegisteredRequest)
  | removing (request : RegisteredRequest)
  | ended (requestId : Option Nat)
  deriving DecidableEq

namespace RequestStage

def registered : RequestStage → Option RegisteredRequest
  | .sending request | .waiting request | .removing request => some request
  | _ => none

def requestId : RequestStage → Option Nat
  | .ready requestId _ => some requestId
  | .sending request | .waiting request | .removing request => some request.requestId
  | .ended requestId => requestId
  | _ => none

end RequestStage

/-- The remote state and the calls at work on it. `issued` names, for each request id, the call that
took it; `delivering` holds what was taken out of a client to be answered and dropped. -/
structure RequestSystem where
  remote : PendingRemote
  nextConnectionEpoch : Nat
  issued : List (Option Nat)
  delivering : List PendingRemoteRequest
  stage : Nat → RequestStage

inductive RequestStep where
  | tryAdmit (call : Nat) (draining : Bool)
  | takeRequestId (call : Nat) (clientKey : String)
  | giveUp (call : Nat)
  -- `stale` and `buildOk` tell what the staleness check and the segmentation of the message say
  | register (call connectionEpoch : Nat) (method uuidLike : String) (stale buildOk : Bool)
  | sent (call : Nat)
  | sendFailed (call : Nat)
  | timeOut (call : Nat)
  | removeEntry (call : Nat)
  | finish (call : Nat)
  | cancel (call : Nat)
  | sendInitialize (connectionEpoch : Nat) (clientKey uuidLike : String) (buildOk : Bool)
  | initializeSendFailed (connectionEpoch : Nat) (clientKey : String) (requestId : Nat)
  | takeResponse (connectionEpoch : Nat) (clientKey requestKey : String)
  | initializeResult (connectionEpoch : Nat) (clientKey userAgent : Option String) (clientId streamId : String)
  | initializedNotification (connectionEpoch : Nat) (clientKey : String)
  | deliver (position : Nat)
  | resetClient (connectionEpoch : Nat) (clientKey uuidLike : String)
  | startRecovery (connectionEpoch : Nat) (clientKey uuidLike : String)
  | connect (sourceKind : RemoteControlSourceKind) (uuidLike : String)
  | cleanupConnection (connectionEpoch : Nat)

/-- The critical section that numbers a request and enters it, and whether it succeeds. -/
def registerRequest (remote : PendingRemote) (request : RegisteredRequest) (call : Nat)
    (method uuidLike : String) (stale buildOk : Bool) : PendingRemote × Bool :=
  match connectionForEpochLocked remote request.connectionEpoch with
  | none => (remote, false)
  | some connection =>
    if !connection.connected || !connection.outboundTx || stale then (remote, false)
    else
      let client := (ensureClientState connection request.clientKey uuidLike).2
      let write client := setConnection remote request.connectionEpoch
        (setClient connection (clientKeyOnConnection connection request.clientKey) client)
      if !client.initialized then (write client, false)
      else
        let client := { client with nextSeqId := min (client.nextSeqId + 1) u64Max }
        if !buildOk then (write client, false)
        else
          (write (insertPending client (toString request.requestId)
            ⟨request.connectionEpoch, method, some call⟩), true)

def sendInitializeLocked (remote : PendingRemote) (connectionEpoch : Nat) (clientKey uuidLike : String)
    (initializeId : Nat) (buildOk : Bool) : PendingRemote :=
  match connectionForEpochLocked remote connectionEpoch with
  | none => remote
  | some connection =>
    let clientKey := normalizeRemoteClientKey clientKey
    let client := (ensureClientState connection clientKey uuidLike).2
    let client := { client with nextSeqId := min (client.nextSeqId + 1) u64Max }
    let client :=
      if buildOk then insertPending client (toString initializeId) ⟨connectionEpoch, "initialize", none⟩
      else client
    setConnection remote connectionEpoch
      (setClient connection (clientKeyOnConnection connection clientKey) client)

def removePending (remote : PendingRemote) (connectionEpoch : Nat) (clientKey requestKey : String) : PendingRemote :=
  updateClient remote connectionEpoch clientKey fun client =>
    { client with pending := client.pending.erase requestKey }

def markInitialized (remote : PendingRemote) (connectionEpoch : Nat) (clientKey : String) : PendingRemote :=
  updateClient remote connectionEpoch clientKey fun client =>
    { client with initialized := true, lastAppPongStatus := some "active" }

/-- The connection's source is recorded, unless it is known. -/
def recordSourceKind (remote : PendingRemote) (connectionEpoch : Nat) (userAgent : Option String) :
    PendingRemote × RemoteControlSourceKind :=
  let resultSourceKind := (userAgent.map sourceKindFromUserAgent).getD .unknown
  match connectionForEpochLocked remote connectionEpoch with
  | none => (remote, resultSourceKind)
  | some connection =>
    let sourceKind := if connection.sourceKind = .unknown then resultSourceKind else connection.sourceKind
    (setConnection remote connectionEpoch { connection with sourceKind := sourceKind }, sourceKind)

/-- The answer to an `initialize`: the default client is moved to the key of its source, and the
client that the stream belongs to becomes initialized. -/
def handleInitializeResult (remote : PendingRemote) (connectionEpoch : Nat)
    (clientKey userAgent : Option String) (clientId streamId : String) : PendingRemote :=
  let recorded := recordSourceKind remote connectionEpoch userAgent
  match clientKey with
  | none => recorded.1
  | some clientKey =>
    let migrated := migrateSourceDefaultClientKeyLocked recorded.1 connectionEpoch clientKey
      recorded.2 clientId streamId
    markInitialized migrated.1 connectionEpoch migrated.2

/-- The client is put back to its state before initialization; its pending requests are returned. -/
def resetRemoteControlClientForKey (remote : PendingRemote) (connectionEpoch : Nat)
    (clientKey uuidLike : String) : PendingRemote × List PendingRemoteRequest :=
  let clientKey := resolveRemoteClientKeyForConnectionLocked remote connectionEpoch clientKey
  match connectionForEpochLocked remote connectionEpoch with
  | none => (remote, [])
  | some connection =>
    if !connection.connected then (remote, [])
    else
      let client := (ensureClientState connection clientKey uuidLike).2
      (setConnection remote connectionEpoch
        (setClient connection (clientKeyOnConnection connection clientKey)
          { client with initialized := false, pending := ∅ }),
        client.pending.entries.map Sigma.snd)

def startRemoteControlClientRecovery (remote : PendingRemote) (connectionEpoch : Nat)
    (clientKey uuidLike : String) : PendingRemote :=
  let clientKey := resolveRemoteClientKeyForConnectionLocked remote connectionEpoch clientKey
  match connectionForEpochLocked remote connectionEpoch with
  | none => remote
  | some connection =>
    if !connection.connected then remote
    else
      let client := (ensureClientState connection clientKey uuidLike).2
      setConnection remote connectionEpoch
        (setClient connection (clientKeyOnConnection connection clientKey)
          { client with initialized := false, lastAppPongStatus := some "unknown" })

/-- The connection of a websocket that has just been opened, with its default client. -/
def openConnection (sourceKind : RemoteControlSourceKind) (uuidLike : String) : PendingConnection :=
  let connection : PendingConnection :=
    ⟨sourceDefaultClientKey sourceKind, true, sourceKind, true, ∅, ∅⟩
  let ensured := ensureClientState connection (sourceDefaultClientKey sourceKind) uuidLike
  setClient connection ensured.1 ensured.2

namespace RequestSystem

def moveTo (s : RequestSystem) (call : Nat) (next : RequestStage) : RequestSystem :=
  { s with stage := Function.update s.stage call next }

def step (s : RequestSystem) : RequestStep → Option RequestSystem
  | .tryAdmit call draining =>
    if s.stage call = .idle then some (s.moveTo call (if draining then .ended none else .admitted)) else none
  | .takeRequestId call clientKey =>
    if s.stage call = .admitted then
      some ({ s with issued := s.issued ++ [some call] }.moveTo call (.ready s.issued.length clientKey))
    else none
  | .giveUp call =>
    match s.stage call with
    | .admitted => some (s.moveTo call (.ended none))
    | .ready requestId _ => some (s.moveTo call (.ended (some requestId)))
    | _ => none
  | .register call connectionEpoch method uuidLike stale buildOk =>
    match s.stage call with
    | .ready requestId clientKey =>
      let request := ⟨connectionEpoch, requestId, clientKey⟩
      let (remote, entered) := registerRequest s.remote request call method uuidLike stale buildOk
      some ({ s with remote := remote }.moveTo call
        (if entered then .sending request else .ended (some requestId)))
    | _ => none
  | .sent call =>
    match s.stage call with
    | .sending request => some (s.moveTo call (.waiting request))
    | _ => none
  | .sendFailed call =>
    match s.stage call with
    | .sending request => some (s.moveTo call (.removing request))
    | _ => none
  | .timeOut call =>
    match s.stage call with
    | .waiting request => some (s.moveTo call (.removing request))
    | _ => none
  | .removeEntry call =>
    match s.stage call with
    | .removing request =>
      let remote :=
        removePending s.remote request.connectionEpoch request.clientKey (toString request.requestId)
      some ({ s with remote := remote }.moveTo call (.ended (some request.requestId)))
    | _ => none
  | .finish call =>
    match s.stage call with
    | .waiting request =>
      -- the channel answers or closes only once its sender has left the tables
      if heldAt s.remote call = [] then some (s.moveTo call (.ended (some request.requestId))) else none
    | _ => none
  | .cancel call =>
    match s.stage call with
    | .idle | .ended _ => none
    | stage => some (s.moveTo call (.ended stage.requestId))
  | .sendInitialize connectionEpoch clientKey uuidLike buildOk =>
    let remote :=
      sendInitializeLocked s.remote connectionEpoch clientKey uuidLike s.issued.length buildOk
    some { s with issued := s.issued ++ [none], remote := remote }
  | .initializeSendFailed connectionEpoch clientKey requestId =>
    if s.issued[requestId]? = some none then
      some { s with remote := removePending s.remote connectionEpoch clientKey (toString requestId) }
    else none
  | .takeResponse connectionEpoch clientKey requestKey =>
    let pending :=
      (clientStateForConnectionLocked s.remote connectionEpoch clientKey).bind (·.pending.lookup requestKey)
    some { s with
      remote := removePending s.remote connectionEpoch clientKey requestKey
      delivering := s.delivering ++ pending.toList }
  | .initializeResult connectionEpoch clientKey userAgent clientId streamId =>
    if s.delivering.any fun pending =>
        pending.method = "initialize" && pending.connectionEpoch = connectionEpoch then
      let remote :=
        handleInitializeResult s.remote connectionEpoch clientKey userAgent clientId streamId
      some { s with remote := remote }
    else none
  | .initializedNotification connectionEpoch clientKey =>
    some { s with remote := markInitialized s.remote connectionEpoch clientKey }
  | .deliver position =>
    if position < s.delivering.length then some { s with delivering := s.delivering.eraseIdx position }
    else none
  | .resetClient connectionEpoch clientKey uuidLike =>
    let (remote, pending) := resetRemoteControlClientForKey s.remote connectionEpoch clientKey uuidLike
    some { s with remote := remote, delivering := s.delivering ++ pending }
  | .startRecovery connectionEpoch clientKey uuidLike =>
    some { s with remote := startRemoteControlClientRecovery s.remote connectionEpoch clientKey uuidLike }
  | .connect sourceKind uuidLike =>
    let connectionEpoch := s.nextConnectionEpoch + 1
    let remote := setConnection s.remote connectionEpoch (openConnection sourceKind uuidLike)
    some { s with
      nextConnectionEpoch := connectionEpoch
      remote := pruneInactiveRemoteConnectionsLocked remote }
  | .cleanupConnection connectionEpoch =>
    let remote := ⟨s.remote.connections.erase connectionEpoch⟩
    some { s with remote := pruneInactiveRemoteConnectionsLocked remote }

def start : RequestSystem := ⟨⟨∅⟩, 0, [], [], fun _ => .idle⟩

/-- Every id belongs to the call that took it, and every entry to a call that is still at work on that
connection with the entry's id. -/
structure Tracked (s : RequestSystem) : Prop where
  issued : ∀ call requestId, (s.stage call).requestId = some requestId →
    s.issued[requestId]? = some (some call)
  entries : ∀ connectionEpoch clientKey requestKey pending,
    entryAt s.remote connectionEpoch clientKey requestKey = some pending →
    ∃ requestId, requestKey = toString requestId ∧ s.issued[requestId]? = some pending.call ∧
      ∀ call, pending.call = some call → ∃ request, (s.stage call).registered = some request ∧
        request.connectionEpoch = connectionEpoch ∧ request.requestId = requestId

theorem start_tracked : start.Tracked where
  issued call requestId h := by simp [start, RequestStage.requestId] at h
  entries connectionEpoch clientKey requestKey pending h := by
    simp [start, entryAt, connectionForEpochLocked] at h

variable {s : RequestSystem}

theorem Tracked.heldAt_eq_nil (hs : s.Tracked) {call : Nat} (h : (s.stage call).registered = none) :
    heldAt s.remote call = [] := by
  rw [List.eq_nil_iff_forall_not_mem]
  rintro ⟨connectionEpoch, clientKey⟩ hm
  obtain ⟨requestKey, pending, he, hcall⟩ := mem_heldAt.mp hm
  obtain ⟨_, _, _, howner⟩ := hs.entries _ _ _ _ he
  obtain ⟨request, hrequest, _⟩ := howner call hcall
  rw [h] at hrequest
  cases hrequest

theorem Tracked.shrink {s t : RequestSystem} (hs : s.Tracked) (hremote : Inherits s.remote t.remote)
    (hissued : t.issued = s.issued) (hstage : t.stage = s.stage) : t.Tracked where
  issued call requestId h := by
    rw [hstage] at h
    rw [hissued]
    exact hs.issued call requestId h
  entries connectionEpoch clientKey requestKey pending h := by
    obtain ⟨oldKey, h⟩ := hremote.noNewEntries h
    rw [hstage, hissued]
    exact hs.entries connectionEpoch oldKey requestKey pending h

theorem Tracked.moveTo (hs : s.Tracked) {call : Nat} {next : RequestStage}
    (hissued : ∀ requestId, next.requestId = some requestId → s.issued[requestId]? = some (some call))
    (hnext : next.registered = (s.stage call).registered ∨ heldAt s.remote call = []) :
    (s.moveTo call next).Tracked where
  issued other requestId h := by
    simp only [RequestSystem.moveTo, Function.update_apply] at h
    split at h
    next he => subst he; exact hissued requestId h
    next => exact hs.issued other requestId h
  entries connectionEpoch clientKey requestKey pending h := by
    obtain ⟨requestId, hkey, hid, howner⟩ := hs.entries _ _ _ _ h
    refine ⟨requestId, hkey, hid, fun other hother => ?_⟩
    obtain ⟨request, hrequest, hrest⟩ := howner other hother
    refine ⟨request, ?_, hrest⟩
    simp only [RequestSystem.moveTo, Function.update_apply]
    split
    next he =>
      subst he
      rcases hnext with hsame | hnone
      · rwa [hsame]
      · have hm : (connectionEpoch, clientKey) ∈ heldAt s.remote other :=
          mem_heldAt.mpr ⟨requestKey, pending, h, hother⟩
        rw [hnone] at hm
        cases hm
    next => exact hrequest

theorem Tracked.issue (hs : s.Tracked) (taker : Option Nat) : Tracked { s with issued := s.issued ++ [taker] } where
  issued call requestId h := by
    have hid := hs.issued call requestId h
    exact (List.getElem?_append_left (List.getElem?_eq_some_iff.mp hid).1).trans hid
  entries connectionEpoch clientKey requestKey pending h := by
    obtain ⟨requestId, hkey, hid, howner⟩ := hs.entries _ _ _ _ h
    have hlt := (List.getElem?_eq_some_iff.mp hid).1
    exact ⟨requestId, hkey, (List.getElem?_append_left hlt).trans hid, howner⟩

theorem Tracked.enter (hs : s.Tracked) {connectionEpoch requestId : Nat} {connection : PendingConnection}
    {clientKey : String} {client : PendingClient} {pending : PendingRemoteRequest}
    (hconnection : connectionForEpochLocked s.remote connectionEpoch = some connection)
    (hold : ∀ requestKey old, client.pending.lookup requestKey = some old →
      entryAt s.remote connectionEpoch clientKey requestKey = some old)
    (hissued : s.issued[requestId]? = some pending.call)
    (howner : ∀ call, pending.call = some call → ∃ request, (s.stage call).registered = some request ∧
      request.connectionEpoch = connectionEpoch ∧ request.requestId = requestId) :
    Tracked { s with
      remote := setConnection s.remote connectionEpoch (setClient connection clientKey
        (insertPending client (toString requestId) pending)) } where
  issued := hs.issued
  entries epoch key requestKey entry h := by
    rw [entryAt_setConnection] at h
    split at h
    next hepoch =>
      subst epoch
      simp only [setClient, Table.lookup_insert_eq] at h
      split at h
      next =>
        simp only [Option.bind_some, insertPending, Table.lookup_insert_eq] at h
        split at h
        next hkey =>
          cases h
          exact ⟨requestId, hkey, hissued, howner⟩
        next => exact hs.entries connectionEpoch clientKey requestKey entry (hold _ _ h)
      next => exact hs.entries _ _ _ _ ((entryAt_of_connection hconnection key requestKey).trans h)
    next => exact hs.entries _ _ _ _ h

/-- The key under which the connection would look the client up now. -/
def resolvedKey (remote : PendingRemote) (connectionEpoch : Nat) (clientKey : String) : Option String :=
  (connectionForEpochLocked remote connectionEpoch).map (clientKeyOnConnection · clientKey)

/-- No call is dropped while it has an entry, and the client under which a call's entry stands is the
one that the removal of the entry finds. -/
def EntryFound (s : RequestSystem) : RequestStep → Prop
  | .cancel call => heldAt s.remote call = []
  | .removeEntry call =>
    match s.stage call with
    | .removing request =>
      ∀ place ∈ heldAt s.remote call, resolvedKey s.remote place.1 request.clientKey = some place.2
    | _ => True
  | _ => True

instance (s : RequestSystem) (a : RequestStep) : Decidable (s.EntryFound a) := by
  unfold EntryFound
  split
  next => infer_instance
  next => split <;> infer_instance
  next => infer_instance

theorem removePending_entryAt {remote : PendingRemote} {connectionEpoch epoch : Nat}
    {clientKey requestKey key other : String} {pending : PendingRemoteRequest}
    (h : entryAt (removePending remote connectionEpoch clientKey requestKey) epoch key other = some pending) :
    entryAt remote epoch key other = some pending ∧
      ¬(epoch = connectionEpoch ∧ other = requestKey ∧
        resolvedKey remote connectionEpoch clientKey = some key) := by
  unfold removePending updateClient at h
  unfold resolvedKey
  split at h
  next hnone =>
    refine ⟨h, ?_⟩
    rintro ⟨-, -, hkey⟩
    rw [hnone] at hkey
    cases hkey
  next connection hconnection =>
    dsimp only at h
    rw [hconnection]
    split at h
    next hnone =>
      refine ⟨h, ?_⟩
      rintro ⟨hepoch, -, hkey⟩
      rw [hepoch, entryAt_of_connection hconnection, ← Option.some.inj hkey, hnone] at h
      cases h
    next client hclient =>
      rw [entryAt_setConnection] at h
      split at h
      next hepoch =>
        subst epoch
        rw [entryAt_of_connection hconnection]
        simp only [setClient, Table.lookup_insert_eq] at h
        split at h
        next hkey =>
          simp only [Option.bind_some, Table.lookup_erase_eq] at h
          split at h
          next => cases h
          next hother =>
            refine ⟨?_, fun hremoved => hother hremoved.2.1⟩
            rw [hkey, hclient]
            exact h
        next hkey => exact ⟨h, fun hremoved => hkey (Option.some.inj hremoved.2.2).symm⟩
      next hepoch => exact ⟨h, fun hremoved => hepoch hremoved.1⟩

section

variable (remote : PendingRemote) (connectionEpoch : Nat)
include remote connectionEpoch

theorem removePending_inherits (clientKey requestKey : String) :
    Inherits remote (removePending remote connectionEpoch clientKey requestKey) :=
  fun _ key => ⟨key, fun _ _ h => (removePending_entryAt h).1⟩

theorem markInitialized_inherits (clientKey : String) : Inherits remote (markInitialized remote connectionEpoch clientKey) :=
  updateClient_inherits fun _ _ _ h => h

theorem recordSourceKind_inherits (userAgent : Option String) :
    Inherits remote (recordSourceKind remote connectionEpoch userAgent).1 := by
  unfold recordSourceKind
  split
  next => exact .refl remote
  next connection hconnection =>
    intro epoch key
    refine ⟨key, fun requestKey pending h => ?_⟩
    rw [entryAt_setConnection] at h
    split at h
    next hepoch =>
      rw [hepoch]
      exact (entryAt_of_connection hconnection key requestKey).trans h
    next => exact h

theorem handleInitializeResult_inherits (clientKey userAgent : Option String) (clientId streamId : String) :
    Inherits remote
      (handleInitializeResult remote connectionEpoch clientKey userAgent clientId streamId) := by
  have hrecorded := recordSourceKind_inherits remote connectionEpoch userAgent
  cases clientKey with
  | none => exact hrecorded
  | some clientKey =>
    exact hrecorded.trans ((migrate_inherits ..).trans (markInitialized_inherits ..))

theorem reset_inherits (clientKey uuidLike : String) :
    Inherits remote
      (resetRemoteControlClientForKey remote connectionEpoch clientKey uuidLike).1 := by
  unfold resetRemoteControlClientForKey
  split
  next => exact .refl remote
  next connection hconnection =>
    split
    next => exact .refl remote
    next => exact .setClient hconnection fun requestKey pending h => by simp at h

theorem startRecovery_inherits (clientKey uuidLike : String) :
    Inherits remote
      (startRemoteControlClientRecovery remote connectionEpoch clientKey uuidLike) := by
  unfold startRemoteControlClientRecovery
  split
  next => exact .refl remote
  next connection hconnection =>
    split
    next => exact .refl remote
    next => exact .setClient hconnection fun _ _ h => ensureClientState_pending hconnection h

theorem connect_inherits (sourceKind : RemoteControlSourceKind) (uuidLike : String) :
    Inherits remote (setConnection remote connectionEpoch (openConnection sourceKind uuidLike)) := by
  intro epoch key
  refine ⟨key, fun requestKey pending h => ?_⟩
  rw [entryAt_setConnection] at h
  split at h
  next =>
    simp only [openConnection, ensureClientState, setClient, Table.lookup_insert_eq, Table.lookup_empty,
      Option.getD_none, newClientState] at h
    split at h <;> simp at h
  next => exact h

end

theorem registerRequest_cases {remote : PendingRemote} {request : RegisteredRequest} {call : Nat}
    {method uuidLike : String} {stale buildOk : Bool} :
    ((registerRequest remote request call method uuidLike stale buildOk).2 = false ∧
      Inherits remote (registerRequest remote request call method uuidLike stale buildOk).1) ∨
    ∃ (connection : PendingConnection) (client : PendingClient),
      connectionForEpochLocked remote request.connectionEpoch = some connection ∧
      (∀ requestKey old, client.pending.lookup requestKey = some old →
        entryAt remote request.connectionEpoch (clientKeyOnConnection connection request.clientKey)
          requestKey = some old) ∧
      registerRequest remote request call method uuidLike stale buildOk =
        (setConnection remote request.connectionEpoch
          (setClient connection (clientKeyOnConnection connection request.clientKey)
            (insertPending client (toString request.requestId)
              ⟨request.connectionEpoch, method, some call⟩)), true) := by
  unfold registerRequest
  split
  next => exact .inl ⟨rfl, .refl remote⟩
  next connection hconnection =>
    have hold : ∀ requestKey old,
        (ensureClientState connection request.clientKey uuidLike).2.pending.lookup requestKey = some old →
        entryAt remote request.connectionEpoch (clientKeyOnConnection connection request.clientKey)
          requestKey = some old := fun _ _ h => ensureClientState_pending hconnection h
    split
    next => exact .inl ⟨rfl, .refl remote⟩
    dsimp only
    split
    next => exact .inl ⟨rfl, .setClient hconnection hold⟩
    split
    next => exact .inl ⟨rfl, .setClient hconnection hold⟩
    next =>
      refine .inr ⟨connection, _, hconnection, ?_, rfl⟩
      exact hold

theorem sendInitializeLocked_tracked (hs : s.Tracked) (connectionEpoch : Nat) (clientKey uuidLike : String)
    {initializeId : Nat} (buildOk : Bool) (hissued : s.issued[initializeId]? = some none) :
    Tracked { s with
      remote := sendInitializeLocked s.remote connectionEpoch clientKey uuidLike initializeId buildOk } := by
  unfold sendInitializeLocked
  split
  next => exact hs
  next connection hconnection =>
    have hold : ∀ requestKey old,
        (ensureClientState connection (normalizeRemoteClientKey clientKey) uuidLike).2.pending.lookup
          requestKey = some old →
        entryAt s.remote connectionEpoch
          (clientKeyOnConnection connection (normalizeRemoteClientKey clientKey)) requestKey = some old :=
      fun _ _ h => ensureClientState_pending hconnection h
    cases buildOk with
    | false => exact hs.shrink (.setClient hconnection hold) rfl rfl
    | true => exact hs.enter hconnection hold hissued fun call h => by cases h

theorem register_tracked (hs : s.Tracked) {call requestId : Nat} {clientKey : String}
    (hstage : s.stage call = .ready requestId clientKey) (connectionEpoch : Nat) (method uuidLike : String)
    (stale buildOk : Bool) :
    let registered := registerRequest s.remote ⟨connectionEpoch, requestId, clientKey⟩ call method
      uuidLike stale buildOk
    Tracked ({ s with remote := registered.1 }.moveTo call
      (if registered.2 then .sending ⟨connectionEpoch, requestId, clientKey⟩
        else .ended (some requestId))) := by
  have hid : s.issued[requestId]? = some (some call) := hs.issued call requestId (by rw [hstage]; rfl)
  have hnone : heldAt s.remote call = [] := hs.heldAt_eq_nil (by rw [hstage]; rfl)
  have hmove : ∀ next : RequestStage, next.requestId = some requestId → (s.moveTo call next).Tracked := by
    intro next hnext
    refine hs.moveTo (fun other h => ?_) (.inr hnone)
    rw [hnext] at h
    cases h
    exact hid
  rcases @registerRequest_cases s.remote ⟨connectionEpoch, requestId, clientKey⟩ call method uuidLike
    stale buildOk with ⟨hfalse, hremote⟩ | ⟨connection, client, hconnection, hold, hregister⟩
  · dsimp only
    rw [hfalse]
    exact (hmove (.ended (some requestId)) rfl).shrink hremote rfl rfl
  · dsimp only
    rw [hregister]
    refine (hmove (.sending ⟨connectionEpoch, requestId, clientKey⟩) rfl).enter hconnection hold hid ?_
    intro other hother
    cases hother
    exact ⟨⟨connectionEpoch, requestId, clientKey⟩, by simp [RequestSystem.moveTo, RequestStage.registered],
      rfl, rfl⟩

theorem removeEntry_tracked (hs : s.Tracked) {call : Nat} {request : RegisteredRequest}
    (hstage : s.stage call = .removing request)
    (hfound : ∀ place ∈ heldAt s.remote call, resolvedKey s.remote place.1 request.clientKey = some place.2) :
    Tracked ({ s with
      remote := removePending s.remote request.connectionEpoch request.clientKey (toString request.requestId)
      }.moveTo call (.ended (some request.requestId))) := by
  have hnone : heldAt (removePending s.remote request.connectionEpoch request.clientKey
      (toString request.requestId)) call = [] := by
    rw [List.eq_nil_iff_forall_not_mem]
    rintro ⟨connectionEpoch, clientKey⟩ hm
    obtain ⟨requestKey, pending, he, hcall⟩ := mem_heldAt.mp hm
    obtain ⟨hold, hother⟩ := removePending_entryAt he
    obtain ⟨requestId, hkey, _, howner⟩ := hs.entries _ _ _ _ hold
    obtain ⟨owned, howned, hepoch, hid⟩ := howner call hcall
    rw [hstage] at howned
    cases howned
    have hplace := hfound _ (mem_heldAt.mpr ⟨requestKey, pending, hold, hcall⟩)
    exact hother ⟨hepoch.symm, by rw [hkey, hid], hepoch ▸ hplace⟩
  have hremoved := hs.shrink (t := { s with
    remote := removePending s.remote request.connectionEpoch request.clientKey (toString request.requestId) })
    (removePending_inherits ..) rfl rfl
  refine hremoved.moveTo (fun requestId h => ?_) (.inr hnone)
  refine hs.issued call requestId ?_
  rw [hstage]
  exact h

theorem step_tracked {s t : RequestSystem} {a : RequestStep} (hs : s.Tracked) (hfound : s.EntryFound a)
    (h : s.step a = some t) : t.Tracked := by
  -- a call that moves on with the request it has registered, if any
  have hon : ∀ {call : Nat} {old next : RequestStage}, s.stage call = old →
      next.registered = old.registered → (∀ id, next.requestId = some id → old.requestId = some id) →
      (s.moveTo call next).Tracked := by
    rintro call _ next rfl hregistered hid
    exact hs.moveTo (fun id h => hs.issued call id (hid id h)) (.inl hregistered)
  cases a with
  | tryAdmit call draining =>
    simp only [step] at h
    split at h
    next hstage =>
      cases h
      exact hon hstage (by cases draining <;> rfl) (by cases draining <;> exact fun _ h => h)
    next => cases h
  | takeRequestId call clientKey =>
    simp only [step] at h
    split at h
    next hstage =>
      cases h
      refine (hs.issue (some call)).moveTo (fun id h => ?_) (.inl (by rw [hstage]; rfl))
      cases h
      exact List.getElem?_concat_length
    next => cases h
  | giveUp call =>
    simp only [step] at h
    split at h
    next hstage => cases h; exact hon hstage rfl fun _ h => h
    next hstage => cases h; exact hon hstage rfl fun _ h => h
    next => cases h
  | register call connectionEpoch method uuidLike stale buildOk =>
    simp only [step] at h
    split at h
    next hstage => cases h; exact register_tracked hs hstage ..
    next => cases h
  | sent call | sendFailed call | timeOut call =>
    simp only [step] at h
    split at h
    next hstage => cases h; exact hon hstage rfl fun _ h => h
    next => cases h
  | removeEntry call =>
    simp only [step] at h
    split at h
    next request hstage =>
      cases h
      simp only [EntryFound, hstage] at hfound
      exact removeEntry_tracked hs hstage hfound
    next => cases h
  | finish call =>
    simp only [step] at h
    split at h
    next request hstage =>
      split at h
      next hnone =>
        cases h
        exact hs.moveTo (fun id h => hs.issued call id (hstage ▸ h)) (.inr hnone)
      next => cases h
    next => cases h
  | cancel call =>
    simp only [step] at h
    split at h
    next => cases h
    next => cases h
    next =>
      cases h
      exact hs.moveTo (fun id h => hs.issued call id h) (.inr hfound)
  | sendInitialize connectionEpoch clientKey uuidLike buildOk =>
    cases h
    exact sendInitializeLocked_tracked (hs.issue none) connectionEpoch clientKey uuidLike buildOk
      List.getElem?_concat_length
  | initializeSendFailed connectionEpoch clientKey requestId =>
    simp only [step] at h
    split at h
    next => cases h; exact hs.shrink (removePending_inherits ..) rfl rfl
    next => cases h
  | takeResponse connectionEpoch clientKey requestKey =>
    cases h
    exact hs.shrink (removePending_inherits ..) rfl rfl
  | initializeResult connectionEpoch clientKey userAgent clientId streamId =>
    simp only [step] at h
    split at h
    next => cases h; exact hs.shrink (handleInitializeResult_inherits ..) rfl rfl
    next => cases h
  | initializedNotification connectionEpoch clientKey =>
    cases h
    exact hs.shrink (markInitialized_inherits ..) rfl rfl
  | deliver position =>
    simp only [step] at h
    split at h
    next => cases h; exact hs.shrink (.refl _) rfl rfl
    next => cases h
  | resetClient connectionEpoch clientKey uuidLike =>
    cases h
    exact hs.shrink (reset_inherits ..) rfl rfl
  | startRecovery connectionEpoch clientKey uuidLike =>
    cases h
    exact hs.shrink (startRecovery_inherits ..) rfl rfl
  | connect sourceKind uuidLike =>
    cases h
    exact hs.shrink ((connect_inherits ..).trans (retain_inherits ..)) rfl rfl
  | cleanupConnection connectionEpoch =>
    cases h
    exact hs.shrink ((erase_inherits ..).trans (retain_inherits ..)) rfl rfl

/-- A call's permit is in its own hands before the request is entered, then in the entry, and with
the entry in the hands of whoever answers or drops it. -/
def HoldsPermit (s : RequestSystem) (call : Nat) : Prop :=
  s.stage call = .admitted ∨ (∃ requestId clientKey, s.stage call = .ready requestId clientKey) ∨
    heldAt s.remote call ≠ [] ∨ ∃ pending ∈ s.delivering, pending.call = some call

theorem deliver_rest (s : RequestSystem) :
    Runs.run step s (List.replicate s.delivering.length (.deliver 0)) =
      some { s with delivering := [] } := by
  obtain ⟨remote, nextConnectionEpoch, issued, delivering, stage⟩ := s
  induction delivering with
  | nil => rfl
  | cons pending rest ih => exact ih

/-- While no call is dropped with its entry in place and every removal finds the entry, an ended call
leaves none behind; its permit is released, or will be once the answers in progress are through. -/
theorem ended_request_released {steps : List RequestStep} {s : RequestSystem}
    (hfound : Runs.Meets step EntryFound start steps) (h : Runs.run step start steps = some s)
    {call : Nat} {ended : Option Nat} (hended : s.stage call = .ended ended) :
    (∀ requestId ∈ ended, ∀ connectionEpoch clientKey,
      entryAt s.remote connectionEpoch clientKey (toString requestId) = none) ∧
    heldAt s.remote call = [] ∧
    (s.HoldsPermit call → ∃ pending ∈ s.delivering, pending.call = some call) ∧
    ∃ t, Runs.run step s (List.replicate s.delivering.length (.deliver 0)) = some t ∧
      ¬t.HoldsPermit call := by
  have hs : s.Tracked :=
    Runs.run_invariant_of_meets Tracked (fun _ _ _ hs hg h => step_tracked hs hg h) start_tracked hfound h
  have hnone : heldAt s.remote call = [] := hs.heldAt_eq_nil (by rw [hended]; rfl)
  have hpermit : ∀ delivering, HoldsPermit { s with delivering := delivering } call →
      ∃ pending ∈ delivering, pending.call = some call := by
    rintro delivering (hstage | ⟨_, _, hstage⟩ | hheld | hdelivering)
    · rw [hended] at hstage; cases hstage
    · rw [hended] at hstage; cases hstage
    · exact absurd hnone hheld
    · exact hdelivering
  refine ⟨fun requestId hid connectionEpoch clientKey => ?_, hnone, hpermit s.delivering,
    _, deliver_rest s, fun hheld => ?_⟩
  · rw [Option.eq_none_iff_forall_ne_some]
    intro pending he
    obtain ⟨other, hkey, hother, howner⟩ := hs.entries _ _ _ _ he
    have hissued := hs.issued call requestId (by rw [hended]; exact hid)
    rw [RustText.toString_injective hkey, hother] at hissued
    obtain ⟨request, hrequest, _⟩ := howner call (Option.some.inj hissued)
    rw [hended] at hrequest
    cases hrequest
  · obtain ⟨pending, hm, _⟩ := hpermit [] hheld
    cases hm

/-- A connection is opened and initialized, and a request is sent on it. -/
def requestSent : List RequestStep :=
  [.connect .cli "stream", .sendInitialize 1 "default:cli" "" true, .takeResponse 1 "default:cli" "0",
    .initializeResult 1 (some "default:cli") (some "mochiport/1.0") mochiportBridgeClientId "stream",
    .deliver 0, .tryAdmit 0 false, .takeRequestId 0 "default:cli", .register 0 1 "turn/start" "" false true,
    .sent 0]

theorem ended_request_released_timeOut :
    ∃ s, Runs.run step start (requestSent ++ [.timeOut 0, .removeEntry 0]) = some s ∧
      heldAt s.remote 0 = [] := by
  have hrun : ((Runs.run step start (requestSent ++ [.timeOut 0, .removeEntry 0])).map
      fun s => s.stage 0) = some (.ended (some 1)) := by
    decide +kernel
  obtain ⟨s, hs, hended⟩ := Option.map_eq_some_iff.mp hrun
  exact ⟨s, hs, (ended_request_released (by decide +kernel) hs hended).2.1⟩

/-- The caller of a sent request goes away: nothing takes its entry out. -/
theorem dropped_request_leaks :
    ¬∀ (steps : List RequestStep) (s : RequestSystem) (call requestId : Nat),
      Runs.run step start steps = some s → s.stage call = .ended (some requestId) →
      ∀ connectionEpoch clientKey,
        entryAt s.remote connectionEpoch clientKey (toString requestId) = none := by
  intro h
  have hrun : ((Runs.run step start (requestSent ++ [.cancel 0])).map fun s =>
      (s.stage 0, entryAt s.remote 1 "default:cli" (toString 1))) =
        some (.ended (some 1), some ⟨1, "turn/start", some 0⟩) := by
    decide +kernel
  obtain ⟨s, hs, he⟩ := Option.map_eq_some_iff.mp hrun
  obtain ⟨hended, hentry⟩ := Prod.mk.inj he
  have hnone := h _ s 0 1 hs hended 1 "default:cli"
  rw [hentry] at hnone
  cases hnone

end RequestSystem

end MochiPort

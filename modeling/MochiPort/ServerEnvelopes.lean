import MochiPort.Protocol
import MochiPort.RemoteClients

namespace MochiPort

inductive RemoteServerWorkItem (Value : Type) where
  | serverMessage (connectionEpoch seqId : Nat) (clientId streamId : String) (message : Value)
  | serverAck (connectionEpoch seqId : Nat) (clientId streamId : String)
  | serverPong (connectionEpoch seqId : Nat) (clientId streamId status : String) (shouldReinitializeClient : Bool)
  deriving DecidableEq

def remoteServerWorkItemKind {Value : Type} : RemoteServerWorkItem Value → String
  | .serverMessage .. => "server_message"
  | .serverAck .. => "ack"
  | .serverPong .. => "pong"

/-- What `try_send` finds at the work queue. -/
inductive WorkQueueState where
  | room
  | full
  | closed
  deriving DecidableEq

/-- What the surroundings of one call decide: the two channels, the clock and the next fresh id. -/
structure Surroundings where
  workQueue : WorkQueueState
  outboundOpen : Bool
  nowMs : Nat
  uuidLike : String

/-- The state a connection's reader works on. `serverWork` and `outbound` list all that was put on
the two channels. -/
structure ServerReader (Value P : Type) where
  remote : RemoteControlInner P
  chunks : ServerChunkMap
  serverWork : List (RemoteServerWorkItem Value)
  outbound : List (OutgoingClientEnvelope Value)

def usizeMax : Nat := UInt64.size - 1

/-- The pair a cursor is compared as: a whole message stands after every segment. -/
def cursorPair (cursor : Nat × Option Nat) : Nat × Nat :=
  (cursor.1, cursor.2.getD usizeMax)

def ackCursorGt (left right : Nat × Option Nat) : Bool :=
  (cursorPair right).1 < (cursorPair left).1 ||
    ((cursorPair right).1 = (cursorPair left).1 && (cursorPair right).2 < (cursorPair left).2)

def serverConnectionCursorPrefix (connectionEpoch : Nat) : String :=
  toString connectionEpoch ++ "\n"

def serverAckCursorKey (connectionEpoch : Nat) (clientId streamId : String) : String :=
  serverConnectionCursorPrefix connectionEpoch ++ clientId ++ "\n" ++ streamId

section

variable {Value P : Type}

def serverEventSegmentId : IncomingServerEvent Value → Option Nat
  | .serverMessageChunk segmentId .. => some segmentId
  | _ => none

def enqueueRemoteServerWork (env : Surroundings) (item : RemoteServerWorkItem Value)
    (reader : ServerReader Value P) : Except String (ServerReader Value P) :=
  let kind := remoteServerWorkItemKind item
  match env.workQueue with
  | .room => .ok { reader with serverWork := reader.serverWork ++ [item] }
  | .full => .error s!"remote-control server work queue full while enqueueing {kind}"
  | .closed => .error s!"remote-control server work queue closed while enqueueing {kind}"

def ackServerEnvelope (env : Surroundings) (clientId streamId : String) (seqId : Nat)
    (segmentId : Option Nat) (reader : ServerReader Value P) :
    Except String (ServerReader Value P) :=
  if env.outboundOpen then
    .ok { reader with
      outbound := reader.outbound ++ [buildClientAckEnvelope clientId streamId seqId segmentId] }
  else .error "remote-control outbound channel closed"

def markServerEnvelopeAcked (remote : RemoteControlInner P) (connectionEpoch : Nat)
    (clientId streamId : String) (seqId : Nat) (segmentId : Option Nat) : RemoteControlInner P :=
  match connectionForEpochLocked remote connectionEpoch with
  | none => remote
  | some connection =>
    let key := serverAckCursorKey connectionEpoch clientId streamId
    let next := (seqId, segmentId)
    if (connection.serverAckCursors.lookup key).all fun current => ackCursorGt next current then
      setConnection remote connectionEpoch
        { connection with serverAckCursors := connection.serverAckCursors.insert key next }
    else remote

def isDuplicateServerEnvelope (remote : RemoteControlInner P) (connectionEpoch : Nat)
    (clientId streamId : String) (seqId : Nat) (segmentId : Option Nat) : Bool :=
  let key := serverAckCursorKey connectionEpoch clientId streamId
  ((connectionForEpochLocked remote connectionEpoch).bind
    fun connection => connection.serverAckCursors.lookup key).any
      fun current => !ackCursorGt (seqId, segmentId) current

def isCurrentRemoteStream (remote : RemoteControlInner P) (connectionEpoch : Nat) (clientId streamId : String) : Bool :=
  connectionExistsLocked remote connectionEpoch &&
    (remoteClientKeyForStreamOnConnectionLocked remote connectionEpoch clientId streamId).isSome

/-- Also answers whether the client has to be initialized again. -/
def recordRemoteAppPong (env : Surroundings) (remote : RemoteControlInner P) (connectionEpoch : Nat)
    (clientId streamId status : String) : RemoteControlInner P × Bool :=
  let normalizedStatus := RustText.toAsciiLowercase (RustText.trim status)
  match (connectionForEpochLocked remote connectionEpoch).filter (·.connected),
      remoteClientKeyForStreamOnConnectionLocked remote connectionEpoch clientId streamId with
  | some connection, some clientKey =>
    let (clientKey, client) := ensureClientState connection clientKey env.uuidLike
    let client := { client with
      lastAppPongAtMs := some env.nowMs, lastAppPongStatus := some normalizedStatus }
    (setConnection remote connectionEpoch (setClient connection clientKey client),
      normalizedStatus = "unknown" && client.initialized)
  | _, _ => (remote, false)

variable (env : Surroundings) (connectionEpoch : Nat) (clientId streamId : String) (seqId : Nat)

/-- The end of most branches: the acknowledgement, and only after it the cursor. -/
def ackAndMark (segmentId : Option Nat) (reader : ServerReader Value P) : ServerReader Value P × Except String Unit :=
  match ackServerEnvelope env clientId streamId seqId segmentId reader with
  | .error err => (reader, .error err)
  | .ok reader =>
    let remote :=
      markServerEnvelopeAcked reader.remote connectionEpoch clientId streamId seqId segmentId
    ({ reader with remote := remote }, .ok ())

def enqueueAckAndMark (item : RemoteServerWorkItem Value) (segmentId : Option Nat)
    (reader : ServerReader Value P) : ServerReader Value P × Except String Unit :=
  match enqueueRemoteServerWork env item reader with
  | .error err => (reader, .error err)
  | .ok reader => ackAndMark env connectionEpoch clientId streamId seqId segmentId reader

/-- The branches for an envelope of a registered stream that is not a duplicate. -/
def handleServerEvent (c : WireCodec Value) (event : IncomingServerEvent Value)
    (reader : ServerReader Value P) : ServerReader Value P × Except String Unit :=
  match event with
  | .serverMessage message =>
    enqueueAckAndMark env connectionEpoch clientId streamId seqId
      (.serverMessage connectionEpoch seqId clientId streamId message) none reader
  | .serverMessageChunk segmentId segmentCount messageSizeBytes messageChunkBase64 =>
    let (chunks, observation) := observeServerChunk c reader.chunks clientId streamId seqId segmentId
      segmentCount messageSizeBytes messageChunkBase64
    let reader := { reader with chunks := chunks }
    match observation with
    | .complete message =>
      enqueueAckAndMark env connectionEpoch clientId streamId seqId
        (.serverMessage connectionEpoch seqId clientId streamId message) (some segmentId) reader
    | .pending => ackAndMark env connectionEpoch clientId streamId seqId (some segmentId) reader
    | .dropped => ackAndMark env connectionEpoch clientId streamId seqId (some segmentId) reader
  | .ack =>
    enqueueAckAndMark env connectionEpoch clientId streamId seqId
      (.serverAck connectionEpoch seqId clientId streamId) none reader
  | .pong status =>
    let (remote, shouldReinitializeClient) :=
      recordRemoteAppPong env reader.remote connectionEpoch clientId streamId status
    enqueueAckAndMark env connectionEpoch clientId streamId seqId
      (.serverPong connectionEpoch seqId clientId streamId status shouldReinitializeClient) none
      { reader with remote := remote }

/-- The handler of an envelope once its text has been read. -/
def handleServerEnvelope (c : WireCodec Value) (envelope : IncomingServerEnvelope Value)
    (reader : ServerReader Value P) : ServerReader Value P × Except String Unit :=
  let ⟨event, clientId, streamId, seqId⟩ := envelope
  let segmentId := serverEventSegmentId event
  if !isCurrentRemoteStream reader.remote connectionEpoch clientId streamId then
    ackAndMark env connectionEpoch clientId streamId seqId segmentId reader
  else if isDuplicateServerEnvelope reader.remote connectionEpoch clientId streamId seqId segmentId then
    match ackServerEnvelope env clientId streamId seqId segmentId reader with
    | .error err => (reader, .error err)
    | .ok reader => (reader, .ok ())
  else handleServerEvent env connectionEpoch clientId streamId seqId c event reader

/-- The reader takes the envelopes in the order of arrival and ends at the first error. -/
def readServerEnvelopes (c : WireCodec Value) :
    List (Surroundings × IncomingServerEnvelope Value) → ServerReader Value P →
      ServerReader Value P × Except String Unit
  | [], reader => (reader, .ok ())
  | (env, envelope) :: arrivals, reader =>
    match handleServerEnvelope env connectionEpoch c envelope reader with
    | (reader, .error err) => (reader, .error err)
    | (reader, .ok ()) => readServerEnvelopes c arrivals reader

end

end MochiPort

import MochiPort.HighWater
import MochiPort.ServerEnvelopes
import Mathlib.Data.Prod.Lex

namespace MochiPort

variable {Value P : Type}

/-- The ids of a registered stream. Both are generated without line breaks, so the key of its
cursor belongs to no other stream. -/
structure RegisteredStream where
  clientId : String
  streamId : String
  clientId_free : RustText.Free '\n' clientId
  streamId_free : RustText.Free '\n' streamId

def cursorKey (cursor : Nat × Option Nat) : Nat ×ₗ Nat := toLex (cursorPair cursor)

theorem ackCursorGt_iff {left right : Nat × Option Nat} :
    ackCursorGt left right = true ↔ cursorKey right < cursorKey left := by
  simp only [ackCursorGt, cursorKey, Prod.Lex.toLex_lt_toLex, Bool.or_eq_true, Bool.and_eq_true,
    decide_eq_true_eq]

variable {clientId streamId : String}

theorem serverAckCursorKey_inj {epoch : Nat} (stream : RegisteredStream)
    (h : serverAckCursorKey epoch clientId streamId = serverAckCursorKey epoch stream.clientId stream.streamId) :
    clientId = stream.clientId ∧ streamId = stream.streamId := by
  have hlist := congrArg String.toList h
  simp only [serverAckCursorKey, serverConnectionCursorPrefix, String.toList_append,
    List.append_assoc] at hlist
  have hrest := List.append_cancel_left (List.append_cancel_left hlist)
  obtain ⟨hc, hs⟩ := RustText.split_unique (x := '\n') stream.clientId_free stream.streamId_free
    (by simpa using hrest.symm)
  exact ⟨(String.toList_inj.mp hc).symm, (String.toList_inj.mp hs).symm⟩

/-- The connection is live and the stream belongs to one of its clients. -/
def Live (remote : RemoteControlInner P) (epoch : Nat) (stream : RegisteredStream) : Prop :=
  ∃ connection, connectionForEpochLocked remote epoch = some connection ∧
    connection.connected = true ∧ ∃ key client, connection.clients.lookup key = some client ∧
      client.clientId = stream.clientId ∧ client.streamId = stream.streamId

variable {remote : RemoteControlInner P} {stream : RegisteredStream}

theorem isCurrentRemoteStream_of_live {epoch : Nat} (h : Live remote epoch stream) :
    isCurrentRemoteStream remote epoch stream.clientId stream.streamId = true := by
  obtain ⟨connection, hconnection, hconnected, key, client, hclient, hc, hs⟩ := h
  have hfound : (connection.clients.findKey? fun client =>
      client.clientId = stream.clientId && client.streamId = stream.streamId).isSome :=
    Table.findKey?_isSome.mpr ⟨key, client, hclient, by simp [hc, hs]⟩
  simp [isCurrentRemoteStream, connectionExistsLocked, remoteClientKeyForStreamOnConnectionLocked,
    hconnection, hconnected, hfound]

def streamCursor (remote : RemoteControlInner P) (epoch : Nat) (stream : RegisteredStream) : WithBot (Nat ×ₗ Nat) :=
  match (connectionForEpochLocked remote epoch).bind fun connection =>
      connection.serverAckCursors.lookup
        (serverAckCursorKey epoch stream.clientId stream.streamId) with
  | some cursor => cursorKey cursor
  | none => ⊥

variable {segmentId : Option Nat}

theorem isDuplicateServerEnvelope_iff {epoch : Nat} {seqId : Nat} :
    isDuplicateServerEnvelope remote epoch stream.clientId stream.streamId seqId segmentId = true ↔
      ¬streamCursor remote epoch stream < (cursorKey (seqId, segmentId) : WithBot (Nat ×ₗ Nat)) := by
  unfold isDuplicateServerEnvelope streamCursor
  dsimp only
  split
  next cursor hcursor =>
    rw [hcursor, WithBot.coe_lt_coe, ← ackCursorGt_iff]
    simp
  next hnone =>
    rw [hnone]
    simp

/-- What a step may do to the remote state without the stream noticing. -/
def Unmoved (epoch : Nat) (stream : RegisteredStream) (remote remote' : RemoteControlInner P) : Prop :=
  streamCursor remote' epoch stream = streamCursor remote epoch stream ∧
    (Live remote epoch stream → Live remote' epoch stream)

theorem connectionForEpochLocked_setConnection (remote : RemoteControlInner P) (epoch : Nat)
    (connection : RemoteControlServerConnection P) :
    connectionForEpochLocked (setConnection remote epoch connection) epoch = some connection :=
  AList.lookup_insert _

/-- The cursors after `markServerEnvelopeAcked`. -/
def markCursor (cursors : Table String (Nat × Option Nat)) (key : String) (next : Nat × Option Nat) :
    Table String (Nat × Option Nat) :=
  if (cursors.lookup key).all fun current => ackCursorGt next current then cursors.insert key next
  else cursors

theorem markCursor_lookup_ne {cursors : Table String (Nat × Option Nat)} {key other : String}
    {next : Nat × Option Nat} (h : other ≠ key) :
    (markCursor cursors key next).lookup other = cursors.lookup other := by
  unfold markCursor
  split
  next => exact AList.lookup_insert_ne h
  next => rfl

variable {epoch seqId : Nat}

theorem markServerEnvelopeAcked_connection {connection : RemoteControlServerConnection P}
    (h : connectionForEpochLocked remote epoch = some connection) :
    connectionForEpochLocked
      (markServerEnvelopeAcked remote epoch clientId streamId seqId segmentId) epoch =
        some { connection with
          serverAckCursors := markCursor connection.serverAckCursors
            (serverAckCursorKey epoch clientId streamId) (seqId, segmentId) } := by
  simp only [markServerEnvelopeAcked, h, markCursor]
  split
  next => exact connectionForEpochLocked_setConnection _ _ _
  next => exact h

theorem markServerEnvelopeAcked_live (h : Live remote epoch stream) :
    Live (markServerEnvelopeAcked remote epoch clientId streamId seqId segmentId) epoch stream := by
  obtain ⟨connection, hconnection, hrest⟩ := h
  exact ⟨_, markServerEnvelopeAcked_connection hconnection, hrest⟩

theorem markServerEnvelopeAcked_other (hlive : Live remote epoch stream)
    (hne : ¬(clientId = stream.clientId ∧ streamId = stream.streamId)) :
    Unmoved epoch stream remote
      (markServerEnvelopeAcked remote epoch clientId streamId seqId segmentId) := by
  refine ⟨?_, markServerEnvelopeAcked_live⟩
  obtain ⟨connection, hconnection, _⟩ := hlive
  have hkey : serverAckCursorKey epoch stream.clientId stream.streamId ≠ serverAckCursorKey epoch clientId streamId :=
    fun he => hne (serverAckCursorKey_inj stream he.symm)
  simp only [streamCursor, markServerEnvelopeAcked_connection hconnection, hconnection,
    Option.bind_some, markCursor_lookup_ne hkey]

theorem markServerEnvelopeAcked_self (hlive : Live remote epoch stream)
    (hlt : streamCursor remote epoch stream < (cursorKey (seqId, segmentId) : WithBot (Nat ×ₗ Nat))) :
    streamCursor (markServerEnvelopeAcked remote epoch stream.clientId stream.streamId seqId segmentId)
      epoch stream = cursorKey (seqId, segmentId) := by
  obtain ⟨connection, hconnection, _⟩ := hlive
  have hmark : (connection.serverAckCursors.lookup
      (serverAckCursorKey epoch stream.clientId stream.streamId)).all
        (fun current => ackCursorGt (seqId, segmentId) current) = true := by
    simp only [streamCursor, hconnection, Option.bind_some] at hlt
    split at hlt
    next cursor hcursor =>
      rw [hcursor]
      exact ackCursorGt_iff.mpr (WithBot.coe_lt_coe.mp hlt)
    next hnone => rw [hnone]; rfl
  simp only [streamCursor, markServerEnvelopeAcked_connection hconnection, Option.bind_some,
    markCursor, if_pos hmark, AList.lookup_insert]

theorem recordRemoteAppPong_unmoved (env : Surroundings) (remote : RemoteControlInner P) (epoch : Nat)
    (clientId streamId status : String) (stream : RegisteredStream) :
    Unmoved epoch stream remote
      (recordRemoteAppPong env remote epoch clientId streamId status).1 := by
  unfold recordRemoteAppPong
  split
  next connection clientKey hconnection _ =>
    obtain ⟨hconnection, hconnected⟩ := Option.filter_eq_some_iff.mp hconnection
    refine ⟨?_, ?_⟩
    · simp only [streamCursor, connectionForEpochLocked_setConnection, hconnection, Option.bind_some, setClient]
    · rintro ⟨connection', hconnection', _, key, client, hclient, hids⟩
      cases Option.some.inj (hconnection.symm.trans hconnection')
      refine ⟨_, connectionForEpochLocked_setConnection _ _ _, hconnected, ?_⟩
      by_cases hk : key = (ensureClientState connection clientKey env.uuidLike).1
      · refine ⟨key, _, by rw [setClient, hk]; exact AList.lookup_insert _, ?_⟩
        have hsame : (ensureClientState connection clientKey env.uuidLike).2 = client := by
          simp only [ensureClientState] at hk ⊢
          rw [← hk, hclient, Option.getD_some]
        simpa [hsame] using hids
      · exact ⟨key, client, by rw [setClient]; exact (AList.lookup_insert_ne hk).trans hclient, hids⟩
  next => exact ⟨rfl, id⟩

/-- The messages that the work items hand on for one stream, with their sequence numbers. -/
def deliveredTo (stream : RegisteredStream) (work : List (RemoteServerWorkItem Value)) : List (Nat × Value) :=
  work.filterMap fun
    | .serverMessage _ seqId clientId streamId message =>
      if clientId = stream.clientId ∧ streamId = stream.streamId then some (seqId, message) else none
    | _ => none

/-- What one stream's receiver holds: its assemblies, and all that it has handed on. -/
structure Receiver (Value : Type) where
  slots : Nat → Option ServerChunkAssembly
  delivered : List (Nat × Value)

/-- The receiver of one stream, for an envelope that is not a duplicate. -/
def receive (c : WireCodec Value) (receiver : Receiver Value)
    (envelope : IncomingServerEnvelope Value) : Receiver Value :=
  match envelope.event with
  | .serverMessage message =>
    { receiver with delivered := receiver.delivered ++ [(envelope.seqId, message)] }
  | .serverMessageChunk segmentId segmentCount messageSizeBytes messageChunkBase64 =>
    let (slot, observation) := observeSlot c (receiver.slots envelope.seqId) segmentId segmentCount
      messageSizeBytes messageChunkBase64
    { slots := Function.update receiver.slots envelope.seqId slot
      delivered := match observation with
        | .complete message => receiver.delivered ++ [(envelope.seqId, message)]
        | _ => receiver.delivered }
  | .ack => receiver
  | .pong _ => receiver

def envelopeKey (envelope : IncomingServerEnvelope Value) : Nat ×ₗ Nat :=
  cursorKey (envelope.seqId, serverEventSegmentId envelope.event)

def streamView (epoch : Nat) (stream : RegisteredStream) (reader : ServerReader Value P) :
    WithBot (Nat ×ₗ Nat) × Receiver Value :=
  (streamCursor reader.remote epoch stream,
    ⟨fun seqId => reader.chunks.lookup (stream.clientId, stream.streamId, seqId),
      deliveredTo stream reader.serverWork⟩)

def OfStream (stream : RegisteredStream) (envelope : IncomingServerEnvelope Value) : Prop :=
  envelope.clientId = stream.clientId ∧ envelope.streamId = stream.streamId

instance (stream : RegisteredStream) (envelope : IncomingServerEnvelope Value) :
    Decidable (OfStream stream envelope) := inferInstanceAs (Decidable (_ ∧ _))

end MochiPort

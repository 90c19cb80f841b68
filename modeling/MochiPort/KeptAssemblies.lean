import MochiPort.Runs
import MochiPort.ServerRepeats
import Mathlib.Algebra.Order.BigOperators.Group.List

namespace MochiPort

open Option Runs

variable {Value P : Type} {c : WireCodec Value} {epoch : Nat}

def ackCursors (remote : RemoteControlInner P) (epoch : Nat) : Option (Table String (Nat × Option Nat)) :=
  (connectionForEpochLocked remote epoch).map (·.serverAckCursors)

/-- The cursor with which an envelope of the stream is compared. -/
def ackCursor (remote : RemoteControlInner P) (epoch : Nat) (clientId streamId : String) : Option (Nat × Option Nat) :=
  (ackCursors remote epoch).bind (·.lookup (serverAckCursorKey epoch clientId streamId))

/-- The reader task of a connection: once it has ended its chunk map is gone. -/
structure ReaderTask (Value P : Type) where
  reader : ServerReader Value P
  running : Bool

/-- An envelope arrives, or another task changes the remote state. -/
inductive ReaderEvent (Value P : Type) where
  | arrives (env : Surroundings) (envelope : IncomingServerEnvelope Value)
  | elsewhere (remote : RemoteControlInner P)

/-- Only the reader writes the cursors of its connection; others may change all else, and remove it. -/
def readerStep (epoch : Nat) (c : WireCodec Value) (task : ReaderTask Value P) :
    ReaderEvent Value P → Option (ReaderTask Value P)
  | .arrives env envelope =>
    if task.running then
      match handleServerEnvelope env epoch c envelope task.reader with
      | (reader, .ok ()) => some ⟨reader, true⟩
      | (reader, .error _) => some ⟨{ reader with chunks := ∅ }, false⟩
    else none
  | .elsewhere remote =>
    if ackCursors remote epoch = none ∨ ackCursors remote epoch = ackCursors task.reader.remote epoch then
      some { task with reader := { task.reader with remote := remote } }
    else none

def bufferedBytes (chunks : ServerChunkMap) : Nat := (chunks.entries.map fun entry => entry.2.raw.length).sum

/-- Every assembly that is kept can still be completed, a stream has at most one, and what they buffer is bounded by
the size of a message for each stream. -/
structure AllCompletable (epoch : Nat) (reader : ServerReader Value P) : Prop where
  completable : ∀ clientId streamId seqId assembly,
    reader.chunks.lookup (clientId, streamId, seqId) = some assembly →
      ∀ cursor, ackCursor reader.remote epoch clientId streamId = some cursor →
        ackCursorGt (seqId, some assembly.nextSegmentId) cursor = true
  single : ∀ clientId streamId seqId other,
    (clientId, streamId, seqId) ∈ reader.chunks → (clientId, streamId, other) ∈ reader.chunks → seqId = other
  bounded : ∀ streams : List (String × String),
    (∀ key ∈ reader.chunks, (key.1, key.2.1) ∈ streams) →
      bufferedBytes reader.chunks ≤ streams.length * remoteControlReassembledMaxBytes

/-- The channels take what the handling of the envelope puts on them. -/
def Accepts (epoch : Nat) (c : WireCodec Value) (env : Surroundings) (reader : ServerReader Value P)
    (envelope : IncomingServerEnvelope Value) : Prop :=
  env.outboundOpen = true ∧
    (env.workQueue = .room ∨
      isCurrentRemoteStream reader.remote epoch envelope.clientId envelope.streamId = false ∨
      isDuplicateServerEnvelope reader.remote epoch envelope.clientId envelope.streamId envelope.seqId
        (serverEventSegmentId envelope.event) = true ∨
      (takeEvent c env epoch envelope reader).2.2 = [])

/-- The envelope leaves no assembly behind: wherever it moves the cursor of one, it is the assembly's own chunk. -/
def OvertakesNothing (epoch : Nat) (reader : ServerReader Value P) (envelope : IncomingServerEnvelope Value) : Prop :=
  ∀ clientId streamId seqId assembly, reader.chunks.lookup (clientId, streamId, seqId) = some assembly →
    serverAckCursorKey epoch clientId streamId = serverAckCursorKey epoch envelope.clientId envelope.streamId →
      ackCursorGt (seqId, some assembly.nextSegmentId) (envelope.seqId, serverEventSegmentId envelope.event) = true ∨
        isCurrentRemoteStream reader.remote epoch envelope.clientId envelope.streamId = true ∧ IsChunk envelope ∧
          (clientId, streamId, seqId) = (envelope.clientId, envelope.streamId, envelope.seqId)

/-- What keeps assemblies completable: while the connection is there, the cursor stands at the last segment that the
assembly took. -/
structure Tracked (epoch : Nat) (reader : ServerReader Value P) : Prop where
  cursor : ∀ clientId streamId seqId assembly,
    reader.chunks.lookup (clientId, streamId, seqId) = some assembly → (ackCursors reader.remote epoch).isSome →
      ∃ segmentId, assembly.nextSegmentId = segmentId + 1 ∧
        ackCursor reader.remote epoch clientId streamId = some (seqId, some segmentId)
  single : ∀ clientId streamId seqId other,
    (clientId, streamId, seqId) ∈ reader.chunks → (clientId, streamId, other) ∈ reader.chunks → seqId = other
  size : ∀ key assembly, reader.chunks.lookup key = some assembly →
    assembly.raw.length ≤ assembly.messageSizeBytes ∧ assembly.messageSizeBytes ≤ remoteControlReassembledMaxBytes

variable {clientId streamId : String} {remote : RemoteControlInner P}

theorem ackCursors_isSome {cursor : Nat × Option Nat} (h : ackCursor remote epoch clientId streamId = some cursor) :
    (ackCursors remote epoch).isSome := by
  obtain ⟨cursors, hcursors, _⟩ := bind_eq_some_iff.mp h
  exact isSome_of_eq_some hcursors

theorem ackCursorGt_next (seqId segmentId : Nat) :
    ackCursorGt (seqId, some (segmentId + 1)) (seqId, some segmentId) = true := by
  simp [ackCursorGt, cursorPair]

theorem ackCursorGt_between {seqId segmentId : Nat} {next : Nat × Option Nat}
    (h : ackCursorGt next (seqId, some segmentId) = true) :
    ackCursorGt (seqId, some (segmentId + 1)) next = false := by
  rw [ackCursorGt_iff] at h
  rw [Bool.eq_false_iff, ne_eq, ackCursorGt_iff, not_lt]
  simp only [cursorKey, cursorPair, getD_some, Prod.Lex.toLex_lt_toLex, Prod.Lex.toLex_le_toLex] at h ⊢
  omega

variable {segmentId : Option Nat} {seqId : Nat}

theorem markServerEnvelopeAcked_of_le {cursor : Nat × Option Nat}
    (hcursor : ackCursor remote epoch clientId streamId = some cursor)
    (hle : ackCursorGt (seqId, segmentId) cursor = false) :
    markServerEnvelopeAcked remote epoch clientId streamId seqId segmentId = remote := by
  obtain ⟨cursors, hcursors, hlookup⟩ := bind_eq_some_iff.mp hcursor
  obtain ⟨connection, hconnection, rfl⟩ := map_eq_some_iff.mp hcursors
  simp only [markServerEnvelopeAcked, hconnection]
  rw [hlookup, all_some, hle, if_neg (by decide)]

theorem ackCursors_mark :
    ackCursors (markServerEnvelopeAcked remote epoch clientId streamId seqId segmentId) epoch =
      (ackCursors remote epoch).map fun cursors =>
        markCursor cursors (serverAckCursorKey epoch clientId streamId) (seqId, segmentId) := by
  unfold ackCursors
  cases hconnection : connectionForEpochLocked remote epoch with
  | none =>
    simp only [markServerEnvelopeAcked, hconnection]
    rfl
  | some connection =>
    rw [markServerEnvelopeAcked_connection hconnection]
    rfl

theorem ackCursor_mark_ne {clientId streamId other otherStream : String}
    (h : serverAckCursorKey epoch other otherStream ≠ serverAckCursorKey epoch clientId streamId) :
    ackCursor (markServerEnvelopeAcked remote epoch clientId streamId seqId segmentId) epoch other otherStream =
      ackCursor remote epoch other otherStream := by
  unfold ackCursor
  rw [ackCursors_mark]
  cases ackCursors remote epoch with
  | none => rfl
  | some cursors => exact markCursor_lookup_ne h

theorem ackCursor_mark_moves {clientId streamId other otherStream : String} (hlive : (ackCursors remote epoch).isSome)
    (hkey : serverAckCursorKey epoch other otherStream = serverAckCursorKey epoch clientId streamId)
    (hgt : ∀ cursor, ackCursor remote epoch other otherStream = some cursor →
      ackCursorGt (seqId, segmentId) cursor = true) :
    ackCursor (markServerEnvelopeAcked remote epoch clientId streamId seqId segmentId) epoch other otherStream =
      some (seqId, segmentId) := by
  obtain ⟨cursors, hcursors⟩ := isSome_iff_exists.mp hlive
  unfold ackCursor at hgt ⊢
  rw [ackCursors_mark]
  rw [hcursors] at hgt ⊢
  simp only [map_some, bind_some] at hgt ⊢
  rw [hkey] at hgt ⊢
  have hall : (cursors.lookup (serverAckCursorKey epoch clientId streamId)).all
      (fun current => ackCursorGt (seqId, segmentId) current) = true := by
    rw [all_eq_true]
    exact hgt
  unfold markCursor
  rw [if_pos hall]
  exact AList.lookup_insert _

theorem ackCursors_recordRemoteAppPong (env : Surroundings) (remote : RemoteControlInner P)
    (clientId streamId status : String) :
    ackCursors (recordRemoteAppPong env remote epoch clientId streamId status).1 epoch = ackCursors remote epoch := by
  unfold recordRemoteAppPong ackCursors
  split
  next connection clientKey hconnection _ =>
    obtain ⟨hconnection, _⟩ := filter_eq_some_iff.mp hconnection
    rw [connectionForEpochLocked_setConnection, hconnection]
    rfl
  next => rfl

theorem ackCursors_takeEvent (env : Surroundings) (envelope : IncomingServerEnvelope Value)
    (reader : ServerReader Value P) :
    ackCursors (takeEvent c env epoch envelope reader).2.1 epoch = ackCursors reader.remote epoch := by
  obtain ⟨event, clientId, streamId, seqId⟩ := envelope
  cases event with
  | serverMessage message | serverMessageChunk | ack => rfl
  | pong status => exact ackCursors_recordRemoteAppPong env reader.remote clientId streamId status

theorem takeEvent_keeps (env : Surroundings) {envelope : IncomingServerEnvelope Value} {reader : ServerReader Value P}
    (h : IsChunk envelope → (clientId, streamId, seqId) ≠ (envelope.clientId, envelope.streamId, envelope.seqId)) :
    (takeEvent c env epoch envelope reader).1.lookup (clientId, streamId, seqId) =
      reader.chunks.lookup (clientId, streamId, seqId) := by
  obtain ⟨event, envelopeClient, envelopeStream, envelopeSeq⟩ := envelope
  cases event with
  | serverMessage message | ack | pong status => rfl
  | serverMessageChunk segmentId segmentCount messageSizeBytes messageChunkBase64 =>
    obtain ⟨_, hslots⟩ := observeServerChunk_slot (c := c) reader.chunks envelopeClient envelopeStream envelopeSeq
      segmentId segmentCount messageSizeBytes messageChunkBase64
    exact (hslots _).trans (if_neg (h rfl))

/-- The assembly that a chunk leaves is the one that was there and is ahead of the chunk, or has just taken it. -/
theorem observeSlot_kept {slot : Option ServerChunkAssembly} {segmentId segmentCount messageSizeBytes : Nat}
    {messageChunkBase64 : String} {assembly : ServerChunkAssembly}
    (h : (observeSlot c slot segmentId segmentCount messageSizeBytes messageChunkBase64).1 = some assembly) :
    (slot = some assembly ∧ segmentId < assembly.nextSegmentId) ∨
      (assembly.nextSegmentId = segmentId + 1 ∧ assembly.raw.length ≤ assembly.messageSizeBytes ∧
        assembly.messageSizeBytes ≤ remoteControlReassembledMaxBytes) := by
  unfold observeSlot at h
  dsimp only at h
  split at h
  next hbehind =>
    have hslot : slot = some assembly := h
    rw [hslot, any_some, decide_eq_true_eq] at hbehind
    exact .inl ⟨hslot, hbehind⟩
  next =>
    split at h
    next => cases h
    next hvalid =>
      have hmax : messageSizeBytes ≤ remoteControlReassembledMaxBytes := by
        simp only [invalidChunkMetadata, Bool.or_eq_true, decide_eq_true_eq, not_or, gt_iff_lt, not_lt] at hvalid
        exact hvalid.1.2
      split at h
      next => cases h
      next hnext =>
        split at h
        next => cases h
        next chunk _ =>
          split at h
          next => cases h
          next hfits =>
            split at h
            next =>
              have hassembly := Option.some.inj h
              rw [← hassembly]
              dsimp only
              rw [List.length_append]
              exact .inr ⟨by omega, by omega, by omega⟩
            next =>
              split at h
              next => cases h
              next =>
                split at h
                next => cases h
                next => cases h

/-- Every assembly is within the size that its chunks declare, and the declared size within the limit. -/
def Sized (chunks : ServerChunkMap) : Prop :=
  ∀ key assembly, chunks.lookup key = some assembly →
    assembly.raw.length ≤ assembly.messageSizeBytes ∧ assembly.messageSizeBytes ≤ remoteControlReassembledMaxBytes

theorem Sized.observe {chunks : ServerChunkMap} (h : Sized chunks) (clientId streamId : String)
    (seqId segmentId segmentCount messageSizeBytes : Nat) (messageChunkBase64 : String) :
    Sized (observeServerChunk c chunks clientId streamId seqId segmentId segmentCount messageSizeBytes
      messageChunkBase64).1 := by
  obtain ⟨_, hslots⟩ := observeServerChunk_slot (c := c) chunks clientId streamId seqId segmentId segmentCount
    messageSizeBytes messageChunkBase64
  intro key assembly hlookup
  have hslot := (hslots key).symm.trans hlookup
  split at hslot
  next =>
    rcases observeSlot_kept hslot with ⟨hold, -⟩ | ⟨-, hsized⟩
    · exact h _ _ hold
    · exact hsized
  next => exact h _ _ hslot

theorem isDuplicateServerEnvelope_eq (remote : RemoteControlInner P) (clientId streamId : String) (seqId : Nat)
    (segmentId : Option Nat) :
    isDuplicateServerEnvelope remote epoch clientId streamId seqId segmentId =
      (ackCursor remote epoch clientId streamId).any fun current => !ackCursorGt (seqId, segmentId) current := by
  rw [ackCursor, ackCursors, bind_map]
  rfl

theorem isDuplicateServerEnvelope_false
    (h : isDuplicateServerEnvelope remote epoch clientId streamId seqId segmentId = false) :
    ∀ cursor, ackCursor remote epoch clientId streamId = some cursor →
      ackCursorGt (seqId, segmentId) cursor = true := by
  intro cursor hcursor
  rw [isDuplicateServerEnvelope_eq, hcursor, any_some, Bool.not_eq_false'] at h
  exact h

theorem ackCursors_of_current (h : isCurrentRemoteStream remote epoch clientId streamId = true) :
    (ackCursors remote epoch).isSome := by
  unfold isCurrentRemoteStream connectionExistsLocked at h
  rw [Bool.and_eq_true, any_eq_true] at h
  obtain ⟨connection, hconnection, _⟩ := h.1
  rw [ackCursors, hconnection]
  rfl

theorem ackCursor_of_key {r : RemoteControlInner P} {clientId streamId other otherStream : String}
    (h : serverAckCursorKey epoch clientId streamId = serverAckCursorKey epoch other otherStream) :
    ackCursor r epoch clientId streamId = ackCursor r epoch other otherStream := by
  rw [ackCursor, ackCursor, h]

section

variable {reader : ServerReader Value P} {envelope : IncomingServerEnvelope Value}

section

variable (htracked : Tracked epoch reader)
include htracked

section

variable (hguard : OvertakesNothing epoch reader envelope)
include hguard

/-- Nothing that is moved past shares the cursor of a new envelope, the assembly of its own chunk apart. -/
theorem Tracked.only_own (hlive : (ackCursors reader.remote epoch).isSome)
    (hnew : ∀ cursor, ackCursor reader.remote epoch envelope.clientId envelope.streamId = some cursor →
      ackCursorGt (envelope.seqId, serverEventSegmentId envelope.event) cursor = true)
    {clientId streamId : String} {seqId : Nat} {assembly : ServerChunkAssembly}
    (hlookup : reader.chunks.lookup (clientId, streamId, seqId) = some assembly)
    (hkey : serverAckCursorKey epoch clientId streamId =
      serverAckCursorKey epoch envelope.clientId envelope.streamId) :
    isCurrentRemoteStream reader.remote epoch envelope.clientId envelope.streamId = true ∧ IsChunk envelope ∧
      (clientId, streamId, seqId) = (envelope.clientId, envelope.streamId, envelope.seqId) := by
  rcases hguard clientId streamId seqId assembly hlookup hkey with hahead | hown
  · obtain ⟨segmentId, hnext, hcursor⟩ := htracked.cursor clientId streamId seqId assembly hlookup hlive
    have hbehind := ackCursorGt_between (hnew _ ((ackCursor_of_key hkey).symm.trans hcursor))
    rw [hnext] at hahead
    exact Bool.noConfusion (hahead.symm.trans hbehind)
  · exact hown

omit hguard in
theorem Tracked.stale (hguard : (ackCursors reader.remote epoch).isSome → OvertakesNothing epoch reader envelope)
    (hcurrent : isCurrentRemoteStream reader.remote epoch envelope.clientId envelope.streamId = false) (work)
    (outbound) :
    Tracked epoch (⟨markServerEnvelopeAcked reader.remote epoch envelope.clientId envelope.streamId envelope.seqId
      (serverEventSegmentId envelope.event), reader.chunks, work, outbound⟩ : ServerReader Value P) := by
  refine ⟨?_, htracked.single, htracked.size⟩
  intro clientId streamId seqId assembly hlookup hlive
  rw [ackCursors_mark, isSome_map] at hlive
  obtain ⟨segmentId, hnext, hcursor⟩ := htracked.cursor clientId streamId seqId assembly hlookup hlive
  refine ⟨segmentId, hnext, ?_⟩
  by_cases hkey : serverAckCursorKey epoch clientId streamId =
      serverAckCursorKey epoch envelope.clientId envelope.streamId
  · have hbehind : ackCursorGt (envelope.seqId, serverEventSegmentId envelope.event) (seqId, some segmentId) =
        false := by
      rcases hguard hlive clientId streamId seqId assembly hlookup hkey with hahead | ⟨hregistered, _⟩
      · rw [Bool.eq_false_iff]
        intro hgt
        rw [hnext] at hahead
        exact Bool.noConfusion (hahead.symm.trans (ackCursorGt_between hgt))
      · exact Bool.noConfusion (hregistered.symm.trans hcurrent)
    rw [markServerEnvelopeAcked_of_le ((ackCursor_of_key hkey).symm.trans hcursor) hbehind]
    exact hcursor
  · rw [ackCursor_mark_ne hkey]
    exact hcursor

theorem Tracked.take_whole (hlive : (ackCursors reader.remote epoch).isSome)
    (hnew : ∀ cursor, ackCursor reader.remote epoch envelope.clientId envelope.streamId = some cursor →
      ackCursorGt (envelope.seqId, serverEventSegmentId envelope.event) cursor = true)
    (hwhole : ¬IsChunk envelope) {remote : RemoteControlInner P}
    (hremote : ackCursors remote epoch = ackCursors reader.remote epoch) (work) (outbound) :
    Tracked epoch (⟨markServerEnvelopeAcked remote epoch envelope.clientId envelope.streamId envelope.seqId
      (serverEventSegmentId envelope.event), reader.chunks, work, outbound⟩ : ServerReader Value P) := by
  refine ⟨?_, htracked.single, htracked.size⟩
  intro clientId streamId seqId assembly hlookup _
  obtain ⟨segmentId, hnext, hcursor⟩ := htracked.cursor clientId streamId seqId assembly hlookup hlive
  refine ⟨segmentId, hnext, ?_⟩
  have hkey : serverAckCursorKey epoch clientId streamId ≠
      serverAckCursorKey epoch envelope.clientId envelope.streamId := by
    intro hkey
    exact hwhole (htracked.only_own hguard hlive hnew hlookup hkey).2.1
  rw [ackCursor_mark_ne hkey, ackCursor, hremote]
  exact hcursor

theorem Tracked.take_chunk (hlive : (ackCursors reader.remote epoch).isSome)
    (hnew : ∀ cursor, ackCursor reader.remote epoch envelope.clientId envelope.streamId = some cursor →
      ackCursorGt (envelope.seqId, serverEventSegmentId envelope.event) cursor = true)
    {segmentId segmentCount messageSizeBytes : Nat} {messageChunkBase64 : String}
    (hevent : envelope.event = .serverMessageChunk segmentId segmentCount messageSizeBytes messageChunkBase64)
    (work) (outbound) :
    Tracked epoch (⟨markServerEnvelopeAcked reader.remote epoch envelope.clientId envelope.streamId envelope.seqId
      (some segmentId), (observeServerChunk c reader.chunks envelope.clientId envelope.streamId envelope.seqId
        segmentId segmentCount messageSizeBytes messageChunkBase64).1, work, outbound⟩ : ServerReader Value P) := by
  obtain ⟨_, hslots⟩ := observeServerChunk_slot (c := c) reader.chunks envelope.clientId envelope.streamId
    envelope.seqId segmentId segmentCount messageSizeBytes messageChunkBase64
  have hsegment : serverEventSegmentId envelope.event = some segmentId := by
    rw [hevent]
    rfl
  have hfree : ∀ clientId streamId seqId assembly, reader.chunks.lookup (clientId, streamId, seqId) = some assembly →
      serverAckCursorKey epoch clientId streamId = serverAckCursorKey epoch envelope.clientId envelope.streamId →
        (clientId, streamId, seqId) = (envelope.clientId, envelope.streamId, envelope.seqId) := by
    intro clientId streamId seqId assembly hlookup hkey
    exact (htracked.only_own hguard hlive hnew hlookup hkey).2.2
  rw [hsegment] at hnew
  have hsized := Sized.observe (c := c) htracked.size envelope.clientId envelope.streamId envelope.seqId segmentId
    segmentCount messageSizeBytes messageChunkBase64
  generalize (observeServerChunk c reader.chunks envelope.clientId envelope.streamId envelope.seqId segmentId
    segmentCount messageSizeBytes messageChunkBase64).1 = chunks at hslots hsized ⊢
  have hother : ∀ key, key ≠ (envelope.clientId, envelope.streamId, envelope.seqId) →
      chunks.lookup key = reader.chunks.lookup key := by
    intro key hne
    rw [hslots, if_neg hne]
  have hown : ∀ assembly,
      chunks.lookup (envelope.clientId, envelope.streamId, envelope.seqId) = some assembly →
        assembly.nextSegmentId = segmentId + 1 := by
    intro assembly hlookup
    rw [hslots, if_pos rfl] at hlookup
    rcases observeSlot_kept hlookup with ⟨hslot, hahead⟩ | htaken
    · obtain ⟨last, hnext, hcursor⟩ := htracked.cursor _ _ _ assembly hslot hlive
      have hgt := hnew _ hcursor
      simp only [ackCursorGt, cursorPair, getD_some, lt_irrefl, decide_false, Bool.false_or, decide_true,
        Bool.true_and] at hgt
      have hbehind := of_decide_eq_true hgt
      omega
    · exact htaken.1
  constructor
  case cursor =>
    intro clientId streamId seqId assembly hlookup _
    by_cases hsame : (clientId, streamId, seqId) = (envelope.clientId, envelope.streamId, envelope.seqId)
    · cases hsame
      exact ⟨segmentId, hown assembly hlookup, ackCursor_mark_moves hlive rfl hnew⟩
    · rw [hother _ hsame] at hlookup
      obtain ⟨last, hnext, hcursor⟩ := htracked.cursor clientId streamId seqId assembly hlookup hlive
      refine ⟨last, hnext, ?_⟩
      rw [ackCursor_mark_ne fun hkey => hsame (hfree clientId streamId seqId assembly hlookup hkey)]
      exact hcursor
  case single =>
    intro clientId streamId seqId other hseq hother'
    -- an assembly of the stream that was there before has the number of the chunk
    have hold : ∀ number, (clientId, streamId, number) ∈ chunks →
        (clientId, streamId, number) = (envelope.clientId, envelope.streamId, envelope.seqId) ∨
          (clientId, streamId, number) ∈ reader.chunks := by
      intro number hmem
      by_cases hsame : (clientId, streamId, number) = (envelope.clientId, envelope.streamId, envelope.seqId)
      · exact .inl hsame
      · rw [← AList.lookup_isSome, hother _ hsame, AList.lookup_isSome] at hmem
        exact .inr hmem
    have hshared : clientId = envelope.clientId → streamId = envelope.streamId → ∀ number,
        (clientId, streamId, number) ∈ reader.chunks → number = envelope.seqId := by
      intro hclient hstream number hmem
      rw [← AList.lookup_isSome] at hmem
      obtain ⟨assembly, hlookup⟩ := isSome_iff_exists.mp hmem
      have hsame := hfree clientId streamId number assembly hlookup (by rw [hclient, hstream])
      exact (Prod.mk.inj (Prod.mk.inj hsame).2).2
    rcases hold seqId hseq with hfirst | hfirst
    · rw [Prod.mk.injEq, Prod.mk.injEq] at hfirst
      obtain ⟨hclient, hstream, hnumber⟩ := hfirst
      rcases hold other hother' with hsecond | hsecond
      · have hnumber' := (Prod.mk.inj (Prod.mk.inj hsecond).2).2
        exact hnumber.trans hnumber'.symm
      · exact hnumber.trans (hshared hclient hstream other hsecond).symm
    · rcases hold other hother' with hsecond | hsecond
      · rw [Prod.mk.injEq, Prod.mk.injEq] at hsecond
        obtain ⟨hclient, hstream, hnumber⟩ := hsecond
        exact (hshared hclient hstream seqId hfirst).trans hnumber.symm
      · exact htracked.single clientId streamId seqId other hfirst hsecond
  case size => exact hsized

end

end

section

variable (env : Surroundings)
include env

theorem ackAndMark_ok_iff (clientId streamId : String) (seqId : Nat) (segmentId : Option Nat) :
    (ackAndMark env epoch clientId streamId seqId segmentId reader).2 = .ok () ↔ env.outboundOpen = true := by
  unfold ackAndMark ackServerEnvelope
  cases env.outboundOpen with
  | true => exact iff_of_true rfl rfl
  | false => exact iff_of_false (fun h => by cases h) (fun h => by cases h)

theorem enqueueAckAndMark_ok_iff (clientId streamId : String) (seqId : Nat)
    (item : RemoteServerWorkItem Value) (segmentId : Option Nat) :
    (enqueueAckAndMark env epoch clientId streamId seqId item segmentId reader).2 = .ok () ↔
      env.outboundOpen = true ∧ env.workQueue = .room := by
  unfold enqueueAckAndMark enqueueRemoteServerWork
  cases env.workQueue with
  | room =>
    rw [ackAndMark_ok_iff]
    exact ⟨fun h => ⟨h, rfl⟩, fun h => h.1⟩
  | full | closed => exact iff_of_false (fun h => by cases h) (fun h => by cases h.2)

theorem handleServerEvent_ok_iff :
    (handleServerEvent env epoch envelope.clientId envelope.streamId envelope.seqId c envelope.event reader).2 =
        .ok () ↔
      env.outboundOpen = true ∧ (env.workQueue = .room ∨ (takeEvent c env epoch envelope reader).2.2 = []) := by
  obtain ⟨event, clientId, streamId, seqId⟩ := envelope
  have hitem : ∀ item : RemoteServerWorkItem Value, [item] ≠ [] := fun item => List.cons_ne_nil item []
  cases event with
  | serverMessage message | ack | pong status =>
    simp only [handleServerEvent, takeEvent, hitem, or_false]
    exact enqueueAckAndMark_ok_iff env clientId streamId seqId _ none
  | serverMessageChunk segmentId segmentCount messageSizeBytes messageChunkBase64 =>
    simp only [handleServerEvent, takeEvent]
    generalize observeServerChunk c reader.chunks clientId streamId seqId segmentId segmentCount messageSizeBytes
      messageChunkBase64 = observed
    obtain ⟨chunks, observation⟩ := observed
    cases observation with
    | complete message =>
      simp only [hitem, or_false]
      exact enqueueAckAndMark_ok_iff env clientId streamId seqId _ (some segmentId)
    | pending | dropped =>
      simp only [or_true, and_true]
      exact ackAndMark_ok_iff env clientId streamId seqId (some segmentId)

theorem handleServerEnvelope_ok_iff :
    (handleServerEnvelope env epoch c envelope reader).2 = .ok () ↔ Accepts epoch c env reader envelope := by
  unfold Accepts
  dsimp only [handleServerEnvelope]
  cases isCurrentRemoteStream reader.remote epoch envelope.clientId envelope.streamId with
  | false =>
    simp only [true_or, or_true, and_true]
    exact ackAndMark_ok_iff env _ _ _ _
  | true =>
    cases isDuplicateServerEnvelope reader.remote epoch envelope.clientId envelope.streamId envelope.seqId
      (serverEventSegmentId envelope.event) with
    | true =>
      simp only [true_or, or_true, and_true]
      unfold ackServerEnvelope
      cases env.outboundOpen with
      | true => exact iff_of_true rfl rfl
      | false => exact iff_of_false (fun h => by cases h) (fun h => by cases h)
    | false =>
      simp only [Bool.true_eq_false, Bool.false_eq_true, false_or]
      exact handleServerEvent_ok_iff env

theorem Tracked.handle (htracked : Tracked epoch reader)
    (hguard : (ackCursors reader.remote epoch).isSome → OvertakesNothing epoch reader envelope)
    (hok : (handleServerEnvelope env epoch c envelope reader).2 = .ok ()) :
    Tracked epoch (handleServerEnvelope env epoch c envelope reader).1 := by
  rcases handleServerEnvelope_cases c env epoch envelope reader with
    ⟨hcurrent, he⟩ | ⟨_, _, he⟩ | ⟨hcurrent, hduplicate, he⟩ | ⟨_, ⟨err, herr⟩, _⟩
  · rw [he]
    exact htracked.stale hguard hcurrent _ _
  · rw [he]
    exact ⟨htracked.cursor, htracked.single, htracked.size⟩
  · have hlive := ackCursors_of_current hcurrent
    have hguard := hguard hlive
    have hnew := isDuplicateServerEnvelope_false hduplicate
    rw [he]
    obtain ⟨event, clientId, streamId, seqId⟩ := envelope
    cases event with
    | serverMessage message =>
      exact htracked.take_whole hguard hlive hnew (by simp [IsChunk, serverEventSegmentId]) rfl _ _
    | serverMessageChunk segmentId segmentCount messageSizeBytes messageChunkBase64 =>
      exact htracked.take_chunk hguard hlive hnew rfl _ _
    | ack => exact htracked.take_whole hguard hlive hnew (by simp [IsChunk, serverEventSegmentId]) rfl _ _
    | pong status =>
      exact htracked.take_whole hguard hlive hnew (by simp [IsChunk, serverEventSegmentId])
        (ackCursors_recordRemoteAppPong env reader.remote clientId streamId status) _ _
  · rw [herr] at hok
    cases hok

omit env in
theorem Tracked.of_empty (h : reader.chunks = ∅) : Tracked epoch reader := by
  have hnone : ∀ key assembly, reader.chunks.lookup key ≠ some assembly := by
    intro key assembly hlookup
    rw [h] at hlookup
    cases hlookup
  refine ⟨?_, ?_, ?_⟩
  · intro clientId streamId seqId assembly hlookup
    exact absurd hlookup (hnone _ _)
  · intro clientId streamId seqId other hmem
    rw [h] at hmem
    exact absurd hmem (AList.notMem_empty _)
  · intro key assembly hlookup
    exact absurd hlookup (hnone _ _)

omit env in
theorem Tracked.allCompletable (htracked : Tracked epoch reader) : AllCompletable epoch reader := by
  refine ⟨?_, htracked.single, ?_⟩
  · intro clientId streamId seqId assembly hlookup cursor hcursor
    obtain ⟨segmentId, hnext, hlast⟩ := htracked.cursor clientId streamId seqId assembly hlookup
      (ackCursors_isSome hcursor)
    rw [← Option.some.inj (hlast.symm.trans hcursor), hnext]
    exact ackCursorGt_next seqId segmentId
  · intro streams hstreams
    have hbytes : bufferedBytes reader.chunks ≤ reader.chunks.entries.length * remoteControlReassembledMaxBytes := by
      have hsum := List.sum_le_card_nsmul (reader.chunks.entries.map fun entry => entry.2.raw.length)
        remoteControlReassembledMaxBytes (by
          intro length hlength
          obtain ⟨entry, hentry, rfl⟩ := List.mem_map.mp hlength
          have hlookup : reader.chunks.lookup entry.1 = some entry.2 := Table.lookup_eq_some_iff.mpr hentry
          have hsize := htracked.size entry.1 entry.2 hlookup
          omega)
      rwa [List.length_map, smul_eq_mul] at hsum
    have hcount : reader.chunks.entries.length ≤ streams.length := by
      have hnodup : (reader.chunks.keys.map fun key => (key.1, key.2.1)).Nodup := by
        refine List.Nodup.map_on ?_ reader.chunks.keys_nodup
        intro key hkey other hother heq
        obtain ⟨clientId, streamId, seqId⟩ := key
        obtain ⟨otherClient, otherStream, otherSeq⟩ := other
        rw [Prod.mk.injEq] at heq
        obtain ⟨hclient, hstream⟩ := heq
        subst hclient
        subst hstream
        rw [htracked.single clientId streamId seqId otherSeq hkey hother]
      have hsubset : (reader.chunks.keys.map fun key => (key.1, key.2.1)) ⊆ streams := by
        intro stream hstream
        obtain ⟨key, hkey, rfl⟩ := List.mem_map.mp hstream
        exact hstreams key hkey
      have hle := (List.subperm_of_subset hnodup hsubset).length_le
      rwa [List.length_map, AList.keys, List.keys, List.length_map] at hle
    exact hbytes.trans (Nat.mul_le_mul_right _ hcount)

/-- Conversely an envelope that the channels take and that overtakes an assembly leaves it behind dead. -/
theorem overtaken_not_completable (haccepts : Accepts epoch c env reader envelope) (htracked : Tracked epoch reader)
    (hlive : (ackCursors reader.remote epoch).isSome) (h : ¬OvertakesNothing epoch reader envelope) :
    ¬AllCompletable epoch (handleServerEnvelope env epoch c envelope reader).1 := by
  simp only [OvertakesNothing, not_forall, not_or] at h
  obtain ⟨clientId, streamId, seqId, assembly, hlookup, hkey, hahead, hown⟩ := h
  obtain ⟨segmentId, hnext, hcursor⟩ := htracked.cursor clientId streamId seqId assembly hlookup hlive
  have hsame := ackCursor_of_key (r := reader.remote) hkey
  -- the envelope moves the cursor, so a state that still has the assembly has it dead
  have hgt : ackCursorGt (envelope.seqId, serverEventSegmentId envelope.event) (seqId, some segmentId) = true := by
    by_contra hle
    rw [hnext] at hahead
    rw [ackCursorGt_iff, not_lt] at hle
    rw [ackCursorGt_iff, not_lt] at hahead
    have hlt := ackCursorGt_iff.mp (ackCursorGt_next seqId segmentId)
    exact absurd (hahead.trans hle) (not_le.mpr hlt)
  have hdead : ∀ remote work outbound (chunks : ServerChunkMap), ackCursors remote epoch = ackCursors reader.remote epoch →
      chunks.lookup (clientId, streamId, seqId) = some assembly →
        ¬AllCompletable epoch (⟨markServerEnvelopeAcked remote epoch envelope.clientId envelope.streamId
          envelope.seqId (serverEventSegmentId envelope.event), chunks, work, outbound⟩ : ServerReader Value P) := by
    intro remote work outbound chunks hremote hkept hall
    have hmoved : ackCursor (markServerEnvelopeAcked remote epoch envelope.clientId envelope.streamId envelope.seqId
        (serverEventSegmentId envelope.event)) epoch clientId streamId =
        some (envelope.seqId, serverEventSegmentId envelope.event) := by
      refine ackCursor_mark_moves (hremote ▸ hlive) hkey ?_
      intro cursor hold
      rw [ackCursor, hremote] at hold
      rw [← Option.some.inj (hcursor.symm.trans hold)]
      exact hgt
    exact hahead (hall.completable clientId streamId seqId assembly hkept _ hmoved)
  rcases handleServerEnvelope_cases c env epoch envelope reader with
    ⟨_, he⟩ | ⟨_, hduplicate, he⟩ | ⟨hcurrent, _, he⟩ | ⟨_, ⟨err, herr⟩, _⟩
  · rw [he]
    exact hdead _ _ _ _ rfl hlookup
  · have hsome : isDuplicateServerEnvelope reader.remote epoch envelope.clientId envelope.streamId envelope.seqId
        (serverEventSegmentId envelope.event) = false := by
      rw [isDuplicateServerEnvelope_eq, ← hsame, hcursor, any_some, hgt]
      rfl
    exact Bool.noConfusion (hduplicate.symm.trans hsome)
  · rw [he]
    refine hdead _ _ _ _ (ackCursors_takeEvent env envelope reader) ?_
    rw [takeEvent_keeps env fun hchunk hkeys => hown ⟨hcurrent, hchunk, hkeys⟩]
    exact hlookup
  · have hok := (handleServerEnvelope_ok_iff env).mpr haccepts
    rw [herr] at hok
    cases hok

end

end

/-- An arrival that is handled overtakes no message that is half received. -/
def InSequence (epoch : Nat) (c : WireCodec Value) (task : ReaderTask Value P) : ReaderEvent Value P → Prop
  | .arrives env envelope =>
    Accepts epoch c env task.reader envelope → (ackCursors task.reader.remote epoch).isSome →
      OvertakesNothing epoch task.reader envelope
  | .elsewhere _ => True

/-- A handler that fails ends the task. -/
theorem readerStep_arrives {task next : ReaderTask Value P} {env : Surroundings}
    {envelope : IncomingServerEnvelope Value} (h : readerStep epoch c task (.arrives env envelope) = some next) :
    (handleServerEnvelope env epoch c envelope task.reader).2 = .ok () ∧
        next.reader = (handleServerEnvelope env epoch c envelope task.reader).1 ∨
      (handleServerEnvelope env epoch c envelope task.reader).2 ≠ .ok () ∧ next.reader.chunks = ∅ := by
  simp only [readerStep] at h
  split at h
  next =>
    generalize handleServerEnvelope env epoch c envelope task.reader = out at h ⊢
    obtain ⟨reader, result⟩ := out
    cases result with
    | ok =>
      cases h
      exact .inl ⟨rfl, rfl⟩
    | error err =>
      cases h
      exact .inr ⟨nofun, rfl⟩
  next => cases h

section

variable {task next : ReaderTask Value P} {event : ReaderEvent Value P}

theorem readerStep_tracked (htracked : Tracked epoch task.reader) (hguard : InSequence epoch c task event)
    (hstep : readerStep epoch c task event = some next) : Tracked epoch next.reader := by
  cases event with
  | arrives env envelope =>
    rcases readerStep_arrives hstep with ⟨hok, hnext⟩ | ⟨-, hempty⟩
    · rw [hnext]
      exact htracked.handle env (hguard ((handleServerEnvelope_ok_iff env).mp hok)) hok
    · exact Tracked.of_empty hempty
  | elsewhere remote =>
    simp only [readerStep] at hstep
    split at hstep
    next hcursors =>
      cases hstep
      refine ⟨?_, htracked.single, htracked.size⟩
      intro clientId streamId seqId assembly hlookup hlive
      rcases hcursors with hnone | hsame
      · rw [hnone] at hlive
        cases hlive
      · rw [hsame] at hlive
        obtain ⟨segmentId, hnext, hcursor⟩ := htracked.cursor clientId streamId seqId assembly hlookup hlive
        refine ⟨segmentId, hnext, ?_⟩
        rw [ackCursor, hsame]
        exact hcursor
    next => cases hstep

theorem readerStep_needs (htracked : Tracked epoch task.reader) (hstep : readerStep epoch c task event = some next)
    (hall : AllCompletable epoch next.reader) : InSequence epoch c task event := by
  cases event with
  | arrives env envelope =>
    intro haccepts hlive
    by_contra hovertakes
    have hdead := overtaken_not_completable env haccepts htracked hlive hovertakes
    rcases readerStep_arrives hstep with ⟨-, hnext⟩ | ⟨herror, -⟩
    · exact hdead (hnext ▸ hall)
    · exact herror ((handleServerEnvelope_ok_iff env).mpr haccepts)
  | elsewhere remote => trivial

theorem readerStep_sized (h : Sized task.reader.chunks) (hstep : readerStep epoch c task event = some next) :
    Sized next.reader.chunks := by
  cases event with
  | elsewhere remote =>
    obtain ⟨-, hnext⟩ := ite_none_right_eq_some.mp hstep
    cases hnext
    exact h
  | arrives env envelope =>
    rcases readerStep_arrives hstep with ⟨hok, hnext⟩ | ⟨-, hempty⟩
    · rw [hnext]
      rcases handleServerEnvelope_cases c env epoch envelope task.reader with
        ⟨-, he⟩ | ⟨-, -, he⟩ | ⟨-, -, he⟩ | ⟨-, ⟨err, he⟩, -⟩
      · rw [he]
        exact h
      · rw [he]
        exact h
      · rw [he]
        obtain ⟨event, clientId, streamId, seqId⟩ := envelope
        cases event with
        | serverMessage message | ack | pong status => exact h
        | serverMessageChunk => exact Sized.observe h _ _ _ _ _ _ _
      · rw [he] at hok
        cases hok
    · intro key assembly hlookup
      rw [hempty] at hlookup
      cases hlookup

end

/-- A run keeps no dead assembly if and only if no envelope in it overtakes a message that is half received. -/
theorem kept_assemblies_completable_iff {task last : ReaderTask Value P} {events : List (ReaderEvent Value P)}
    (hstart : task.reader.chunks = ∅) (hrun : run (readerStep epoch c) task events = some last) :
    (∀ done rest reached, events = done ++ rest → run (readerStep epoch c) task done = some reached →
      AllCompletable epoch reached.reader) ↔
    Runs.Meets (readerStep epoch c) (InSequence epoch c) task events := by
  refine forall_prefix_iff_meets (fun task : ReaderTask Value P => Tracked epoch task.reader) ?_ ?_ ?_
    (Tracked.of_empty hstart) hrun
  · intro task htracked
    exact htracked.allCompletable
  · intro task event next htracked hguard hstep
    exact readerStep_tracked htracked hguard hstep
  · intro task event next htracked hstep hall
    exact readerStep_needs htracked hstep hall

/-- The first of two chunks, and then a whole message. -/
def overtakingEvents : List (ReaderEvent JsonLiteral Unit) :=
  [sampleEnvelope (.serverMessageChunk 0 2 4 (Base64.encode (utf8 "tr"))) 2,
    sampleEnvelope (.serverMessage .null) 3].map fun envelope => .arrives ⟨.room, true, 0, "id"⟩ envelope

theorem kept_assemblies_completable_iff_overtaken :
    (∀ done rest reached, overtakingEvents = done ++ rest →
      run (readerStep 1 literalCodec) ⟨sampleReader, true⟩ done = some reached →
        AllCompletable 1 reached.reader) ↔
    Runs.Meets (readerStep 1 literalCodec) (InSequence 1 literalCodec) ⟨sampleReader, true⟩ overtakingEvents := by
  have hsome : (run (readerStep 1 literalCodec) ⟨sampleReader, true⟩ overtakingEvents).isSome := by
    decide +kernel
  obtain ⟨last, hrun⟩ := isSome_iff_exists.mp hsome
  exact kept_assemblies_completable_iff rfl hrun

/-- The whole message goes past the chunk, whose assembly stays. -/
theorem overtaken_assembly_kept :
    ¬∀ (events : List (ReaderEvent JsonLiteral Unit)) (reached : ReaderTask JsonLiteral Unit),
      run (readerStep 1 literalCodec) ⟨sampleReader, true⟩ events = some reached →
        AllCompletable 1 reached.reader := by
  intro h
  have hlookup : (run (readerStep 1 literalCodec) ⟨sampleReader, true⟩ overtakingEvents).bind (fun reached =>
      reached.reader.chunks.lookup (mochiportBridgeClientId, "stream", 2)) = some ⟨2, 4, utf8 "tr", 1⟩ := by
    decide +kernel
  obtain ⟨reached, hrun, hkept⟩ := bind_eq_some_iff.mp hlookup
  have hcursor : (run (readerStep 1 literalCodec) ⟨sampleReader, true⟩ overtakingEvents).bind (fun reached =>
      ackCursor reached.reader.remote 1 mochiportBridgeClientId "stream") = some (3, none) := by
    decide +kernel
  rw [hrun, bind_some] at hcursor
  have hahead := (h overtakingEvents reached hrun).completable _ _ _ _ hkept _ hcursor
  exact absurd hahead (by decide)

/-- Whatever a server sends, no assembly ever holds more than a message may have. -/
theorem kept_assemblies_bounded {task last : ReaderTask Value P} {events : List (ReaderEvent Value P)}
    (hstart : task.reader.chunks = ∅) (hrun : run (readerStep epoch c) task events = some last) :
    Sized last.reader.chunks := by
  refine run_invariant (fun task => Sized task.reader.chunks) (fun _ _ _ => readerStep_sized) ?_ hrun
  rw [hstart]
  intro key assembly hlookup
  cases hlookup

theorem kept_assemblies_bounded_overtaken :
    ∃ last : ReaderTask JsonLiteral Unit,
      run (readerStep 1 literalCodec) ⟨sampleReader, true⟩ overtakingEvents = some last ∧
        Sized last.reader.chunks := by
  have hsome : (run (readerStep 1 literalCodec) ⟨sampleReader, true⟩ overtakingEvents).isSome := by
    decide +kernel
  obtain ⟨last, hrun⟩ := isSome_iff_exists.mp hsome
  exact ⟨last, hrun, kept_assemblies_bounded rfl hrun⟩

end MochiPort

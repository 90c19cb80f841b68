import MochiPort.Tables

namespace MochiPort

abbrev Bytes := List UInt8

/-- The third-party functions the wire format rests on: `STANDARD.encode` and `decode` of the
base64 crate, `to_vec` and `from_slice` of serde_json. -/
structure WireCodec (Value : Type) where
  encode : Bytes → String
  decode : String → Option Bytes
  toVec : Value → Option Bytes
  fromSlice : Bytes → Option Value

/-- What the code relies on: decoding undoes encoding, no bytes and only they encode to the empty
text, and no bytes are not a JSON text. -/
structure WireCodec.Lawful {Value : Type} (c : WireCodec Value) : Prop where
  decode_encode : ∀ bytes, c.decode (c.encode bytes) = some bytes
  encode_nil : c.encode [] = ""
  fromSlice_toVec : ∀ message bytes, c.toVec message = some bytes → c.fromSlice bytes = some message
  fromSlice_nil : c.fromSlice [] = none

def remoteControlSegmentTargetBytes : Nat := 100 * 1024
def remoteControlSegmentMaxBytes : Nat := 150 * 1024
def remoteControlReassembledMaxBytes : Nat := 100 * 1024 * 1024
def remoteControlSegmentCountMax : Nat := 1024

inductive IncomingServerEvent (Value : Type) where
  | serverMessage (message : Value)
  | serverMessageChunk (segmentId segmentCount messageSizeBytes : Nat) (messageChunkBase64 : String)
  | ack
  | pong (status : String)
  deriving DecidableEq

structure IncomingServerEnvelope (Value : Type) where
  event : IncomingServerEvent Value
  clientId : String
  streamId : String
  seqId : Nat
  deriving DecidableEq

inductive OutgoingClientEvent (Value : Type) where
  | clientMessage (message : Value)
  | clientMessageChunk (segmentId segmentCount messageSizeBytes : Nat) (messageChunkBase64 : String)
  | ack (segmentId : Option Nat)
  | ping
  deriving DecidableEq

structure OutgoingClientEnvelope (Value : Type) where
  event : OutgoingClientEvent Value
  clientId : String
  streamId : Option String
  seqId : Option Nat
  cursor : Option String
  deriving DecidableEq

structure ServerChunkAssembly where
  segmentCount : Nat
  messageSizeBytes : Nat
  raw : Bytes
  nextSegmentId : Nat
  deriving DecidableEq

abbrev ServerChunkMap := Table (String × String × Nat) ServerChunkAssembly

inductive ServerChunkObservation (Value : Type) where
  | pending
  | complete (message : Value)
  | dropped
  deriving DecidableEq

section

variable {Value : Type}

def buildClientAckEnvelope (clientId streamId : String) (seqId : Nat) (segmentId : Option Nat) :
    OutgoingClientEnvelope Value :=
  ⟨.ack segmentId, clientId, some streamId, some seqId, none⟩

/-- The checks on a chunk's own fields, before its assembly is looked at. -/
def invalidChunkMetadata (segmentId segmentCount messageSizeBytes : Nat) (messageChunkBase64 : String) : Bool :=
  segmentCount == 0 || segmentCount > remoteControlSegmentCountMax || segmentId ≥ segmentCount ||
    messageSizeBytes == 0 || messageSizeBytes > remoteControlReassembledMaxBytes ||
    messageChunkBase64.isEmpty

def observeServerChunk (c : WireCodec Value) (chunks : ServerChunkMap) (clientId streamId : String)
    (seqId segmentId segmentCount messageSizeBytes : Nat) (messageChunkBase64 : String) :
    ServerChunkMap × ServerChunkObservation Value :=
  let key := (clientId, streamId, seqId)
  if (chunks.lookup key).any fun assembly => segmentId < assembly.nextSegmentId then
    (chunks, .dropped)
  else if invalidChunkMetadata segmentId segmentCount messageSizeBytes messageChunkBase64 then
    (chunks.erase key, .dropped)
  else
    -- a fresh assembly enters the map here; every branch below takes it out or writes it back
    let assembly := (chunks.lookup key).getD ⟨segmentCount, messageSizeBytes, [], 0⟩
    if assembly.segmentCount ≠ segmentCount ∨ assembly.messageSizeBytes ≠ messageSizeBytes ∨
        assembly.nextSegmentId ≠ segmentId then
      (chunks.erase key, .dropped)
    else
      match c.decode messageChunkBase64 with
      | none => (chunks.erase key, .dropped)
      | some chunk =>
        if assembly.raw.length + chunk.length > assembly.messageSizeBytes then
          (chunks.erase key, .dropped)
        else
          let assembly := { assembly with
            raw := assembly.raw ++ chunk, nextSegmentId := assembly.nextSegmentId + 1 }
          if assembly.nextSegmentId < assembly.segmentCount then
            (chunks.insert key assembly, .pending)
          else if assembly.raw.length ≠ assembly.messageSizeBytes then
            (chunks.erase key, .dropped)
          else
            match c.fromSlice assembly.raw with
            | some message => (chunks.erase key, .complete message)
            | none => (chunks.erase key, .dropped)

/-- What a chunk does to the one entry of the map that it concerns. -/
def observeSlot (c : WireCodec Value) (slot : Option ServerChunkAssembly)
    (segmentId segmentCount messageSizeBytes : Nat) (messageChunkBase64 : String) :
    Option ServerChunkAssembly × ServerChunkObservation Value :=
  if slot.any fun assembly => segmentId < assembly.nextSegmentId then (slot, .dropped)
  else if invalidChunkMetadata segmentId segmentCount messageSizeBytes messageChunkBase64 then
    (none, .dropped)
  else
    let assembly := slot.getD ⟨segmentCount, messageSizeBytes, [], 0⟩
    if assembly.segmentCount ≠ segmentCount ∨ assembly.messageSizeBytes ≠ messageSizeBytes ∨
        assembly.nextSegmentId ≠ segmentId then
      (none, .dropped)
    else
      match c.decode messageChunkBase64 with
      | none => (none, .dropped)
      | some chunk =>
        if assembly.raw.length + chunk.length > assembly.messageSizeBytes then (none, .dropped)
        else
          let assembly := { assembly with
            raw := assembly.raw ++ chunk, nextSegmentId := assembly.nextSegmentId + 1 }
          if assembly.nextSegmentId < assembly.segmentCount then (some assembly, .pending)
          else if assembly.raw.length ≠ assembly.messageSizeBytes then (none, .dropped)
          else
            match c.fromSlice assembly.raw with
            | some message => (none, .complete message)
            | none => (none, .dropped)

variable {c : WireCodec Value}

theorem observeServerChunk_slot (chunks : ServerChunkMap) (clientId streamId : String)
    (seqId segmentId segmentCount messageSizeBytes : Nat) (messageChunkBase64 : String) :
    let out := observeServerChunk c chunks clientId streamId seqId segmentId segmentCount
      messageSizeBytes messageChunkBase64
    let slot := observeSlot c (chunks.lookup (clientId, streamId, seqId)) segmentId segmentCount
      messageSizeBytes messageChunkBase64
    out.2 = slot.2 ∧ ∀ key, out.1.lookup key =
      if key = (clientId, streamId, seqId) then slot.1 else chunks.lookup key := by
  have herase : ∀ key, (chunks.erase (clientId, streamId, seqId)).lookup key =
      if key = (clientId, streamId, seqId) then none else chunks.lookup key :=
    fun key => Table.lookup_erase_eq chunks _ key
  dsimp only [observeServerChunk, observeSlot]
  split
  next =>
    refine ⟨rfl, fun key => ?_⟩
    split
    next h => rw [h]
    next => rfl
  next =>
    split
    next => exact ⟨rfl, herase⟩
    next =>
      split
      next => exact ⟨rfl, herase⟩
      next =>
        split
        next => exact ⟨rfl, herase⟩
        next =>
          split
          next => exact ⟨rfl, herase⟩
          next =>
            split
            next => exact ⟨rfl, fun key => Table.lookup_insert_eq chunks _ key _⟩
            next =>
              split
              next => exact ⟨rfl, herase⟩
              next =>
                split
                next => exact ⟨rfl, herase⟩
                next => exact ⟨rfl, herase⟩

end

end MochiPort

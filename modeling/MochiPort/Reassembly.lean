import MochiPort.Base64
import MochiPort.Protocol

namespace MochiPort

variable {Value : Type} {c : WireCodec Value}

theorem WireCodec.Lawful.encode_ne_empty (hc : c.Lawful) {bytes : Bytes} (hb : bytes ≠ []) : c.encode bytes ≠ "" := by
  intro he
  have h₁ := hc.decode_encode bytes
  have h₂ := hc.decode_encode []
  rw [hc.encode_nil, ← he, h₁] at h₂
  exact hb (Option.some.inj h₂)

theorem WireCodec.Lawful.toVec_ne_nil (hc : c.Lawful) {message : Value} {bytes : Bytes}
    (h : c.toVec message = some bytes) : bytes ≠ [] := by
  rintro rfl
  have hs := hc.fromSlice_toVec message [] h
  rw [hc.fromSlice_nil] at hs
  cases hs

/-- A message cut into pieces within the limits that a receiver puts on chunks. -/
structure Cutting (c : WireCodec Value) (message : Value) where
  pieces : List Bytes
  piece_ne_nil : ∀ piece ∈ pieces, piece ≠ []
  count_le : pieces.length ≤ remoteControlSegmentCountMax
  size_pos : 0 < pieces.flatten.length
  size_le : pieces.flatten.length ≤ remoteControlReassembledMaxBytes
  toVec_eq : c.toVec message = some pieces.flatten

/-- The assembly of a message of which the pieces `done` have arrived. -/
def slotAfter (segmentCount messageSizeBytes : Nat) (done : List Bytes) : Option ServerChunkAssembly :=
  if done = [] then none else some ⟨segmentCount, messageSizeBytes, done.flatten, done.length⟩

theorem slotAfter_getD (segmentCount messageSizeBytes : Nat) (done : List Bytes) :
    (slotAfter segmentCount messageSizeBytes done).getD ⟨segmentCount, messageSizeBytes, [], 0⟩ =
      ⟨segmentCount, messageSizeBytes, done.flatten, done.length⟩ := by
  unfold slotAfter
  split
  next h => simp [h]
  next => rfl

theorem slotAfter_next_le {segmentCount messageSizeBytes : Nat} {done : List Bytes} :
    ((slotAfter segmentCount messageSizeBytes done).any
      fun assembly => done.length < assembly.nextSegmentId) = false := by
  unfold slotAfter
  split <;> simp

/-- The piece that comes next is added to the assembly, and the last one completes the message. -/
theorem observeSlot_next (hc : c.Lawful) {message : Value} (cutting : Cutting c message)
    {done rest : List Bytes} {piece : Bytes} (hp : cutting.pieces = done ++ piece :: rest) :
    observeSlot c (slotAfter cutting.pieces.length cutting.pieces.flatten.length done) done.length
        cutting.pieces.length cutting.pieces.flatten.length (c.encode piece) =
      if rest = [] then (none, .complete message)
      else (slotAfter cutting.pieces.length cutting.pieces.flatten.length (done ++ [piece]), .pending) := by
  have hpiece : piece ≠ [] := cutting.piece_ne_nil piece (by simp [hp])
  have hcount : cutting.pieces.length = done.length + (rest.length + 1) := by simp [hp]
  have hsize : cutting.pieces.flatten.length =
      done.flatten.length + (piece.length + rest.flatten.length) := by simp [hp]
  have hvalid : invalidChunkMetadata done.length cutting.pieces.length cutting.pieces.flatten.length
      (c.encode piece) = false := by
    have h₁ := cutting.count_le
    have h₂ := cutting.size_pos
    have h₃ := cutting.size_le
    have h₄ := hc.encode_ne_empty hpiece
    simp only [invalidChunkMetadata, Bool.or_eq_false_iff, beq_eq_false_iff_ne, decide_eq_false_iff_not,
      String.isEmpty_eq_false_iff]
    exact ⟨⟨⟨⟨⟨by omega, by omega⟩, by omega⟩, by omega⟩, by omega⟩, h₄⟩
  simp only [observeSlot, slotAfter_next_le, hvalid, slotAfter_getD, hc.decode_encode]
  rw [if_neg (by simp), if_neg (by simp), if_neg (by simp), if_neg (by omega)]
  by_cases hrest : rest = []
  · subst hrest
    have hraw : done.flatten ++ piece = cutting.pieces.flatten := by simp [hp]
    have hmessage := hc.fromSlice_toVec _ _ cutting.toVec_eq
    rw [if_neg (by simp [hp]), if_neg (by simp [hraw]), if_pos rfl]
    simp only [hraw, hmessage]
  · have hlen : 0 < rest.length := List.length_pos_iff.mpr hrest
    rw [if_pos (by omega), if_neg hrest]
    simp [slotAfter]

inductive JsonLiteral where
  | null
  | true
  | false
  deriving DecidableEq

def JsonLiteral.text : JsonLiteral → String
  | .null => "null"
  | .true => "true"
  | .false => "false"

def utf8 (s : String) : Bytes := s.toList.map fun char => UInt8.ofNat char.toNat

def literalCodec : WireCodec JsonLiteral where
  encode := Base64.encode
  decode := Base64.decode
  toVec message := some (utf8 message.text)
  fromSlice bytes :=
    if bytes = utf8 "null" then some .null
    else if bytes = utf8 "true" then some .true
    else if bytes = utf8 "false" then some .false
    else none

theorem literalCodec_lawful : literalCodec.Lawful where
  decode_encode := Base64.decode_encode
  encode_nil := Base64.encode_nil
  fromSlice_toVec := by
    intro message bytes h
    cases Option.some.inj h
    cases message <;> decide
  fromSlice_nil := by decide

end MochiPort

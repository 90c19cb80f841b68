import MochiPort.Chunks
import MochiPort.Reassembly

namespace MochiPort

open Chunks List

variable {Value : Type}

section Build

-- `envelopeLen` is the length of `serde_json::to_vec` of an envelope
variable (c : WireCodec Value) (envelopeLen : OutgoingClientEnvelope Value → Option Nat)
  (clientId streamId : String) (seqId : Nat) (cursor : Option String)

def serializedJsonLen (envelope : OutgoingClientEnvelope Value) : Except String Nat :=
  match envelopeLen envelope with
  | some length => .ok length
  | none => .error "failed to serialize remote-control envelope"

def buildClientEnvelope (message : Value) : OutgoingClientEnvelope Value :=
  ⟨.clientMessage message, clientId, some streamId, some seqId, cursor⟩

def clientChunkEnvelope (segmentId segmentCount messageSizeBytes : Nat) (chunk : Bytes) :
    OutgoingClientEnvelope Value :=
  ⟨.clientMessageChunk segmentId segmentCount messageSizeBytes (c.encode chunk), clientId,
    some streamId, some seqId, cursor⟩

def buildClientChunkEnvelope (segmentId segmentCount messageSizeBytes : Nat) (chunk : Bytes) :
    Except String (OutgoingClientEnvelope Value) :=
  if segmentCount > remoteControlSegmentCountMax then
    .error s!"remote-control segment count exceeds maximum: {segmentCount}"
  else
    .ok (clientChunkEnvelope c clientId streamId seqId cursor segmentId segmentCount
      messageSizeBytes chunk)

def serializedClientChunkLen (segmentId segmentCount messageSizeBytes : Nat) (chunk : Bytes) : Except String Nat :=
  (buildClientChunkEnvelope c clientId streamId seqId cursor segmentId segmentCount
    messageSizeBytes chunk).bind (serializedJsonLen envelopeLen)

def segmentsFit (raw : Bytes) (chunkSize segmentCount : Nat) : Bool :=
  (cut chunkSize raw).zipIdx.all fun (chunk, segmentId) =>
    match serializedClientChunkLen c envelopeLen clientId streamId seqId cursor segmentId
      segmentCount raw.length chunk with
    | .ok size => size ≤ remoteControlSegmentMaxBytes
    | .error _ => false

end Build

/-- The loop that settles the chunk size and the segment count, for a message of `size` bytes. -/
def settleSegments (fits : Nat → Nat → Bool) (size segmentCount : Nat) : Except String (Nat × Nat) :=
  if segmentCount > remoteControlSegmentCountMax then
    .error s!"remote-control segment count exceeds maximum: {segmentCount}"
  else
    let chunkSize := max 1 (size ⌈/⌉ segmentCount)
    let chunkCount := size ⌈/⌉ chunkSize
    if fits chunkSize chunkCount then .ok (chunkSize, chunkCount)
    else if chunkSize = 1 then
      .error "remote-control message cannot fit within segment size limit"
    else
      let nextSegmentCount := chunkCount + 1
      let nextChunkSize := max 1 (size ⌈/⌉ nextSegmentCount)
      settleSegments fits size (if nextChunkSize = chunkSize then size else nextSegmentCount)
-- the chunk size shrinks on every turn
termination_by max 1 (size ⌈/⌉ segmentCount)
decreasing_by
  have hself := ceilDiv_self_le size
  have hnext := @ceilDiv_succ_ceilDiv_le size (max 1 (size ⌈/⌉ segmentCount)) (by omega)
  split <;> omega

def buildClientMessageEnvelopes (c : WireCodec Value)
    (envelopeLen : OutgoingClientEnvelope Value → Option Nat) (clientId streamId : String)
    (seqId : Nat) (message : Value) (cursor : Option String) :
    Except String (List (OutgoingClientEnvelope Value)) := do
  let envelope := buildClientEnvelope clientId streamId seqId cursor message
  if (← serializedJsonLen envelopeLen envelope) ≤ remoteControlSegmentMaxBytes then
    .ok [envelope]
  else
    let raw ← (c.toVec message).elim (.error "failed to serialize remote-control message") .ok
    let messageSizeBytes := raw.length
    if messageSizeBytes > remoteControlReassembledMaxBytes then
      .error s!"remote-control message exceeds reassembled size limit: {messageSizeBytes} bytes"
    else
      let minimalSegmentCount := min (max messageSizeBytes 1) remoteControlSegmentCountMax
      let minimalChunk := raw.take (min raw.length 1)
      if (← serializedClientChunkLen c envelopeLen clientId streamId seqId cursor 0
          minimalSegmentCount messageSizeBytes minimalChunk) > remoteControlSegmentMaxBytes then
        .error "remote-control message cannot fit within segment size limit"
      else
        let segmentCount := max 2 (messageSizeBytes ⌈/⌉ remoteControlSegmentTargetBytes)
        let (chunkSize, segmentCount) ← settleSegments
          (segmentsFit c envelopeLen clientId streamId seqId cursor raw) messageSizeBytes segmentCount
        (cut chunkSize raw).zipIdx.mapM fun (chunk, segmentId) =>
          buildClientChunkEnvelope c clientId streamId seqId cursor segmentId segmentCount
            messageSizeBytes chunk

theorem except_bind_ok {α β : Type} {x : Except String α} {f : α → Except String β} {b : β}
    (h : x >>= f = .ok b) : ∃ a, x = .ok a ∧ f a = .ok b := by
  cases x with
  | error e => cases h
  | ok a => exact ⟨a, rfl, h⟩

theorem except_ok_bind {α β : Type} (a : α) (f : α → Except String β) : (Except.ok a >>= f) = f a := rfl

theorem serializedJsonLen_ok {envelopeLen : OutgoingClientEnvelope Value → Option Nat}
    {envelope : OutgoingClientEnvelope Value} {length : Nat}
    (h : serializedJsonLen envelopeLen envelope = .ok length) : envelopeLen envelope = some length := by
  unfold serializedJsonLen at h
  split at h
  next he => rw [he, Except.ok.inj h]
  next => cases h

theorem settleSegments_ok {fits : Nat → Nat → Bool} {size segmentCount chunkSize chunkCount : Nat}
    (h : settleSegments fits size segmentCount = .ok (chunkSize, chunkCount)) :
    0 < chunkSize ∧ chunkCount = size ⌈/⌉ chunkSize ∧ fits chunkSize chunkCount = true := by
  fun_induction settleSegments fits size segmentCount with
  | case1 => cases h
  | case2 segmentCount _ _ _ hfits =>
    obtain ⟨rfl, rfl⟩ := Prod.mk.inj (Except.ok.inj h)
    exact ⟨by omega, rfl, hfits⟩
  | case3 => cases h
  | case4 _ _ _ _ _ _ _ _ ih => exact ih h

variable {c : WireCodec Value} {envelopeLen : OutgoingClientEnvelope Value → Option Nat}
  {clientId streamId : String} {seqId : Nat} {cursor : Option String} {message : Value}

theorem buildClientMessageEnvelopes_cases {envelopes : List (OutgoingClientEnvelope Value)}
    (h : buildClientMessageEnvelopes c envelopeLen clientId streamId seqId message cursor =
      .ok envelopes) :
    (envelopes = [buildClientEnvelope clientId streamId seqId cursor message] ∧
      ∃ length, envelopeLen (buildClientEnvelope clientId streamId seqId cursor message) =
        some length ∧ length ≤ remoteControlSegmentMaxBytes) ∨
    ∃ raw chunkSize, c.toVec message = some raw ∧ raw.length ≤ remoteControlReassembledMaxBytes ∧
      0 < chunkSize ∧
      segmentsFit c envelopeLen clientId streamId seqId cursor raw chunkSize (raw.length ⌈/⌉ chunkSize) =
        true ∧
      ((cut chunkSize raw).zipIdx.mapM fun (chunk, segmentId) =>
        buildClientChunkEnvelope c clientId streamId seqId cursor segmentId
          (raw.length ⌈/⌉ chunkSize) raw.length chunk) = .ok envelopes := by
  obtain ⟨length, hlength, h⟩ := except_bind_ok h
  split at h
  next hle =>
    cases h
    exact .inl ⟨rfl, length, serializedJsonLen_ok hlength, hle⟩
  next =>
    obtain ⟨raw, hraw, h⟩ := except_bind_ok h
    have hvec : c.toVec message = some raw := by
      cases hv : c.toVec message with
      | none => simp [hv] at hraw
      | some bytes => simpa [hv] using hraw
    dsimp only at h
    split at h
    next => cases h
    next hsize =>
      obtain ⟨_, _, h⟩ := except_bind_ok h
      split at h
      next => cases h
      next =>
        obtain ⟨⟨chunkSize, chunkCount⟩, hsettle, h⟩ := except_bind_ok h
        obtain ⟨hpos, rfl, hfits⟩ := settleSegments_ok hsettle
        exact .inr ⟨raw, chunkSize, hvec, by omega, hpos, hfits, h⟩

theorem segmentsFit_mem {raw chunk : Bytes} {chunkSize segmentCount segmentId : Nat}
    (h : segmentsFit c envelopeLen clientId streamId seqId cursor raw chunkSize segmentCount = true)
    (hm : (chunk, segmentId) ∈ (cut chunkSize raw).zipIdx) :
    segmentCount ≤ remoteControlSegmentCountMax ∧ ∃ length,
      envelopeLen (clientChunkEnvelope c clientId streamId seqId cursor segmentId segmentCount
        raw.length chunk) = some length ∧ length ≤ remoteControlSegmentMaxBytes := by
  have hfit := all_eq_true.mp h _ hm
  dsimp only at hfit
  split at hfit
  next length hlength =>
    obtain ⟨envelope, henvelope, hlength⟩ := except_bind_ok hlength
    unfold buildClientChunkEnvelope at henvelope
    split at henvelope
    next => cases henvelope
    next hcount =>
      cases henvelope
      exact ⟨by omega, length, serializedJsonLen_ok hlength, of_decide_eq_true hfit⟩
  next => cases hfit

theorem buildClientChunkEnvelope_mapM {raw : Bytes} {segmentCount : Nat}
    (hcount : segmentCount ≤ remoteControlSegmentCountMax) (chunks : List (Bytes × Nat)) :
    (chunks.mapM fun (chunk, segmentId) =>
      buildClientChunkEnvelope c clientId streamId seqId cursor segmentId segmentCount raw.length chunk) =
      .ok (chunks.map fun (chunk, segmentId) =>
        clientChunkEnvelope c clientId streamId seqId cursor segmentId segmentCount raw.length chunk) := by
  simp only [buildClientChunkEnvelope, if_neg (Nat.not_lt.mpr hcount)]
  exact mapM_pure

theorem buildClientMessageEnvelopes_cut {raw : Bytes} {whole minimal chunkSize segmentCount : Nat}
    (hwhole : envelopeLen (buildClientEnvelope clientId streamId seqId cursor message) = some whole)
    (hlarge : remoteControlSegmentMaxBytes < whole) (hraw : c.toVec message = some raw)
    (hsize : raw.length ≤ remoteControlReassembledMaxBytes)
    (hminimal : serializedClientChunkLen c envelopeLen clientId streamId seqId cursor 0
      (min (max raw.length 1) remoteControlSegmentCountMax) raw.length (raw.take (min raw.length 1)) = .ok minimal)
    (hprobe : minimal ≤ remoteControlSegmentMaxBytes)
    (hsettle : settleSegments (segmentsFit c envelopeLen clientId streamId seqId cursor raw) raw.length
      (max 2 (raw.length ⌈/⌉ remoteControlSegmentTargetBytes)) = .ok (chunkSize, segmentCount)) :
    buildClientMessageEnvelopes c envelopeLen clientId streamId seqId message cursor =
      (cut chunkSize raw).zipIdx.mapM fun (chunk, segmentId) =>
        buildClientChunkEnvelope c clientId streamId seqId cursor segmentId segmentCount raw.length chunk := by
  unfold buildClientMessageEnvelopes
  simp only [serializedJsonLen, hwhole, hraw, Option.elim_some, except_ok_bind, hminimal, hsettle]
  rw [if_neg (Nat.not_le.mpr hlarge), if_neg (Nat.not_lt.mpr hsize), if_neg (Nat.not_lt.mpr hprobe)]

/-- Feeds the chunk envelopes of a client, in order, to a receiver's chunk map. -/
def feedChunks (c : WireCodec Value) (chunks : ServerChunkMap) :
    List (OutgoingClientEnvelope Value) → ServerChunkMap × List (ServerChunkObservation Value)
  | [] => (chunks, [])
  | ⟨.clientMessageChunk segmentId segmentCount messageSizeBytes messageChunkBase64, clientId,
      some streamId, some seqId, _⟩ :: envelopes =>
    let (chunks, observation) := observeServerChunk c chunks clientId streamId seqId segmentId
      segmentCount messageSizeBytes messageChunkBase64
    let (chunks, observations) := feedChunks c chunks envelopes
    (chunks, observation :: observations)
  | _ :: envelopes => feedChunks c chunks envelopes

theorem feedChunks_rest (hc : c.Lawful) (cutting : Cutting c message) {done rest : List Bytes}
    (hp : cutting.pieces = done ++ rest) (hrest : rest ≠ []) {chunks : ServerChunkMap}
    (hslot : chunks.lookup (clientId, streamId, seqId) =
      slotAfter cutting.pieces.length cutting.pieces.flatten.length done) :
    let fed := feedChunks c chunks ((rest.zipIdx done.length).map fun (chunk, segmentId) =>
      clientChunkEnvelope c clientId streamId seqId cursor segmentId cutting.pieces.length
        cutting.pieces.flatten.length chunk)
    fed.2 = List.replicate (rest.length - 1) .pending ++ [.complete message] ∧
      ∀ key, fed.1.lookup key =
        if key = (clientId, streamId, seqId) then none else chunks.lookup key := by
  induction rest generalizing done chunks with
  | nil => exact absurd rfl hrest
  | cons piece rest ih =>
    have hnext := observeSlot_next hc cutting hp
    obtain ⟨hobserved, hlookup⟩ := observeServerChunk_slot (c := c) chunks clientId streamId seqId
      done.length cutting.pieces.length cutting.pieces.flatten.length (c.encode piece)
    rw [hslot, hnext] at hobserved hlookup
    simp only [zipIdx_cons, map_cons, clientChunkEnvelope, feedChunks]
    generalize observeServerChunk c chunks clientId streamId seqId done.length cutting.pieces.length
      cutting.pieces.flatten.length (c.encode piece) = out at hobserved hlookup ⊢
    by_cases hr : rest = []
    · subst hr
      exact ⟨by rw [hobserved]; rfl, hlookup⟩
    · rw [if_neg hr] at hobserved hlookup
      obtain ⟨hobservations, hfinal⟩ := @ih (done ++ [piece]) (by simp [hp]) hr out.1
        (by rw [hlookup, if_pos rfl])
      rw [length_append, length_singleton] at hobservations hfinal
      refine ⟨?_, fun key => ?_⟩
      · obtain ⟨count, hcount⟩ := Nat.exists_eq_succ_of_ne_zero (mt length_eq_zero_iff.mp hr)
        rw [hcount] at hobservations
        rw [hobserved, length_cons, hcount]
        exact congrArg (List.cons _) hobservations
      · refine (hfinal key).trans ?_
        rw [hlookup]
        split <;> rfl

/-- Segmentation and reassembly are inverse: a successful call fits the segment limit, and what it
cut, a receiver puts together again. -/
theorem client_segments_reassemble (hc : c.Lawful) {envelopes : List (OutgoingClientEnvelope Value)}
    (h : buildClientMessageEnvelopes c envelopeLen clientId streamId seqId message cursor =
      .ok envelopes) :
    (∀ envelope ∈ envelopes, ∃ length, envelopeLen envelope = some length ∧
      length ≤ remoteControlSegmentMaxBytes) ∧
    (envelopes = [buildClientEnvelope clientId streamId seqId cursor message] ∨
      ∃ (raw : Bytes) (pieces : List String), c.toVec message = some raw ∧
        1 ≤ pieces.length ∧ pieces.length ≤ remoteControlSegmentCountMax ∧
        (∀ piece ∈ pieces, piece ≠ "") ∧
        (envelopes = pieces.zipIdx.map fun (piece, segmentId) =>
          ⟨.clientMessageChunk segmentId pieces.length raw.length piece, clientId, some streamId,
            some seqId, cursor⟩) ∧
        ∀ chunks : ServerChunkMap, chunks.lookup (clientId, streamId, seqId) = none →
          (feedChunks c chunks envelopes).2 =
            List.replicate (pieces.length - 1) .pending ++ [.complete message] ∧
          ∀ key, (feedChunks c chunks envelopes).1.lookup key = chunks.lookup key) := by
  rcases buildClientMessageEnvelopes_cases h with ⟨rfl, hfits⟩ |
    ⟨raw, chunkSize, hraw, hsize, hpos, hfits, hbuild⟩
  · exact ⟨fun envelope he => by rwa [mem_singleton.mp he], .inl rfl⟩
  · have hcut := cut_flatten chunkSize raw
    have hcount := length_cut hpos raw
    have hne : cut chunkSize raw ≠ [] := fun he => by
      rw [he] at hcut
      exact hc.toVec_ne_nil hraw hcut.symm
    obtain ⟨first, others, hfirst⟩ := exists_cons_of_ne_nil hne
    have hzero : (first, 0) ∈ (cut chunkSize raw).zipIdx := by simp [hfirst]
    have hmax := (segmentsFit_mem hfits hzero).1
    rw [buildClientChunkEnvelope_mapM hmax] at hbuild
    cases hbuild
    let cutting : Cutting c message :=
      { pieces := cut chunkSize raw
        piece_ne_nil := fun _ hm => cut_ne_nil hm
        count_le := by rwa [hcount]
        size_pos := by rw [hcut]; exact length_pos_iff.mpr (hc.toVec_ne_nil hraw)
        size_le := by rwa [hcut]
        toVec_eq := by rwa [hcut] }
    refine ⟨fun envelope he => ?_, .inr ⟨raw, (cut chunkSize raw).map c.encode, hraw, ?_, ?_, ?_, ?_, ?_⟩⟩
    · obtain ⟨⟨chunk, segmentId⟩, hm, rfl⟩ := mem_map.mp he
      exact (segmentsFit_mem hfits hm).2
    · rw [length_map]
      exact length_pos_iff.mpr hne
    · rwa [length_map, hcount]
    · intro piece hm
      obtain ⟨chunk, hchunk, rfl⟩ := mem_map.mp hm
      exact hc.encode_ne_empty (cut_ne_nil hchunk)
    · rw [zipIdx_map, map_map, length_map, hcount]
      rfl
    · intro chunks hnone
      obtain ⟨hobservations, hfinal⟩ :=
        @feedChunks_rest _ c clientId streamId seqId cursor message hc cutting [] _ rfl hne chunks hnone
      simp only [cutting, hcut, hcount, length_nil] at hobservations hfinal
      rw [length_map, hcount]
      refine ⟨hobservations, fun key => (hfinal key).trans ?_⟩
      split
      next hk => rw [hk, hnone]
      next => rfl

/-- The length of an envelope's JSON text, for ids and cursors that need no escapes. -/
def plainEnvelopeLen (messageLen : Value → Nat) (envelope : OutgoingClientEnvelope Value) : Option Nat :=
  let event := match envelope.event with
    | .clientMessage message => "\"type\":\"client_message\",\"message\":".length + messageLen message
    | .clientMessageChunk segmentId segmentCount messageSizeBytes messageChunkBase64 =>
      "\"type\":\"client_message_chunk\",\"segment_id\":".length + (toString segmentId).length +
        ",\"segment_count\":".length + (toString segmentCount).length + ",\"message_size_bytes\":".length +
        (toString messageSizeBytes).length + ",\"message_chunk_base64\":\"\"".length + messageChunkBase64.length
    | .ack segmentId => "\"type\":\"ack\",\"segment_id\":".length + ((segmentId.map toString).getD "null").length
    | .ping => "\"type\":\"ping\"".length
  let streamId := (envelope.streamId.map fun id => ",\"stream_id\":\"\"".length + id.length).getD 0
  let seqId := (envelope.seqId.map fun id => ",\"seq_id\":".length + (toString id).length).getD 0
  let cursor := (envelope.cursor.map fun text => ",\"cursor\":\"\"".length + text.length).getD 0
  some (event + ",\"client_id\":\"\"".length + streamId + seqId + cursor + 2 + envelope.clientId.length)

def literalEnvelopeLen : OutgoingClientEnvelope JsonLiteral → Option Nat :=
  plainEnvelopeLen fun message => message.text.length

/-- Base64 with strings of small letters as messages. -/
def textCodec : WireCodec String where
  encode := Base64.encode
  decode := Base64.decode
  toVec message := if message.toList.all fun c => 'a' ≤ c && c ≤ 'z' then some (utf8 ("\"" ++ message ++ "\"")) else none
  fromSlice bytes :=
    if bytes.head? = some 34 ∧ bytes.tail.getLast? = some 34 then
      some (String.ofList (bytes.tail.dropLast.map fun byte => Char.ofNat byte.toNat))
    else none

def textEnvelopeLen : OutgoingClientEnvelope String → Option Nat := plainEnvelopeLen fun message => message.length + 2

theorem utf8_quoted (message : String) : utf8 ("\"" ++ message ++ "\"") = 34 :: utf8 message ++ [34] := by
  simp [utf8]

theorem textCodec_lawful : textCodec.Lawful where
  decode_encode := Base64.decode_encode
  encode_nil := Base64.encode_nil
  fromSlice_nil := by decide
  fromSlice_toVec := by
    intro message bytes h
    obtain ⟨hlower, hbytes⟩ := Option.ite_none_right_eq_some.mp h
    cases hbytes
    have hback : ∀ char ∈ message.toList, Char.ofNat (UInt8.ofNat char.toNat).toNat = char := by
      intro char hchar
      have hle := all_eq_true.mp hlower char hchar
      simp only [Bool.and_eq_true, decide_eq_true_eq] at hle
      have hlt : char.toNat < 256 := Nat.lt_of_le_of_lt (UInt32.le_iff_toNat_le.mp hle.2) (by decide)
      rw [UInt8.toNat_ofNat_of_lt' hlt, Char.ofNat_toNat]
    have htext : (utf8 message).map (fun byte => Char.ofNat byte.toNat) = message.toList := by
      rw [utf8, map_map]
      exact (map_congr_left hback).trans (map_id _)
    simp [textCodec, utf8_quoted, htext]

/-- The length of a chunk's envelope, by the lengths of what is in it. -/
def chunkTextLen (clientIdLen streamIdLen seqIdLen segmentId segmentCount messageSizeBytes chunkLen : Nat) : Nat :=
  150 + clientIdLen + streamIdLen + seqIdLen + (toString segmentId).length + (toString segmentCount).length +
    (toString messageSizeBytes).length + 4 * ((chunkLen + 2) / 3)

theorem textEnvelopeLen_chunk (clientId streamId : String) (seqId segmentId segmentCount messageSizeBytes : Nat)
    (chunk : Bytes) :
    textEnvelopeLen (clientChunkEnvelope textCodec clientId streamId seqId none segmentId segmentCount
      messageSizeBytes chunk) =
      some (chunkTextLen clientId.length streamId.length (toString seqId).length segmentId segmentCount
        messageSizeBytes chunk.length) := by
  have hbase64 : (textCodec.encode chunk).length = 4 * ((chunk.length + 2) / 3) := Base64.length_encode chunk
  have hfirst : "\"type\":\"client_message_chunk\",\"segment_id\":".length = 43 := by decide +kernel
  have hcount : ",\"segment_count\":".length = 17 := by decide +kernel
  have hsize : ",\"message_size_bytes\":".length = 22 := by decide +kernel
  have hchunk : ",\"message_chunk_base64\":\"\"".length = 26 := by decide +kernel
  have hclient : ",\"client_id\":\"\"".length = 15 := by decide +kernel
  have hstream : ",\"stream_id\":\"\"".length = 15 := by decide +kernel
  have hseq : ",\"seq_id\":".length = 10 := by decide +kernel
  unfold textEnvelopeLen plainEnvelopeLen clientChunkEnvelope chunkTextLen
  simp only [Option.map_some, Option.map_none, Option.getD_some, Option.getD_none, hfirst, hcount, hsize, hchunk,
    hclient, hstream, hseq, hbase64]
  refine congrArg some ?_
  omega

theorem textEnvelopeLen_whole (clientId streamId : String) (seqId : Nat) (message : String) :
    textEnvelopeLen (buildClientEnvelope clientId streamId seqId none message) =
      some (78 + clientId.length + streamId.length + (toString seqId).length + message.length) := by
  have hevent : "\"type\":\"client_message\",\"message\":".length = 34 := by decide +kernel
  have hclient : ",\"client_id\":\"\"".length = 15 := by decide +kernel
  have hstream : ",\"stream_id\":\"\"".length = 15 := by decide +kernel
  have hseq : ",\"seq_id\":".length = 10 := by decide +kernel
  unfold textEnvelopeLen plainEnvelopeLen buildClientEnvelope
  simp only [Option.map_some, Option.map_none, Option.getD_some, Option.getD_none, hevent, hclient, hstream, hseq]
  refine congrArg some ?_
  omega

theorem serializedClientChunkLen_text {clientId streamId : String} {seqId segmentId segmentCount messageSizeBytes : Nat}
    (chunk : Bytes) (hcount : segmentCount ≤ remoteControlSegmentCountMax) :
    serializedClientChunkLen textCodec textEnvelopeLen clientId streamId seqId none segmentId segmentCount
      messageSizeBytes chunk =
      .ok (chunkTextLen clientId.length streamId.length (toString seqId).length segmentId segmentCount
        messageSizeBytes chunk.length) := by
  unfold serializedClientChunkLen buildClientChunkEnvelope
  rw [if_neg (by omega)]
  simp only [Except.bind, serializedJsonLen, textEnvelopeLen_chunk]

def letters (n : Nat) : String := String.ofList (List.replicate n 'a')

theorem letters_length (n : Nat) : (letters n).length = n := String.length_ofList.trans length_replicate

def lettersBytes (n : Nat) : Bytes := utf8 ("\"" ++ letters n ++ "\"")

theorem lettersBytes_length (n : Nat) : (lettersBytes n).length = n + 2 := by
  rw [lettersBytes, utf8_quoted, length_append, length_cons, utf8, length_map,
    String.length_toList, letters_length]
  rfl

theorem textCodec_letters (n : Nat) : textCodec.toVec (letters n) = some (lettersBytes n) := by
  refine if_pos (all_eq_true.mpr fun char hchar => ?_)
  rw [letters, String.toList_ofList] at hchar
  rw [eq_of_mem_replicate hchar]
  decide

theorem letters_size : (lettersBytes 200000).length = 200002 := lettersBytes_length _

theorem letters_fit : segmentsFit textCodec textEnvelopeLen "mochiport-bridge" "stream" 1 none (lettersBytes 200000)
    100001 2 = true := by
  refine all_eq_true.mpr fun ⟨chunk, segmentId⟩ hm => ?_
  have hlength : chunk.length ≤ 100001 := length_le_of_mem_cut (by decide) (fst_mem_of_mem_zipIdx hm)
  obtain ⟨-, hid, -⟩ := mem_zipIdx hm
  rw [length_cut (by decide), letters_size] at hid
  have hid : segmentId = 0 ∨ segmentId = 1 := by
    have htwo : 200002 ⌈/⌉ 100001 = 2 := by decide +kernel
    omega
  dsimp only
  rw [serializedClientChunkLen_text chunk (by decide), letters_size]
  have hdigit : (toString segmentId).length = 1 := by
    rcases hid with rfl | rfl <;> decide
  refine decide_eq_true ?_
  have hconst : 150 + "mochiport-bridge".length + "stream".length + (toString 1).length + 1 + (toString 2).length +
      (toString 200002).length + 4 * ((100001 + 2) / 3) ≤ remoteControlSegmentMaxBytes := by
    decide +kernel
  unfold chunkTextLen
  omega

theorem letters_cut :
    buildClientMessageEnvelopes textCodec textEnvelopeLen "mochiport-bridge" "stream" 1 (letters 200000) none =
      .ok ((cut 100001 (lettersBytes 200000)).zipIdx.map fun (chunk, segmentId) =>
        clientChunkEnvelope textCodec "mochiport-bridge" "stream" 1 none segmentId 2 (lettersBytes 200000).length
          chunk) := by
  have hfirst : max 2 (200002 ⌈/⌉ remoteControlSegmentTargetBytes) = 2 := by decide +kernel
  have hchunk : max 1 (200002 ⌈/⌉ 2) = 100001 := by decide +kernel
  have hcount : 200002 ⌈/⌉ 100001 = 2 := by decide +kernel
  have hwhole := textEnvelopeLen_whole "mochiport-bridge" "stream" 1 (letters 200000)
  rw [letters_length] at hwhole
  refine (buildClientMessageEnvelopes_cut hwhole (by decide +kernel) (textCodec_letters 200000) ?_
    (serializedClientChunkLen_text _ (Nat.min_le_right _ _)) ?_ ?_).trans (buildClientChunkEnvelope_mapM (by decide) _)
  · rw [letters_size]
    decide
  · rw [length_take, letters_size]
    decide +kernel
  · rw [letters_size, hfirst]
    unfold settleSegments
    simp only [hchunk, hcount, letters_fit]
    rfl

/-- A text of 200000 letters is cut into two chunks, and the second one completes it. -/
theorem client_segments_reassemble_long :
    ∃ envelopes, buildClientMessageEnvelopes textCodec textEnvelopeLen "mochiport-bridge" "stream" 1 (letters 200000)
        none = .ok envelopes ∧ envelopes.length = 2 ∧
      (feedChunks textCodec ∅ envelopes).2 = [.pending, .complete (letters 200000)] := by
  have htwo : (cut 100001 (lettersBytes 200000)).length = 2 := by
    rw [length_cut (by decide), letters_size]
    decide +kernel
  refine ⟨_, letters_cut, by rw [length_map, length_zipIdx, htwo], ?_⟩
  rcases (client_segments_reassemble textCodec_lawful letters_cut).2 with hwhole |
    ⟨raw, pieces, -, -, -, -, henvelopes, hfed⟩
  · have hone := congrArg List.length hwhole
    rw [length_map, length_zipIdx, htwo] at hone
    exact absurd hone (by decide)
  · have hpieces := congrArg List.length henvelopes
    rw [length_map, length_map, length_zipIdx, length_zipIdx, htwo] at hpieces
    rw [(hfed ∅ rfl).1, ← hpieces]
    rfl

end MochiPort

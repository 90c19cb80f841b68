import MochiPort.Chunks
import MochiPort.Reassembly
import MochiPort.ServerSteps

namespace MochiPort

open List

variable {Value P : Type} {c : WireCodec Value} {epoch : Nat} {stream : RegisteredStream}

/-- While the channels are open a run acknowledges every arrival, and for one stream it is the
high-water filter in front of that stream's receiver. -/
theorem readServerEnvelopes_open {arrivals : List (Surroundings × IncomingServerEnvelope Value)}
    {reader : ServerReader Value P} (hlive : Live reader.remote epoch stream)
    (hopen : ∀ arrival ∈ arrivals, arrival.1.Open) :
    let out := readServerEnvelopes epoch c arrivals reader
    out.2 = .ok () ∧ out.1.outbound = reader.outbound ++ arrivals.map (fun arrival => ackOf arrival.2) ∧
      streamView epoch stream out.1 =
        ((arrivals.map Prod.snd).filter (OfStream stream ·)).foldl
          (HighWater.filtered envelopeKey (receive c)) (streamView epoch stream reader) := by
  induction arrivals generalizing reader with
  | nil => exact ⟨rfl, (append_nil _).symm, rfl⟩
  | cons arrival arrivals ih =>
    obtain ⟨env, envelope⟩ := arrival
    obtain ⟨hok, hack⟩ := @handleServerEnvelope_acks Value P c env epoch envelope reader
      (hopen _ (mem_cons_self ..))
    have hlive' := @handleServerEnvelope_live Value P c env epoch stream envelope reader hlive
    obtain ⟨hokRest, hackRest, hviewRest⟩ :=
      ih hlive' fun later hl => hopen later (mem_cons_of_mem _ hl)
    have hstep : readServerEnvelopes epoch c ((env, envelope) :: arrivals) reader =
        readServerEnvelopes epoch c arrivals (handleServerEnvelope env epoch c envelope reader).1 := by
      rw [readServerEnvelopes]
      generalize handleServerEnvelope env epoch c envelope reader = out at hok ⊢
      obtain ⟨next, result⟩ := out
      cases hok
      rfl
    rw [hstep]
    refine ⟨hokRest, ?_, ?_⟩
    · rw [hackRest, hack, map_cons, append_assoc, singleton_append]
    · rw [hviewRest, map_cons]
      by_cases hs : OfStream stream envelope
      · rw [filter_cons_of_pos (by simpa using hs), foldl_cons, (handleServerEnvelope_self hs reader hlive).1 hok]
      · rw [filter_cons_of_neg (by simpa using hs), (handleServerEnvelope_other hs reader hlive).1 hok]

/-- A message as the server sends it: whole, or cut into chunks. -/
structure SentMessage (c : WireCodec Value) where
  seqId : Nat
  message : Value
  cutting : Option (Cutting c message)

def SentMessage.envelopes (stream : RegisteredStream) (sent : SentMessage c) : List (IncomingServerEnvelope Value) :=
  match sent.cutting with
  | none => [⟨.serverMessage sent.message, stream.clientId, stream.streamId, sent.seqId⟩]
  | some cutting => cutting.pieces.zipIdx.map fun (piece, segmentId) =>
    ⟨.serverMessageChunk segmentId cutting.pieces.length cutting.pieces.flatten.length (c.encode piece),
      stream.clientId, stream.streamId, sent.seqId⟩

variable {envelope : IncomingServerEnvelope Value}

theorem seqId_of_mem_envelopes {sent : SentMessage c} (h : envelope ∈ sent.envelopes stream) : envelope.seqId = sent.seqId := by
  unfold SentMessage.envelopes at h
  split at h
  next => rw [mem_singleton.mp h]
  next =>
    obtain ⟨_, _, rfl⟩ := mem_map.mp h
    rfl

theorem envelopes_increasing (sent : SentMessage c) :
    (sent.envelopes stream).Pairwise fun a b => envelopeKey a < envelopeKey b := by
  unfold SentMessage.envelopes
  split
  next => exact pairwise_singleton _ _
  next cutting _ =>
    rw [pairwise_map]
    refine (Chunks.zipIdx_increasing cutting.pieces).imp fun h => ?_
    simpa [envelopeKey, cursorKey, cursorPair, serverEventSegmentId, Prod.Lex.toLex_lt_toLex] using h

theorem envelopeKey_lt_of_seqId_lt {a b : IncomingServerEnvelope Value} (h : a.seqId < b.seqId) :
    envelopeKey a < envelopeKey b := by
  simp [envelopeKey, cursorKey, cursorPair, Prod.Lex.toLex_lt_toLex, h]

theorem wire_increasing {sent : List (SentMessage c)} (h : sent.Pairwise fun a b => a.seqId < b.seqId) :
    (sent.flatMap (SentMessage.envelopes stream)).Pairwise fun a b => envelopeKey a < envelopeKey b := by
  refine pairwise_flatMap.mpr ⟨fun message _ => envelopes_increasing message, h.imp ?_⟩
  intro first second hlt a ha b hb
  apply envelopeKey_lt_of_seqId_lt
  rw [seqId_of_mem_envelopes ha, seqId_of_mem_envelopes hb]
  exact hlt

theorem envelopeKey_ge {sent : SentMessage c} (h : envelope ∈ sent.envelopes stream) : cursorKey (sent.seqId, some 0) ≤ envelopeKey envelope := by
  rw [envelopeKey, seqId_of_mem_envelopes h]
  simp [cursorKey, cursorPair, Prod.Lex.toLex_le_toLex]

theorem receive_rest (hc : c.Lawful) {message : Value} (cutting : Cutting c message) {seqId : Nat}
    {done rest : List Bytes} (hp : cutting.pieces = done ++ rest) (hrest : rest ≠ [])
    (delivered : List (Nat × Value)) :
    ((rest.zipIdx done.length).map fun (piece, segmentId) =>
      (⟨.serverMessageChunk segmentId cutting.pieces.length cutting.pieces.flatten.length
        (c.encode piece), stream.clientId, stream.streamId, seqId⟩ : IncomingServerEnvelope Value)).foldl
      (receive c)
      ⟨Function.update (fun _ => none) seqId
        (slotAfter cutting.pieces.length cutting.pieces.flatten.length done), delivered⟩ =
      ⟨fun _ => none, delivered ++ [(seqId, message)]⟩ := by
  induction rest generalizing done with
  | nil => exact absurd rfl hrest
  | cons piece rest ih =>
    have hnext := observeSlot_next hc cutting hp
    simp only [zipIdx_cons, map_cons, foldl_cons, receive, Function.update_self, hnext,
      Function.update_idem]
    by_cases hr : rest = []
    · subst hr
      simp [Function.update_eq_self]
    · simp only [if_neg hr]
      have hrun := @ih (done ++ [piece]) (by simp [hp]) hr
      rw [length_append, length_singleton] at hrun
      exact hrun

theorem receive_envelopes (hc : c.Lawful) (sent : SentMessage c) (delivered : List (Nat × Value)) :
    (sent.envelopes stream).foldl (receive c) ⟨fun _ => none, delivered⟩ =
      ⟨fun _ => none, delivered ++ [(sent.seqId, sent.message)]⟩ := by
  unfold SentMessage.envelopes
  split
  next => rfl
  next cutting _ =>
    have hne : cutting.pieces ≠ [] := by
      intro he
      have hsize := cutting.size_pos
      simp [he] at hsize
    have hrun := @receive_rest _ c stream hc sent.message cutting sent.seqId [] _ rfl hne delivered
    simpa [slotAfter, Function.update_eq_self] using hrun

theorem receive_wire (hc : c.Lawful) (sent : List (SentMessage c)) (delivered : List (Nat × Value)) :
    (sent.flatMap (SentMessage.envelopes stream)).foldl (receive c) ⟨fun _ => none, delivered⟩ =
      ⟨fun _ => none, delivered ++ sent.map fun message => (message.seqId, message.message)⟩ := by
  induction sent generalizing delivered with
  | nil => simp
  | cons message sent ih =>
    rw [flatMap_cons, foldl_append, receive_envelopes hc, ih, map_cons, append_assoc,
      singleton_append]

/-- Exactly once and in order: whatever is sent again, and whatever arrives for other streams in
between, every message is handed on once, every arrival is acknowledged, and no assembly is left. -/
theorem server_messages_exactly_once (hc : c.Lawful) {reader : ServerReader Value P}
    {sent : List (SentMessage c)} {arrivals : List (Surroundings × IncomingServerEnvelope Value)}
    (hlive : Live reader.remote epoch stream) (hcursor : ∀ message ∈ sent,
      streamCursor reader.remote epoch stream < (cursorKey (message.seqId, some 0) : WithBot (Nat ×ₗ Nat)))
    (hslots : ∀ seqId, reader.chunks.lookup (stream.clientId, stream.streamId, seqId) = none)
    (hopen : ∀ arrival ∈ arrivals, arrival.1.Open) (hsent : sent.Pairwise fun a b => a.seqId < b.seqId)
    (harrivals : HighWater.Resent [] (sent.flatMap (SentMessage.envelopes stream))
      ((arrivals.map Prod.snd).filter (OfStream stream ·))) :
    let out := readServerEnvelopes epoch c arrivals reader
    out.2 = .ok () ∧
      deliveredTo stream out.1.serverWork =
        deliveredTo stream reader.serverWork ++ sent.map (fun message => (message.seqId, message.message)) ∧
      out.1.outbound = reader.outbound ++ arrivals.map (fun arrival => ackOf arrival.2) ∧
      ∀ seqId, out.1.chunks.lookup (stream.clientId, stream.streamId, seqId) = none := by
  obtain ⟨hok, hack, hview⟩ := readServerEnvelopes_open (c := c) hlive hopen
  have hkeep : HighWater.keep envelopeKey (streamCursor reader.remote epoch stream)
      ((arrivals.map Prod.snd).filter (OfStream stream ·)) =
        sent.flatMap (SentMessage.envelopes stream) := by
    refine HighWater.keep_of_resent harrivals (by simp) ?_ (wire_increasing hsent)
    intro envelope he
    obtain ⟨message, hm, he⟩ := mem_flatMap.mp he
    exact (hcursor message hm).trans_le (WithBot.coe_le_coe.mpr (envelopeKey_ge he))
  have hstart : streamView epoch stream reader = (streamCursor reader.remote epoch stream,
      ⟨fun _ => none, deliveredTo stream reader.serverWork⟩) := by
    rw [streamView, funext hslots]
  have hreceived := congrArg Prod.snd hview
  rw [hstart, HighWater.foldl_filtered, hkeep, receive_wire hc] at hreceived
  refine ⟨hok, congrArg Receiver.delivered hreceived, hack, fun seqId => ?_⟩
  exact congrFun (congrArg Receiver.slots hreceived) seqId

def sampleStream : RegisteredStream where
  clientId := mochiportBridgeClientId
  streamId := "stream"
  clientId_free := by decide
  streamId_free := by decide

def sampleReader : ServerReader JsonLiteral Unit where
  remote := ⟨(∅ : Table _ _).insert 1
    ⟨"default:cli", true, .cli, true, (∅ : Table _ _).insert "default:cli"
      ⟨mochiportBridgeClientId, "stream", true, 1, ∅, none, none⟩, ∅⟩⟩
  chunks := ∅
  serverWork := []
  outbound := []

theorem sampleReader_live : Live sampleReader.remote 1 sampleStream :=
  ⟨_, rfl, rfl, "default:cli", _, rfl, rfl, rfl⟩

def sampleCutting : Cutting literalCodec .true where
  pieces := [utf8 "tr", utf8 "ue"]
  piece_ne_nil := by decide
  count_le := by decide
  size_pos := by decide
  size_le := by decide
  toVec_eq := by decide

def sampleEnvelope (event : IncomingServerEvent JsonLiteral) (seqId : Nat) : IncomingServerEnvelope JsonLiteral :=
  ⟨event, mochiportBridgeClientId, "stream", seqId⟩

/-- A whole message and a message in two chunks, the first chunk sent again before the second, and
an envelope of a stream that is not registered in between. -/
def sampleArrivals : List (Surroundings × IncomingServerEnvelope JsonLiteral) :=
  [sampleEnvelope (.serverMessage .null) 1,
    sampleEnvelope (.serverMessageChunk 0 2 4 (Base64.encode (utf8 "tr"))) 2,
    ⟨.ack, "client", "other", 9⟩,
    sampleEnvelope (.serverMessageChunk 0 2 4 (Base64.encode (utf8 "tr"))) 2,
    sampleEnvelope (.serverMessageChunk 1 2 4 (Base64.encode (utf8 "ue"))) 2,
    sampleEnvelope (.serverMessage .null) 1].map fun envelope => (⟨.room, true, 0, "id"⟩, envelope)

theorem server_messages_exactly_once_resent :
    deliveredTo sampleStream (readServerEnvelopes 1 literalCodec sampleArrivals sampleReader).1.serverWork =
      [(1, .null), (2, .true)] := by
  have hresent : HighWater.Resent []
      (List.flatMap (SentMessage.envelopes sampleStream)
        [⟨1, .null, none⟩, ⟨2, .true, some sampleCutting⟩])
      ((sampleArrivals.map Prod.snd).filter (OfStream sampleStream ·)) :=
    .fresh (.fresh (.again (.head _) (.fresh (.again (.tail _ (.tail _ (.head _))) .done))))
  have hcursor : streamCursor sampleReader.remote 1 sampleStream = ⊥ := rfl
  exact (server_messages_exactly_once literalCodec_lawful sampleReader_live
    (fun _ _ => hcursor ▸ WithBot.bot_lt_coe _) (fun _ => rfl) (by decide) (by decide) hresent).2.1

end MochiPort

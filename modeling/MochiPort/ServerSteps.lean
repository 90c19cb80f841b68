import MochiPort.StreamView

namespace MochiPort

variable {Value P : Type} {c : WireCodec Value} {env : Surroundings} {epoch : Nat}
  {stream : RegisteredStream}

/-- What an envelope that is not a duplicate asks for: the chunk map and the remote state after it,
and the work items to enqueue. -/
def takeEvent (c : WireCodec Value) (env : Surroundings) (epoch : Nat)
    (envelope : IncomingServerEnvelope Value) (reader : ServerReader Value P) :
    ServerChunkMap × RemoteControlInner P × List (RemoteServerWorkItem Value) :=
  let ⟨event, clientId, streamId, seqId⟩ := envelope
  match event with
  | .serverMessage message =>
    (reader.chunks, reader.remote, [.serverMessage epoch seqId clientId streamId message])
  | .serverMessageChunk segmentId segmentCount messageSizeBytes messageChunkBase64 =>
    let (chunks, observation) := observeServerChunk c reader.chunks clientId streamId seqId segmentId
      segmentCount messageSizeBytes messageChunkBase64
    (chunks, reader.remote, match observation with
      | .complete message => [.serverMessage epoch seqId clientId streamId message]
      | _ => [])
  | .ack => (reader.chunks, reader.remote, [.serverAck epoch seqId clientId streamId])
  | .pong status =>
    let (remote, shouldReinitializeClient) :=
      recordRemoteAppPong env reader.remote epoch clientId streamId status
    (reader.chunks, remote, [.serverPong epoch seqId clientId streamId status shouldReinitializeClient])

def ackOf (envelope : IncomingServerEnvelope Value) : OutgoingClientEnvelope Value :=
  buildClientAckEnvelope envelope.clientId envelope.streamId envelope.seqId
    (serverEventSegmentId envelope.event)

def Surroundings.Open (env : Surroundings) : Prop :=
  env.workQueue = .room ∧ env.outboundOpen = true

instance (env : Surroundings) : Decidable env.Open := inferInstanceAs (Decidable (_ ∧ _))

theorem ackAndMark_cases (clientId streamId : String) (seqId : Nat) (segmentId : Option Nat)
    (reader : ServerReader Value P) :
    (ackAndMark env epoch clientId streamId seqId segmentId reader =
      ({ reader with
          remote := markServerEnvelopeAcked reader.remote epoch clientId streamId seqId segmentId
          outbound := reader.outbound ++ [buildClientAckEnvelope clientId streamId seqId segmentId] },
        .ok ())) ∨
    (¬env.Open ∧
      ∃ err, ackAndMark env epoch clientId streamId seqId segmentId reader = (reader, .error err)) := by
  unfold ackAndMark ackServerEnvelope Surroundings.Open
  cases env.outboundOpen with
  | true => exact .inl rfl
  | false => exact .inr ⟨by simp, _, rfl⟩

theorem enqueueAckAndMark_cases (clientId streamId : String) (seqId : Nat)
    (item : RemoteServerWorkItem Value) (segmentId : Option Nat) (reader : ServerReader Value P) :
    (enqueueAckAndMark env epoch clientId streamId seqId item segmentId reader =
      ({ reader with
          remote := markServerEnvelopeAcked reader.remote epoch clientId streamId seqId segmentId
          serverWork := reader.serverWork ++ [item]
          outbound := reader.outbound ++ [buildClientAckEnvelope clientId streamId seqId segmentId] },
        .ok ())) ∨
    (¬env.Open ∧ ∃ work err,
      enqueueAckAndMark env epoch clientId streamId seqId item segmentId reader =
        ({ reader with serverWork := reader.serverWork ++ work }, .error err) ∧
      (work = [] ∨ work = [item])) := by
  unfold enqueueAckAndMark enqueueRemoteServerWork
  cases hq : env.workQueue with
  | room =>
    rcases @ackAndMark_cases Value P env epoch clientId streamId seqId segmentId
      { reader with serverWork := reader.serverWork ++ [item] } with he | ⟨ho, err, he⟩
    · exact .inl he
    · exact .inr ⟨ho, [item], err, he, .inr rfl⟩
  | full | closed => exact .inr ⟨by simp [Surroundings.Open, hq], [], _, by rw [List.append_nil], .inl rfl⟩

/-- How the branches for new envelopes end: with everything asked for done, acknowledged and
marked, or in an error after some of the work. -/
theorem handleServerEvent_cases (envelope : IncomingServerEnvelope Value) (reader : ServerReader Value P) :
    let taken := takeEvent c env epoch envelope reader
    let out := handleServerEvent env epoch envelope.clientId envelope.streamId envelope.seqId c
      envelope.event reader
    let marked := markServerEnvelopeAcked taken.2.1 epoch envelope.clientId envelope.streamId
      envelope.seqId (serverEventSegmentId envelope.event)
    (out = (⟨marked, taken.1, reader.serverWork ++ taken.2.2, reader.outbound ++ [ackOf envelope]⟩,
      .ok ())) ∨
    (¬env.Open ∧ ∃ work err,
      out = (⟨taken.2.1, taken.1, reader.serverWork ++ work, reader.outbound⟩, .error err) ∧
      (work = [] ∨ work = taken.2.2)) := by
  obtain ⟨event, clientId, streamId, seqId⟩ := envelope
  cases event with
  | serverMessage message | ack => exact enqueueAckAndMark_cases clientId streamId seqId _ none reader
  | serverMessageChunk segmentId segmentCount messageSizeBytes messageChunkBase64 =>
    simp only [takeEvent, handleServerEvent, serverEventSegmentId, ackOf]
    generalize observeServerChunk c reader.chunks clientId streamId seqId segmentId segmentCount
      messageSizeBytes messageChunkBase64 = observed
    obtain ⟨chunks, observation⟩ := observed
    have hack := @ackAndMark_cases Value P env epoch clientId streamId seqId (some segmentId)
      { reader with chunks := chunks }
    cases observation with
    | complete message =>
      exact enqueueAckAndMark_cases clientId streamId seqId _ (some segmentId)
        { reader with chunks := chunks }
    | pending | dropped =>
      rcases hack with he | ⟨ho, err, he⟩
      · exact .inl (by rw [List.append_nil]; exact he)
      · exact .inr ⟨ho, [], err, by rw [List.append_nil]; exact he, .inl rfl⟩
  | pong status =>
    exact enqueueAckAndMark_cases clientId streamId seqId _ none { reader with remote := _ }

theorem takeEvent_unmoved (envelope : IncomingServerEnvelope Value) (reader : ServerReader Value P) :
    Unmoved epoch stream reader.remote (takeEvent c env epoch envelope reader).2.1 := by
  obtain ⟨event, clientId, streamId, seqId⟩ := envelope
  cases event with
  | serverMessage message | serverMessageChunk | ack => exact ⟨rfl, id⟩
  | pong status => exact recordRemoteAppPong_unmoved env reader.remote epoch clientId streamId status stream

variable {envelope : IncomingServerEnvelope Value}

theorem takeEvent_self (hs : OfStream stream envelope) (reader : ServerReader Value P) :
    let taken := takeEvent c env epoch envelope reader
    (⟨fun seqId => taken.1.lookup (stream.clientId, stream.streamId, seqId),
      deliveredTo stream (reader.serverWork ++ taken.2.2)⟩ : Receiver Value) =
      receive c (streamView epoch stream reader).2 envelope := by
  obtain ⟨event, clientId, streamId, seqId⟩ := envelope
  obtain ⟨rfl, rfl⟩ := hs
  cases event with
  | serverMessage message | ack | pong status => simp [takeEvent, receive, streamView, deliveredTo]
  | serverMessageChunk segmentId segmentCount messageSizeBytes messageChunkBase64 =>
    obtain ⟨hobserved, hlookup⟩ := observeServerChunk_slot (c := c) reader.chunks stream.clientId
      stream.streamId seqId segmentId segmentCount messageSizeBytes messageChunkBase64
    simp only [takeEvent, receive, streamView, hlookup, hobserved]
    generalize observeSlot c (reader.chunks.lookup (stream.clientId, stream.streamId, seqId)) segmentId
      segmentCount messageSizeBytes messageChunkBase64 = observed
    obtain ⟨slot, observation⟩ := observed
    congr 1
    · funext other
      by_cases ho : other = seqId
      · subst ho; simp
      · simp [ho]
    · cases observation <;> simp [deliveredTo]

theorem takeEvent_other (hs : ¬OfStream stream envelope) (reader : ServerReader Value P) :
    let taken := takeEvent c env epoch envelope reader
    (⟨fun seqId => taken.1.lookup (stream.clientId, stream.streamId, seqId),
      deliveredTo stream (reader.serverWork ++ taken.2.2)⟩ : Receiver Value) =
      (streamView epoch stream reader).2 := by
  obtain ⟨event, clientId, streamId, seqId⟩ := envelope
  have hne : ¬(clientId = stream.clientId ∧ streamId = stream.streamId) := hs
  cases event with
  | serverMessage message => simp [takeEvent, streamView, deliveredTo, hne]
  | serverMessageChunk segmentId segmentCount messageSizeBytes messageChunkBase64 =>
    obtain ⟨_, hlookup⟩ := observeServerChunk_slot (c := c) reader.chunks clientId
      streamId seqId segmentId segmentCount messageSizeBytes messageChunkBase64
    have hkey : ∀ other, (stream.clientId, stream.streamId, other) ≠ (clientId, streamId, seqId) := by
      intro other he
      simp only [Prod.mk.injEq] at he
      exact hne ⟨he.1.symm, he.2.1.symm⟩
    simp only [takeEvent, streamView, hlookup, if_neg (hkey _)]
    generalize (observeServerChunk c reader.chunks clientId streamId seqId segmentId segmentCount
      messageSizeBytes messageChunkBase64).2 = observation
    cases observation <;> simp [deliveredTo, hne]
  | ack | pong status => simp [takeEvent, streamView, deliveredTo]

/-- How the handler ends: a stale stream is acknowledged and marked, a duplicate is acknowledged, a
new envelope is taken; or an error, which only a channel that is not open can cause. -/
theorem handleServerEnvelope_cases (c : WireCodec Value) (env : Surroundings) (epoch : Nat)
    (envelope : IncomingServerEnvelope Value) (reader : ServerReader Value P) :
    let current := isCurrentRemoteStream reader.remote epoch envelope.clientId envelope.streamId
    let duplicate := isDuplicateServerEnvelope reader.remote epoch envelope.clientId envelope.streamId
      envelope.seqId (serverEventSegmentId envelope.event)
    let taken := takeEvent c env epoch envelope reader
    let mark := fun remote => markServerEnvelopeAcked remote epoch envelope.clientId envelope.streamId
      envelope.seqId (serverEventSegmentId envelope.event)
    let out := handleServerEnvelope env epoch c envelope reader
    let outbound := reader.outbound ++ [ackOf envelope]
    (current = false ∧
      out = (⟨mark reader.remote, reader.chunks, reader.serverWork, outbound⟩, .ok ())) ∨
    (current = true ∧ duplicate = true ∧
      out = (⟨reader.remote, reader.chunks, reader.serverWork, outbound⟩, .ok ())) ∨
    (current = true ∧ duplicate = false ∧
      out = (⟨mark taken.2.1, taken.1, reader.serverWork ++ taken.2.2, outbound⟩, .ok ())) ∨
    (¬env.Open ∧ (∃ err, out.2 = .error err) ∧
      (out.1 = reader ∨ current = true ∧ duplicate = false ∧ ∃ work, (work = [] ∨ work = taken.2.2) ∧
        out.1 = ⟨taken.2.1, taken.1, reader.serverWork ++ work, reader.outbound⟩)) := by
  dsimp only [handleServerEnvelope]
  cases hc : isCurrentRemoteStream reader.remote epoch envelope.clientId envelope.streamId with
  | false =>
    rcases @ackAndMark_cases Value P env epoch envelope.clientId envelope.streamId envelope.seqId
      (serverEventSegmentId envelope.event) reader with he | ⟨hn, err, he⟩
    · exact .inl ⟨rfl, he⟩
    · refine .inr (.inr (.inr ⟨hn, ⟨err, ?_⟩, .inl ?_⟩))
      · exact congrArg Prod.snd he
      · exact congrArg Prod.fst he
  | true =>
    cases hd : isDuplicateServerEnvelope reader.remote epoch envelope.clientId envelope.streamId
      envelope.seqId (serverEventSegmentId envelope.event) with
    | true =>
      simp only [ackServerEnvelope, Surroundings.Open]
      cases env.outboundOpen with
      | true => exact .inr (.inl ⟨trivial, trivial, rfl⟩)
      | false => exact .inr (.inr (.inr ⟨by simp, ⟨_, rfl⟩, .inl rfl⟩))
    | false =>
      rcases @handleServerEvent_cases Value P c env epoch envelope reader with
        he | ⟨hn, work, err, he, hwork⟩
      · exact .inr (.inr (.inl ⟨rfl, rfl, he⟩))
      · refine .inr (.inr (.inr ⟨hn, ⟨err, ?_⟩, .inr ⟨rfl, rfl, work, hwork, ?_⟩⟩))
        · exact congrArg Prod.snd he
        · exact congrArg Prod.fst he

section

variable (envelope)

theorem handleServerEnvelope_acks (reader : ServerReader Value P) (ho : env.Open) :
    let out := handleServerEnvelope env epoch c envelope reader
    out.2 = .ok () ∧ out.1.outbound = reader.outbound ++ [ackOf envelope] := by
  rcases handleServerEnvelope_cases c env epoch envelope reader with
    ⟨_, he⟩ | ⟨_, _, he⟩ | ⟨_, _, he⟩ | ⟨hn, _⟩
  · rw [he]; exact ⟨rfl, rfl⟩
  · rw [he]; exact ⟨rfl, rfl⟩
  · rw [he]; exact ⟨rfl, rfl⟩
  · exact absurd ho hn

theorem handleServerEnvelope_live (reader : ServerReader Value P) (hlive : Live reader.remote epoch stream) :
    Live (handleServerEnvelope env epoch c envelope reader).1.remote epoch stream := by
  have htaken := (@takeEvent_unmoved Value P c env epoch stream envelope reader).2 hlive
  rcases handleServerEnvelope_cases c env epoch envelope reader with
    ⟨_, he⟩ | ⟨_, _, he⟩ | ⟨_, _, he⟩ | ⟨_, _, he | ⟨_, _, _, _, he⟩⟩
  · rw [he]; exact markServerEnvelopeAcked_live hlive
  · rw [he]; exact hlive
  · rw [he]; exact markServerEnvelopeAcked_live htaken
  · rw [he]; exact hlive
  · rw [he]; exact htaken

end

theorem handleServerEnvelope_other (hs : ¬OfStream stream envelope) (reader : ServerReader Value P)
    (hlive : Live reader.remote epoch stream) :
    let out := handleServerEnvelope env epoch c envelope reader
    (out.2 = .ok () → streamView epoch stream out.1 = streamView epoch stream reader) ∧
      deliveredTo stream out.1.serverWork = deliveredTo stream reader.serverWork := by
  obtain ⟨hcursor, hlive'⟩ := @takeEvent_unmoved Value P c env epoch stream envelope reader
  have hother := @takeEvent_other Value P c env epoch stream envelope hs reader
  have hwork := congrArg Receiver.delivered hother
  rcases handleServerEnvelope_cases c env epoch envelope reader with
    ⟨_, he⟩ | ⟨_, _, he⟩ | ⟨_, _, he⟩ | ⟨_, ⟨err, herr⟩, he | ⟨_, _, work, hcases, he⟩⟩
  · rw [he]
    exact ⟨fun _ => Prod.ext (markServerEnvelopeAcked_other hlive hs).1 rfl, rfl⟩
  · rw [he]
    exact ⟨fun _ => rfl, rfl⟩
  · rw [he]
    refine ⟨fun _ => Prod.ext ?_ hother, hwork⟩
    exact (markServerEnvelopeAcked_other (hlive' hlive) hs).1.trans hcursor
  · exact ⟨fun hok => by simp [herr] at hok, by rw [he]⟩
  · refine ⟨fun hok => by simp [herr] at hok, ?_⟩
    rw [he]
    rcases hcases with rfl | rfl
    · rw [List.append_nil]
    · exact hwork

/-- For its own stream the handler is the high-water filter in front of the receiver; when it fails,
the message of this envelope may or may not have been handed on. -/
theorem handleServerEnvelope_self (hs : OfStream stream envelope) (reader : ServerReader Value P)
    (hlive : Live reader.remote epoch stream) :
    let out := handleServerEnvelope env epoch c envelope reader
    let next := HighWater.filtered envelopeKey (receive c) (streamView epoch stream reader) envelope
    (out.2 = .ok () → streamView epoch stream out.1 = next) ∧
      (deliveredTo stream out.1.serverWork = deliveredTo stream reader.serverWork ∨
        deliveredTo stream out.1.serverWork = next.2.delivered) := by
  obtain ⟨hcursor, hlive'⟩ := @takeEvent_unmoved Value P c env epoch stream envelope reader
  have hself := @takeEvent_self Value P c env epoch stream envelope hs reader
  have hids : envelope.clientId = stream.clientId ∧ envelope.streamId = stream.streamId := hs
  have hcurrent := isCurrentRemoteStream_of_live hlive
  have hduplicate := @isDuplicateServerEnvelope_iff P reader.remote stream (serverEventSegmentId envelope.event) epoch
    envelope.seqId
  have hcases := handleServerEnvelope_cases c env epoch envelope reader
  rw [hids.1, hids.2, hcurrent] at hcases
  rcases hcases with ⟨hn, _⟩ | ⟨_, hd, he⟩ | ⟨_, hd, he⟩ |
    ⟨_, ⟨err, herr⟩, he | ⟨_, hd, work, hwork, he⟩⟩
  · cases hn
  · rw [he, HighWater.filtered_of_not_lt (hduplicate.mp hd)]
    exact ⟨fun _ => rfl, .inl rfl⟩
  · have hlt := not_not.mp (mt hduplicate.mpr (by simp [hd]))
    rw [he, HighWater.filtered_of_lt hlt]
    refine ⟨fun _ => Prod.ext ?_ hself, .inr (congrArg Receiver.delivered hself)⟩
    exact markServerEnvelopeAcked_self (hlive' hlive) (by rwa [hcursor])
  · exact ⟨fun hok => by simp [herr] at hok, .inl (by rw [he])⟩
  · have hlt := not_not.mp (mt hduplicate.mpr (by simp [hd]))
    refine ⟨fun hok => by simp [herr] at hok, ?_⟩
    rw [he, HighWater.filtered_of_lt hlt]
    rcases hwork with rfl | rfl
    · exact .inl (by rw [List.append_nil])
    · exact .inr (congrArg Receiver.delivered hself)

end MochiPort

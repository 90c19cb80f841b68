import MochiPort.ServerDelivery

namespace MochiPort

open List

variable {Value P : Type} {c : WireCodec Value} {epoch : Nat} {stream : RegisteredStream}

def IsChunk (envelope : IncomingServerEnvelope Value) : Prop :=
  (serverEventSegmentId envelope.event).isSome

def IsServerMessage (envelope : IncomingServerEnvelope Value) : Prop :=
  ∃ message, envelope.event = .serverMessage message

/-- The envelopes whose handling hands a message of the stream on. -/
def deliveringEnvelopes (stream : RegisteredStream) (epoch : Nat) (c : WireCodec Value) :
    List (Surroundings × IncomingServerEnvelope Value) → ServerReader Value P →
      List (IncomingServerEnvelope Value)
  | [], _ => []
  | (env, envelope) :: arrivals, reader =>
    let (next, result) := handleServerEnvelope env epoch c envelope reader
    let here :=
      if (deliveredTo stream reader.serverWork).length < (deliveredTo stream next.serverWork).length then
        [envelope]
      else []
    match result with
    | .ok () => here ++ deliveringEnvelopes stream epoch c arrivals next
    | .error _ => here

/-- The same at a receiver that drops no duplicates. -/
def deliveringAt (c : WireCodec Value) :
    Receiver Value → List (IncomingServerEnvelope Value) → List (IncomingServerEnvelope Value)
  | _, [] => []
  | receiver, envelope :: envelopes =>
    (if receiver.delivered.length < (receive c receiver envelope).delivered.length then [envelope]
      else []) ++ deliveringAt c (receive c receiver envelope) envelopes

theorem observeSlot_cases (c : WireCodec Value) (slot : Option ServerChunkAssembly)
    (segmentId segmentCount messageSizeBytes : Nat) (messageChunkBase64 : String) :
    let out := observeSlot c slot segmentId segmentCount messageSizeBytes messageChunkBase64
    out.2 = .dropped ∨ out.2 = .pending ∨
      ∃ message, out = (none, .complete message) ∧ segmentId < usizeMax := by
  unfold observeSlot
  dsimp only
  split
  next => exact .inl rfl
  next =>
    split
    next => exact .inl rfl
    next hvalid =>
      have hid : segmentId < usizeMax := by
        simp only [invalidChunkMetadata, Bool.or_eq_true, decide_eq_true_eq, not_or,
          remoteControlSegmentCountMax, ge_iff_le, gt_iff_lt] at hvalid
        have hmax : usizeMax = 18446744073709551615 := rfl
        omega
      split
      next => exact .inl rfl
      next =>
        split
        next => exact .inl rfl
        next =>
          split
          next => exact .inl rfl
          next =>
            split
            next => exact .inr (.inl rfl)
            next =>
              split
              next => exact .inl rfl
              next =>
                split
                next message _ => exact .inr (.inr ⟨message, rfl, hid⟩)
                next => exact .inl rfl

theorem observeSlot_none {segmentId segmentCount messageSizeBytes : Nat} {messageChunkBase64 : String}
    (h : segmentId ≠ 0) :
    observeSlot c none segmentId segmentCount messageSizeBytes messageChunkBase64 = (none, .dropped) := by
  simp only [observeSlot, Option.any_none, Option.getD_none]
  rw [if_neg (by simp)]
  split
  next => rfl
  next => rw [if_pos (by simp [h.symm])]

theorem receive_delivered (receiver : Receiver Value) (envelope : IncomingServerEnvelope Value) :
    (receive c receiver envelope).delivered = receiver.delivered ∨
      ((∃ message, (receive c receiver envelope).delivered = receiver.delivered ++ [(envelope.seqId, message)]) ∧
        (IsServerMessage envelope ∨
          ∃ segmentId, serverEventSegmentId envelope.event = some segmentId ∧ segmentId < usizeMax ∧
            (segmentId = 0 ∨ receiver.slots envelope.seqId ≠ none) ∧
            (receive c receiver envelope).slots envelope.seqId = none)) := by
  obtain ⟨event, clientId, streamId, seqId⟩ := envelope
  cases event with
  | serverMessage message => exact .inr ⟨⟨message, rfl⟩, .inl ⟨message, rfl⟩⟩
  | serverMessageChunk segmentId segmentCount messageSizeBytes messageChunkBase64 =>
    have hcases := observeSlot_cases c (receiver.slots seqId) segmentId segmentCount messageSizeBytes
      messageChunkBase64
    have hnone := @observeSlot_none Value c segmentId segmentCount messageSizeBytes messageChunkBase64
    simp only [receive]
    rcases hcases with hd | hp | ⟨message, hm, hlt⟩
    · rw [hd]; exact .inl rfl
    · rw [hp]; exact .inl rfl
    · refine .inr ⟨⟨message, by rw [hm]⟩, .inr ⟨segmentId, rfl, hlt, ?_, by rw [hm]; simp⟩⟩
      by_contra hfirst
      obtain ⟨hpos, hslot⟩ := not_or.mp hfirst
      rw [not_not.mp hslot, hnone hpos] at hm
      cases hm
  | ack | pong status => exact .inl rfl

variable {receiver : Receiver Value}

theorem receive_slot_none {envelope : IncomingServerEnvelope Value} {seqId : Nat}
    (hslot : receiver.slots seqId = none)
    (hlater : envelope.seqId = seqId → serverEventSegmentId envelope.event ≠ some 0) :
    (receive c receiver envelope).slots seqId = none := by
  obtain ⟨event, clientId, streamId, other⟩ := envelope
  cases event with
  | serverMessage message | ack | pong status => exact hslot
  | serverMessageChunk segmentId segmentCount messageSizeBytes messageChunkBase64 =>
    by_cases ho : seqId = other
    · subst ho
      have hpos : segmentId ≠ 0 := fun he => hlater rfl (congrArg some he)
      simp [receive, hslot, observeSlot_none hpos]
    · simpa [receive, Function.update_of_ne ho] using hslot

variable {envelopes : List (IncomingServerEnvelope Value)}

theorem deliveringAt_whole {seqId : Nat} (hslot : receiver.slots seqId = none)
    (hlater : ∀ envelope ∈ envelopes, envelope.seqId = seqId → serverEventSegmentId envelope.event ≠ some 0) :
    ∀ envelope ∈ deliveringAt c receiver envelopes, envelope.seqId = seqId →
      IsServerMessage envelope := by
  induction envelopes generalizing receiver with
  | nil => simp [deliveringAt]
  | cons first envelopes ih =>
    have hfirst := hlater first (mem_cons_self ..)
    have hrest := ih (receive_slot_none (c := c) hslot hfirst)
      fun envelope he => hlater envelope (mem_cons_of_mem _ he)
    intro envelope hm hseq
    rcases mem_append.mp hm with hm | hm
    · split at hm
      next hgrows =>
        obtain rfl := mem_singleton.mp hm
        rcases receive_delivered (c := c) receiver envelope with hsame | ⟨_, hwhole | ⟨segmentId, hid, _, hopen, _⟩⟩
        · rw [hsame] at hgrows
          omega
        · exact hwhole
        · rcases hopen with rfl | hopen
          · exact absurd hid (hfirst hseq)
          · exact absurd (hseq ▸ hslot) hopen
      next => cases hm
    · exact hrest envelope hm hseq

theorem deliveringAt_sublist (receiver : Receiver Value) (envelopes : List (IncomingServerEnvelope Value)) :
    (deliveringAt c receiver envelopes).Sublist envelopes := by
  induction envelopes generalizing receiver with
  | nil => exact .slnil
  | cons first envelopes ih =>
    simp only [deliveringAt]
    split
    next => exact (ih _).cons_cons first
    next => exact (ih _).cons first

theorem deliveringAt_segment_le :
    ∀ envelope ∈ deliveringAt c receiver envelopes,
      (serverEventSegmentId envelope.event).getD usizeMax ≤ usizeMax := by
  induction envelopes generalizing receiver with
  | nil => simp [deliveringAt]
  | cons first envelopes ih =>
    intro envelope hm
    rcases mem_append.mp hm with hm | hm
    · split at hm
      next hgrows =>
        obtain rfl := mem_singleton.mp hm
        rcases receive_delivered (c := c) receiver envelope with
          hsame | ⟨_, ⟨message, hwhole⟩ | ⟨segmentId, hid, hlt, _⟩⟩
        · rw [hsame] at hgrows
          omega
        · simp [hwhole, serverEventSegmentId]
        · simpa [hid] using hlt.le
      next => cases hm
    · exact ih envelope hm

/-- Of two deliveries the second has the larger number, or the same one and is a whole message
after a chunk. -/
def DeliveredBefore (first second : IncomingServerEnvelope Value) : Prop :=
  first.seqId < second.seqId ∨
    (first.seqId = second.seqId ∧ IsChunk first ∧ IsServerMessage second)

theorem deliveringAt_ordered (hkeys : envelopes.Pairwise fun a b => envelopeKey a < envelopeKey b) :
    (deliveringAt c receiver envelopes).Pairwise DeliveredBefore := by
  induction envelopes generalizing receiver with
  | nil => simp [deliveringAt]
  | cons first envelopes ih =>
    obtain ⟨hfirst, hkeys⟩ := pairwise_cons.mp hkeys
    simp only [deliveringAt]
    split
    next hgrows =>
      refine pairwise_cons.mpr ⟨fun second hm => ?_, ih hkeys⟩
      have hkey := hfirst second ((deliveringAt_sublist _ _).subset hm)
      have hsecond := deliveringAt_segment_le second hm
      simp only [envelopeKey, cursorKey, cursorPair, Prod.Lex.toLex_lt_toLex] at hkey
      rcases hkey with hlt | ⟨heq, hlt⟩
      · exact .inl hlt
      · refine .inr ⟨heq, ?_⟩
        rcases receive_delivered (c := c) receiver first with
          hsame | ⟨_, ⟨message, hwhole⟩ | ⟨segmentId, hid, _, _, hnone⟩⟩
        · rw [hsame] at hgrows
          omega
        · -- nothing of the same number stands after a whole message
          have hnone : serverEventSegmentId first.event = none := by rw [hwhole]; rfl
          rw [hnone, Option.getD_none] at hlt
          omega
        · refine ⟨by simp [IsChunk, hid], deliveringAt_whole hnone ?_ second hm heq.symm⟩
          intro later hl hseq hzero
          have hkey := hfirst later hl
          simp [envelopeKey, cursorKey, cursorPair, Prod.Lex.toLex_lt_toLex, hseq, hzero] at hkey
    next => exact ih hkeys

theorem receive_seqIds (receiver : Receiver Value) (envelope : IncomingServerEnvelope Value) :
    (receive c receiver envelope).delivered.map Prod.fst = receiver.delivered.map Prod.fst ++
      (if receiver.delivered.length < (receive c receiver envelope).delivered.length then [envelope]
        else []).map (·.seqId) := by
  rcases receive_delivered (c := c) receiver envelope with hsame | ⟨⟨message, hm⟩, _⟩
  · simp [hsame]
  · simp [hm]

theorem handleServerEnvelope_skips {env : Surroundings} {envelope : IncomingServerEnvelope Value}
    {reader : ServerReader Value P} (hlive : Live reader.remote epoch stream)
    (hold : ¬(OfStream stream envelope ∧ (streamView epoch stream reader).1 <
      (envelopeKey envelope : WithBot (Nat ×ₗ Nat)))) :
    let out := handleServerEnvelope env epoch c envelope reader
    (out.2 = .ok () → streamView epoch stream out.1 = streamView epoch stream reader) ∧
      deliveredTo stream out.1.serverWork = deliveredTo stream reader.serverWork := by
  by_cases hs : OfStream stream envelope
  · obtain ⟨hview, hdelivered⟩ := @handleServerEnvelope_self Value P c env epoch stream envelope hs reader hlive
    rw [HighWater.filtered_of_not_lt fun hlt => hold ⟨hs, hlt⟩] at hview hdelivered
    exact ⟨hview, hdelivered.elim id id⟩
  · exact handleServerEnvelope_other hs reader hlive

theorem readServerEnvelopes_delivers {arrivals : List (Surroundings × IncomingServerEnvelope Value)}
    {reader : ServerReader Value P} (hlive : Live reader.remote epoch stream) :
    ∃ envelopes : List (IncomingServerEnvelope Value),
      (∀ envelope ∈ envelopes, (streamView epoch stream reader).1 <
        (envelopeKey envelope : WithBot (Nat ×ₗ Nat))) ∧
      envelopes.Pairwise (fun a b => envelopeKey a < envelopeKey b) ∧
      deliveringEnvelopes stream epoch c arrivals reader =
        deliveringAt c (streamView epoch stream reader).2 envelopes ∧
      (deliveredTo stream (readServerEnvelopes epoch c arrivals reader).1.serverWork).map Prod.fst =
        (deliveredTo stream reader.serverWork).map Prod.fst ++
          (deliveringEnvelopes stream epoch c arrivals reader).map (·.seqId) := by
  induction arrivals generalizing reader with
  | nil => exact ⟨[], by simp, .nil, rfl, (append_nil _).symm⟩
  | cons arrival arrivals ih =>
    obtain ⟨env, envelope⟩ := arrival
    have hlive' := @handleServerEnvelope_live Value P c env epoch stream envelope reader hlive
    simp only [deliveringEnvelopes, readServerEnvelopes]
    by_cases hnew : OfStream stream envelope ∧ (streamView epoch stream reader).1 <
        (envelopeKey envelope : WithBot (Nat ×ₗ Nat))
    · obtain ⟨hs, hlt⟩ := hnew
      obtain ⟨hview, hdelivered⟩ :=
        @handleServerEnvelope_self Value P c env epoch stream envelope hs reader hlive
      have hseqs := receive_seqIds (c := c) (streamView epoch stream reader).2 envelope
      rw [HighWater.filtered_of_lt hlt] at hview hdelivered
      generalize handleServerEnvelope env epoch c envelope reader = out at *
      obtain ⟨next, result⟩ := out
      cases result with
      | error err =>
        rcases hdelivered with hd | hd
        · rw [hd, if_neg (lt_irrefl _)]
          exact ⟨[], by simp, .nil, rfl, by simp⟩
        · rw [hd]
          refine ⟨[envelope], by simpa using hlt, pairwise_singleton _ _, ?_, hseqs⟩
          simp only [deliveringAt, append_nil]
          rfl
      | ok _ =>
        obtain ⟨envelopes, habove, hkeys, hat, hrest⟩ := ih hlive'
        have hd : deliveredTo stream next.serverWork =
            (receive c (streamView epoch stream reader).2 envelope).delivered :=
          congrArg (fun view => view.2.delivered) (hview rfl)
        rw [hview rfl] at habove hat
        refine ⟨envelope :: envelopes, ?_, ?_, ?_, ?_⟩
        · intro other ho
          rcases mem_cons.mp ho with rfl | ho
          · exact hlt
          · exact hlt.trans (habove other ho)
        · exact pairwise_cons.mpr ⟨fun other ho => WithBot.coe_lt_coe.mp (habove other ho), hkeys⟩
        · rw [hat, hd]
          rfl
        · rw [hrest, hd, hseqs, map_append, append_assoc]
          rfl
    · obtain ⟨hview, hdelivered⟩ := @handleServerEnvelope_skips Value P c epoch stream env envelope reader hlive hnew
      generalize handleServerEnvelope env epoch c envelope reader = out at *
      obtain ⟨next, result⟩ := out
      rw [hdelivered, if_neg (lt_irrefl _)]
      cases result with
      | error err => exact ⟨[], by simp, .nil, rfl, by simp [hdelivered]⟩
      | ok _ =>
        obtain ⟨envelopes, habove, hkeys, hat, hseqs⟩ := ih hlive'
        rw [hview rfl] at habove hat
        exact ⟨envelopes, habove, hkeys, hat, by rw [hseqs, hdelivered, nil_append]⟩

theorem DeliveredBefore.seqId_le {first second : IncomingServerEnvelope Value}
    (h : DeliveredBefore first second) : first.seqId ≤ second.seqId :=
  h.elim le_of_lt fun h => h.1.le

theorem count_seqId_le_two (h : envelopes.Pairwise DeliveredBefore) (seqId : Nat) :
    (envelopes.map (·.seqId)).count seqId ≤ 2 := by
  by_contra hcount
  have hsub : (List.replicate 3 seqId).Sublist (envelopes.map (·.seqId)) :=
    replicate_sublist_iff.mpr (by omega)
  obtain ⟨three, hthree, hmap⟩ := sublist_map_iff.mp hsub
  have hlength : three.length = 3 := by simpa using (congrArg List.length hmap).symm
  obtain ⟨x, y, z, rfl⟩ := length_eq_three.mp hlength
  simp only [List.replicate, map_cons, map_nil, List.cons.injEq, and_true] at hmap
  obtain ⟨hx, hy, hz⟩ := hmap
  have hpairs := h.sublist hthree
  simp only [pairwise_cons, mem_cons, forall_eq_or_imp] at hpairs
  obtain ⟨⟨hxy, _⟩, ⟨hyz, _⟩, _⟩ := hpairs
  rcases hxy with hlt | ⟨_, _, message, hmessage⟩
  · omega
  · rcases hyz with hlt | ⟨_, hchunk, _⟩
    · omega
    · simp [IsChunk, hmessage, serverEventSegmentId] at hchunk

/-- Whatever arrives, the numbers handed on never decrease, and one is handed on twice only as a
reassembled message first and as a whole message after it. -/
theorem server_deliveries_ordered {arrivals : List (Surroundings × IncomingServerEnvelope Value)}
    {reader : ServerReader Value P} (hlive : Live reader.remote epoch stream) :
    let delivering := deliveringEnvelopes stream epoch c arrivals reader
    (deliveredTo stream (readServerEnvelopes epoch c arrivals reader).1.serverWork).map Prod.fst =
        (deliveredTo stream reader.serverWork).map Prod.fst ++ delivering.map (·.seqId) ∧
      delivering.Pairwise DeliveredBefore ∧ (delivering.map (·.seqId)).Pairwise (· ≤ ·) ∧
      ∀ seqId, (delivering.map (·.seqId)).count seqId ≤ 2 := by
  obtain ⟨envelopes, _, hkeys, hat, hseqs⟩ :=
    @readServerEnvelopes_delivers Value P c epoch stream arrivals reader hlive
  have hordered : (deliveringEnvelopes stream epoch c arrivals reader).Pairwise DeliveredBefore := by
    rw [hat]
    exact deliveringAt_ordered hkeys
  exact ⟨hseqs, hordered, pairwise_map.mpr (hordered.imp DeliveredBefore.seqId_le),
    count_seqId_le_two hordered⟩

def repeatedArrivals : List (Surroundings × IncomingServerEnvelope JsonLiteral) :=
  [sampleEnvelope (.serverMessageChunk 0 1 4 (Base64.encode (utf8 "null"))) 5,
    sampleEnvelope (.serverMessage .true) 5].map fun envelope => (⟨.room, true, 0, "id"⟩, envelope)

theorem server_deliveries_ordered_repeated :
    ((deliveringEnvelopes sampleStream 1 literalCodec repeatedArrivals sampleReader).map (·.seqId)).count 5 ≤ 2 :=
  (server_deliveries_ordered sampleReader_live).2.2.2 5

/-- A one-chunk message and a whole message under the same number are both handed on. -/
theorem server_deliveries_not_strict :
    ¬∀ arrivals : List (Surroundings × IncomingServerEnvelope JsonLiteral),
      ((deliveredTo sampleStream
        (readServerEnvelopes 1 literalCodec arrivals sampleReader).1.serverWork).map Prod.fst).Pairwise
          (· < ·) := by
  intro h
  have hrepeated := h repeatedArrivals
  have hwork : deliveredTo sampleStream
      (readServerEnvelopes 1 literalCodec repeatedArrivals sampleReader).1.serverWork =
      [(5, .null), (5, .true)] := by decide
  revert hrepeated
  decide

end MochiPort

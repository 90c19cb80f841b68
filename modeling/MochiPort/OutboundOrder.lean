import MochiPort.ClientSegments
import MochiPort.Runs
import MochiPort.StreamView

namespace MochiPort

open List

variable {Value : Type}

/-- The five functions that number envelopes of a client stream and put them on the channel. -/
inductive Sender where
  | requestOnceWithTimeoutForClientInner
  | sendInitializeForClientOnConnection
  | sendInitializedForStream
  | sendResponseForStream
  | sendResponseForClient
  deriving DecidableEq

/-- The first two build their envelopes under the lock that numbers them, the others after it. -/
def Sender.buildsUnderLock : Sender → Bool
  | .requestOnceWithTimeoutForClientInner => true
  | .sendInitializeForClientOnConnection => true
  | .sendInitializedForStream => false
  | .sendResponseForStream => false
  | .sendResponseForClient => false

inductive SendStage (Value : Type) where
  | numbered (message : Value)
  | built (envelopes : List (OutgoingClientEnvelope Value))
  | pushing (envelopes : List (OutgoingClientEnvelope Value))

structure Send (Value : Type) where
  sender : Sender
  seqId : Nat
  stage : SendStage Value

/-- One client stream of one connection: its counter, the calls that have taken a number, and the
stream's envelopes on the outbound channel. -/
structure ClientStream (Value : Type) where
  clientId : String
  streamId : String
  nextSeqId : Nat
  channelOpen : Bool
  sends : Table Nat (Send Value)
  outbound : List (OutgoingClientEnvelope Value)

inductive SendStep (Value : Type) where
  | takeSeqId (call : Nat) (sender : Sender) (message : Value) (cursor : String)
  | buildEnvelopes (call : Nat) (cursor : String)
  -- `active` tells whether this connection is the one that `send_envelopes` finds active
  | fetchOutboundTx (call : Nat) (active : Bool)
  | push (call : Nat)
  | cancel (call : Nat)
  | closeChannel

namespace ClientStream

def setSend (s : ClientStream Value) (call : Nat) (send : Send Value) : ClientStream Value :=
  { s with sends := s.sends.insert call send }

def finish (s : ClientStream Value) (call : Nat) : ClientStream Value :=
  { s with sends := s.sends.erase call }

variable (c : WireCodec Value) (envelopeLen : OutgoingClientEnvelope Value → Option Nat)

def build (s : ClientStream Value) (seqId : Nat) (message : Value) (cursor : String) :
    Except String (List (OutgoingClientEnvelope Value)) :=
  buildClientMessageEnvelopes c envelopeLen s.clientId s.streamId seqId message (some cursor)

def step (s : ClientStream Value) : SendStep Value → Option (ClientStream Value)
  | .takeSeqId call sender message cursor =>
    if s.sends.lookup call = none then
      let seqId := s.nextSeqId
      let next := { s with nextSeqId := min (seqId + 1) u64Max }
      if sender.buildsUnderLock then
        match s.build c envelopeLen seqId message cursor with
        | .ok envelopes => some (next.setSend call ⟨sender, seqId, .built envelopes⟩)
        | .error _ => some next
      else some (next.setSend call ⟨sender, seqId, .numbered message⟩)
    else none
  | .buildEnvelopes call cursor =>
    match s.sends.lookup call with
    | some ⟨sender, seqId, .numbered message⟩ =>
      match s.build c envelopeLen seqId message cursor with
      | .ok envelopes => some (s.setSend call ⟨sender, seqId, .built envelopes⟩)
      | .error _ => some (s.finish call)
    | _ => none
  | .fetchOutboundTx call active =>
    match s.sends.lookup call with
    | some ⟨sender, seqId, .built envelopes⟩ =>
      if s.channelOpen && (sender ≠ .sendResponseForClient || active) then
        some (s.setSend call ⟨sender, seqId, .pushing envelopes⟩)
      else some (s.finish call)
    | _ => none
  | .push call =>
    match s.sends.lookup call with
    | some ⟨sender, seqId, .pushing (envelope :: rest)⟩ =>
      if s.channelOpen then
        let pushed :=
          { s with outbound := s.outbound ++ [envelope] }.setSend call ⟨sender, seqId, .pushing rest⟩
        some (if rest = [] then pushed.finish call else pushed)
      else some (s.finish call)
    | some ⟨_, _, .pushing []⟩ => some (s.finish call)
    | _ => none
  | .cancel call => some (s.finish call)
  | .closeChannel => some { s with channelOpen := false }

/-- No sender pushes while one with a smaller number is unfinished, and the counter does not stick
at its maximum. -/
def KeepsTurn (s : ClientStream Value) : SendStep Value → Prop
  | .takeSeqId .. => s.nextSeqId < u64Max
  | .push call => ∀ mine ∈ s.sends.lookup call, ∀ other ∈ s.sends.keys,
      ∀ send ∈ s.sends.lookup other, mine.seqId ≤ send.seqId
  | _ => True

instance (s : ClientStream Value) (a : SendStep Value) : Decidable (s.KeepsTurn a) := by
  cases a <;> unfold KeepsTurn <;> infer_instance

end ClientStream

def clientEventSegmentId : OutgoingClientEvent Value → Option Nat
  | .clientMessageChunk segmentId .. => some segmentId
  | _ => none

/-- The place of an envelope in the order by number and segment. -/
def outgoingKey (envelope : OutgoingClientEnvelope Value) : Nat ×ₗ Nat :=
  cursorKey (envelope.seqId.getD 0, clientEventSegmentId envelope.event)

/-- Envelopes of one message: one number, increasing segments. -/
def OneMessage (seqId : Nat) (envelopes : List (OutgoingClientEnvelope Value)) : Prop :=
  (∀ envelope ∈ envelopes, envelope.seqId = some seqId) ∧
    envelopes.Pairwise fun a b => outgoingKey a < outgoingKey b

variable {c : WireCodec Value} {envelopeLen : OutgoingClientEnvelope Value → Option Nat}

theorem buildClientMessageEnvelopes_oneMessage {clientId streamId : String} {seqId : Nat}
    {message : Value} {cursor : Option String} {envelopes : List (OutgoingClientEnvelope Value)}
    (h : buildClientMessageEnvelopes c envelopeLen clientId streamId seqId message cursor =
      .ok envelopes) : OneMessage seqId envelopes := by
  rcases buildClientMessageEnvelopes_cases h with ⟨rfl, _⟩ | ⟨raw, chunkSize, _, _, _, hfits, hbuild⟩
  · exact ⟨fun envelope he => by rw [mem_singleton.mp he]; rfl, pairwise_singleton _ _⟩
  · have hmap : envelopes = (Chunks.cut chunkSize raw).zipIdx.map fun segment =>
        clientChunkEnvelope c clientId streamId seqId cursor segment.2 (raw.length ⌈/⌉ chunkSize)
          raw.length segment.1 := by
      cases hcut : (Chunks.cut chunkSize raw).zipIdx with
      | nil =>
        rw [hcut] at hbuild
        exact (Except.ok.inj hbuild).symm
      | cons first rest =>
        have hcount := (segmentsFit_mem hfits (hcut ▸ mem_cons_self ..)).1
        rw [buildClientChunkEnvelope_mapM hcount, hcut] at hbuild
        exact (Except.ok.inj hbuild).symm
    subst hmap
    refine ⟨fun envelope he => ?_, ?_⟩
    · obtain ⟨_, _, rfl⟩ := mem_map.mp he
      rfl
    · rw [pairwise_map]
      refine (Chunks.zipIdx_increasing _).imp fun h => ?_
      simpa [outgoingKey, cursorKey, cursorPair, clientChunkEnvelope, clientEventSegmentId,
        Prod.Lex.toLex_lt_toLex] using h

def SendStage.remaining : SendStage Value → List (OutgoingClientEnvelope Value)
  | .numbered _ => []
  | .built envelopes => envelopes
  | .pushing envelopes => envelopes

theorem ClientStream.step_cases {s t : ClientStream Value} {a : SendStep Value}
    (h : s.step c envelopeLen a = some t) :
    (∃ call sender message cursor, a = .takeSeqId call sender message cursor ∧
      s.sends.lookup call = none ∧
      (t = { s with nextSeqId := min (s.nextSeqId + 1) u64Max } ∨
        ∃ stage, OneMessage s.nextSeqId stage.remaining ∧
          t = { s with nextSeqId := min (s.nextSeqId + 1) u64Max }.setSend call
            ⟨sender, s.nextSeqId, stage⟩)) ∨
    (∃ call send stage, s.sends.lookup call = some send ∧ (∀ message, stage ≠ .numbered message) ∧
      (send.stage.remaining = stage.remaining ∨
        (∃ message, send.stage = .numbered message) ∧ OneMessage send.seqId stage.remaining) ∧
      t = s.setSend call { send with stage := stage }) ∨
    (∃ call sender seqId envelope rest, a = .push call ∧
      s.sends.lookup call = some ⟨sender, seqId, .pushing (envelope :: rest)⟩ ∧
      (t = { s with outbound := s.outbound ++ [envelope] }.setSend call ⟨sender, seqId, .pushing rest⟩ ∨
        t = ({ s with outbound := s.outbound ++ [envelope] }.setSend call
          ⟨sender, seqId, .pushing rest⟩).finish call)) ∨
    (∃ call, t = s.finish call) ∨ t = { s with channelOpen := false } := by
  cases a with
  | takeSeqId call sender message cursor =>
    simp only [step] at h
    split at h
    next hnone =>
      refine .inl ⟨call, sender, message, cursor, rfl, hnone, ?_⟩
      split at h
      next =>
        split at h
        next envelopes hbuild =>
          cases h
          exact .inr ⟨.built envelopes, buildClientMessageEnvelopes_oneMessage hbuild, rfl⟩
        next => cases h; exact .inl rfl
      next => cases h; exact .inr ⟨.numbered message, ⟨by simp [SendStage.remaining], .nil⟩, rfl⟩
    next => cases h
  | buildEnvelopes call cursor =>
    simp only [step] at h
    split at h
    next sender seqId message hlookup =>
      split at h
      next envelopes hbuild =>
        cases h
        exact .inr (.inl ⟨call, _, .built envelopes, hlookup, by simp,
          .inr ⟨⟨message, rfl⟩, buildClientMessageEnvelopes_oneMessage hbuild⟩, rfl⟩)
      next => cases h; exact .inr (.inr (.inr (.inl ⟨call, rfl⟩)))
    next => cases h
  | fetchOutboundTx call active =>
    simp only [step] at h
    split at h
    next sender seqId envelopes hlookup =>
      split at h
      next => cases h; exact .inr (.inl ⟨call, _, .pushing envelopes, hlookup, by simp, .inl rfl, rfl⟩)
      next => cases h; exact .inr (.inr (.inr (.inl ⟨call, rfl⟩)))
    next => cases h
  | push call =>
    simp only [step] at h
    split at h
    next sender seqId envelope rest hlookup =>
      split at h
      next =>
        refine .inr (.inr (.inl ⟨call, sender, seqId, envelope, rest, rfl, hlookup, ?_⟩))
        by_cases hrest : rest = []
        · rw [if_pos hrest] at h
          exact .inr (Option.some.inj h).symm
        · rw [if_neg hrest] at h
          exact .inl (Option.some.inj h).symm
      next => cases h; exact .inr (.inr (.inr (.inl ⟨call, rfl⟩)))
    next => cases h; exact .inr (.inr (.inr (.inl ⟨call, rfl⟩)))
    next => cases h
  | cancel call => cases h; exact .inr (.inr (.inr (.inl ⟨call, rfl⟩)))
  | closeChannel => cases h; exact .inr (.inr (.inr (.inr rfl)))

def envelopeSeqId (envelope : OutgoingClientEnvelope Value) : Nat := envelope.seqId.getD 0

theorem outgoingKey_lt_of_seqId_lt {a b : OutgoingClientEnvelope Value}
    (h : envelopeSeqId a < envelopeSeqId b) : outgoingKey a < outgoingKey b := by
  simp only [outgoingKey, cursorKey, cursorPair, Prod.Lex.toLex_lt_toLex]
  exact .inl h

/-- All that a call may still push comes after the envelope. -/
def Behind (envelope : OutgoingClientEnvelope Value) (send : Send Value) : Prop :=
  envelopeSeqId envelope < send.seqId ∨
    (envelopeSeqId envelope = send.seqId ∧ (∀ message, send.stage ≠ .numbered message) ∧
      ∀ later ∈ send.stage.remaining, outgoingKey envelope < outgoingKey later)

structure InOrder (s : ClientStream Value) : Prop where
  below : ∀ call send, s.sends.lookup call = some send → send.seqId < s.nextSeqId
  sent_below : ∀ envelope ∈ s.outbound, envelopeSeqId envelope < s.nextSeqId
  distinct : ∀ call send other send', s.sends.lookup call = some send →
    s.sends.lookup other = some send' → send.seqId = send'.seqId → call = other
  oneMessage : ∀ call send, s.sends.lookup call = some send →
    OneMessage send.seqId send.stage.remaining
  behind : ∀ envelope ∈ s.outbound, ∀ call send, s.sends.lookup call = some send →
    Behind envelope send
  sorted : s.outbound.Pairwise fun a b => outgoingKey a < outgoingKey b

theorem Behind.key_lt {envelope later : OutgoingClientEnvelope Value} {send : Send Value}
    (h : Behind envelope send) (hm : OneMessage send.seqId send.stage.remaining)
    (hl : later ∈ send.stage.remaining) : outgoingKey envelope < outgoingKey later := by
  rcases h with hlt | ⟨_, _, hall⟩
  · apply outgoingKey_lt_of_seqId_lt
    rwa [envelopeSeqId, envelopeSeqId, hm.1 later hl]
  · exact hall later hl

theorem setSend_lookup (s : ClientStream Value) (call other : Nat) (send : Send Value) :
    (s.setSend call send).sends.lookup other = if other = call then some send else s.sends.lookup other :=
  Table.lookup_insert_eq s.sends call other send

variable {s : ClientStream Value}

theorem finish_lookup {call other : Nat} {send : Send Value} (h : (s.finish call).sends.lookup other = some send) :
    s.sends.lookup other = some send := by
  rw [ClientStream.finish, Table.lookup_erase_eq] at h
  split at h
  next => cases h
  next => exact h

theorem finish_inOrder (hs : InOrder s) (call : Nat) : InOrder (s.finish call) where
  below other send h := hs.below other send (finish_lookup h)
  sent_below := hs.sent_below
  distinct _ _ _ _ h h' := hs.distinct _ _ _ _ (finish_lookup h) (finish_lookup h')
  oneMessage other send h := hs.oneMessage other send (finish_lookup h)
  behind envelope he other send h := hs.behind envelope he other send (finish_lookup h)
  sorted := hs.sorted

theorem setSend_inOrder (hs : InOrder s) {call : Nat} {send next : Send Value}
    (hsend : s.sends.lookup call = some send) (hseq : next.seqId = send.seqId)
    (hone : OneMessage next.seqId next.stage.remaining) (hbehind : ∀ envelope ∈ s.outbound, Behind envelope next) :
    InOrder (s.setSend call next) where
  below other other' h := by
    rw [setSend_lookup] at h
    split at h
    next => cases h; rw [hseq]; exact hs.below call send hsend
    next => exact hs.below other other' h
  sent_below := hs.sent_below
  distinct x sx y sy hx hy he := by
    rw [setSend_lookup] at hx hy
    split at hx <;> split at hy
    next hxc hyc => rw [hxc, hyc]
    next hxc hyc =>
      cases hx
      exact hxc.trans (hs.distinct _ _ _ _ hsend hy (hseq.symm.trans he))
    next hxc hyc =>
      cases hy
      exact (hs.distinct _ _ _ _ hx hsend (he.trans hseq)).trans hyc.symm
    next => exact hs.distinct _ _ _ _ hx hy he
  oneMessage other other' h := by
    rw [setSend_lookup] at h
    split at h
    next => cases h; exact hone
    next => exact hs.oneMessage other other' h
  behind envelope he other other' h := by
    rw [setSend_lookup] at h
    split at h
    next => cases h; exact hbehind envelope he
    next => exact hs.behind envelope he other other' h
  sorted := hs.sorted

theorem takeSeqId_inOrder (hs : InOrder s) (hmax : s.nextSeqId < u64Max) :
    InOrder { s with nextSeqId := min (s.nextSeqId + 1) u64Max } := by
  have hnext : s.nextSeqId < min (s.nextSeqId + 1) u64Max := by omega
  exact
    { hs with
      below := fun call send h => (hs.below call send h).trans hnext
      sent_below := fun envelope he => (hs.sent_below envelope he).trans hnext }

theorem newSend_inOrder (hs : InOrder s) (hmax : s.nextSeqId < u64Max) {call : Nat} {sender : Sender}
    {stage : SendStage Value} (hone : OneMessage s.nextSeqId stage.remaining) :
    InOrder ({ s with nextSeqId := min (s.nextSeqId + 1) u64Max }.setSend call
      ⟨sender, s.nextSeqId, stage⟩) := by
  have hs' := takeSeqId_inOrder hs hmax
  refine ⟨?_, hs'.sent_below, ?_, ?_, ?_, hs'.sorted⟩
  · intro other send h
    rw [setSend_lookup] at h
    split at h
    next => cases h; simp only [ClientStream.setSend]; omega
    next => exact hs'.below other send h
  · intro x sx y sy hx hy he
    rw [setSend_lookup] at hx hy
    split at hx <;> split at hy
    next hxc hyc => rw [hxc, hyc]
    next => cases hx; have hlt := hs.below y sy hy; simp only at he; omega
    next => cases hy; have hlt := hs.below x sx hx; simp only at he; omega
    next => exact hs.distinct _ _ _ _ hx hy he
  · intro other send h
    rw [setSend_lookup] at h
    split at h
    next => cases h; exact hone
    next => exact hs.oneMessage other send h
  · intro envelope he other send h
    rw [setSend_lookup] at h
    split at h
    next => cases h; exact .inl (hs.sent_below envelope he)
    next => exact hs.behind envelope he other send h

theorem push_inOrder (hs : InOrder s) {call : Nat} {sender : Sender} {seqId : Nat}
    {envelope : OutgoingClientEnvelope Value} {rest : List (OutgoingClientEnvelope Value)}
    (hcall : s.sends.lookup call = some ⟨sender, seqId, .pushing (envelope :: rest)⟩)
    (hturn : ∀ other send, s.sends.lookup other = some send → seqId ≤ send.seqId) :
    InOrder ({ s with outbound := s.outbound ++ [envelope] }.setSend call
      ⟨sender, seqId, .pushing rest⟩) := by
  obtain ⟨hseqs, hkeys⟩ := hs.oneMessage call _ hcall
  have hseq : envelopeSeqId envelope = seqId := by
    rw [envelopeSeqId, hseqs envelope (mem_cons_self ..)]
    rfl
  have hrest : OneMessage seqId rest :=
    ⟨fun later hl => hseqs later (mem_cons_of_mem _ hl), (pairwise_cons.mp hkeys).2⟩
  have hstep : ∀ later ∈ rest, outgoingKey envelope < outgoingKey later :=
    (pairwise_cons.mp hkeys).1
  have hlast : ∀ earlier ∈ s.outbound, outgoingKey earlier < outgoingKey envelope := fun earlier he =>
    (hs.behind earlier he call _ hcall).key_lt (hs.oneMessage call _ hcall) (mem_cons_self ..)
  -- the other calls hold larger numbers: theirs differ from the one whose turn it is
  have hothers : ∀ other send, s.sends.lookup other = some send → other ≠ call → seqId < send.seqId :=
    fun other send h hne => lt_of_le_of_ne (hturn other send h)
      fun he => hne (hs.distinct _ _ _ _ h hcall he.symm)
  have hnext : InOrder (s.setSend call ⟨sender, seqId, .pushing rest⟩) := by
    refine setSend_inOrder hs hcall rfl hrest fun earlier he => ?_
    rcases hs.behind earlier he call _ hcall with hlt | ⟨heq, _, hall⟩
    · exact .inl hlt
    · exact .inr ⟨heq, by simp, fun later hl => hall later (mem_cons_of_mem _ hl)⟩
  refine ⟨hnext.below, ?_, hnext.distinct, hnext.oneMessage, ?_, ?_⟩
  · intro earlier he
    rcases mem_append.mp he with he | he
    · exact hs.sent_below earlier he
    · rw [mem_singleton.mp he, hseq]
      exact hs.below call _ hcall
  · intro earlier he other send h
    rcases mem_append.mp he with he | he
    · exact hnext.behind earlier he other send h
    · rw [mem_singleton.mp he]
      rw [setSend_lookup] at h
      split at h
      next => cases h; exact .inr ⟨hseq, by simp, hstep⟩
      next hne => exact .inl (hseq ▸ hothers other send h hne)
  · refine pairwise_append.mpr ⟨hs.sorted, pairwise_singleton _ _, ?_⟩
    intro earlier he later hl
    rw [mem_singleton.mp hl]
    exact hlast earlier he

theorem step_inOrder {s t : ClientStream Value} {a : SendStep Value} (hs : InOrder s)
    (hturn : s.KeepsTurn a) (h : s.step c envelopeLen a = some t) : InOrder t := by
  rcases ClientStream.step_cases h with ⟨call, sender, message, cursor, rfl, _, rfl | ⟨stage, hone, rfl⟩⟩ |
    ⟨call, send, stage, hsend, hbuilt, hstage, rfl⟩ | ⟨call, sender, seqId, envelope, rest, rfl, hcall, ht⟩ |
    ⟨call, rfl⟩ | rfl
  · exact takeSeqId_inOrder hs hturn
  · exact newSend_inOrder hs hturn hone
  · refine setSend_inOrder hs hsend rfl ?_ fun envelope he => ?_
    · rcases hstage with hsame | ⟨_, hone⟩
      · exact hsame ▸ hs.oneMessage call send hsend
      · exact hone
    · rcases hs.behind envelope he call send hsend with hlt | ⟨heq, hold, hall⟩
      · exact .inl hlt
      · rcases hstage with hsame | ⟨⟨message, hm⟩, _⟩
        · exact .inr ⟨heq, hbuilt, hsame ▸ hall⟩
        · exact absurd hm (hold message)
  · have hpushed := push_inOrder hs hcall fun other send hother =>
      hturn _ hcall other (AList.mem_keys.mpr (AList.lookup_isSome.mp (by rw [hother]; rfl))) send hother
    rcases ht with rfl | rfl
    · exact hpushed
    · exact finish_inOrder hpushed call
  · exact finish_inOrder hs call
  · exact { hs with }

/-- A client stream on which nothing has been sent yet. -/
def ClientStream.opened (clientId streamId : String) : ClientStream Value :=
  ⟨clientId, streamId, 1, true, ∅, []⟩

theorem opened_inOrder (clientId streamId : String) :
    InOrder (ClientStream.opened clientId streamId : ClientStream Value) where
  below call send h := by simp [ClientStream.opened] at h
  sent_below envelope he := by simp [ClientStream.opened] at he
  distinct call send other send' h := by simp [ClientStream.opened] at h
  oneMessage call send h := by simp [ClientStream.opened] at h
  behind envelope he := by simp [ClientStream.opened] at he
  sorted := .nil

/-- While every sender waits its turn, the envelopes stand on the channel in their order, and a
receiver with a high-water filter drops none of them. -/
theorem outbound_in_order {clientId streamId : String} {steps : List (SendStep Value)} {s : ClientStream Value}
    (hturn : Runs.Meets (ClientStream.step c envelopeLen) ClientStream.KeepsTurn
      (ClientStream.opened clientId streamId) steps)
    (h : Runs.run (ClientStream.step c envelopeLen) (ClientStream.opened clientId streamId) steps =
      some s) :
    (s.outbound.Pairwise fun a b => outgoingKey a < outgoingKey b) ∧
      HighWater.keep outgoingKey ⊥ s.outbound = s.outbound := by
  have hs : InOrder s := Runs.run_invariant_of_meets InOrder (fun _ _ _ hs hg h => step_inOrder hs hg h)
    (opened_inOrder clientId streamId) hturn h
  exact ⟨hs.sorted, HighWater.keep_bot_eq_self_iff.mpr hs.sorted⟩

def inTurn : List (SendStep JsonLiteral) :=
  [.takeSeqId 0 .sendResponseForStream .null "", .takeSeqId 1 .requestOnceWithTimeoutForClientInner .true "b",
    .buildEnvelopes 0 "a", .fetchOutboundTx 1 true, .fetchOutboundTx 0 true, .push 0, .push 1]

theorem outbound_in_order_inTurn :
    ∃ s : ClientStream JsonLiteral, Runs.run (ClientStream.step literalCodec literalEnvelopeLen)
      (.opened mochiportBridgeClientId "stream") inTurn = some s ∧
      HighWater.keep outgoingKey ⊥ s.outbound = s.outbound := by
  have hrun : (Runs.run (ClientStream.step literalCodec literalEnvelopeLen)
      (.opened mochiportBridgeClientId "stream") inTurn).isSome = true := by
    decide +kernel
  obtain ⟨s, hs⟩ := Option.isSome_iff_exists.mp hrun
  exact ⟨s, hs, (outbound_in_order (by decide +kernel) hs).2⟩

/-- Two requests take numbers 1 and 2, and the second is first at the channel. -/
def overtaking : List (SendStep JsonLiteral) :=
  [.takeSeqId 0 .requestOnceWithTimeoutForClientInner .null "a",
    .takeSeqId 1 .requestOnceWithTimeoutForClientInner .true "b",
    .fetchOutboundTx 0 true, .fetchOutboundTx 1 true, .push 1, .push 0]

theorem outbound_overtaken :
    ¬∀ (steps : List (SendStep JsonLiteral)) (s : ClientStream JsonLiteral),
      Runs.run (ClientStream.step literalCodec literalEnvelopeLen)
        (.opened mochiportBridgeClientId "stream") steps = some s →
      s.outbound.Pairwise fun a b => outgoingKey a < outgoingKey b := by
  intro h
  have hrun : ((Runs.run (ClientStream.step literalCodec literalEnvelopeLen)
      (.opened mochiportBridgeClientId "stream") overtaking).map
        fun s => s.outbound.map outgoingKey) = some [toLex (2, usizeMax), toLex (1, usizeMax)] := by
    decide +kernel
  obtain ⟨s, hs, hkeys⟩ := Option.map_eq_some_iff.mp hrun
  have hsorted := pairwise_map.mpr (h overtaking s hs)
  rw [hkeys] at hsorted
  simp [Prod.Lex.toLex_lt_toLex] at hsorted

end MochiPort

import MochiPort.FeishuCards

/-! What the service of the cards accepts of the drivers of one item. -/

namespace MochiPort

open FeishuStreamingCardState List

inductive CardkitCall where
  | createCard (cardId : String)
  | sendMessage (cardId : String)
  | streamContent (cardId : String) (sequence : Nat)
  | updateCard (cardId : String) (sequence : Nat)
  | streamingModeOff (cardId : String) (sequence : Nat)
  deriving DecidableEq

namespace CardkitCall

/-- The sequence number of a call that changes the card. -/
def sequenceOn (card : String) : CardkitCall → Option Nat
  | createCard _ | sendMessage _ => none
  | streamContent cardId n | updateCard cardId n | streamingModeOff cardId n =>
    if cardId = card then some n else none

def isNew : CardkitCall → Bool
  | createCard _ | sendMessage _ => true
  | _ => false

/-- Nothing but cards that no message shows. -/
def Unsent (accepted : List CardkitCall) : Prop := ∀ call ∈ accepted, ∃ cardId, call = .createCard cardId

/-- Once a card was sent there is no second card and no second message, and the sequence numbers on a card grow. -/
structure OneCard (accepted : List CardkitCall) : Prop where
  once : accepted.Pairwise fun earlier later => (∃ cardId, earlier = .sendMessage cardId) → later.isNew = false
  increasing : ∀ cardId, (accepted.filterMap (sequenceOn cardId)).Pairwise (· < ·)

/-- One card was sent, after cards that were not, and its changes go up to the sequence. -/
def SentOn (cardId : String) (sequence : Nat) (accepted : List CardkitCall) : Prop :=
  ∃ creates changes, accepted = creates ++ .sendMessage cardId :: changes ∧ Unsent creates ∧
    (∀ call ∈ changes, ∃ n ≤ sequence, call.sequenceOn cardId = some n) ∧
    (changes.filterMap (sequenceOn cardId)).Pairwise (· < ·)

def Recorded (accepted : List CardkitCall) (sequence : Nat) : Option String → Prop
  | none => Unsent accepted
  | some cardId => SentOn cardId sequence accepted

end CardkitCall

namespace FeishuStreamingCardState

open CardkitCall

variable (card : FeishuStreamingCardState)

/-- The card, the next sequence number, and the calls that make a card where there is none. -/
def ensureCardkitStreamingCard (newCardId : String) : String × Nat × List CardkitCall :=
  match card.cardId with
  | some cardId => (cardId, min (card.sequence + 1) u64Max, [])
  | none => (newCardId, 1, [.createCard newCardId, .sendMessage newCardId])

/-- The calls of one send, in the order in which they wait for each other. -/
def sendAgentMessageCardkit (newCardId : String) : List CardkitCall :=
  let (cardId, nextSequence, calls) := card.ensureCardkitStreamingCard newCardId
  if card.completed then
    calls ++ [.updateCard cardId nextSequence, .streamingModeOff cardId (min (nextSequence + 1) u64Max)]
  else if blank card.text then calls
  else calls ++ [.streamContent cardId nextSequence]

end FeishuStreamingCardState

/-- The drivers of one item, and the calls that the service has accepted. -/
structure CardService where
  cards : FeishuCardSystem
  accepted : List CardkitCall

/-- Of a send that fails or takes too long, the card that the service makes and how many of the calls it accepts. -/
structure CardServiceStep where
  act : FeishuCardStep
  cardId : String
  reached : Nat

namespace CardService

open CardkitCall

variable (s : CardService)

def start : CardService := ⟨.start, []⟩

def sendingOf (driver : Nat) : Option FeishuStreamingCardState :=
  match s.cards.drivers.lookup driver with
  | some (.sending snapshot) => some snapshot
  | _ => none

def calls (a : CardServiceStep) : List CardkitCall :=
  match a.act with
  | .sent driver _ newCardId _ =>
    ((s.sendingOf driver).map fun snapshot => snapshot.sendAgentMessageCardkit newCardId).getD []
  | .sendFails driver =>
    ((s.sendingOf driver).map fun snapshot => (snapshot.sendAgentMessageCardkit a.cardId).take a.reached).getD []
  | _ => []

def step (s : CardService) (a : CardServiceStep) : Option CardService :=
  (s.cards.step a.act).map fun cards => ⟨cards, s.accepted ++ s.calls a⟩

/-- An agent message goes on while its entry is there. A send that fails has had no call accepted but that for a new
card, and the sequence numbers do not run out. -/
def Clean (s : CardService) (a : CardServiceStep) : Prop :=
  match a.act with
  | .upsert target _ _ | .ensureStarted target _ | .completeExisting target _ =>
    target.kind = "agentMessage" ∧ (s.cards.card = none → s.cards.removals = [])
  | .sent driver _ _ _ => ∀ snapshot, s.sendingOf driver = some snapshot → snapshot.sequence + 2 ≤ u64Max
  | .sendFails _ => Unsent (s.calls a)
  | _ => True

/-- What the entry stands for among the calls. -/
def Accounted (card : Option FeishuStreamingCardState) (removals : List CardRemoval) (accepted : List CardkitCall) :
    Prop :=
  match card with
  | some card => card.kind = "agentMessage" ∧ Recorded accepted card.sequence card.cardId
  | none => (∃ sequence cardId, Recorded accepted sequence cardId) ∧ (removals = [] → Unsent accepted)

/-- One driver at a time holds the entry, and its snapshot knows the card that the entry knows. -/
structure Held (s : FeishuCardSystem) : Prop where
  alone : ∀ driver stage other otherStage, s.drivers.lookup driver = some stage →
    s.drivers.lookup other = some otherStage → stage.holds = true → otherStage.holds = true → driver = other
  holding : ∀ driver stage, s.drivers.lookup driver = some stage → stage.holds = true →
    ∃ card, s.card = some card ∧ card.sending = true ∧ ∀ snapshot, stage.snapshot? = some snapshot →
      snapshot.kind = "agentMessage" ∧ snapshot.cardId = card.cardId ∧ snapshot.sequence = card.sequence

end CardService

namespace CardkitCall

variable {accepted : List CardkitCall} {sequence : Nat} {cardId : Option String}

theorem sequenceOn_eq_some {call : CardkitCall} {card : String} {n : Nat} (h : call.sequenceOn card = some n) :
    call.isNew = false ∧ ∀ other, call.sequenceOn other = if card = other then some n else none := by
  cases call with
  | createCard _ => cases h
  | sendMessage _ => cases h
  | _ =>
    rw [sequenceOn] at h
    split at h
    next heq => exact ⟨rfl, fun other => by rw [sequenceOn, heq, Option.some.inj h]⟩
    next => cases h

theorem Unsent.filterMap {creates : List CardkitCall} (h : Unsent creates) (card : String) :
    creates.filterMap (sequenceOn card) = [] := by
  refine filterMap_eq_nil_iff.mpr ?_
  intro call hcall
  obtain ⟨cardId, rfl⟩ := h call hcall
  rfl

theorem Unsent.pairwise {creates : List CardkitCall} (h : Unsent creates) {later : CardkitCall → CardkitCall → Prop} :
    creates.Pairwise fun earlier call => (∃ cardId, earlier = .sendMessage cardId) → later earlier call := by
  refine pairwise_of_forall_mem_list fun call hcall _ _ hmessage => ?_
  obtain ⟨_, rfl⟩ := h call hcall
  obtain ⟨_, hmessage⟩ := hmessage
  cases hmessage

theorem SentOn.oneCard {card : String} (h : SentOn card sequence accepted) : OneCard accepted := by
  obtain ⟨creates, changes, rfl, hcreates, hchanges, hsorted⟩ := h
  have hold : ∀ call ∈ changes, call.isNew = false := by
    intro call hcall
    obtain ⟨n, -, hn⟩ := hchanges call hcall
    exact (sequenceOn_eq_some hn).1
  constructor
  · refine pairwise_append.mpr ⟨hcreates.pairwise, pairwise_cons.mpr ⟨?_, ?_⟩, ?_⟩
    · exact fun call hcall _ => hold call hcall
    · exact pairwise_of_forall_mem_list fun _ _ call hcall _ => hold call hcall
    · rintro call hcall _ _ ⟨_, hmessage⟩
      obtain ⟨_, rfl⟩ := hcreates call hcall
      cases hmessage
  · intro other
    rw [filterMap_append, hcreates.filterMap, nil_append, filterMap_cons_none rfl]
    by_cases hother : card = other
    · exact hother ▸ hsorted
    · have hnone : changes.filterMap (sequenceOn other) = [] := by
        refine filterMap_eq_nil_iff.mpr fun call hcall => ?_
        obtain ⟨n, -, hn⟩ := hchanges call hcall
        rw [(sequenceOn_eq_some hn).2, if_neg hother]
      rw [hnone]
      exact List.Pairwise.nil

theorem Recorded.oneCard (h : Recorded accepted sequence cardId) : OneCard accepted := by
  cases cardId with
  | some card => exact SentOn.oneCard h
  | none =>
    refine ⟨Unsent.pairwise h, fun card => ?_⟩
    rw [Unsent.filterMap h]
    exact List.Pairwise.nil

/-- Calls that change the card one after the other. -/
theorem SentOn.append {card : String} (h : SentOn card sequence accepted) {calls : List CardkitCall} {next : Nat}
    (hle : sequence ≤ next) (hcalls : ∀ call ∈ calls, ∃ n, sequence < n ∧ n ≤ next ∧ call.sequenceOn card = some n)
    (hsorted : (calls.filterMap (sequenceOn card)).Pairwise (· < ·)) : SentOn card next (accepted ++ calls) := by
  obtain ⟨creates, changes, rfl, hcreates, hchanges, hbefore⟩ := h
  refine ⟨creates, changes ++ calls, by simp, hcreates, ?_, ?_⟩
  · intro call hcall
    rcases mem_append.mp hcall with hold | hnew
    · obtain ⟨n, hn, heq⟩ := hchanges call hold
      exact ⟨n, hn.trans hle, heq⟩
    · obtain ⟨n, -, hn, heq⟩ := hcalls call hnew
      exact ⟨n, hn, heq⟩
  · rw [filterMap_append]
    refine pairwise_append.mpr ⟨hbefore, hsorted, ?_⟩
    intro m hm n hn
    obtain ⟨call, hcall, hcallm⟩ := mem_filterMap.mp hm
    obtain ⟨later, hlater, hlatern⟩ := mem_filterMap.mp hn
    obtain ⟨m', hm', heq⟩ := hchanges call hcall
    obtain ⟨n', hn', -, heq'⟩ := hcalls later hlater
    obtain rfl := Option.some.inj (hcallm.symm.trans heq)
    obtain rfl := Option.some.inj (hlatern.symm.trans heq')
    omega

/-- A new card is sent behind cards that were not. -/
theorem Unsent.send (h : Unsent accepted) (card : String) :
    SentOn card 0 (accepted ++ [.createCard card, .sendMessage card]) := by
  refine ⟨accepted ++ [.createCard card], [], by simp, ?_, ⟨fun _ hcall => (not_mem_nil hcall).elim, .nil⟩⟩
  intro call hcall
  rcases mem_append.mp hcall with hold | hnew
  · exact h call hold
  · exact ⟨card, mem_singleton.mp hnew⟩

end CardkitCall

namespace FeishuStreamingCardState

open CardkitCall

variable {card : FeishuStreamingCardState} {accepted : List CardkitCall}

/-- What a send that goes through changes of the record is what it reports. -/
theorem recorded_send (hkind : card.kind = "agentMessage") (hroom : card.sequence + 2 ≤ u64Max)
    (h : Recorded accepted card.sequence card.cardId) (newMessageId newCardId : String) :
    Recorded (accepted ++ card.sendAgentMessageCardkit newCardId) (card.sendResult newMessageId newCardId).2.2
      (card.sendResult newMessageId newCardId).2.1 := by
  have hlarge : 2 ≤ u64Max := by decide
  obtain ⟨sent, hsent, hnext⟩ : ∃ sent, SentOn (card.cardId.getD newCardId) sent
      (accepted ++ (card.ensureCardkitStreamingCard newCardId).2.2) ∧
        (card.ensureCardkitStreamingCard newCardId).2.1 = sent + 1 ∧ sent + 2 ≤ u64Max := by
    cases hid : card.cardId with
    | some cardId =>
      rw [hid] at h
      refine ⟨card.sequence, ?_, ?_, hroom⟩
      · simpa [ensureCardkitStreamingCard, hid] using (show SentOn cardId card.sequence accepted from h)
      · simp only [ensureCardkitStreamingCard, hid]
        omega
    | none =>
      rw [hid] at h
      refine ⟨0, ?_, by simp [ensureCardkitStreamingCard, hid], hlarge⟩
      simpa [ensureCardkitStreamingCard, hid] using Unsent.send (show Unsent accepted from h) newCardId
  obtain ⟨hnext, hmax⟩ := hnext
  have hcard : (card.ensureCardkitStreamingCard newCardId).1 = card.cardId.getD newCardId := by
    unfold ensureCardkitStreamingCard
    cases card.cardId with
    | some cardId => rfl
    | none => rfl
  have hsame : (if card.cardId.isSome then min (card.sequence + 1) u64Max else 1) = sent + 1 := by
    rw [← hnext, ensureCardkitStreamingCard]
    cases card.cardId with
    | some cardId => rfl
    | none => rfl
  have hid : (card.sendResult newMessageId newCardId).2.1 = some (card.cardId.getD newCardId) := by
    rw [sendResult, if_pos hkind]
  have hsequence : (card.sendResult newMessageId newCardId).2.2 = if card.completed then sent + 2 else sent + 1 := by
    rw [sendResult, if_pos hkind]
    dsimp only
    rw [hsame]
    split
    · omega
    · rfl
  rw [hid, hsequence, sendAgentMessageCardkit]
  dsimp only
  rw [hnext, hcard]
  generalize card.cardId.getD newCardId = cardId at hsent ⊢
  have hon : ∀ n, sequenceOn cardId (.streamContent cardId n) = some n ∧
      sequenceOn cardId (.updateCard cardId n) = some n ∧ sequenceOn cardId (.streamingModeOff cardId n) = some n := by
    intro n
    simp [sequenceOn]
  by_cases hcompleted : card.completed = true
  · rw [if_pos hcompleted, if_pos hcompleted, ← append_assoc, min_eq_left (by omega)]
    refine hsent.append (by omega) ?_ (by simp [hon])
    intro call hcall
    rcases mem_cons.mp hcall with rfl | hcall
    · exact ⟨sent + 1, by omega, by omega, (hon _).2.1⟩
    · rw [mem_singleton.mp hcall]
      exact ⟨sent + 2, by omega, by omega, (hon _).2.2⟩
  · rw [if_neg hcompleted, if_neg hcompleted]
    split
    · rw [← append_nil (accepted ++ _)]
      exact hsent.append (by omega) (fun _ hcall => by cases hcall) .nil
    · rw [← append_assoc]
      refine hsent.append (by omega) ?_ (by simp [hon])
      intro call hcall
      rw [mem_singleton.mp hcall]
      exact ⟨sent + 1, by omega, by omega, (hon _).1⟩

end FeishuStreamingCardState

namespace CardService

open CardkitCall FeishuCardSystem

section

variable {s : FeishuCardSystem} {driver : Nat} {stage : CardDriver}

theorem Held.others (hs : Held s) {old : CardDriver} (hd : s.drivers.lookup driver = some old)
    (hold : old.holds = true) : ∀ other otherStage, other ≠ driver → s.drivers.lookup other = some otherStage →
      otherStage.holds = false := by
  intro other otherStage hne h
  by_contra hholds
  rw [Bool.not_eq_false] at hholds
  exact hne (hs.alone other otherStage driver old h hd hholds hold)

theorem Held.idle (hs : Held s) (hidle : ∀ card, s.card = some card → card.sending = false) :
    ∀ other otherStage, s.drivers.lookup other = some otherStage → otherStage.holds = false := by
  intro other otherStage h
  by_contra hholds
  rw [Bool.not_eq_false] at hholds
  obtain ⟨card, hcard, hsending, -⟩ := hs.holding other otherStage h hholds
  rw [hidle card hcard] at hsending
  cases hsending

variable {card : Option FeishuStreamingCardState}

section

variable (hothers : ∀ other otherStage, other ≠ driver → s.drivers.lookup other = some otherStage →
  otherStage.holds = false)
include hothers

/-- A driver moves on, and is the only one that may hold the entry now. -/
theorem Held.act {sends : List (String × Bool)} {removals : List CardRemoval}
    (hself : stage.holds = true → ∃ new, card = some new ∧ new.sending = true ∧
      ∀ snapshot, stage.snapshot? = some snapshot →
        snapshot.kind = "agentMessage" ∧ snapshot.cardId = new.cardId ∧ snapshot.sequence = new.sequence) :
    Held ({ s with card := card, sends := sends, removals := removals }.moveTo driver stage) := by
  have honly : ∀ other otherStage, ({ s with card := card, sends := sends, removals := removals }.moveTo driver
      stage).drivers.lookup other = some otherStage → otherStage.holds = true →
        other = driver ∧ otherStage = stage := by
    intro other otherStage h hholds
    rw [lookup_moveTo] at h
    split at h
    next heq => exact ⟨heq, (Option.some.inj h).symm⟩
    next hne =>
      rw [hothers other otherStage hne h] at hholds
      cases hholds
  constructor
  · intro first stage₁ second stage₂ h₁ h₂ hholds₁ hholds₂
    exact (honly first stage₁ h₁ hholds₁).1.trans (honly second stage₂ h₂ hholds₂).1.symm
  · intro other otherStage h hholds
    obtain ⟨-, rfl⟩ := honly other otherStage h hholds
    exact hself hholds

theorem Held.release (hstage : stage.holds = false) {sends : List (String × Bool)} {removals : List CardRemoval} :
    Held ({ s with card := card, sends := sends, removals := removals }.moveTo driver stage) := by
  refine Held.act hothers fun h => ?_
  rw [hstage] at h
  cases h

end

theorem Held.stand (hs : Held s) (hstage : stage.holds = false) : Held (s.moveTo driver stage) := by
  have hbefore : ∀ other otherStage, (s.moveTo driver stage).drivers.lookup other = some otherStage →
      otherStage.holds = true → s.drivers.lookup other = some otherStage := by
    intro other otherStage h hholds
    rw [lookup_moveTo] at h
    split at h
    next =>
      rw [← Option.some.inj h, hstage] at hholds
      cases hholds
    next => exact h
  constructor
  · intro first stage₁ second stage₂ h₁ h₂ hholds₁ hholds₂
    exact hs.alone first stage₁ second stage₂ (hbefore _ _ h₁ hholds₁) (hbefore _ _ h₂ hholds₂) hholds₁ hholds₂
  · intro other otherStage h hholds
    exact hs.holding other otherStage (hbefore _ _ h hholds) hholds

theorem Held.touch (hs : Held s) {new : FeishuStreamingCardState} (hold : ∀ card, s.card = some card →
      new.sending = card.sending ∧ new.cardId = card.cardId ∧ new.sequence = card.sequence) : Held (s.touch new) := by
  have hwritten : Held { s with card := some new } := by
    refine ⟨hs.alone, fun driver stage h hholds => ?_⟩
    obtain ⟨card, hcard, hsending, hsame⟩ := hs.holding driver stage h hholds
    obtain ⟨hnewSending, hid, hsequence⟩ := hold card hcard
    refine ⟨new, rfl, hnewSending.trans hsending, fun snapshot hsnapshot => ?_⟩
    rw [hid, hsequence]
    exact hsame snapshot hsnapshot
  have hspawned : Held ({ s with card := some new }.moveTo s.spawned .deciding) := hwritten.stand rfl
  exact ⟨hspawned.alone, hspawned.holding⟩

end

section

variable {card new : FeishuStreamingCardState} {removals later : List CardRemoval} {accepted : List CardkitCall}

theorem Accounted.oneCard {card : Option FeishuStreamingCardState} (h : Accounted card removals accepted) :
    OneCard accepted := by
  cases card with
  | some card => exact h.2.oneCard
  | none =>
    obtain ⟨⟨sequence, cardId, hrecorded⟩, -⟩ := h
    exact hrecorded.oneCard

theorem Accounted.keep (h : Accounted (some card) removals accepted) (hkind : new.kind = card.kind)
    (hid : new.cardId = card.cardId) (hsequence : new.sequence = card.sequence) :
    Accounted (some new) later accepted := by
  refine ⟨hkind.trans h.1, ?_⟩
  rw [hid, hsequence]
  exact h.2

theorem Accounted.remove (h : Recorded accepted new.sequence new.cardId) (hlater : later ≠ []) :
    Accounted none later accepted :=
  ⟨⟨_, _, h⟩, fun hnil => absurd hnil hlater⟩

theorem Accounted.touch {card : Option FeishuStreamingCardState} (h : Accounted card removals accepted)
    (hopen : card = none → removals = []) (hkind : new.kind = "agentMessage")
    (hold : ∀ old, card = some old → new.cardId = old.cardId ∧ new.sequence = old.sequence)
    (hfresh : card = none → new.cardId = none) : Accounted (some new) removals accepted := by
  cases card with
  | none =>
    refine ⟨hkind, ?_⟩
    rw [hfresh rfl]
    exact h.2 (hopen rfl)
  | some old =>
    obtain ⟨hid, hsequence⟩ := hold old rfl
    refine ⟨hkind, ?_⟩
    rw [hid, hsequence]
    exact h.2

end

structure Served (s : CardService) : Prop where
  held : Held s.cards
  accounted : Accounted s.cards.card s.cards.removals s.accepted

section

variable {s : CardService} {driver : Nat} {snapshot : FeishuStreamingCardState}

section

variable (hs : s.Served)
include hs

theorem Served.touch (hopen : s.cards.card = none → s.cards.removals = [])
    {new : FeishuStreamingCardState} (hkind : new.kind = "agentMessage") (hold : ∀ card, s.cards.card = some card →
      new.sending = card.sending ∧ new.cardId = card.cardId ∧ new.sequence = card.sequence)
    (hfresh : s.cards.card = none → new.cardId = none) : Served ⟨s.cards.touch new, s.accepted⟩ :=
  ⟨hs.held.touch hold, hs.accounted.touch hopen hkind (fun card hcard => (hold card hcard).2) hfresh⟩

/-- The entry that a sending driver holds is recorded as its snapshot has it. -/
theorem Served.recorded {stage : CardDriver} (hd : s.cards.drivers.lookup driver = some stage)
    (hsnapshot : stage.snapshot? = some snapshot) :
    ∃ card, s.cards.card = some card ∧ snapshot.kind = "agentMessage" ∧ card.kind = "agentMessage" ∧
      snapshot.cardId = card.cardId ∧ snapshot.sequence = card.sequence ∧
      Recorded s.accepted snapshot.sequence snapshot.cardId := by
  obtain ⟨card, hcard, -, hsame⟩ := hs.held.holding driver stage hd (CardDriver.holds_of_snapshot hsnapshot)
  obtain ⟨hkind, hid, hsequence⟩ := hsame snapshot hsnapshot
  have haccounted := hs.accounted
  rw [hcard] at haccounted
  refine ⟨card, hcard, hkind, haccounted.1, hid, hsequence, ?_⟩
  rw [hid, hsequence]
  exact haccounted.2

theorem Served.skipEmpty (hd : s.cards.drivers.lookup driver = some (.claimed snapshot)) :
    Served ⟨s.cards.skipEmpty driver, s.accepted⟩ := by
  obtain ⟨card, hcard, -, -, hid, hsequence, hrecorded⟩ := hs.recorded hd rfl
  have hothers := hs.held.others hd rfl
  have haccounted := hs.accounted
  rw [hcard] at haccounted
  unfold FeishuCardSystem.skipEmpty
  rw [hcard]
  dsimp only
  split
  · refine ⟨.release hothers rfl, ?_⟩
    exact Accounted.remove hrecorded (by simp [FeishuCardSystem.remove, moveTo])
  · exact ⟨.release hothers rfl, haccounted.keep rfl rfl rfl⟩

section

variable (hd : s.cards.drivers.lookup driver = some (.sending snapshot))
include hd

theorem Served.reportSent (hroom : snapshot.sequence + 2 ≤ u64Max) (newMessageId newCardId : String) (nowMs : Nat) :
    Served ⟨s.cards.reportSent driver snapshot newMessageId newCardId nowMs,
      s.accepted ++ snapshot.sendAgentMessageCardkit newCardId⟩ := by
  obtain ⟨card, hcard, hkind, hcardKind, -, -, hrecorded⟩ := hs.recorded hd rfl
  have hothers := hs.held.others hd rfl
  have hsent := recorded_send hkind hroom hrecorded newMessageId newCardId
  have hid : (card.sent snapshot (snapshot.sendResult newMessageId newCardId) nowMs).cardId =
      (snapshot.sendResult newMessageId newCardId).2.1 := by
    simp [sent, sendResult, hkind]
  have hsequence : (card.sent snapshot (snapshot.sendResult newMessageId newCardId) nowMs).sequence =
      (snapshot.sendResult newMessageId newCardId).2.2 := rfl
  have hnewKind : (card.sent snapshot (snapshot.sendResult newMessageId newCardId) nowMs).kind = card.kind := rfl
  rw [← hid, ← hsequence] at hsent
  unfold FeishuCardSystem.reportSent
  rw [hcard]
  dsimp only
  split
  · refine ⟨.release hothers rfl, ?_⟩
    exact Accounted.remove hsent (by simp [FeishuCardSystem.remove, moveTo])
  · split
    · exact ⟨.release hothers rfl, hnewKind.trans hcardKind, hsent⟩
    · exact ⟨.release hothers rfl, hnewKind.trans hcardKind, hsent⟩

theorem Served.sendFails {cardId : String} {reached : Nat}
    (hunsent : Unsent ((snapshot.sendAgentMessageCardkit cardId).take reached)) :
    Served ⟨{ s.cards with card := s.cards.card.map failed }.moveTo driver .sleeping,
      s.accepted ++ (snapshot.sendAgentMessageCardkit cardId).take reached⟩ := by
  obtain ⟨card, hcard, -, hkind, hid, hsequence, hrecorded⟩ := hs.recorded hd rfl
  have hothers := hs.held.others hd rfl
  rw [hcard, Option.map_some]
  refine ⟨.release hothers rfl, hkind, ?_⟩
  show Recorded _ card.sequence card.cardId
  rw [← hid, ← hsequence]
  cases hsome : snapshot.cardId with
  | none =>
    rw [hsome] at hrecorded
    intro call hcall
    rcases mem_append.mp hcall with hold | hnew
    · exact hrecorded call hold
    · exact hunsent call hnew
  | some known =>
    have hnil : (snapshot.sendAgentMessageCardkit cardId).take reached = [] := by
      refine eq_nil_iff_forall_not_mem.mpr fun call hcall => ?_
      obtain ⟨made, rfl⟩ := hunsent call hcall
      have hmem := mem_of_mem_take hcall
      rw [sendAgentMessageCardkit, ensureCardkitStreamingCard,
        hsome] at hmem
      dsimp only at hmem
      split at hmem
      · simp at hmem
      · split at hmem <;> simp at hmem
    rw [hnil, append_nil, ← hsome]
    exact hrecorded

end

end

end

theorem step_served {s t : CardService} {a : CardServiceStep} (hs : s.Served) (hclean : s.Clean a)
    (h : s.step a = some t) : t.Served := by
  obtain ⟨act, cardId, reached⟩ := a
  obtain ⟨cards, hstep, rfl⟩ := Option.map_eq_some_iff.mp h
  have hquiet {calls : List CardkitCall} (hcalls : calls = []) (hnext : Served ⟨cards, s.accepted⟩) :
      Served ⟨cards, s.accepted ++ calls⟩ := by
    rw [hcalls, append_nil]
    exact hnext
  -- an entry that is there or a new one, changed by nothing but the text and the state
  cases act with
  | upsert target delta completed =>
    refine hquiet rfl ?_
    cases hstep
    unfold upsertStreamingCardState
    split
    next => exact hs
    next =>
      refine hs.touch hclean.2 hclean.1 (fun card hcard => ?_) fun hcard => ?_
      · rw [hcard]
        exact ⟨rfl, rfl, rfl⟩
      · rw [hcard]
        rfl
  | ensureStarted target initialText =>
    refine hquiet rfl ?_
    cases hstep
    refine hs.touch hclean.2 hclean.1 (fun card hcard => ?_) fun hcard => ?_
    · rw [hcard]
      exact ⟨rfl, rfl, rfl⟩
    · rw [hcard]
      rfl
  | completeExisting target text =>
    refine hquiet rfl ?_
    cases hstep
    unfold completeExistingItemCard
    split
    next => exact hs
    next card hcard =>
      refine hs.touch hclean.2 hclean.1 (fun other hother => ?_) fun hnone => ?_
      · rw [← Option.some.inj (hcard.symm.trans hother)]
        exact ⟨rfl, rfl, rfl⟩
      · rw [hcard] at hnone
        cases hnone
  | decide driver =>
    refine hquiet rfl ?_
    simp only [FeishuCardSystem.step] at hstep
    split at hstep
    next =>
      cases hstep
      exact ⟨hs.held.stand rfl, hs.accounted⟩
    next card hd hcard =>
      have haccounted := hs.accounted
      rw [hcard] at haccounted
      split at hstep
      next =>
        cases hstep
        exact ⟨hs.held.stand rfl, hs.accounted⟩
      next hgo =>
        cases hstep
        rw [Bool.or_eq_true, not_or, Bool.not_eq_true] at hgo
        refine ⟨.act (fun other otherStage _ => hs.held.idle (fun old hold => ?_) other otherStage) fun _ => ?_,
          haccounted.keep rfl rfl rfl⟩
        · rw [← Option.some.inj (hcard.symm.trans hold)]
          exact hgo.1
        · refine ⟨_, rfl, rfl, fun snapshot hsnapshot => ?_⟩
          cases hsnapshot
          exact ⟨haccounted.1, rfl, rfl⟩
    next => cases hstep
  | proceed driver nowMs =>
    refine hquiet rfl ?_
    simp only [FeishuCardSystem.step] at hstep
    split at hstep
    next snapshot hd =>
      have hothers := hs.held.others hd rfl
      obtain ⟨card, hcard, hsending, hsame⟩ := hs.held.holding driver _ hd rfl
      split at hstep
      next =>
        cases hstep
        exact hs.skipEmpty hd
      next =>
        split at hstep
        next =>
          cases hstep
          exact ⟨.act hothers fun _ => ⟨card, hcard, hsending, fun _ hnone => (by cases hnone)⟩, hs.accounted⟩
        next =>
          cases hstep
          exact ⟨.act hothers fun _ => ⟨card, hcard, hsending, hsame⟩, hs.accounted⟩
    next => cases hstep
  | waited driver =>
    refine hquiet rfl ?_
    simp only [FeishuCardSystem.step] at hstep
    split at hstep
    next =>
      cases hstep
      exact ⟨hs.held.stand rfl, hs.accounted⟩
    next card hd hcard =>
      cases hstep
      have haccounted := hs.accounted
      rw [hcard] at haccounted
      obtain ⟨held, hheld, hsending, -⟩ := hs.held.holding driver _ hd rfl
      rw [← Option.some.inj (hcard.symm.trans hheld)] at hsending
      refine ⟨.act (hs.held.others hd rfl) fun _ => ⟨_, rfl, hsending, fun snapshot hsnapshot => ?_⟩,
        haccounted.keep rfl rfl rfl⟩
      cases hsnapshot
      exact ⟨haccounted.1, rfl, rfl⟩
    next => cases hstep
  | sent driver newMessageId newCardId nowMs =>
    simp only [FeishuCardSystem.step] at hstep
    split at hstep
    next snapshot hd =>
      cases hstep
      have hsending : s.sendingOf driver = some snapshot := by rw [sendingOf, hd]
      have hcalls : s.calls ⟨.sent driver newMessageId newCardId nowMs, cardId, reached⟩ =
          snapshot.sendAgentMessageCardkit newCardId := by
        show ((s.sendingOf driver).map _).getD [] = _
        rw [hsending]
        rfl
      rw [hcalls]
      exact hs.reportSent hd (hclean snapshot hsending) newMessageId newCardId nowMs
    next => cases hstep
  | sendFails driver =>
    simp only [FeishuCardSystem.step] at hstep
    split at hstep
    next snapshot hd =>
      cases hstep
      have hsending : s.sendingOf driver = some snapshot := by rw [sendingOf, hd]
      have hcalls : s.calls ⟨.sendFails driver, cardId, reached⟩ =
          (snapshot.sendAgentMessageCardkit cardId).take reached := by
        show ((s.sendingOf driver).map _).getD [] = _
        rw [hsending]
        rfl
      rw [hcalls]
      have hunsent : Unsent (s.calls ⟨.sendFails driver, cardId, reached⟩) := hclean
      rw [hcalls] at hunsent
      exact hs.sendFails hd hunsent
    next => cases hstep
  | retry driver =>
    refine hquiet rfl ?_
    simp only [FeishuCardSystem.step] at hstep
    split at hstep
    next =>
      cases hstep
      exact ⟨hs.held.stand rfl, hs.accounted⟩
    next => cases hstep

theorem start_served : start.Served where
  held := ⟨fun _ _ _ _ h => (by cases h), fun _ _ h => (by cases h)⟩
  accounted := ⟨⟨0, none, fun _ hcall => (by cases hcall)⟩, fun _ _ hcall => (by cases hcall)⟩

/-- As long as every send that fails has had nothing but a new card accepted, the item has one card. -/
theorem one_card_of_clean {steps : List CardServiceStep} {t : CardService} (hrun : Runs.run step start steps = some t)
    (hclean : Runs.Meets step Clean start steps) : OneCard t.accepted :=
  (Runs.run_invariant_of_meets Served (fun _ _ _ hs hclean h => step_served hs hclean h) start_served hclean
    hrun).accounted.oneCard

/-- The text comes in and a driver takes it up. -/
def takenText : List CardServiceStep :=
  [⟨.upsert ⟨"agentMessage", "account", "chat"⟩ "answer" false, "", 0⟩, ⟨.decide 0, "", 0⟩, ⟨.proceed 0 0, "", 0⟩]

instance : (call : CardkitCall) → Decidable (∃ cardId, call = .createCard cardId)
  | .createCard cardId => .isTrue ⟨cardId, rfl⟩
  | .sendMessage _ | .streamContent _ _ | .updateCard _ _ | .streamingModeOff _ _ => .isFalse (by simp)

instance (s : CardService) : (a : CardServiceStep) → Decidable (s.Clean a)
  | ⟨.upsert target _ _, _, _⟩ | ⟨.ensureStarted target _, _, _⟩ | ⟨.completeExisting target _, _, _⟩ =>
    inferInstanceAs (Decidable (target.kind = "agentMessage" ∧ (s.cards.card = none → s.cards.removals = [])))
  | ⟨.sent driver _ _ _, _, _⟩ =>
    inferInstanceAs (Decidable (∀ snapshot ∈ s.sendingOf driver, snapshot.sequence + 2 ≤ u64Max))
  | ⟨.sendFails driver, cardId, reached⟩ =>
    inferInstanceAs
      (Decidable (∀ call ∈ s.calls ⟨.sendFails driver, cardId, reached⟩, ∃ cardId, call = .createCard cardId))
  | ⟨.decide _, _, _⟩ | ⟨.proceed _ _, _, _⟩ | ⟨.waited _, _, _⟩ | ⟨.retry _, _, _⟩ => .isTrue trivial

/-- The service makes a card, but not the message. The next attempt goes through, more text comes in, and then the last
of it. -/
def refusedMessage : List CardServiceStep :=
  takenText ++ [⟨.sendFails 0, "lost", 1⟩, ⟨.retry 0, "", 0⟩, ⟨.decide 0, "", 0⟩, ⟨.proceed 0 0, "", 0⟩,
    ⟨.sent 0 "message" "card" 0, "", 0⟩, ⟨.upsert ⟨"agentMessage", "account", "chat"⟩ " and more" false, "", 0⟩,
    ⟨.decide 1, "", 0⟩, ⟨.proceed 1 5000, "", 0⟩, ⟨.waited 1, "", 0⟩, ⟨.sent 1 "" "" 5000, "", 0⟩,
    ⟨.upsert ⟨"agentMessage", "account", "chat"⟩ "." true, "", 0⟩, ⟨.decide 2, "", 0⟩, ⟨.proceed 2 5500, "", 0⟩,
    ⟨.sent 2 "" "" 5500, "", 0⟩]

theorem refused_message_clean : ∃ t, Runs.run step start refusedMessage = some t ∧
    t.accepted = [.createCard "lost", .createCard "card", .sendMessage "card", .streamContent "card" 1,
      .streamContent "card" 2, .updateCard "card" 3, .streamingModeOff "card" 4] ∧ OneCard t.accepted := by
  have hmap : (Runs.run step start refusedMessage).map CardService.accepted = some [.createCard "lost",
      .createCard "card", .sendMessage "card", .streamContent "card" 1, .streamContent "card" 2, .updateCard "card" 3,
      .streamingModeOff "card" 4] := by decide +kernel
  obtain ⟨t, hrun, haccepted⟩ := Option.map_eq_some_iff.mp hmap
  exact ⟨t, hrun, haccepted, one_card_of_clean hrun (by decide +kernel)⟩

/-- The message with the card is sent, the text is refused, and the next attempt goes through. -/
def refusedText : List CardServiceStep :=
  takenText ++ [⟨.sendFails 0, "card", 2⟩, ⟨.retry 0, "", 0⟩, ⟨.decide 0, "", 0⟩, ⟨.proceed 0 0, "", 0⟩,
    ⟨.sent 0 "message" "other" 0, "", 0⟩]

theorem refused_text_sends_two_cards : ¬∀ t, Runs.run step start refusedText = some t → OneCard t.accepted := by
  have hmap : (Runs.run step start refusedText).map CardService.accepted = some [.createCard "card",
      .sendMessage "card", .createCard "other", .sendMessage "other", .streamContent "other" 1] := by decide +kernel
  obtain ⟨t, hrun, haccepted⟩ := Option.map_eq_some_iff.mp hmap
  intro h
  have honce := (h t hrun).once
  rw [haccepted] at honce
  have hsecond := (pairwise_cons.mp (pairwise_cons.mp honce).2).1 (.createCard "other") mem_cons_self
  cases hsecond ⟨"card", rfl⟩

end CardService

end MochiPort

import MochiPort.RemoteClients
import MochiPort.Runs

namespace MochiPort

structure FeishuStreamingCardState where
  accountId : String
  chatId : String
  receiveIdType : String
  receiveId : String
  kind : String
  messageId : Option String
  cardId : Option String
  sequence : Nat
  text : String
  sentText : String
  completed : Bool
  sending : Bool
  dirty : Bool
  lastSentAt : Option Nat
  deriving DecidableEq

def feishuCardkitThrottleMs : Nat := 100
def feishuCardkitLongGapThresholdMs : Nat := 2000
def feishuCardkitBatchAfterGapMs : Nat := 300

def feishuReceiveTarget (target : String) : String × String :=
  if target.startsWith "open_id:" then ("open_id", (target.drop 8).toString) else ("chat_id", target)

def blank (text : String) : Bool := RustText.trim text = ""

/-- Where a call is about: the kind of the item and the chat it is shown in. -/
structure CardTarget where
  kind : String
  accountId : String
  chatId : String

namespace FeishuStreamingCardState

variable (card : FeishuStreamingCardState)

/-- The entry that a call makes where there is none. -/
def new (target : CardTarget) : FeishuStreamingCardState :=
  ⟨target.accountId, target.chatId, (feishuReceiveTarget target.chatId).1, (feishuReceiveTarget target.chatId).2,
    target.kind, none, none, 0, "", "", false, false, false, none⟩

def retarget (target : CardTarget) : FeishuStreamingCardState := { card with
  accountId := target.accountId
  chatId := target.chatId
  receiveIdType := (feishuReceiveTarget target.chatId).1
  receiveId := (feishuReceiveTarget target.chatId).2
  kind := target.kind }

def upserted (target : CardTarget) (delta : String) (completed : Bool) : FeishuStreamingCardState :=
  { card.retarget target with
    text :=
      if completed then if delta = "" then card.text else delta
      else if target.kind = "fileSummary" then delta
      else card.text ++ delta
    completed := card.completed || completed
    dirty := true }

def started (target : CardTarget) (initialText : Option String) : FeishuStreamingCardState :=
  { card.retarget target with
    text := (initialText.filter fun text => !blank text && blank card.text).getD card.text
    dirty := true }

def completedWith (target : CardTarget) (text : Option String) : FeishuStreamingCardState :=
  { card.retarget target with
    text := (text.filter fun text => !blank text).getD card.text
    completed := true
    dirty := true }

def shouldSkipEmptyStreamingSend : Bool :=
  blank card.text && card.sentText = "" && card.messageId.isNone && card.cardId.isNone

/-- How long a driver waits before it sends the next update of a card. -/
def throttleWait (nowMs : Nat) : Option Nat :=
  if card.messageId.isSome then
    let elapsed := (card.lastSentAt.map (nowMs - ·)).getD (feishuCardkitLongGapThresholdMs + 1)
    if feishuCardkitLongGapThresholdMs ≤ elapsed then some feishuCardkitBatchAfterGapMs
    else if elapsed < feishuCardkitThrottleMs then some (feishuCardkitThrottleMs - elapsed)
    else none
  else none

/-- What a send that succeeds reports: the message id, the card id and the sequence. The two ids are those that the
service gives to a new message and a new card. -/
def sendResult (newMessageId newCardId : String) : Option String × Option String × Nat :=
  if card.kind = "agentMessage" then
    let messageId := if card.cardId.isSome then card.messageId else some newMessageId
    let nextSequence := if card.cardId.isSome then min (card.sequence + 1) u64Max else 1
    (messageId, some (card.cardId.getD newCardId),
      if card.completed then min (nextSequence + 1) u64Max else nextSequence)
  else (some (card.messageId.getD newMessageId), none, card.sequence)

def sent (snapshot : FeishuStreamingCardState) (result : Option String × Option String × Nat) (nowMs : Nat) :
    FeishuStreamingCardState := { card with
  messageId := result.1.or card.messageId
  cardId := result.2.1.or card.cardId
  sequence := result.2.2
  sentText := snapshot.text
  lastSentAt := some nowMs
  sending := false }

def failed : FeishuStreamingCardState := { card with sending := false, dirty := true }

end FeishuStreamingCardState

/-- Where a driver of the card stands: at the top of its loop, with a snapshot that it has claimed, waiting for the
throttle, sending a snapshot, or sleeping before a retry. -/
inductive CardDriver where
  | deciding
  | claimed (snapshot : FeishuStreamingCardState)
  | waiting
  | sending (snapshot : FeishuStreamingCardState)
  | sleeping
  | ended
  deriving DecidableEq

namespace CardDriver

def live : CardDriver → Bool
  | .ended => false
  | _ => true

def holds : CardDriver → Bool
  | .claimed _ | .waiting | .sending _ => true
  | _ => false

def snapshot? : CardDriver → Option FeishuStreamingCardState
  | .claimed snapshot | .sending snapshot => some snapshot
  | _ => none

end CardDriver

structure CardRemoval where
  text : String
  completed : Bool
  sends : List (String × Bool)

/-- The entry of one item, its drivers, the texts and states that were sent of the entry, and the entries removed. -/
structure FeishuCardSystem where
  card : Option FeishuStreamingCardState
  drivers : Table Nat CardDriver
  spawned : Nat
  sends : List (String × Bool)
  removals : List CardRemoval

inductive FeishuCardStep where
  | upsert (target : CardTarget) (delta : String) (completed : Bool)
  | ensureStarted (target : CardTarget) (initialText : Option String)
  | completeExisting (target : CardTarget) (text : Option String)
  | decide (driver : Nat)
  -- the check for an empty text, and the throttle
  | proceed (driver nowMs : Nat)
  | waited (driver : Nat)
  | sent (driver : Nat) (newMessageId newCardId : String) (nowMs : Nat)
  -- the send fails or takes too long
  | sendFails (driver : Nat)
  | retry (driver : Nat)

namespace FeishuCardSystem

variable (s : FeishuCardSystem)

def start : FeishuCardSystem := ⟨none, ∅, 0, [], []⟩

def moveTo (driver : Nat) (stage : CardDriver) : FeishuCardSystem :=
  { s with drivers := s.drivers.insert driver stage }

/-- The entry as a call leaves it, with the driver that the call spawns. -/
def touch (card : FeishuStreamingCardState) : FeishuCardSystem := { s with
  card := some card
  drivers := s.drivers.insert s.spawned .deciding
  spawned := s.spawned + 1 }

def remove (card : FeishuStreamingCardState) : FeishuCardSystem := { s with
  card := none
  sends := []
  removals := s.removals ++ [⟨card.text, card.completed, s.sends⟩] }

def upsertStreamingCardState (target : CardTarget) (delta : String) (completed : Bool) : FeishuCardSystem :=
  if delta = "" ∧ completed = false then s
  else s.touch ((s.card.getD (.new target)).upserted target delta completed)

def ensureStartedStreamingCardState (target : CardTarget) (initialText : Option String) : FeishuCardSystem :=
  s.touch ((s.card.getD (.new target)).started target initialText)

def completeExistingItemCard (target : CardTarget) (text : Option String) : FeishuCardSystem :=
  match s.card with
  | none => s
  | some card => s.touch (card.completedWith target text)

/-- A driver that has found its snapshot empty looks at the entry again. -/
def skipEmpty (driver : Nat) : FeishuCardSystem :=
  match s.card with
  | none => s.moveTo driver .ended
  | some card =>
    let card := { card with sending := false }
    if card.completed && blank card.text && card.sentText = "" then (s.remove card).moveTo driver .ended
    else { s with card := some card }.moveTo driver .ended

def reportSent (driver : Nat) (snapshot : FeishuStreamingCardState) (newMessageId newCardId : String) (nowMs : Nat) :
    FeishuCardSystem :=
  match s.card with
  | none => s.moveTo driver .ended
  | some card =>
    let card := card.sent snapshot (snapshot.sendResult newMessageId newCardId) nowMs
    let s := { s with card := some card, sends := s.sends ++ [(snapshot.text, snapshot.completed)] }
    if card.completed && !card.dirty && card.sentText = card.text then (s.remove card).moveTo driver .ended
    else if card.dirty then s.moveTo driver .deciding
    else s.moveTo driver .ended

def step (s : FeishuCardSystem) : FeishuCardStep → Option FeishuCardSystem
  | .upsert target delta completed => some (s.upsertStreamingCardState target delta completed)
  | .ensureStarted target initialText => some (s.ensureStartedStreamingCardState target initialText)
  | .completeExisting target text => some (s.completeExistingItemCard target text)
  | .decide driver =>
    match s.drivers.lookup driver, s.card with
    | some .deciding, none => some (s.moveTo driver .ended)
    | some .deciding, some card =>
      if card.sending || !card.dirty then some (s.moveTo driver .ended)
      else
        let card := { card with sending := true, dirty := false }
        some ({ s with card := some card }.moveTo driver (.claimed card))
    | _, _ => none
  | .proceed driver nowMs =>
    match s.drivers.lookup driver with
    | some (.claimed snapshot) =>
      if snapshot.shouldSkipEmptyStreamingSend then some (s.skipEmpty driver)
      else if (snapshot.throttleWait nowMs).isSome then some (s.moveTo driver .waiting)
      else some (s.moveTo driver (.sending snapshot))
    | _ => none
  | .waited driver =>
    match s.drivers.lookup driver, s.card with
    | some .waiting, none => some (s.moveTo driver .ended)
    | some .waiting, some card =>
      some ({ s with card := some { card with dirty := false } }.moveTo driver (.sending card))
    | _, _ => none
  | .sent driver newMessageId newCardId nowMs =>
    match s.drivers.lookup driver with
    | some (.sending snapshot) => some (s.reportSent driver snapshot newMessageId newCardId nowMs)
    | _ => none
  | .sendFails driver =>
    match s.drivers.lookup driver with
    | some (.sending _) =>
      some ({ s with card := s.card.map FeishuStreamingCardState.failed }.moveTo driver .sleeping)
    | _ => none
  | .retry driver =>
    match s.drivers.lookup driver with
    | some .sleeping => some (s.moveTo driver .deciding)
    | _ => none

def Driven : Prop := ∃ driver stage, s.drivers.lookup driver = some stage ∧ stage.live = true

/-- What was promised of every state: one driver at a time sends, no change waits without a driver, and an entry is
removed only when all of it was sent, or when it is blank and nothing was sent. -/
structure Delivers (s : FeishuCardSystem) : Prop where
  alone : ∀ driver stage other otherStage, s.drivers.lookup driver = some stage →
    s.drivers.lookup other = some otherStage → stage.holds = true → otherStage.holds = true → driver = other
  delivered : ¬s.Driven → ∀ card, s.card = some card → card.dirty = false
  removed : ∀ removal ∈ s.removals,
    removal.completed = true ∧ removal.sends.getLast? = some (removal.text, removal.completed) ∨
      blank removal.text = true ∧ removal.sends = []

/-- A driver that gives up on an empty snapshot leaves no change behind: the entry has not changed since, or is still
empty and removed as complete, or another driver is live. -/
def LeavesNothing : FeishuCardStep → Prop
  | .proceed driver _ =>
    ∀ snapshot card, s.drivers.lookup driver = some (.claimed snapshot) →
      snapshot.shouldSkipEmptyStreamingSend = true → s.card = some card → card.dirty = true →
        (card.completed && blank card.text && card.sentText = "") = true ∨
          ∃ other stage, other ≠ driver ∧ s.drivers.lookup other = some stage ∧ stage.live = true
  | _ => True

/-- What every reached state keeps. The snapshot of the driver that holds the entry is the entry as it is, unless that
has been changed since. -/
structure Tracked (s : FeishuCardSystem) : Prop where
  counted : ∀ driver stage, s.drivers.lookup driver = some stage → driver < s.spawned
  alone : ∀ driver stage other otherStage, s.drivers.lookup driver = some stage →
    s.drivers.lookup other = some otherStage → stage.holds = true → otherStage.holds = true → driver = other
  holding : ∀ driver stage, s.drivers.lookup driver = some stage → stage.holds = true →
    ∃ card, s.card = some card ∧ card.sending = true
  held : ∀ card, s.card = some card → card.sending = true →
    ∃ driver stage, s.drivers.lookup driver = some stage ∧ stage.holds = true
  current : ∀ driver stage snapshot card, s.drivers.lookup driver = some stage → stage.snapshot? = some snapshot →
    s.card = some card → snapshot.messageId = card.messageId ∧ snapshot.cardId = card.cardId ∧
      (card.dirty = false → snapshot.text = card.text ∧ snapshot.completed = card.completed)
  ids : ∀ card, s.card = some card → card.cardId.isSome → card.messageId.isSome
  unsent : (s.card.bind (·.messageId)) = none → s.sends = []
  driven : ∀ card, s.card = some card → card.dirty = true → s.Driven
  removed : ∀ removal ∈ s.removals,
    removal.completed = true ∧ removal.sends.getLast? = some (removal.text, removal.completed) ∨
      blank removal.text = true ∧ removal.sends = []

variable {s}

theorem lookup_moveTo (driver other : Nat) (stage : CardDriver) :
    (s.moveTo driver stage).drivers.lookup other = if other = driver then some stage else s.drivers.lookup other :=
  Table.lookup_insert_eq _ _ _ _

theorem CardDriver.live_of_holds {stage : CardDriver} (h : stage.holds = true) : stage.live = true := by
  cases stage with
  | deciding | claimed snapshot | waiting | sending snapshot | sleeping => rfl
  | ended => cases h

variable {snapshot : FeishuStreamingCardState}

theorem CardDriver.holds_of_snapshot {stage : CardDriver} (h : stage.snapshot? = some snapshot) :
    stage.holds = true := by
  cases stage with
  | claimed snapshot | sending snapshot => rfl
  | deciding | waiting | sleeping | ended => cases h

theorem Tracked.delivers (hs : s.Tracked) : s.Delivers where
  alone := hs.alone
  delivered hquiet card hcard := by
    by_contra hdirty
    rw [Bool.not_eq_false] at hdirty
    exact hquiet (hs.driven card hcard hdirty)
  removed := hs.removed

theorem start_tracked : start.Tracked where
  counted driver stage h := by cases h
  alone driver stage other otherStage h := by cases h
  holding driver stage h := by cases h
  held card h := by cases h
  current driver stage snapshot card h := by cases h
  ids card h := by cases h
  unsent _ := rfl
  driven card h := by cases h
  removed removal h := by cases h

theorem Tracked.touch (hs : s.Tracked) {new : FeishuStreamingCardState} (hdirty : new.dirty = true)
    (hold : ∀ card, s.card = some card →
      new.sending = card.sending ∧ new.messageId = card.messageId ∧ new.cardId = card.cardId)
    (hfresh : s.card = none → new.sending = false ∧ new.messageId = none ∧ new.cardId = none) :
    (s.touch new).Tracked := by
  have hlookup : ∀ driver, (s.touch new).drivers.lookup driver =
      if driver = s.spawned then some .deciding else s.drivers.lookup driver :=
    fun driver => Table.lookup_insert_eq _ _ _ _
  -- only the new driver is new, and it holds nothing
  have hbefore : ∀ driver stage, (s.touch new).drivers.lookup driver = some stage → stage.holds = true →
      s.drivers.lookup driver = some stage := by
    intro driver stage h hholds
    rw [hlookup] at h
    split at h
    next =>
      cases h
      cases hholds
    next => exact h
  have hkept : ∀ driver stage, s.drivers.lookup driver = some stage →
      (s.touch new).drivers.lookup driver = some stage := by
    intro driver stage h
    have hlt := hs.counted driver stage h
    rw [hlookup, if_neg (by omega)]
    exact h
  constructor
  case counted =>
    intro driver stage h
    have hspawned : (s.touch new).spawned = s.spawned + 1 := rfl
    rw [hlookup] at h
    split at h
    next => omega
    next =>
      have hlt := hs.counted driver stage h
      omega
  case alone =>
    intro driver stage other otherStage h hother hholds hotherHolds
    exact hs.alone driver stage other otherStage (hbefore driver stage h hholds)
      (hbefore other otherStage hother hotherHolds) hholds hotherHolds
  case holding =>
    intro driver stage h hholds
    obtain ⟨card, hcard, hsending⟩ := hs.holding driver stage (hbefore driver stage h hholds) hholds
    exact ⟨new, rfl, (hold card hcard).1.trans hsending⟩
  case held =>
    intro card hcard hsending
    cases hcard
    cases hcard : s.card with
    | none =>
      rw [(hfresh hcard).1] at hsending
      cases hsending
    | some card =>
      rw [(hold card hcard).1] at hsending
      obtain ⟨driver, stage, h, hholds⟩ := hs.held card hcard hsending
      exact ⟨driver, stage, hkept driver stage h, hholds⟩
  case current =>
    intro driver stage snapshot card h hsnapshot hcard
    cases hcard
    have hholds := CardDriver.holds_of_snapshot hsnapshot
    have hwas := hbefore driver stage h hholds
    obtain ⟨card, hcard, _⟩ := hs.holding driver stage hwas hholds
    obtain ⟨hmessage, hid, _⟩ := hs.current driver stage snapshot card hwas hsnapshot hcard
    obtain ⟨_, hnewMessage, hnewId⟩ := hold card hcard
    refine ⟨hmessage.trans hnewMessage.symm, hid.trans hnewId.symm, ?_⟩
    intro hclean
    rw [hdirty] at hclean
    cases hclean
  case ids =>
    intro card hcard hid
    cases hcard
    cases hcard : s.card with
    | none =>
      rw [(hfresh hcard).2.2] at hid
      cases hid
    | some card =>
      obtain ⟨_, hnewMessage, hnewId⟩ := hold card hcard
      rw [hnewId] at hid
      rw [hnewMessage]
      exact hs.ids card hcard hid
  case unsent =>
    intro hnone
    refine hs.unsent ?_
    cases hcard : s.card with
    | none => rfl
    | some card => exact (hold card hcard).2.1.symm.trans hnone
  case driven =>
    intro card _ _
    exact ⟨s.spawned, .deciding, (hlookup s.spawned).trans (if_pos rfl), rfl⟩
  case removed => exact hs.removed

variable {driver : Nat} {old stage : CardDriver}

theorem Tracked.stand (hs : s.Tracked) (hd : s.drivers.lookup driver = some old) (hold : old.holds = false)
    (hstage : stage.holds = false)
    (hlive : stage.live = false → ∀ card, s.card = some card → card.dirty = true → card.sending = true) :
    (s.moveTo driver stage).Tracked := by
  have hbefore : ∀ other otherStage, (s.moveTo driver stage).drivers.lookup other = some otherStage →
      otherStage.holds = true → s.drivers.lookup other = some otherStage := by
    intro other otherStage h hholds
    rw [lookup_moveTo] at h
    split at h
    next =>
      cases h
      rw [hstage] at hholds
      cases hholds
    next => exact h
  have hafter : ∀ other otherStage, s.drivers.lookup other = some otherStage → otherStage.holds = true →
      (s.moveTo driver stage).drivers.lookup other = some otherStage := by
    intro other otherStage h hholds
    have hne : other ≠ driver := by
      intro heq
      rw [heq, hd] at h
      cases h
      rw [hold] at hholds
      cases hholds
    rw [lookup_moveTo, if_neg hne]
    exact h
  constructor
  case counted =>
    intro other otherStage h
    rw [lookup_moveTo] at h
    split at h
    next heq =>
      rw [heq]
      exact hs.counted driver old hd
    next => exact hs.counted other otherStage h
  case alone =>
    intro first stage₁ second stage₂ h₁ h₂ hholds₁ hholds₂
    exact hs.alone first stage₁ second stage₂ (hbefore first stage₁ h₁ hholds₁) (hbefore second stage₂ h₂ hholds₂)
      hholds₁ hholds₂
  case holding =>
    intro other otherStage h hholds
    exact hs.holding other otherStage (hbefore other otherStage h hholds) hholds
  case held =>
    intro card hcard hsending
    obtain ⟨other, otherStage, h, hholds⟩ := hs.held card hcard hsending
    exact ⟨other, otherStage, hafter other otherStage h hholds, hholds⟩
  case current =>
    intro other otherStage snapshot card h hsnapshot hcard
    have hholds := CardDriver.holds_of_snapshot hsnapshot
    exact hs.current other otherStage snapshot card (hbefore other otherStage h hholds) hsnapshot hcard
  case ids => exact hs.ids
  case unsent => exact hs.unsent
  case driven =>
    intro card hcard hdirty
    cases hstageLive : stage.live with
    | true => exact ⟨driver, stage, (lookup_moveTo driver driver stage).trans (if_pos rfl), hstageLive⟩
    | false =>
      obtain ⟨other, otherStage, h, hholds⟩ := hs.held card hcard (hlive hstageLive card hcard hdirty)
      exact ⟨other, otherStage, hafter other otherStage h hholds, CardDriver.live_of_holds hholds⟩
  case removed => exact hs.removed

theorem Tracked.act (hs : s.Tracked) (hd : s.drivers.lookup driver = some old)
    (honly : ∀ other otherStage, other ≠ driver → s.drivers.lookup other = some otherStage → otherStage.holds = false)
    {card : Option FeishuStreamingCardState} {sends : List (String × Bool)} {removals : List CardRemoval}
    (hholding : stage.holds = true ↔ ∃ new, card = some new ∧ new.sending = true)
    (hcurrent : ∀ snapshot new, stage.snapshot? = some snapshot → card = some new →
      snapshot.messageId = new.messageId ∧ snapshot.cardId = new.cardId ∧
        (new.dirty = false → snapshot.text = new.text ∧ snapshot.completed = new.completed))
    (hids : ∀ new, card = some new → new.cardId.isSome → new.messageId.isSome)
    (hunsent : (card.bind (·.messageId)) = none → sends = [])
    (hdriven : ∀ new, card = some new → new.dirty = true → stage.live = true ∨
      ∃ other otherStage, other ≠ driver ∧ s.drivers.lookup other = some otherStage ∧ otherStage.live = true)
    (hremoved : ∀ removal ∈ removals,
      removal.completed = true ∧ removal.sends.getLast? = some (removal.text, removal.completed) ∨
        blank removal.text = true ∧ removal.sends = []) :
    ({ s with card := card, sends := sends, removals := removals }.moveTo driver stage).Tracked := by
  have hlookup : ∀ other, ({ s with card := card, sends := sends, removals := removals }.moveTo driver
      stage).drivers.lookup other = if other = driver then some stage else s.drivers.lookup other :=
    fun other => Table.lookup_insert_eq _ _ _ _
  have hself : ∀ other otherStage, ({ s with card := card, sends := sends, removals := removals }.moveTo driver
      stage).drivers.lookup other = some otherStage → otherStage.holds = true → other = driver ∧ otherStage = stage := by
    intro other otherStage h hholds
    rw [hlookup] at h
    split at h
    next heq => exact ⟨heq, (Option.some.inj h).symm⟩
    next hne =>
      have hfree := honly other otherStage hne h
      rw [hholds] at hfree
      cases hfree
  constructor
  case counted =>
    intro other otherStage h
    rw [hlookup] at h
    split at h
    next heq =>
      rw [heq]
      exact hs.counted driver old hd
    next => exact hs.counted other otherStage h
  case alone =>
    intro first stage₁ second stage₂ h₁ h₂ hholds₁ hholds₂
    exact (hself first stage₁ h₁ hholds₁).1.trans (hself second stage₂ h₂ hholds₂).1.symm
  case holding =>
    intro other otherStage h hholds
    rw [(hself other otherStage h hholds).2] at hholds
    exact hholding.mp hholds
  case held =>
    intro new hcard hsending
    exact ⟨driver, stage, (hlookup driver).trans (if_pos rfl), hholding.mpr ⟨new, hcard, hsending⟩⟩
  case current =>
    intro other otherStage snapshot new h hsnapshot hcard
    have hholds := CardDriver.holds_of_snapshot hsnapshot
    rw [(hself other otherStage h hholds).2] at hsnapshot
    exact hcurrent snapshot new hsnapshot hcard
  case ids => exact hids
  case unsent => exact hunsent
  case driven =>
    intro new hcard hdirty
    rcases hdriven new hcard hdirty with hlive | ⟨other, otherStage, hne, h, hlive⟩
    · exact ⟨driver, stage, (hlookup driver).trans (if_pos rfl), hlive⟩
    · exact ⟨other, otherStage, (hlookup other).trans ((if_neg hne).trans h), hlive⟩
  case removed => exact hremoved

theorem Tracked.only_holder (hs : s.Tracked) {old : CardDriver} (hd : s.drivers.lookup driver = some old)
    (hold : old.holds = true) :
    ∀ other otherStage, other ≠ driver → s.drivers.lookup other = some otherStage → otherStage.holds = false := by
  intro other otherStage hne h
  by_contra hholds
  rw [Bool.not_eq_false] at hholds
  exact hne (hs.alone other otherStage driver old h hd hholds hold)

variable {card : FeishuStreamingCardState}

section

variable (hs : s.Tracked)
include hs

theorem Tracked.no_holder (hcard : s.card = some card) (hidle : card.sending = false) :
    ∀ other otherStage, s.drivers.lookup other = some otherStage → otherStage.holds = false := by
  intro other otherStage h
  by_contra hholds
  rw [Bool.not_eq_false] at hholds
  obtain ⟨_, hsame, hsending⟩ := hs.holding other otherStage h hholds
  rw [← Option.some.inj (hcard.symm.trans hsame), hidle] at hsending
  cases hsending

theorem Tracked.upsert (target : CardTarget) (delta : String) (completed : Bool) :
    (s.upsertStreamingCardState target delta completed).Tracked := by
  unfold upsertStreamingCardState
  split
  next => exact hs
  next =>
    refine hs.touch rfl ?_ ?_
    · intro card hcard
      rw [hcard]
      exact ⟨rfl, rfl, rfl⟩
    · intro hcard
      rw [hcard]
      exact ⟨rfl, rfl, rfl⟩

theorem Tracked.ensureStarted (target : CardTarget) (initialText : Option String) :
    (s.ensureStartedStreamingCardState target initialText).Tracked := by
  refine hs.touch rfl ?_ ?_
  · intro card hcard
    rw [hcard]
    exact ⟨rfl, rfl, rfl⟩
  · intro hcard
    rw [hcard]
    exact ⟨rfl, rfl, rfl⟩

theorem Tracked.completeExisting (target : CardTarget) (text : Option String) :
    (s.completeExistingItemCard target text).Tracked := by
  unfold completeExistingItemCard
  split
  next => exact hs
  next card hcard =>
    refine hs.touch rfl ?_ ?_
    · intro other hother
      rw [← Option.some.inj (hcard.symm.trans hother)]
      exact ⟨rfl, rfl, rfl⟩
    · intro hnone
      rw [hcard] at hnone
      cases hnone

theorem Tracked.skipEmpty (hd : s.drivers.lookup driver = some (.claimed snapshot))
    (hempty : snapshot.shouldSkipEmptyStreamingSend = true) (hguard : ∀ card, s.card = some card → card.dirty = true →
      (card.completed && blank card.text && card.sentText = "") = true ∨
        ∃ other stage, other ≠ driver ∧ s.drivers.lookup other = some stage ∧ stage.live = true) :
    (s.skipEmpty driver).Tracked := by
  have honly := hs.only_holder hd rfl
  obtain ⟨card, hcard, _⟩ := hs.holding driver _ hd rfl
  obtain ⟨hmessage, _, _⟩ := hs.current driver _ snapshot card hd rfl hcard
  have hnothing : snapshot.messageId = none := by
    simp only [FeishuStreamingCardState.shouldSkipEmptyStreamingSend, Bool.and_eq_true,
      Option.isNone_iff_eq_none] at hempty
    exact hempty.1.2
  have hsends : s.sends = [] := by
    refine hs.unsent ?_
    rw [hcard, Option.bind_some, ← hmessage]
    exact hnothing
  unfold FeishuCardSystem.skipEmpty
  rw [hcard]
  dsimp only
  split
  next hremove =>
    refine hs.act hd honly ?_ ?_ ?_ (fun _ => rfl) ?_ ?_
    · refine iff_of_false (fun h => by cases h) ?_
      intro h
      obtain ⟨_, hnew, _⟩ := h
      cases hnew
    · intro _ _ hsnapshot
      cases hsnapshot
    · intro _ hnew
      cases hnew
    · intro _ hnew
      cases hnew
    · intro removal hremoval
      rcases List.mem_append.mp hremoval with hold | hnew
      · exact hs.removed removal hold
      · rw [List.mem_singleton.mp hnew]
        simp only [Bool.and_eq_true] at hremove
        exact .inr ⟨hremove.1.2, hsends⟩
  next hkeep =>
    refine hs.act hd honly ?_ ?_ ?_ ?_ ?_ hs.removed
    · refine iff_of_false (fun h => by cases h) ?_
      intro h
      obtain ⟨_, hnew, hsending⟩ := h
      cases hnew
      cases hsending
    · intro _ _ hsnapshot
      cases hsnapshot
    · intro new hnew hid
      cases hnew
      exact hs.ids card hcard hid
    · intro _
      exact hsends
    · intro new hnew hdirty
      cases hnew
      rcases hguard card hcard hdirty with hremove | hother
      · exact absurd hremove hkeep
      · exact .inr hother

omit hs in
theorem sent_messageId {card snapshot : FeishuStreamingCardState} (hmessage : snapshot.messageId = card.messageId)
    (hid : snapshot.cardId = card.cardId) (hids : card.cardId.isSome → card.messageId.isSome)
    (newMessageId newCardId : String) (nowMs : Nat) :
    (card.sent snapshot (snapshot.sendResult newMessageId newCardId) nowMs).messageId.isSome := by
  unfold FeishuStreamingCardState.sent FeishuStreamingCardState.sendResult
  rw [Option.isSome_or]
  split
  next =>
    by_cases hsome : snapshot.cardId.isSome
    · rw [if_pos hsome, hmessage, hids (hid ▸ hsome)]
      rfl
    · rw [if_neg hsome]
      rfl
  next => rfl

theorem Tracked.reportSent (hd : s.drivers.lookup driver = some (.sending snapshot))
    (newMessageId newCardId : String) (nowMs : Nat) :
    (s.reportSent driver snapshot newMessageId newCardId nowMs).Tracked := by
  have honly := hs.only_holder hd rfl
  obtain ⟨card, hcard, _⟩ := hs.holding driver _ hd rfl
  obtain ⟨hmessage, hid, hsame⟩ := hs.current driver _ snapshot card hd rfl hcard
  have hsome := sent_messageId hmessage hid (hs.ids card hcard) newMessageId newCardId nowMs
  unfold FeishuCardSystem.reportSent
  rw [hcard]
  dsimp only
  have hclean : (card.sent snapshot (snapshot.sendResult newMessageId newCardId) nowMs).dirty = card.dirty := rfl
  have hidle : (card.sent snapshot (snapshot.sendResult newMessageId newCardId) nowMs).sending = false := rfl
  have htext : (card.sent snapshot (snapshot.sendResult newMessageId newCardId) nowMs).text = card.text := rfl
  have hcompleted : (card.sent snapshot (snapshot.sendResult newMessageId newCardId) nowMs).completed =
    card.completed := rfl
  generalize card.sent snapshot (snapshot.sendResult newMessageId newCardId) nowMs = new at *
  have hkept : ∀ stage : CardDriver, stage.holds = false → (new.dirty = true → stage.live = true) →
      ({ s with card := some new, sends := s.sends ++ [(snapshot.text, snapshot.completed)] }.moveTo driver
        stage).Tracked := by
    intro stage hstage hlive
    refine hs.act hd honly ?_ ?_ ?_ ?_ ?_ hs.removed
    · refine iff_of_false (fun h => ?_) ?_
      · rw [hstage] at h
        cases h
      · intro h
        obtain ⟨_, hnew, hsending⟩ := h
        cases hnew
        rw [hidle] at hsending
        cases hsending
    · intro other _ hsnapshot
      have hholds := CardDriver.holds_of_snapshot hsnapshot
      rw [hstage] at hholds
      cases hholds
    · intro other hother _
      cases hother
      exact hsome
    · intro hnone
      rw [Option.bind_some] at hnone
      rw [hnone] at hsome
      cases hsome
    · intro other hother hdirty
      cases hother
      exact .inl (hlive hdirty)
  split
  next hremove =>
    simp only [Bool.and_eq_true, Bool.not_eq_true', decide_eq_true_eq] at hremove
    obtain ⟨⟨hdone, hunchanged⟩, _⟩ := hremove
    obtain ⟨hsameText, hsameState⟩ := hsame (hclean.symm.trans hunchanged)
    refine hs.act hd honly ?_ ?_ ?_ (fun _ => rfl) ?_ ?_
    · refine iff_of_false (fun h => by cases h) ?_
      intro h
      obtain ⟨_, hnew, _⟩ := h
      cases hnew
    · intro _ _ hsnapshot
      cases hsnapshot
    · intro _ hnew
      cases hnew
    · intro _ hnew
      cases hnew
    · intro removal hremoval
      rcases List.mem_append.mp hremoval with hold | hnew
      · exact hs.removed removal hold
      · rw [List.mem_singleton.mp hnew]
        refine .inl ⟨hdone, ?_⟩
        rw [List.getLast?_concat, hsameText, hsameState, htext, hcompleted]
  next =>
    split
    next hdirty => exact hkept .deciding rfl fun _ => rfl
    next hclean' =>
      refine hkept .ended rfl fun hdirty => ?_
      exact absurd hdirty hclean'

theorem Tracked.claim (hd : s.drivers.lookup driver = some .deciding) (hcard : s.card = some card)
    (hidle : card.sending = false) :
    ({ s with card := some { card with sending := true, dirty := false } }.moveTo driver
      (.claimed { card with sending := true, dirty := false })).Tracked := by
  refine hs.act hd (fun other otherStage _ => hs.no_holder hcard hidle other otherStage) ?_ ?_ ?_ ?_ ?_ hs.removed
  · exact iff_of_true rfl ⟨_, rfl, rfl⟩
  · intro snapshot new hsnapshot hnew
    cases hsnapshot
    cases hnew
    exact ⟨rfl, rfl, fun _ => ⟨rfl, rfl⟩⟩
  · intro new hnew hid
    cases hnew
    exact hs.ids card hcard hid
  · intro hnone
    refine hs.unsent ?_
    rw [hcard]
    exact hnone
  · intro new hnew hdirty
    cases hnew
    cases hdirty

theorem Tracked.reread (hd : s.drivers.lookup driver = some .waiting) (hcard : s.card = some card) :
    ({ s with card := some { card with dirty := false } }.moveTo driver (.sending card)).Tracked := by
  obtain ⟨held, hheld, hsending⟩ := hs.holding driver _ hd rfl
  rw [← Option.some.inj (hcard.symm.trans hheld)] at hsending
  refine hs.act hd (hs.only_holder hd rfl) ?_ ?_ ?_ ?_ ?_ hs.removed
  · exact iff_of_true rfl ⟨_, rfl, hsending⟩
  · intro snapshot new hsnapshot hnew
    cases hsnapshot
    cases hnew
    exact ⟨rfl, rfl, fun _ => ⟨rfl, rfl⟩⟩
  · intro new hnew hid
    cases hnew
    exact hs.ids card hcard hid
  · intro hnone
    refine hs.unsent ?_
    rw [hcard]
    exact hnone
  · intro new hnew hdirty
    cases hnew
    cases hdirty

theorem Tracked.hold_on (hd : s.drivers.lookup driver = some old) (hold : old.holds = true)
    (hstage : stage.holds = true)
    (hsnapshot : ∀ snapshot, stage.snapshot? = some snapshot → old.snapshot? = some snapshot) :
    (s.moveTo driver stage).Tracked := by
  obtain ⟨card, hcard, hsending⟩ := hs.holding driver old hd hold
  refine hs.act hd (hs.only_holder hd hold) ?_ ?_ hs.ids hs.unsent ?_ hs.removed
  · exact iff_of_true hstage ⟨card, hcard, hsending⟩
  · intro snapshot new h hnew
    exact hs.current driver old snapshot new hd (hsnapshot snapshot h) hnew
  · intro _ _ _
    exact .inl (CardDriver.live_of_holds hstage)

theorem Tracked.sendFails (hd : s.drivers.lookup driver = some (.sending snapshot)) :
    ({ s with card := s.card.map FeishuStreamingCardState.failed }.moveTo driver .sleeping).Tracked := by
  obtain ⟨card, hcard, _⟩ := hs.holding driver _ hd rfl
  rw [hcard, Option.map_some]
  refine hs.act hd (hs.only_holder hd rfl) ?_ ?_ ?_ ?_ ?_ hs.removed
  · refine iff_of_false (fun h => by cases h) ?_
    intro h
    obtain ⟨_, hnew, hsending⟩ := h
    cases hnew
    cases hsending
  · intro _ _ hsnapshot
    cases hsnapshot
  · intro new hnew hid
    cases hnew
    exact hs.ids card hcard hid
  · intro hnone
    refine hs.unsent ?_
    rw [hcard]
    exact hnone
  · intro _ _ _
    exact .inl rfl

theorem step_tracked {t : FeishuCardSystem} {a : FeishuCardStep} (hguard : s.LeavesNothing a)
    (h : s.step a = some t) : t.Tracked := by
  cases a with
  | upsert target delta completed =>
    cases h
    exact hs.upsert target delta completed
  | ensureStarted target initialText =>
    cases h
    exact hs.ensureStarted target initialText
  | completeExisting target text =>
    cases h
    exact hs.completeExisting target text
  | decide driver =>
    simp only [step] at h
    split at h
    next hd hcard =>
      cases h
      refine hs.stand hd rfl rfl ?_
      intro _ card hsome
      rw [hcard] at hsome
      cases hsome
    next card hd hcard =>
      split at h
      next hstop =>
        cases h
        refine hs.stand hd rfl rfl ?_
        intro _ other hother hdirty
        rw [← Option.some.inj (hcard.symm.trans hother)] at hdirty ⊢
        rw [hdirty, Bool.not_true, Bool.or_false] at hstop
        exact hstop
      next hgo =>
        cases h
        rw [Bool.or_eq_true, not_or, Bool.not_eq_true] at hgo
        exact hs.claim hd hcard hgo.1
    next => cases h
  | proceed driver nowMs =>
    simp only [step] at h
    split at h
    next snapshot hd =>
      split at h
      next hempty =>
        cases h
        exact hs.skipEmpty hd hempty fun card hcard hdirty => hguard snapshot card hd hempty hcard hdirty
      next =>
        split at h
        next =>
          cases h
          exact hs.hold_on hd rfl rfl fun _ hnone => by cases hnone
        next =>
          cases h
          exact hs.hold_on hd rfl rfl fun _ hsame => hsame
    next => cases h
  | waited driver =>
    simp only [step] at h
    split at h
    next hd hcard =>
      obtain ⟨card, hsome, _⟩ := hs.holding driver _ hd rfl
      rw [hcard] at hsome
      cases hsome
    next card hd hcard =>
      cases h
      exact hs.reread hd hcard
    next => cases h
  | sent driver newMessageId newCardId nowMs =>
    simp only [step] at h
    split at h
    next snapshot hd =>
      cases h
      exact hs.reportSent hd newMessageId newCardId nowMs
    next => cases h
  | sendFails driver =>
    simp only [step] at h
    split at h
    next snapshot hd =>
      cases h
      exact hs.sendFails hd
    next => cases h
  | retry driver =>
    simp only [step] at h
    split at h
    next hd =>
      cases h
      exact hs.stand hd rfl rfl fun hdead => by cases hdead
    next => cases h

end

theorem leavesNothing_of_delivers {t : FeishuCardSystem} {a : FeishuCardStep} (h : s.step a = some t)
    (hdelivers : t.Delivers) : s.LeavesNothing a := by
  cases a with
  | proceed driver nowMs =>
    intro snapshot card hd hempty hcard hdirty
    by_contra hleft
    rw [not_or, not_exists] at hleft
    obtain ⟨hkeep, hnone⟩ := hleft
    simp only [step, hd, hempty, if_true, FeishuCardSystem.skipEmpty, hcard] at h
    rw [if_neg hkeep] at h
    cases h
    have hquiet : ¬({ s with card := some { card with sending := false } }.moveTo driver .ended).Driven := by
      intro hdriven
      obtain ⟨other, stage, hother, hlive⟩ := hdriven
      rw [lookup_moveTo] at hother
      split at hother
      next =>
        cases hother
        cases hlive
      next hne => exact hnone other ⟨stage, hne, hother, hlive⟩
    have hclean := hdelivers.delivered hquiet { card with sending := false } rfl
    rw [hdirty] at hclean
    cases hclean
  | upsert target delta completed | ensureStarted target initialText | completeExisting target text
  | decide driver | waited driver | sent driver newMessageId newCardId nowMs | sendFails driver
  | retry driver => trivial

/-- The card delivers what it holds last if and only if no driver gives up on an empty snapshot of an entry that has
changed since while no other driver is live. -/
theorem card_delivers_iff {t : FeishuCardSystem} {steps : List FeishuCardStep}
    (hrun : Runs.run step start steps = some t) :
    (∀ done rest reached, steps = done ++ rest → Runs.run step start done = some reached → reached.Delivers) ↔
      Runs.Meets step LeavesNothing start steps := by
  refine Runs.forall_prefix_iff_meets Tracked ?_ ?_ ?_ start_tracked hrun
  · intro s hs
    exact hs.delivers
  · intro s a t hs hguard h
    exact step_tracked hs hguard h
  · intro s a t _ h hdelivers
    exact leavesNothing_of_delivers h hdelivers

/-- An item is started without a text, and its driver claims the entry; the answer comes in, and the driver that it
spawns finds the entry claimed; then the first driver gives up. -/
def answerBehindEmptyStart : List FeishuCardStep :=
  [.ensureStarted ⟨"agentMessage", "account", "chat"⟩ none, .decide 0,
    .upsert ⟨"agentMessage", "account", "chat"⟩ "answer" true, .decide 1, .proceed 0 0]

theorem card_delivers_iff_answerBehindEmptyStart :
    (∀ done rest reached, answerBehindEmptyStart = done ++ rest → Runs.run step start done = some reached →
      reached.Delivers) ↔ Runs.Meets step LeavesNothing start answerBehindEmptyStart := by
  have hsome : (Runs.run step start answerBehindEmptyStart).isSome := by decide +kernel
  obtain ⟨t, hrun⟩ := Option.isSome_iff_exists.mp hsome
  exact card_delivers_iff hrun

/-- The answer is never sent. -/
theorem answer_behind_empty_start_lost :
    ¬∀ (steps : List FeishuCardStep) (t : FeishuCardSystem), Runs.run step start steps = some t → t.Delivers := by
  intro h
  have hcard : (Runs.run step start answerBehindEmptyStart).bind (fun t => t.card.map fun card =>
      (card.text, card.dirty)) = some ("answer", true) := by decide +kernel
  obtain ⟨t, hrun, hcard⟩ := Option.bind_eq_some_iff.mp hcard
  obtain ⟨card, hcard, hdirty⟩ := Option.map_eq_some_iff.mp hcard
  have hended : (Runs.run step start answerBehindEmptyStart).map (fun t => t.drivers.entries.map fun entry =>
      entry.2.live) = some [false, false] := by decide +kernel
  rw [hrun, Option.map_some, Option.some.injEq] at hended
  have hquiet : ¬t.Driven := by
    intro hdriven
    obtain ⟨driver, stage, hd, hlive⟩ := hdriven
    have hmem := List.mem_map_of_mem (f := fun entry => entry.2.live) (Table.lookup_eq_some_iff.mp hd)
    rw [hended] at hmem
    simp only [hlive, List.mem_cons, Bool.true_eq_false, List.not_mem_nil, or_self] at hmem
  have hclean := (h answerBehindEmptyStart t hrun).delivered hquiet card hcard
  rw [(Prod.mk.inj hdirty).2] at hclean
  cases hclean

end FeishuCardSystem

end MochiPort

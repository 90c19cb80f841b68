import MochiPort.Coalescing
import MochiPort.ProgressChanges
import MochiPort.Runs

namespace MochiPort

open Option

/-- How far a delivery driver has come. -/
inductive ProgressDriver where
  | claimed (snapshot : TelegramCommandProgressSnapshot)
  | sending (snapshot : TelegramCommandProgressSnapshot)
  | waiting (deliveryRetained : Bool)
  | ended

namespace ProgressDriver

/-- The snapshot that a driver has claimed and not yet reported on. -/
def held : ProgressDriver → Option TelegramCommandProgressSnapshot
  | .claimed snapshot | .sending snapshot => some snapshot
  | .waiting _ | .ended => none

end ProgressDriver

/-- The progress message of one turn with its drivers, and what has happened: whether the turn has ended, the
snapshot of the entry that was claimed last and the one that was delivered last. -/
structure ProgressSystem where
  turnId : String
  rows : ThreadProgress
  drivers : Table Nat ProgressDriver
  ended : Bool
  claimed : Option TelegramCommandProgressSnapshot
  delivered : Option TelegramCommandProgressSnapshot

inductive ProgressStep where
  | turnStarted
  | change (change : ProgressChange)
  | turnCompleted (turnId : Option String)
  -- the caller of a change claims a delivery and starts a driver with it
  | deliver (driver : Nat)
  | checkCurrent (driver : Nat)
  | sent (driver : Nat) (messageId : String)
  -- whether the error names a time to retry after
  | sendFails (driver : Nat) (retryAfter : Bool)
  | wake (driver : Nat)

namespace ProgressSystem

variable (s : ProgressSystem)

def start (turnId : String) : ProgressSystem := ⟨turnId, ⟨none, none⟩, ∅, false, none, none⟩

def entry : TelegramCommandProgressState := s.rows.entry s.turnId

def moveTo (driver : Nat) (stage : ProgressDriver) : ProgressSystem :=
  { s with drivers := s.drivers.insert driver stage }

/-- New rows; the deliveries of an entry are forgotten with it. -/
def withRows (rows : ThreadProgress) : ProgressSystem :=
  { s with rows := rows, delivered := if rows.progress.isNone then none else s.delivered }

/-- The driver goes on with the snapshot that it was given, if any. -/
def takeUp (driver : Nat) (result : ThreadProgress × Option TelegramCommandProgressSnapshot) : ProgressSystem :=
  match result.2 with
  | none => (s.withRows result.1).moveTo driver .ended
  | some snapshot => { (s.withRows result.1).moveTo driver (.claimed snapshot) with claimed := some snapshot }

/-- The delivery of a snapshot, as far as it is the one that the entry has in flight. -/
def noteDelivered (snapshot : TelegramCommandProgressSnapshot) : ProgressSystem :=
  if s.entry.inFlightRevision = some snapshot.revision then { s with delivered := some snapshot } else s

def step (s : ProgressSystem) : ProgressStep → Option ProgressSystem
  | .turnStarted => if s.ended then none else some (s.withRows (s.rows.markTurnStarted s.turnId))
  | .change change => some (s.withRows (s.rows.apply s.turnId change))
  | .turnCompleted turnId =>
    let completed := s.rows.markTurnCompleted turnId
    some { s.withRows completed.1 with ended := s.ended || (completed.2 && s.rows.currentTurn = some s.turnId) }
  | .deliver driver =>
    if (s.drivers.lookup driver).isSome then none
    else some (s.takeUp driver (s.rows.claimTelegramCommandProgressDelivery s.turnId))
  | .checkCurrent driver =>
    match s.drivers.lookup driver with
    | some (.claimed snapshot) =>
      if s.rows.telegramCommandProgressDeliveryIsCurrent s.turnId snapshot.revision then
        some (s.moveTo driver (.sending snapshot))
      else some (s.moveTo driver .ended)
    | _ => none
  | .sent driver messageId =>
    match s.drivers.lookup driver with
    | some (.sending snapshot) => some ((s.noteDelivered snapshot).takeUp driver
        (s.rows.completeTelegramCommandProgressDelivery s.turnId snapshot.revision messageId))
    | _ => none
  | .sendFails driver retryAfter =>
    match s.drivers.lookup driver with
    | some (.sending snapshot) =>
      let failed := s.rows.failTelegramCommandProgressDelivery s.turnId snapshot.revision
      let shouldRetry := failed.2 || (!snapshot.completed && retryAfter)
      some ((s.withRows failed.1).moveTo driver (if shouldRetry then .waiting failed.2 else .ended))
    | _ => none
  | .wake driver =>
    match s.drivers.lookup driver with
    | some (.waiting deliveryRetained) => some (s.takeUp driver
        (if deliveryRetained then s.rows.retryTelegramCommandProgressDelivery s.turnId
        else s.rows.claimTelegramCommandProgressDelivery s.turnId))
    | _ => none

/-- The driver has claimed the snapshot and not yet reported on it. -/
def Holds (driver : Nat) (snapshot : TelegramCommandProgressSnapshot) : Prop :=
  (s.drivers.lookup driver).bind ProgressDriver.held = some snapshot

def InFlight (snapshot : TelegramCommandProgressSnapshot) : Prop :=
  s.entry.inFlightRevision = some snapshot.revision ∧ ∃ driver, s.Holds driver snapshot

end ProgressSystem

/-- What a snapshot shows, with its revision: all but the message it is written to. -/
def TelegramCommandProgressSnapshot.content (snapshot : TelegramCommandProgressSnapshot) :
    TelegramCommandProgressSnapshot :=
  { snapshot with messageId := none }

/-- An entry whose content has been claimed for a delivery. -/
def TelegramCommandProgressState.taken (progress : TelegramCommandProgressState) : TelegramCommandProgressState :=
  { progress with sending := true, dirty := false, inFlightRevision := some progress.revision }

open TelegramCommandProgressState

def TelegramCommandProgressSnapshot.rendered (snapshot : TelegramCommandProgressSnapshot) :
    TelegramCommandProgressSnapshot :=
  { snapshot.content with revision := 0 }

namespace ThreadProgress

variable {r : ThreadProgress} {turnId : String}

@[simp] theorem entry_store (progress : TelegramCommandProgressState) :
    (r.store progress).entry turnId = progress := rfl

/-- What holds of the entry by itself: it is of the turn, a delivery is in flight only while a driver is
sending, and only a finished entry that a driver is sending outlives its turn. -/
structure EntrySound (r : ThreadProgress) (turnId : String) : Prop where
  ofTurn : r.OfTurn turnId
  flying : (r.entry turnId).inFlightRevision.isSome = true → (r.entry turnId).sending = true
  retained : (r.entry turnId).cleanupAfterDelivery = true →
    (r.entry turnId).sending = true ∧ (r.entry turnId).completed = true
  running : r.currentTurn = some turnId ∨
    ((r.entry turnId).sending = true → (r.entry turnId).cleanupAfterDelivery = true)

section

variable (h : r.EntrySound turnId)
include h

theorem claim_cases :
    r.claimTelegramCommandProgressDelivery turnId = (r, none) ∨
      ((r.entry turnId).sending = false ∧ (r.entry turnId).dirty = true ∧ r.currentTurn = some turnId ∧
        r.claimTelegramCommandProgressDelivery turnId =
          (r.store (r.entry turnId).taken, some (r.entry turnId).snapshot)) := by
  unfold claimTelegramCommandProgressDelivery
  cases hp : r.progress with
  | none => exact .inl rfl
  | some progress =>
    obtain rfl : r.entry turnId = progress := entry_of_some hp
    dsimp only
    split
    next => exact .inl rfl
    next hopen =>
      simp only [Bool.or_eq_true, Bool.and_eq_true, not_or, decide_eq_true_eq, Bool.not_eq_true', not_and,
        Bool.not_eq_false, Bool.not_eq_true, ne_eq, not_not] at hopen
      obtain ⟨⟨⟨_, hidle⟩, hdirty⟩, hcurrent⟩ := hopen
      have hnone : (r.entry turnId).inFlightRevision = none := by
        cases hr : (r.entry turnId).inFlightRevision with
        | none => rfl
        | some revision => simp [h.flying (by rw [hr]; rfl)] at hidle
      have hcleanup : (r.entry turnId).cleanupAfterDelivery ≠ true := by
        intro hcleanup
        simp [(h.retained hcleanup).1] at hidle
      refine .inr ⟨hidle, hdirty, ?_, ?_⟩
      · by_contra hother
        exact hcleanup (hcurrent hother)
      · simp [claimNextSnapshot, hnone, hdirty, taken, snapshot]

omit h in
theorem retry_cases (r : ThreadProgress) (turnId : String) :
    r.retryTelegramCommandProgressDelivery turnId = (r, none) ∨
      ((r.entry turnId).sending = true ∧ (r.entry turnId).inFlightRevision = none ∧
        r.retryTelegramCommandProgressDelivery turnId =
          (r.store (r.entry turnId).taken, some (r.entry turnId).snapshot)) := by
  unfold retryTelegramCommandProgressDelivery
  cases hp : r.progress with
  | none => exact .inl rfl
  | some progress =>
    obtain rfl : r.entry turnId = progress := entry_of_some hp
    dsimp only
    split
    next => exact .inl rfl
    next hopen =>
      simp only [Bool.or_eq_true, not_or, decide_eq_true_eq, Bool.not_eq_true', Bool.not_eq_false,
        not_isSome_iff_eq_none] at hopen
      obtain ⟨⟨⟨_, hsending⟩, hnone⟩, hdirty⟩ := hopen
      exact .inr ⟨hsending, hnone, by simp [claimNextSnapshot, hnone, hdirty, hsending, taken, snapshot]⟩

theorem reported_iff {progress : TelegramCommandProgressState} (revision : Nat) (hp : r.progress = some progress) :
    (progress.turnId ≠ turnId || !progress.sending || progress.inFlightRevision ≠ some revision) = true ↔
      (r.entry turnId).inFlightRevision ≠ some revision := by
  obtain rfl : r.entry turnId = progress := entry_of_some hp
  have hturn := entry_turnId h.ofTurn
  constructor
  · intro hclosed hrevision
    have hsending := h.flying (by rw [hrevision]; rfl)
    simp [hturn, hsending, hrevision] at hclosed
  · intro hother
    simp [hother]

theorem complete_cases (revision : Nat) (messageId : String) :
    ((r.entry turnId).inFlightRevision ≠ some revision ∧
        r.completeTelegramCommandProgressDelivery turnId revision messageId = (r, none)) ∨
      ((r.entry turnId).inFlightRevision = some revision ∧
        (((r.entry turnId).dirty = true ∧ r.completeTelegramCommandProgressDelivery turnId revision messageId =
            (r.store { (r.entry turnId).taken with messageId := some messageId },
              some { (r.entry turnId) with messageId := some messageId }.snapshot)) ∨
          ((r.entry turnId).dirty = false ∧ r.completeTelegramCommandProgressDelivery turnId revision messageId =
            ({ r with progress := none }, none)) ∨
          ((r.entry turnId).dirty = false ∧ (r.entry turnId).cleanupAfterDelivery = false ∧
            r.completeTelegramCommandProgressDelivery turnId revision messageId =
              (r.store { (r.entry turnId) with
                messageId := some messageId, inFlightRevision := none, sending := false }, none)))) := by
  unfold completeTelegramCommandProgressDelivery
  cases hp : r.progress with
  | none =>
    left
    simp [entry, hp, TelegramCommandProgressState.new]
  | some progress =>
    have hreported := reported_iff h revision hp
    obtain rfl : r.entry turnId = progress := entry_of_some hp
    dsimp only
    split
    next hclosed => exact .inl ⟨hreported.mp hclosed, rfl⟩
    next hopen =>
      have hrevision := not_not.mp (mt hreported.mpr hopen)
      have hsending := h.flying (by rw [hrevision]; rfl)
      refine .inr ⟨hrevision, ?_⟩
      split
      next hdirty => exact .inl ⟨hdirty, by simp [claimNextSnapshot, hdirty, hsending, taken, snapshot]⟩
      next hclean =>
        refine .inr ?_
        split
        next => exact .inl ⟨by simpa using hclean, rfl⟩
        next hkept =>
          refine .inr ⟨by simpa using hclean, ?_, rfl⟩
          by_contra hcleanup
          have hcleanup : (r.entry turnId).cleanupAfterDelivery = true := by simpa using hcleanup
          simp [hcleanup, (h.retained hcleanup).2] at hkept

theorem fail_cases (revision : Nat) :
    ((r.entry turnId).inFlightRevision ≠ some revision ∧
        r.failTelegramCommandProgressDelivery turnId revision = (r, false)) ∨
      ((r.entry turnId).inFlightRevision = some revision ∧
        (((r.entry turnId).completed = true ∧ r.failTelegramCommandProgressDelivery turnId revision =
            (r.store { (r.entry turnId) with inFlightRevision := none, dirty := true }, true)) ∨
          ((r.entry turnId).completed = false ∧ r.failTelegramCommandProgressDelivery turnId revision =
            (r.store { (r.entry turnId) with inFlightRevision := none, dirty := true, sending := false },
              false)))) := by
  unfold failTelegramCommandProgressDelivery
  cases hp : r.progress with
  | none =>
    left
    simp [entry, hp, TelegramCommandProgressState.new]
  | some progress =>
    have hreported := reported_iff h revision hp
    obtain rfl : r.entry turnId = progress := entry_of_some hp
    dsimp only
    split
    next hclosed => exact .inl ⟨hreported.mp hclosed, rfl⟩
    next hopen =>
      refine .inr ⟨not_not.mp (mt hreported.mpr hopen), ?_⟩
      split
      next hcompleted => exact .inl ⟨hcompleted, rfl⟩
      next hrunning => exact .inr ⟨by simpa using hrunning, rfl⟩

omit h in
theorem markTurnStarted_progress (h : r.OfTurn turnId) : (r.markTurnStarted turnId).progress = r.progress := by
  refine if_neg fun hother => ?_
  obtain ⟨progress, hp, hne⟩ := (any_eq_true _ _).mp hother
  exact of_decide_eq_true hne (h progress hp)

omit h in
theorem markTurnCompleted_cases (r : ThreadProgress) (turnId : String) (completed : Option String) :
    r.markTurnCompleted completed = (r, false) ∨
      ((r.entry turnId).completed = true ∧ (r.entry turnId).sending = true ∧
        r.markTurnCompleted completed =
          (⟨none, some { r.entry turnId with cleanupAfterDelivery := true }⟩, true)) ∨
      (((r.entry turnId).completed && (r.entry turnId).sending) = false ∧
        r.markTurnCompleted completed = (⟨none, none⟩, true)) := by
  unfold markTurnCompleted
  split
  next => exact .inl rfl
  next =>
    right
    cases hp : r.progress with
    | none =>
      right
      rw [entry, hp]
      exact ⟨rfl, rfl⟩
    | some progress =>
      obtain rfl : r.entry turnId = progress := entry_of_some hp
      by_cases hkept : ((r.entry turnId).completed && (r.entry turnId).sending) = true
      · left
        obtain ⟨hcompleted, hsending⟩ := Bool.and_eq_true_iff.mp hkept
        exact ⟨hcompleted, hsending, by rw [bind_some, if_pos hkept]⟩
      · right
        exact ⟨Bool.not_eq_true _ ▸ hkept, by rw [bind_some, if_neg hkept]⟩

theorem EntrySound.edited {r' : ThreadProgress} (he : Edited r r' turnId) : r'.EntrySound turnId := by
  obtain rfl | ⟨progress, rfl, ht⟩ := he
  · exact h
  refine ⟨?_, ?_, ?_, ?_⟩
  · intro stored hstored
    cases Option.some.inj hstored
    exact ht.turnId.trans (entry_turnId h.ofTurn)
  · intro hflight
    rw [entry_store, ht.inFlightRevision] at hflight
    rw [entry_store, ht.sending]
    exact h.flying hflight
  · intro hcleanup
    rw [entry_store, ht.cleanupAfterDelivery] at hcleanup
    obtain ⟨hsending, hcompleted⟩ := h.retained hcleanup
    rw [entry_store, ht.sending]
    exact ⟨hsending, ht.completed hcompleted⟩
  · rw [entry_store, ht.sending, ht.cleanupAfterDelivery]
    exact h.running

end

end ThreadProgress

namespace ProgressSystem

variable {s t : ProgressSystem}

open ThreadProgress

theorem holds_insert {driver other : Nat} {stage : ProgressDriver} {snapshot : TelegramCommandProgressSnapshot}
    (rows : ThreadProgress) (ended : Bool) (claimed delivered : Option TelegramCommandProgressSnapshot) :
    Holds ⟨s.turnId, rows, s.drivers.insert driver stage, ended, claimed, delivered⟩ other snapshot ↔
      if other = driver then stage.held = some snapshot else s.Holds other snapshot := by
  unfold Holds
  rw [Table.lookup_insert_eq]
  by_cases ho : other = driver
  · simp [ho]
  · simp [ho]

theorem holds_of_lookup {driver : Nat} {stage : ProgressDriver} {snapshot : TelegramCommandProgressSnapshot}
    (hd : s.drivers.lookup driver = some stage) : s.Holds driver snapshot ↔ stage.held = some snapshot := by
  rw [Holds, hd]
  exact Iff.rfl

section

variable (snapshot : TelegramCommandProgressSnapshot)
include snapshot

@[simp] theorem noteDelivered_rows : (s.noteDelivered snapshot).rows = s.rows := by
  unfold noteDelivered
  split <;> rfl

@[simp] theorem noteDelivered_turnId : (s.noteDelivered snapshot).turnId = s.turnId := by
  unfold noteDelivered
  split <;> rfl

@[simp] theorem noteDelivered_drivers : (s.noteDelivered snapshot).drivers = s.drivers := by
  unfold noteDelivered
  split <;> rfl

end

/-- What holds of the entry, its drivers and their snapshots in every state that a run reaches. A driver may
still hold a snapshot of an entry that ended with its turn. -/
structure Driven (s : ProgressSystem) : Prop where
  sound : s.rows.EntrySound s.turnId
  notCurrent : s.ended = true → s.rows.currentTurn ≠ some s.turnId
  early : s.ended = false → s.entry.cleanupAfterDelivery = false
  unsent : s.rows.progress = none → s.delivered = none
  held : ∀ driver snapshot, s.Holds driver snapshot →
    (s.entry.inFlightRevision = some snapshot.revision ∧ s.claimed = some snapshot) ∨
      (s.ended = true ∧ s.entry.cleanupAfterDelivery = false)
  alone : ∀ driver other snapshot snapshot', s.Holds driver snapshot → s.Holds other snapshot' → other = driver
  carried : ∀ revision, s.entry.inFlightRevision = some revision →
    ∃ driver snapshot, s.Holds driver snapshot ∧ snapshot.revision = revision

theorem start_driven (turnId : String) : (start turnId).Driven := by
  refine ⟨⟨?_, ?_, ?_, .inr ?_⟩, ?_, fun _ => rfl, fun _ => rfl, ?_, ?_, ?_⟩
  · intro progress h
    cases h
  · intro h
    cases h
  · intro h
    cases h
  · intro h
    cases h
  · intro h
    cases h
  · intro driver snapshot h
    cases h
  · intro driver other snapshot snapshot' h
    cases h
  · intro revision h
    cases h

theorem withRows_unsent (rows : ThreadProgress) (h : (s.withRows rows).rows.progress = none) :
    (s.withRows rows).delivered = none := by
  have hnone : rows.progress = none := h
  rw [withRows, hnone]
  rfl

namespace Driven

variable {driver : Nat} {snapshot : TelegramCommandProgressSnapshot}

section

variable (hs : s.Driven)
include hs

theorem flight (hlive : s.rows.currentTurn = some s.turnId ∨ s.entry.sending = true) (hd : s.Holds driver snapshot) :
    s.entry.inFlightRevision = some snapshot.revision ∧ s.claimed = some snapshot := by
  obtain hflight | ⟨hended, hcleanup⟩ := hs.held driver snapshot hd
  · exact hflight
  have hother := hs.notCurrent hended
  obtain hcurrent | hrunning := hs.sound.running
  · exact absurd hcurrent hother
  obtain hcurrent | hsending := hlive
  · exact absurd hcurrent hother
  · rw [entry] at hcleanup hsending
    rw [hrunning hsending] at hcleanup
    cases hcleanup

theorem sending_of_flight {revision : Nat} (h : s.entry.inFlightRevision = some revision) : s.entry.sending = true := by
  apply hs.sound.flying
  rw [entry] at h
  rw [h]
  rfl

theorem touch {rows : ThreadProgress} (he : Edited s.rows rows s.turnId) : (s.withRows rows).Driven := by
  have hsound := hs.sound.edited he
  obtain rfl | ⟨progress, rfl, ht⟩ := he
  · exact ⟨hsound, hs.notCurrent, hs.early, withRows_unsent _, hs.held, hs.alone, hs.carried⟩
  have hentry : (s.withRows (s.rows.store progress)).entry = progress := rfl
  refine ⟨hsound, hs.notCurrent, ?_, withRows_unsent _, ?_, hs.alone, ?_⟩
  · intro hended
    rw [hentry, ht.cleanupAfterDelivery]
    exact hs.early hended
  · intro driver snapshot hd
    rw [hentry, ht.inFlightRevision, ht.cleanupAfterDelivery]
    exact hs.held driver snapshot hd
  · intro revision hrevision
    rw [hentry, ht.inFlightRevision] at hrevision
    exact hs.carried revision hrevision

theorem withRows_self : s.withRows s.rows = s := by
  unfold withRows
  cases hp : s.rows.progress with
  | none => rw [isNone_none, if_pos rfl, ← hs.unsent hp]
  | some progress => rfl

theorem claimed {progress : TelegramCommandProgressState} (hsound : (s.rows.store progress).EntrySound s.turnId)
    (hcleanup : progress.cleanupAfterDelivery = s.entry.cleanupAfterDelivery)
    (hflight : progress.inFlightRevision = some snapshot.revision)
    (hfree : ∀ other snapshot', s.Holds other snapshot' → other = driver) :
    (s.takeUp driver (s.rows.store progress, some snapshot)).Driven := by
  have hholds : ∀ other snapshot',
      (s.takeUp driver (s.rows.store progress, some snapshot)).Holds other snapshot' →
        other = driver ∧ snapshot' = snapshot := by
    intro other snapshot' hd
    have hd := (holds_insert (s := s) _ _ _ _).mp hd
    split at hd
    next ho => exact ⟨ho, (Option.some.inj hd).symm⟩
    next ho => exact absurd (hfree other snapshot' hd) ho
  refine ⟨hsound, hs.notCurrent, ?_, ?_, ?_, ?_, ?_⟩
  · intro hended
    exact hcleanup.trans (hs.early hended)
  · intro hnone
    cases hnone
  · intro other snapshot' hd
    obtain ⟨_, rfl⟩ := hholds other snapshot' hd
    exact .inl ⟨hflight, rfl⟩
  · intro other other' snapshot' snapshot'' hd hd'
    exact (hholds other' snapshot'' hd').1.trans (hholds other snapshot' hd).1.symm
  · intro revision hrevision
    refine ⟨driver, snapshot, (holds_insert (s := s) _ _ _ _).mpr (if_pos rfl ▸ rfl), ?_⟩
    exact Option.some.inj (hflight.symm.trans hrevision)

end

variable {stage : ProgressDriver}

section

variable (hs : s.Driven)
include hs

theorem released {rows : ThreadProgress} (hsound : rows.EntrySound s.turnId)
    (hcurrent : rows.currentTurn = s.rows.currentTurn)
    (hcleanup : s.ended = false → (rows.entry s.turnId).cleanupAfterDelivery = false)
    (hflight : (rows.entry s.turnId).inFlightRevision = none) (hstage : stage.held = none)
    (hfree : ∀ other snapshot', s.Holds other snapshot' → other = driver) :
    ((s.withRows rows).moveTo driver stage).Driven := by
  have hholds : ∀ other snapshot', ¬ ((s.withRows rows).moveTo driver stage).Holds other snapshot' := by
    intro other snapshot' hd
    have hd := (holds_insert (s := s) _ _ _ _).mp hd
    split at hd
    next =>
      rw [hstage] at hd
      cases hd
    next ho => exact ho (hfree other snapshot' hd)
  refine ⟨hsound, ?_, hcleanup, withRows_unsent _, ?_, ?_, ?_⟩
  · intro hended
    exact hcurrent ▸ hs.notCurrent hended
  · intro other snapshot' hd
    exact absurd hd (hholds other snapshot')
  · intro other other' snapshot' snapshot'' hd
    exact absurd hd (hholds other snapshot')
  · intro revision hrevision
    exact absurd (hflight.symm.trans hrevision) (some_ne_none revision).symm

theorem leave (hstage : stage.held = none)
    (hflight : ∀ snapshot, s.Holds driver snapshot → s.entry.inFlightRevision = none) :
    ((s.withRows s.rows).moveTo driver stage).Driven := by
  have hholds : ∀ other snapshot', ((s.withRows s.rows).moveTo driver stage).Holds other snapshot' →
      s.Holds other snapshot' := by
    intro other snapshot' hd
    have hd := (holds_insert (s := s) _ _ _ _).mp hd
    split at hd
    next =>
      rw [hstage] at hd
      cases hd
    next => exact hd
  refine ⟨hs.sound, hs.notCurrent, hs.early, withRows_unsent _, ?_, ?_, ?_⟩
  · intro other snapshot' hd
    exact hs.held other snapshot' (hholds other snapshot' hd)
  · intro other other' snapshot' snapshot'' hd hd'
    exact hs.alone _ _ _ _ (hholds other snapshot' hd) (hholds other' snapshot'' hd')
  · intro revision hrevision
    obtain ⟨other, snapshot', hd, hsame⟩ := hs.carried revision hrevision
    refine ⟨other, snapshot', (holds_insert (s := s) _ _ _ _).mpr ?_, hsame⟩
    split
    next ho =>
      subst ho
      exact absurd ((hflight snapshot' hd).symm.trans hrevision) (some_ne_none revision).symm
    next => exact hd

theorem advance {stage stage' : ProgressDriver} (hd : s.drivers.lookup driver = some stage)
    (hstage : stage'.held = stage.held) : (s.moveTo driver stage').Driven := by
  have hholds : ∀ other snapshot', (s.moveTo driver stage').Holds other snapshot' ↔ s.Holds other snapshot' := by
    intro other snapshot'
    refine (holds_insert (s := s) _ _ _ _).trans ?_
    split
    next ho =>
      subst ho
      rw [Holds, hd, hstage]
      rfl
    next => exact Iff.rfl
  refine ⟨hs.sound, hs.notCurrent, hs.early, hs.unsent, ?_, ?_, ?_⟩
  · intro other snapshot' hd
    exact hs.held other snapshot' ((hholds other snapshot').mp hd)
  · intro other other' snapshot' snapshot'' hd hd'
    exact hs.alone _ _ _ _ ((hholds _ _).mp hd) ((hholds _ _).mp hd')
  · intro revision hrevision
    obtain ⟨other, snapshot', hd, hsame⟩ := hs.carried revision hrevision
    exact ⟨other, snapshot', (hholds other snapshot').mpr hd, hsame⟩

theorem turnStarted (hopen : s.ended = false) : (s.withRows (s.rows.markTurnStarted s.turnId)).Driven := by
  have hprogress := markTurnStarted_progress hs.sound.ofTurn
  have hentry : (s.rows.markTurnStarted s.turnId).entry s.turnId = s.rows.entry s.turnId := by
    rw [ThreadProgress.entry, hprogress]
    rfl
  have hentry' : (s.withRows (s.rows.markTurnStarted s.turnId)).entry = s.entry := hentry
  refine ⟨⟨?_, ?_, ?_, .inl rfl⟩, ?_, ?_, withRows_unsent _, ?_, hs.alone, ?_⟩
  · intro progress hp
    exact hs.sound.ofTurn progress (hprogress.symm.trans hp)
  · exact fun h => hentry.symm ▸ hs.sound.flying (hentry ▸ h)
  · exact fun h => hentry.symm ▸ hs.sound.retained (hentry ▸ h)
  · intro hended
    exact absurd (hopen.symm.trans hended) Bool.false_ne_true
  · exact fun hended => hentry'.symm ▸ hs.early hended
  · rw [hentry']
    exact hs.held
  · rw [hentry']
    exact hs.carried

theorem turnCompleted (turnId : Option String) :
    ({ s.withRows (s.rows.markTurnCompleted turnId).1 with
      ended := s.ended || ((s.rows.markTurnCompleted turnId).2 && s.rows.currentTurn = some s.turnId) } :
      ProgressSystem).Driven := by
  obtain hsame | ⟨hcompleted, hsending, hkept⟩ | ⟨hgone, hnone⟩ := markTurnCompleted_cases s.rows s.turnId turnId
  · rw [hsame]
    simp only [Bool.false_and, Bool.or_false]
    exact hs.touch (.inl rfl)
  · rw [hkept]
    refine ⟨⟨?_, fun _ => hsending, fun _ => ⟨hsending, hcompleted⟩, .inr fun _ => rfl⟩, ?_, ?_, ?_, ?_, hs.alone,
      hs.carried⟩
    · intro progress hp
      cases Option.some.inj hp
      exact entry_turnId hs.sound.ofTurn
    · intro _ hcurrent
      cases hcurrent
    · intro hended
      obtain ⟨hopen, hother⟩ := Bool.or_eq_false_iff.mp hended
      obtain hcurrent | hrunning := hs.sound.running
      · simp [hcurrent] at hother
      · exact absurd ((hs.early hopen).symm.trans (hrunning hsending)) Bool.false_ne_true
    · intro hnone
      cases hnone
    · intro driver snapshot hd
      exact .inl (hs.flight (.inr hsending) hd)
  · rw [hnone]
    refine ⟨⟨?_, ?_, ?_, .inr ?_⟩, ?_, fun _ => rfl, fun _ => rfl, ?_, hs.alone, ?_⟩
    · intro progress hp
      cases hp
    · intro h
      cases h
    · intro h
      cases h
    · intro h
      cases h
    · intro _ hcurrent
      cases hcurrent
    · intro driver snapshot hd
      refine .inr ⟨?_, rfl⟩
      obtain ⟨hflight, _⟩ | ⟨hended, _⟩ := hs.held driver snapshot hd
      · have hsending : (s.rows.entry s.turnId).sending = true := hs.sending_of_flight hflight
        obtain hcurrent | hrunning := hs.sound.running
        · simp [hcurrent]
        · rw [(hs.sound.retained (hrunning hsending)).2, hsending] at hgone
          cases hgone
      · simp [hended]
    · intro revision hrevision
      cases hrevision

section

variable (hlive : s.rows.currentTurn = some s.turnId ∨ s.entry.sending = true)
include hlive

theorem unheld (hnone : s.entry.inFlightRevision = none) (driver : Nat) (snapshot : TelegramCommandProgressSnapshot) :
    ¬ s.Holds driver snapshot := by
  intro hd
  exact absurd (hnone.symm.trans (hs.flight hlive hd).1) (some_ne_none _).symm

theorem taken_sound (messageId : Option String) :
    (s.rows.store { s.entry.taken with messageId := messageId }).EntrySound s.turnId := by
  refine ⟨?_, fun _ => rfl, ?_, ?_⟩
  · intro progress hp
    cases Option.some.inj hp
    exact entry_turnId hs.sound.ofTurn
  · intro hcleanup
    exact ⟨rfl, (hs.sound.retained hcleanup).2⟩
  · obtain hcurrent | hsending := hlive
    · exact .inl hcurrent
    · obtain hcurrent | hrunning := hs.sound.running
      · exact .inl hcurrent
      · exact .inr fun _ => hrunning hsending

end

theorem claim (hd : ∀ snapshot, ¬ s.Holds driver snapshot) :
    (s.takeUp driver (s.rows.claimTelegramCommandProgressDelivery s.turnId)).Driven := by
  obtain hnone | ⟨hidle, _, hcurrent, hclaim⟩ := claim_cases hs.sound
  · rw [hnone]
    exact hs.leave rfl fun snapshot hh => absurd hh (hd snapshot)
  · rw [hclaim]
    have hfree : s.entry.inFlightRevision = none := by
      rw [eq_none_iff_forall_ne_some]
      intro revision hrevision
      exact absurd (hidle.symm.trans (hs.sending_of_flight hrevision)) Bool.false_ne_true
    exact hs.claimed (hs.taken_sound (.inl hcurrent) _) rfl rfl fun other snapshot' hh =>
      absurd hh (hs.unheld (.inl hcurrent) hfree other snapshot')

theorem retry (hd : ∀ snapshot, ¬ s.Holds driver snapshot) :
    (s.takeUp driver (s.rows.retryTelegramCommandProgressDelivery s.turnId)).Driven := by
  obtain hnone | ⟨hsending, hfree, hretry⟩ := retry_cases s.rows s.turnId
  · rw [hnone]
    exact hs.leave rfl fun snapshot hh => absurd hh (hd snapshot)
  · rw [hretry]
    exact hs.claimed (hs.taken_sound (.inr hsending) _) rfl rfl fun other snapshot' hh =>
      absurd hh (hs.unheld (.inr hsending) hfree other snapshot')

theorem noteDelivered (snapshot : TelegramCommandProgressSnapshot) : (s.noteDelivered snapshot).Driven := by
  unfold ProgressSystem.noteDelivered
  split
  next hflight =>
    refine ⟨hs.sound, hs.notCurrent, hs.early, ?_, hs.held, hs.alone, hs.carried⟩
    intro hnone
    rw [entry, ThreadProgress.entry, show s.rows.progress = none from hnone] at hflight
    cases hflight
  next => exact hs

section

variable (hd : s.drivers.lookup driver = some (.sending snapshot))
include hd

theorem unflown (hother : s.entry.inFlightRevision ≠ some snapshot.revision) : s.entry.inFlightRevision = none := by
  rw [eq_none_iff_forall_ne_some]
  intro revision hrevision
  have hh : s.Holds driver snapshot := (holds_of_lookup hd).mpr rfl
  exact hother (hs.flight (.inr (hs.sending_of_flight hrevision)) hh).1

theorem sent (messageId : String) :
    (s.takeUp driver (s.rows.completeTelegramCommandProgressDelivery s.turnId snapshot.revision messageId)).Driven := by
  have hfree : ∀ other snapshot', s.Holds other snapshot' → other = driver := fun other snapshot' hh =>
    hs.alone _ _ _ _ ((holds_of_lookup hd).mpr rfl) hh
  obtain ⟨hother, hsame⟩ | ⟨hflight, hreported⟩ := complete_cases hs.sound snapshot.revision messageId
  · rw [hsame]
    exact hs.leave rfl fun _ _ => hs.unflown hd hother
  have hsending := hs.sending_of_flight hflight
  obtain ⟨_, hnext⟩ | ⟨_, hgone⟩ | ⟨_, hkept, hidle⟩ := hreported
  · rw [hnext]
    exact hs.claimed (hs.taken_sound (.inr hsending) _) rfl rfl hfree
  · rw [hgone]
    refine hs.released ⟨?_, ?_, ?_, .inr ?_⟩ rfl (fun _ => rfl) rfl rfl hfree
    · intro progress hp
      cases hp
    · intro h
      cases h
    · intro h
      cases h
    · intro h
      cases h
  · rw [hidle]
    refine hs.released ⟨?_, ?_, ?_, .inr ?_⟩ rfl (fun _ => hkept) rfl rfl hfree
    · intro progress hp
      cases Option.some.inj hp
      exact entry_turnId hs.sound.ofTurn
    · intro h
      cases h
    · intro hcleanup
      exact absurd (hkept.symm.trans hcleanup) Bool.false_ne_true
    · intro h
      cases h

theorem sendFails (hstage : stage.held = none) :
    ((s.withRows (s.rows.failTelegramCommandProgressDelivery s.turnId snapshot.revision).1).moveTo driver
      stage).Driven := by
  have hfree : ∀ other snapshot', s.Holds other snapshot' → other = driver := fun other snapshot' hh =>
    hs.alone _ _ _ _ ((holds_of_lookup hd).mpr rfl) hh
  obtain ⟨hother, hsame⟩ | ⟨hflight, hreported⟩ := fail_cases hs.sound snapshot.revision
  · rw [hsame]
    exact hs.leave hstage fun _ _ => hs.unflown hd hother
  obtain ⟨hcompleted, hretained⟩ | ⟨hrunning, hdropped⟩ := hreported
  · rw [hretained]
    refine hs.released ⟨?_, ?_, ?_, ?_⟩ rfl hs.early rfl hstage hfree
    · intro progress hp
      cases Option.some.inj hp
      exact entry_turnId hs.sound.ofTurn
    · intro h
      cases h
    · intro hcleanup
      exact ⟨hs.sending_of_flight hflight, hcompleted⟩
    · exact hs.sound.running
  · rw [hdropped]
    refine hs.released ⟨?_, ?_, ?_, .inr ?_⟩ rfl hs.early rfl hstage hfree
    · intro progress hp
      cases Option.some.inj hp
      exact entry_turnId hs.sound.ofTurn
    · intro h
      cases h
    · intro hcleanup
      exact absurd (hrunning.symm.trans (hs.sound.retained hcleanup).2) Bool.false_ne_true
    · intro h
      cases h

end

theorem checkCurrent (hd : s.drivers.lookup driver = some (.claimed snapshot))
    (hstale : s.rows.telegramCommandProgressDeliveryIsCurrent s.turnId snapshot.revision = false) :
    s.entry.inFlightRevision = none := by
  rw [eq_none_iff_forall_ne_some]
  intro revision hrevision
  have hsending := hs.sending_of_flight hrevision
  have hflight := (hs.flight (.inr hsending) ((holds_of_lookup hd).mpr rfl)).1
  unfold telegramCommandProgressDeliveryIsCurrent at hstale
  cases hp : s.rows.progress with
  | none =>
    rw [entry, ThreadProgress.entry, hp] at hflight
    cases hflight
  | some progress =>
    obtain rfl : s.rows.entry s.turnId = progress := entry_of_some hp
    have hlive : s.rows.currentTurn = some s.turnId ∨
        (s.rows.entry s.turnId).cleanupAfterDelivery = true := hs.sound.running.imp_right fun h => h hsending
    rw [entry] at hflight hsending
    rw [hp, any_some] at hstale
    simp [entry_turnId hs.sound.ofTurn, hsending, hflight] at hstale
    obtain hcurrent | hcleanup := hlive
    · exact hstale.1 hcurrent
    · exact absurd (hstale.2.symm.trans hcleanup) Bool.false_ne_true

end

end Driven

/-- A change that does not take a plan back before the message is sent, made while revisions are left. -/
def Regular (s : ProgressSystem) : ProgressStep → Prop
  | .change change => ¬ s.rows.EmptiesPlan s.turnId change ∧ s.entry.revision < u64Max
  | _ => True

instance (a : ProgressStep) : Decidable (s.Regular a) :=
  match a with
  | .change _ => inferInstanceAs (Decidable (_ ∧ _))
  | .turnStarted | .turnCompleted _ | .deliver _ | .checkCurrent _ | .sent _ _ | .sendFails _ _ | .wake _ =>
    .isTrue trivial

theorem step_driven {a : ProgressStep} (hs : s.Driven) (hg : s.Regular a) (h : step s a = some t) : t.Driven := by
  cases a with
  | turnStarted =>
    obtain ⟨hopen, h⟩ := ite_none_left_eq_some.mp h
    cases Option.some.inj h
    exact hs.turnStarted (Bool.not_eq_true _ ▸ hopen)
  | change change =>
    cases Option.some.inj h
    exact hs.touch (apply_edited hs.sound.ofTurn change hg.1)
  | turnCompleted turnId =>
    cases Option.some.inj h
    exact hs.turnCompleted turnId
  | deliver driver =>
    obtain ⟨hnew, h⟩ := ite_none_left_eq_some.mp h
    cases Option.some.inj h
    refine hs.claim fun snapshot hd => hnew ?_
    obtain ⟨stage, hstage, _⟩ := bind_eq_some_iff.mp hd
    rw [hstage]
    rfl
  | checkCurrent driver =>
    simp only [step] at h
    split at h
    next snapshot hd =>
      split at h
      next =>
        cases Option.some.inj h
        exact hs.advance hd rfl
      next hstale =>
        cases Option.some.inj h
        have hleft : ((s.withRows s.rows).moveTo driver .ended).Driven :=
          hs.leave rfl fun _ _ => hs.checkCurrent hd (Bool.not_eq_true _ ▸ hstale)
        rw [hs.withRows_self] at hleft
        exact hleft
    next => cases h
  | sent driver messageId =>
    simp only [step] at h
    split at h
    next snapshot hd =>
      cases Option.some.inj h
      have hsent := (hs.noteDelivered snapshot).sent (by rw [noteDelivered_drivers]; exact hd) messageId
      rw [noteDelivered_rows, noteDelivered_turnId] at hsent
      exact hsent
    next => cases h
  | sendFails driver retryAfter =>
    simp only [step] at h
    split at h
    next snapshot hd =>
      cases Option.some.inj h
      refine hs.sendFails hd ?_
      split <;> rfl
    next => cases h
  | wake driver =>
    simp only [step] at h
    split at h
    next deliveryRetained hd =>
      cases Option.some.inj h
      have hnone : ∀ snapshot, ¬ s.Holds driver snapshot := by
        intro snapshot hh
        cases (holds_of_lookup hd).mp hh
      cases deliveryRetained with
      | true => exact hs.retry hnone
      | false => exact hs.claim hnone
    next => cases h

end ProgressSystem

end MochiPort

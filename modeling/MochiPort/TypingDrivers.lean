import MochiPort.Runs
import MochiPort.TelegramTyping

namespace MochiPort

open Option TelegramTyping

/-- Where a typing driver stands in its loop: at the top, waiting for an update or for the send throttle,
sending what it took, or waiting to start again after a failed send. -/
inductive TypingStage where
  | deciding
  | waiting
  | throttled
  | sending (finished : Bool) (revision : Nat)
  | backoff
  | ended
  deriving DecidableEq

structure TypingDriver where
  threadId : String
  itemId : String
  generation : Int
  stage : TypingStage

structure TypingSystem where
  typing : TelegramTyping
  drivers : Table Nat TypingDriver
  spawned : Nat

inductive TypingStep where
  | start (threadId itemId : String)
  -- the current turn of the thread where the operation looks for one
  | finish (threadId : String) (currentTurn : Option String)
  | suspend (threadId : String) (terminal : Bool) (turnId currentTurn : Option String)
  | resume (threadId : String)
  | wake (threadId : String)
  -- a finish that takes too long gives up on one of its items
  | cancel (threadId itemId : String) (generation : Int)
  | clearThread (threadId : String)
  | bridgeGeneration
  | decide (driver : Nat)
  | notified (driver : Nat)
  | renewalDue (driver : Nat)
  | takeSnapshot (driver : Nat)
  | report (driver : Nat) (succeeded : Bool)
  | restart (driver : Nat)

namespace TypingStage

/-- A driver that has stopped, or that waits to start again, does not act for its item. -/
def live : TypingStage → Bool
  | .deciding | .waiting | .throttled | .sending _ _ => true
  | .backoff | .ended => false

end TypingStage

namespace TypingStage

/-- What a live driver relies on while its item is sending: unless the item is dirty, a finish is noticed by
the report on the snapshot that the driver is sending. -/
def Fits (typing : TelegramTypingState) : TypingStage → Prop
  | .deciding | .waiting => typing.finished = true → typing.dirty = true
  | .throttled => typing.dirty = true
  | .sending finished revision =>
    typing.finished = true → typing.dirty = true ∨ (finished = true ∧ revision = typing.revision)
  | .backoff | .ended => True

theorem fits_of_dirty {typing : TelegramTypingState} (h : typing.dirty = true) (stage : TypingStage) :
    stage.Fits typing := by
  cases stage with
  | deciding | waiting => exact fun _ => h
  | throttled => exact h
  | sending finished revision => exact fun _ => .inl h
  | backoff | ended => trivial

end TypingStage

namespace TypingDriver

def key (driver : TypingDriver) : String := telegramTypingKey driver.threadId driver.itemId

/-- The drivers of turns are the ones that start again after a failed send. -/
def ofTurn (driver : TypingDriver) : Bool := "turn:".toList.isPrefixOf driver.itemId.toList

end TypingDriver

namespace TypingSystem

variable (s : TypingSystem)

def start : TypingSystem := ⟨.new, ∅, 0⟩

def withTyping (typing : TelegramTyping) : TypingSystem := { s with typing := typing }

def moveTo (driver : Nat) (d : TypingDriver) (stage : TypingStage) : TypingSystem :=
  { s with drivers := s.drivers.insert driver { d with stage := stage } }

def spawnDriver (threadId itemId : String) (generation : Int) : TypingSystem :=
  { s with
    drivers := s.drivers.insert s.spawned ⟨threadId, itemId, generation, .deciding⟩
    spawned := s.spawned + 1 }

/-- The drivers for the items that are to be finished and have none. -/
def spawnFinishing (threadId : String) (s : TypingSystem) : List (String × Int × Bool) → TypingSystem
  | [] => s
  | (itemId, generation, shouldStart) :: rest =>
    spawnFinishing threadId (if shouldStart then s.spawnDriver threadId itemId generation else s) rest

def stopWith (threadId : String) (stopped : TelegramTyping × List (String × Int × Bool)) : TypingSystem :=
  spawnFinishing threadId (s.withTyping stopped.1) stopped.2

/-- The driver of a step, where it is in a stage that allows the step. -/
def driverAt (driver : Nat) (stage : TypingStage) : Option TypingDriver :=
  (s.drivers.lookup driver).filter fun d => d.stage = stage

def step (s : TypingSystem) : TypingStep → Option TypingSystem
  | .start threadId itemId =>
    let started := s.typing.startTelegramTyping threadId itemId
    some (match started.2 with
      | none => s.withTyping started.1
      | some generation => (s.withTyping started.1).spawnDriver threadId itemId generation)
  | .finish threadId currentTurn =>
    some (s.stopWith threadId (s.typing.finishTelegramTypingForThread threadId currentTurn))
  | .suspend threadId terminal turnId currentTurn => some (s.stopWith threadId
    (s.typing.suspendTelegramTypingForPersistentMessage threadId terminal turnId currentTurn))
  | .resume threadId => some (s.withTyping (s.typing.resumeTelegramTypingAfterPersistentMessage threadId))
  | .wake threadId => some (s.withTyping (s.typing.wakeTelegramTypingForThread threadId))
  | .cancel threadId itemId generation =>
    some (s.withTyping (s.typing.cancelTelegramTypingGeneration (telegramTypingKey threadId itemId) generation))
  | .clearThread threadId => some (s.withTyping (s.typing.clearTelegramTypingForThread threadId))
  | .bridgeGeneration => some (s.withTyping s.typing.clearAllTelegramTyping)
  | .decide driver => (s.driverAt driver .deciding).map fun d =>
    if s.typing.hasSendDelay d.key d.generation then s.moveTo driver d .throttled
    else if s.typing.waitsForUpdate d.key d.generation then s.moveTo driver d .waiting
    else s.moveTo driver d .ended
  | .notified driver => (s.driverAt driver .waiting).map fun d => s.moveTo driver d .deciding
  | .renewalDue driver => (s.driverAt driver .waiting).map fun d =>
    let due := s.typing.markTelegramTypingRenewalDue d.key d.generation
    (s.withTyping due.1).moveTo driver d (if due.2 then .deciding else .ended)
  | .takeSnapshot driver => (s.driverAt driver .throttled).map fun d =>
    let taken := s.typing.takeTelegramTypingSnapshot d.key d.generation
    (s.withTyping taken.1).moveTo driver d (match taken.2 with
      | none => .ended
      | some (finished, revision) => .sending finished revision)
  | .report driver succeeded =>
    match s.drivers.lookup driver with
    | none => none
    | some d =>
      match d.stage with
      | .sending finished revision =>
        -- nothing is sent for a finished item, which therefore cannot fail
        if finished && !succeeded then none
        else
          let completed := s.typing.completeTelegramTypingSend d.key d.generation revision succeeded
          some ((s.withTyping completed.1).moveTo driver d (match completed.2 with
            | .continue => .deciding
            | .stop => if !finished && d.ofTurn && !succeeded then .backoff else .ended))
      | _ => none
  | .restart driver => (s.driverAt driver .backoff).map fun d =>
    let started := s.typing.startTelegramTyping d.threadId d.itemId
    (s.withTyping started.1).moveTo driver d (if started.2 = some d.generation then .deciding else .ended)

/-- The driver acts for the item of the key with the generation. -/
def Live (driver : Nat) (key : String) (generation : Int) : Prop :=
  ∃ d, s.drivers.lookup driver = some d ∧ d.key = key ∧ d.generation = generation ∧ d.stage.live = true

variable {s} {t : TypingSystem}

/-- In every state that a run reaches a sending item has a live driver, and a live driver whose generation is
the item's finds the item sending. Generations are never used twice. -/
structure Driven (s : TypingSystem) : Prop where
  counted : ∀ n d, s.drivers.lookup n = some d → n < s.spawned ∧ d.generation ≤ s.typing.nextGeneration
  numbered : ∀ key typing, s.typing.byItem.lookup key = some typing → typing.generation ≤ s.typing.nextGeneration
  positive : 0 ≤ s.typing.nextGeneration
  alone : ∀ n m key generation, s.Live n key generation → s.Live m key generation → m = n
  driven : ∀ key typing, s.typing.byItem.lookup key = some typing → typing.sending = true →
    ∃ n, s.Live n key typing.generation
  serving : ∀ n d typing, s.drivers.lookup n = some d → d.stage.live = true →
    s.typing.byItem.lookup d.key = some typing → typing.generation = d.generation →
      typing.sending = true ∧ d.stage.Fits typing

theorem start_driven : start.Driven := by
  refine ⟨?_, ?_, le_refl 0, ?_, ?_, ?_⟩
  · intro n d h
    cases h
  · intro key typing h
    cases h
  · rintro n m key generation ⟨d, h, _⟩
    cases h
  · intro key typing h
    cases h
  · intro n d typing h
    cases h

variable {d : TypingDriver}

theorem live_iff {n : Nat} (hd : s.drivers.lookup n = some d) {key : String} {generation : Int} :
    s.Live n key generation ↔ d.key = key ∧ d.generation = generation ∧ d.stage.live = true := by
  constructor
  · rintro ⟨d', hd', hlive⟩
    cases Option.some.inj (hd.symm.trans hd')
    exact hlive
  · intro hlive
    exact ⟨d, hd, hlive⟩

theorem live_insert {typing : TelegramTyping} {spawned n m : Nat} {key : String} {generation : Int} :
    Live ⟨typing, s.drivers.insert n d, spawned⟩ m key generation ↔
      if m = n then d.key = key ∧ d.generation = generation ∧ d.stage.live = true
      else s.Live m key generation := by
  by_cases hm : m = n
  · subst hm
    rw [if_pos rfl]
    exact live_iff (s := ⟨typing, s.drivers.insert m d, spawned⟩) (AList.lookup_insert _)
  · rw [if_neg hm]
    unfold Live
    rw [AList.lookup_insert_ne hm]

/-- An item that an operation without drivers has changed: it goes on sending or not, and what its driver
relies on stays true. -/
structure Touched (old new : TelegramTypingState) : Prop where
  generation : new.generation = old.generation
  sending : new.sending = old.sending
  fits : ∀ stage : TypingStage, stage.Fits old → stage.Fits new

theorem Touched.refl (typing : TelegramTypingState) : Touched typing typing := ⟨rfl, rfl, fun _ => id⟩

theorem Touched.markDue (typing : TelegramTypingState) : Touched typing (TelegramTyping.markDue typing) := by
  unfold TelegramTyping.markDue
  split
  next => exact .refl typing
  next => exact ⟨rfl, rfl, fun stage _ => TypingStage.fits_of_dirty rfl stage⟩

namespace Driven

variable {typing : TelegramTyping}

theorem touch (hs : s.Driven) (hnext : typing.nextGeneration = s.typing.nextGeneration)
    (h : ∀ key new, typing.byItem.lookup key = some new →
      ∃ old, s.typing.byItem.lookup key = some old ∧ Touched old new) : (s.withTyping typing).Driven := by
  refine ⟨?_, ?_, ?_, hs.alone, ?_, ?_⟩
  · intro n d hd
    exact ⟨(hs.counted n d hd).1, hnext ▸ (hs.counted n d hd).2⟩
  · intro key new hnew
    obtain ⟨old, hold, ht⟩ := h key new hnew
    rw [ht.generation]
    exact hnext ▸ hs.numbered key old hold
  · exact hnext ▸ hs.positive
  · intro key new hnew hsending
    obtain ⟨old, hold, ht⟩ := h key new hnew
    rw [ht.generation]
    exact hs.driven key old hold (ht.sending ▸ hsending)
  · intro n d new hd hlive hnew hgeneration
    obtain ⟨old, hold, ht⟩ := h d.key new hnew
    obtain ⟨hsending, hfits⟩ := hs.serving n d old hd hlive hold (ht.generation ▸ hgeneration)
    exact ⟨ht.sending ▸ hsending, ht.fits d.stage hfits⟩

theorem store (hs : s.Driven) {key : String} {old new : TelegramTypingState}
    (hold : s.typing.byItem.lookup key = some old) (ht : Touched old new) :
    (s.withTyping (s.typing.store key new)).Driven := by
  refine hs.touch rfl fun key' new' hnew => ?_
  have hlookup := Table.lookup_insert_eq s.typing.byItem key key' new
  by_cases hkey : key' = key
  · subst hkey
    rw [if_pos rfl] at hlookup
    cases Option.some.inj (hlookup.symm.trans hnew)
    exact ⟨old, hold, ht⟩
  · rw [if_neg hkey] at hlookup
    exact ⟨new', hlookup.symm.trans hnew, .refl _⟩

theorem remove (hs : s.Driven) (hnext : typing.nextGeneration = s.typing.nextGeneration)
    (h : ∀ key new, typing.byItem.lookup key = some new → s.typing.byItem.lookup key = some new) :
    (s.withTyping typing).Driven :=
  hs.touch hnext fun key new hnew => ⟨new, h key new hnew, .refl new⟩

variable {d : TypingDriver}

theorem spawn (hs : s.Driven) {new : TelegramTypingState} {n spawned : Nat}
    (hitems : typing.byItem = s.typing.byItem.insert d.key new)
    (hnext : s.typing.nextGeneration ≤ typing.nextGeneration) (hd : d.generation ≤ typing.nextGeneration)
    (hgeneration : new.generation = d.generation) (hsending : new.sending = true) (hdirty : new.dirty = true)
    (hidle : ∀ m, ¬ s.Live m d.key d.generation) (hold : ∀ d', s.drivers.lookup n = some d' → d'.stage.live = false)
    (hn : n < spawned) (hspawned : s.spawned ≤ spawned) (hstage : d.stage.live = true) :
    Driven ⟨typing, s.drivers.insert n d, spawned⟩ := by
  have hitem : ∀ key, typing.byItem.lookup key = if key = d.key then some new else s.typing.byItem.lookup key := by
    intro key
    rw [hitems]
    exact Table.lookup_insert_eq _ _ _ _
  have hdriver : ∀ m, (s.drivers.insert n d).lookup m = if m = n then some d else s.drivers.lookup m :=
    fun m => Table.lookup_insert_eq _ _ _ _
  have hnotLive : ∀ key generation, ¬ s.Live n key generation := by
    rintro key generation ⟨d', hd', _, _, hlive⟩
    exact absurd ((hold d' hd').symm.trans hlive) Bool.false_ne_true
  refine ⟨?_, ?_, ?_, ?_, ?_, ?_⟩
  · intro m d' hd'
    rw [hdriver] at hd'
    split at hd'
    next hm =>
      cases Option.some.inj hd'
      exact ⟨hm ▸ hn, hd⟩
    next =>
      obtain ⟨hm, hle⟩ := hs.counted m d' hd'
      exact ⟨lt_of_lt_of_le hm hspawned, le_trans hle hnext⟩
  · intro key typing' htyping
    rw [hitem] at htyping
    split at htyping
    next =>
      cases Option.some.inj htyping
      rw [hgeneration]
      exact hd
    next => exact le_trans (hs.numbered key typing' htyping) hnext
  · exact le_trans hs.positive hnext
  · intro m m' key generation hm hm'
    rw [live_insert] at hm hm'
    split at hm
    next h =>
      obtain ⟨rfl, rfl, _⟩ := hm
      split at hm'
      next h' => exact h'.trans h.symm
      next => exact absurd hm' (hidle m')
    next =>
      split at hm'
      next =>
        obtain ⟨rfl, rfl, _⟩ := hm'
        exact absurd hm (hidle m)
      next => exact hs.alone m m' key generation hm hm'
  · intro key typing' htyping hsending'
    rw [hitem] at htyping
    split at htyping
    next hkey =>
      cases Option.some.inj htyping
      exact ⟨n, live_insert.mpr (by rw [if_pos rfl]; exact ⟨hkey.symm, hgeneration.symm, hstage⟩)⟩
    next hkey =>
      obtain ⟨m, hm⟩ := hs.driven key typing' htyping hsending'
      have hmn : m ≠ n := fun h => hnotLive key typing'.generation (h ▸ hm)
      exact ⟨m, live_insert.mpr (by rw [if_neg hmn]; exact hm)⟩
  · intro m d' typing' hd' hlive htyping hsame
    rw [hitem] at htyping
    rw [hdriver] at hd'
    split at htyping
    next =>
      cases Option.some.inj htyping
      exact ⟨hsending, TypingStage.fits_of_dirty hdirty _⟩
    next hkey =>
      split at hd'
      next =>
        cases Option.some.inj hd'
        exact absurd rfl hkey
      next => exact hs.serving m d' typing' hd' hlive htyping hsame

theorem act (hs : s.Driven) {n : Nat} {stage : TypingStage} (hd : s.drivers.lookup n = some d)
    (hlive : d.stage.live = true) (hnext : typing.nextGeneration = s.typing.nextGeneration)
    (hother : ∀ key, key ≠ d.key → typing.byItem.lookup key = s.typing.byItem.lookup key)
    (hown : ∀ new, typing.byItem.lookup d.key = some new →
      (new.generation = d.generation ∧ new.sending = stage.live ∧ stage.Fits new) ∨
        (new.generation ≠ d.generation ∧ s.typing.byItem.lookup d.key = some new)) :
    ((s.withTyping typing).moveTo n d stage).Driven := by
  have hdriver : ∀ m, (s.drivers.insert n { d with stage := stage }).lookup m =
      if m = n then some { d with stage := stage } else s.drivers.lookup m := fun m => Table.lookup_insert_eq _ _ _ _
  have hwas : s.Live n d.key d.generation := ⟨d, hd, rfl, rfl, hlive⟩
  have hlives : ∀ m key generation,
      ((s.withTyping typing).moveTo n d stage).Live m key generation → s.Live m key generation := by
    intro m key generation hm
    have hm := (live_insert (s := s)).mp hm
    split at hm
    next h =>
      obtain ⟨rfl, rfl, _⟩ := hm
      exact h ▸ hwas
    next => exact hm
  have hkeep : ∀ m key generation, m ≠ n → s.Live m key generation →
      ((s.withTyping typing).moveTo n d stage).Live m key generation := by
    intro m key generation hmn hm
    exact (live_insert (s := s)).mpr (by rw [if_neg hmn]; exact hm)
  refine ⟨?_, ?_, ?_, ?_, ?_, ?_⟩
  · intro m d' hd'
    have hd' := (hdriver m).symm.trans hd'
    split at hd'
    next h =>
      cases Option.some.inj hd'
      subst h
      exact ⟨(hs.counted m d hd).1, hnext ▸ (hs.counted m d hd).2⟩
    next => exact hnext ▸ hs.counted m d' hd'
  · intro key new hnew
    have hle : new.generation ≤ s.typing.nextGeneration := by
      by_cases hkey : key = d.key
      · subst hkey
        obtain ⟨hsame, _⟩ | ⟨_, hold⟩ := hown new hnew
        · rw [hsame]
          exact (hs.counted n d hd).2
        · exact hs.numbered d.key new hold
      · exact hs.numbered key new ((hother key hkey).symm.trans hnew)
    exact hnext ▸ hle
  · exact hnext ▸ hs.positive
  · intro m m' key generation hm hm'
    exact hs.alone m m' key generation (hlives m key generation hm) (hlives m' key generation hm')
  · intro key new hnew hsending
    by_cases hkey : key = d.key
    · subst hkey
      obtain ⟨hsame, hstage, _⟩ | ⟨hne, hold⟩ := hown new hnew
      · refine ⟨n, (live_insert (s := s)).mpr ?_⟩
        rw [if_pos rfl]
        exact ⟨rfl, hsame.symm, hstage ▸ hsending⟩
      · obtain ⟨m, hm⟩ := hs.driven d.key new hold hsending
        refine ⟨m, hkeep m _ _ ?_ hm⟩
        rintro rfl
        exact hne ((live_iff hd).mp hm).2.1.symm
    · have hold := (hother key hkey).symm.trans hnew
      obtain ⟨m, hm⟩ := hs.driven key new hold hsending
      refine ⟨m, hkeep m _ _ ?_ hm⟩
      rintro rfl
      exact hkey ((live_iff hd).mp hm).1.symm
  · intro m d' new hd' hlive' hnew hsame
    have hd' := (hdriver m).symm.trans hd'
    split at hd'
    next =>
      cases Option.some.inj hd'
      obtain ⟨_, hstage, hfits⟩ | ⟨hne, _⟩ := hown new hnew
      · exact ⟨hstage.trans hlive', hfits⟩
      · exact absurd hsame hne
    next hmn =>
      by_cases hkey : d'.key = d.key
      · obtain ⟨hown', _⟩ | ⟨_, hold⟩ := hown new (hkey ▸ hnew)
        · have hm : s.Live m d.key d.generation := ⟨d', hd', hkey, hsame.symm.trans hown', hlive'⟩
          exact absurd (hs.alone n m d.key d.generation hwas hm) hmn
        · exact hs.serving m d' new hd' hlive' (hkey ▸ hold) hsame
      · exact hs.serving m d' new hd' hlive' ((hother d'.key hkey).symm.trans hnew) hsame

theorem rest (hs : s.Driven) {n : Nat} {stage : TypingStage} (hd : s.drivers.lookup n = some d)
    (hold : d.stage.live = false) (hnew : stage.live = false) : (s.moveTo n d stage).Driven := by
  have hlive : ∀ m key generation, (s.moveTo n d stage).Live m key generation ↔ s.Live m key generation := by
    intro m key generation
    refine (live_insert (s := s)).trans ?_
    split
    next h =>
      subst h
      rw [live_iff hd]
      simp [hold, hnew]
    next => exact Iff.rfl
  refine ⟨?_, hs.numbered, hs.positive, ?_, ?_, ?_⟩
  · intro m d' hd'
    have hd' := (Table.lookup_insert_eq s.drivers n m _).symm.trans hd'
    split at hd'
    next h =>
      cases Option.some.inj hd'
      exact h ▸ hs.counted n d hd
    next => exact hs.counted m d' hd'
  · intro m m' key generation hm hm'
    exact hs.alone m m' key generation ((hlive _ _ _).mp hm) ((hlive _ _ _).mp hm')
  · intro key typing htyping hsending
    obtain ⟨m, hm⟩ := hs.driven key typing htyping hsending
    exact ⟨m, (hlive _ _ _).mpr hm⟩
  · intro m d' typing hd' hlive' htyping hsame
    have hd' := (Table.lookup_insert_eq s.drivers n m _).symm.trans hd'
    split at hd'
    next =>
      cases Option.some.inj hd'
      exact absurd (hnew.symm.trans hlive') Bool.false_ne_true
    next => exact hs.serving m d' typing hd' hlive' htyping hsame

theorem started (hs : s.Driven) (hroom : s.typing.nextGeneration < i64Max) {threadId itemId : String}
    {n spawned : Nat} (hkey : d.key = telegramTypingKey threadId itemId)
    (h : (s.typing.startTelegramTyping threadId itemId).2 = some d.generation)
    (hold : ∀ d', s.drivers.lookup n = some d' → d'.stage.live = false) (hn : n < spawned)
    (hspawned : s.spawned ≤ spawned) (hstage : d.stage.live = true) :
    Driven ⟨(s.typing.startTelegramTyping threadId itemId).1, s.drivers.insert n d, spawned⟩ := by
  cases hrefuses : s.typing.refusesStart threadId itemId with
  | true =>
    rw [startTelegramTyping_of_refuses hrefuses] at h
    cases h
  | false =>
    cases hlookup : s.typing.byItem.lookup (telegramTypingKey threadId itemId) with
    | none =>
      rw [startTelegramTyping_of_none hrefuses hlookup] at h ⊢
      have hnext := nextTypingGeneration_eq hs.positive hroom
      have hgeneration := Option.some.inj h
      refine hs.spawn (by rw [hkey]; rfl) ?_ ?_ hgeneration rfl rfl ?_ hold hn hspawned hstage
      · change s.typing.nextGeneration ≤ s.typing.nextTypingGeneration
        omega
      · change d.generation ≤ s.typing.nextTypingGeneration
        omega
      · rintro m ⟨d', hd', _, hsame, _⟩
        have hle := (hs.counted m d' hd').2
        omega
    | some typing =>
      obtain ⟨hidle, hstarted⟩ := startTelegramTyping_of_idle hrefuses hlookup
      have hitems : (s.typing.startTelegramTyping threadId itemId).1.byItem = s.typing.byItem.insert d.key { typing with
          sending := true
          dirty := true
          revision := min (typing.revision + 1) u64Max } := by
        rw [hstarted, hkey]
        rfl
      have hnext : (s.typing.startTelegramTyping threadId itemId).1.nextGeneration = s.typing.nextGeneration := by
        rw [hstarted]
        rfl
      rw [hstarted] at h
      have hgeneration := Option.some.inj h
      refine hs.spawn hitems (le_of_eq hnext.symm) ?_ hgeneration rfl rfl ?_ hold hn hspawned hstage
      · exact hnext ▸ hgeneration ▸ hs.numbered _ typing hlookup
      · rintro m ⟨d', hd', hkey', hsame, hlive⟩
        have hsending := (hs.serving m d' typing hd' hlive (by rw [hkey', hkey]; exact hlookup)
          (hgeneration.trans hsame.symm)).1
        exact absurd (hidle.symm.trans hsending) Bool.false_ne_true

end Driven

theorem startTelegramTyping_refused {r : TelegramTyping} {threadId itemId : String}
    (h : (r.startTelegramTyping threadId itemId).2 = none) : r.startTelegramTyping threadId itemId = (r, none) := by
  cases hrefuses : r.refusesStart threadId itemId with
  | true => exact startTelegramTyping_of_refuses hrefuses
  | false =>
    cases hlookup : r.byItem.lookup (telegramTypingKey threadId itemId) with
    | none =>
      rw [startTelegramTyping_of_none hrefuses hlookup] at h
      cases h
    | some typing =>
      rw [(startTelegramTyping_of_idle hrefuses hlookup).2] at h
      cases h

theorem spawnFinishing_withTyping (threadId : String) (typing : TelegramTyping) (s : TypingSystem)
    (finishing : List (String × Int × Bool)) : spawnFinishing threadId (s.withTyping typing) finishing =
      (spawnFinishing threadId s finishing).withTyping typing := by
  induction finishing generalizing s with
  | nil => rfl
  | cons item rest ih =>
    obtain ⟨itemId, generation, shouldStart⟩ := item
    cases shouldStart with
    | true => exact ih (s.spawnDriver threadId itemId generation)
    | false => exact ih s

theorem spawnFinishing_append (threadId : String) (s : TypingSystem) (one other : List (String × Int × Bool)) :
    spawnFinishing threadId s (one ++ other) = spawnFinishing threadId (spawnFinishing threadId s one) other := by
  induction one generalizing s with
  | nil => rfl
  | cons item rest ih => exact ih _

namespace Driven

section

variable (hs : s.Driven)
include hs

theorem recorded (key : String) : (s.withTyping (s.typing.rememberCompleted key)).Driven :=
  hs.remove rfl fun _ _ => id

theorem spawned_lookup : s.drivers.lookup s.spawned = none := by
  cases hd : s.drivers.lookup s.spawned with
  | none => rfl
  | some d => exact absurd (hs.counted s.spawned d hd).1 (lt_irrefl s.spawned)

theorem stopItem (terminal : Bool) (threadId itemId : String) :
    (s.stopWith threadId (s.typing.stopItem terminal threadId itemId)).Driven := by
  obtain ⟨r, hr, hremembered⟩ : ∃ r, (if terminal then s.typing.rememberCompleted (telegramTypingKey threadId itemId)
      else s.typing) = r ∧ (s.withTyping r).Driven := by
    refine ⟨_, rfl, ?_⟩
    split
    next => exact hs.recorded _
    next => exact hs
  unfold TelegramTyping.stopItem stopWith
  dsimp only
  rw [hr]
  split
  next => exact hremembered
  next typing hlookup =>
    by_cases hsending : typing.sending = true
    · have ht : Touched typing { typing with
          dirty := true
          finished := true
          revision := min (typing.revision + 1) u64Max
          sending := true } := ⟨rfl, hsending.symm, fun stage _ => TypingStage.fits_of_dirty rfl stage⟩
      rw [hsending]
      exact hremembered.store hlookup ht
    · rw [Bool.eq_false_iff.mpr hsending]
      refine hremembered.spawn (d := ⟨threadId, itemId, typing.generation, .deciding⟩) rfl (le_refl _)
        (hremembered.numbered _ typing hlookup) rfl rfl rfl ?_ ?_ (Nat.lt_succ_self _) (Nat.le_succ _) rfl
      · rintro m ⟨d, hd, hkey, hsame, hlive⟩
        exact hsending (hremembered.serving m d typing hd hlive (by rw [hkey]; exact hlookup) hsame.symm).1
      · intro d hd
        cases hremembered.spawned_lookup.symm.trans hd

theorem stopItems (terminal : Bool) (threadId : String) (itemIds : List String) :
    (s.stopWith threadId (TelegramTyping.stopItems terminal threadId s.typing itemIds)).Driven := by
  induction itemIds generalizing s with
  | nil => exact hs
  | cons itemId rest ih =>
    have hitem := hs.stopItem terminal threadId itemId
    have htyping : (s.stopWith threadId (s.typing.stopItem terminal threadId itemId)).typing =
        (s.typing.stopItem terminal threadId itemId).1 := by
      rw [stopWith, spawnFinishing_withTyping]
      rfl
    have hrest := ih hitem
    rw [htyping, stopWith, stopWith, spawnFinishing_withTyping, spawnFinishing_withTyping,
      spawnFinishing_withTyping] at hrest
    rw [stopWith, spawnFinishing_withTyping, TelegramTyping.stopItems, spawnFinishing_append]
    exact hrest

theorem stop (threadId : String) (terminal : Bool) (turnId currentTurn : Option String) :
    (s.stopWith threadId (s.typing.stopTelegramTypingForThread threadId terminal turnId currentTurn)).Driven := by
  unfold stopTelegramTypingForThread
  split
  next turnId _ =>
    have hstopped := (hs.recorded (telegramTypingKey threadId ("turn:" ++ turnId))).stopItems terminal threadId
    exact hstopped _
  next => exact hs.stopItems terminal threadId _

theorem clearKeys (keys : List String) : (s.withTyping (s.typing.clearKeys keys)).Driven := by
  induction keys generalizing s with
  | nil => exact hs
  | cons key rest ih =>
    have hremoved : (s.withTyping ((s.typing.rememberCompleted key).removeTelegramTyping key)).Driven := by
      refine hs.remove rfl fun key' new hnew => ?_
      have hlookup := Table.lookup_erase_eq s.typing.byItem key key'
      split at hlookup
      next => cases hlookup.symm.trans hnew
      next => exact hlookup.symm.trans hnew
    exact ih hremoved

end

end Driven

/-- The item is not started again once its key has dropped out of the record of completed keys. -/
def Remembers (s : TypingSystem) (key : String) : Prop :=
  key ∈ s.typing.recorded → key ∈ s.typing.recorded.take telegramCompletedTypingHistoryMax

/-- What goes wrong otherwise: a driver that waited after a failed send starts an item of another generation, a
completed key has been forgotten, or generations run out. -/
def Regular (s : TypingSystem) : TypingStep → Prop
  | .start threadId itemId =>
    s.typing.nextGeneration < i64Max ∧ s.Remembers (telegramTypingKey threadId itemId)
  | .restart driver => ∀ d ∈ s.drivers.lookup driver,
    s.typing.nextGeneration < i64Max ∧ s.Remembers d.key ∧
      (s.typing.refusesStart d.threadId d.itemId = true ∨
        ∃ typing ∈ s.typing.byItem.lookup d.key, typing.generation = d.generation)
  | _ => True

theorem driverAt_eq_some {n : Nat} {stage : TypingStage} :
    s.driverAt n stage = some d ↔ s.drivers.lookup n = some d ∧ d.stage = stage := by
  simp [driverAt, filter_eq_some_iff]

namespace Driven

theorem startStep (hs : s.Driven) {threadId itemId : String} (hroom : s.typing.nextGeneration < i64Max) :
    (match (s.typing.startTelegramTyping threadId itemId).2 with
      | none => s.withTyping (s.typing.startTelegramTyping threadId itemId).1
      | some generation =>
        (s.withTyping (s.typing.startTelegramTyping threadId itemId).1).spawnDriver threadId itemId generation).Driven := by
  split
  next hnone =>
    rw [startTelegramTyping_refused hnone]
    exact hs
  next generation hsome =>
    refine hs.started (d := ⟨threadId, itemId, generation, .deciding⟩) hroom rfl hsome ?_ (Nat.lt_succ_self _)
      (Nat.le_succ _) rfl
    intro d hd
    cases hs.spawned_lookup.symm.trans hd

variable {d : TypingDriver} {n : Nat}

section

variable (hs : s.Driven) (hd : s.drivers.lookup n = some d)
include hs hd

theorem restartStep (hstage : d.stage = .backoff)
    (hroom : s.typing.nextGeneration < i64Max) (hown : s.typing.refusesStart d.threadId d.itemId = true ∨
      ∃ typing ∈ s.typing.byItem.lookup d.key, typing.generation = d.generation) :
    ((s.withTyping (s.typing.startTelegramTyping d.threadId d.itemId).1).moveTo n d
      (if (s.typing.startTelegramTyping d.threadId d.itemId).2 = some d.generation then .deciding
      else .ended)).Driven := by
  have hidle : d.stage.live = false := by rw [hstage]; rfl
  cases hrefuses : s.typing.refusesStart d.threadId d.itemId with
  | true =>
    rw [startTelegramTyping_of_refuses hrefuses, if_neg (some_ne_none _).symm]
    exact hs.rest hd hidle rfl
  | false =>
    obtain hrefused | ⟨typing, hlookup, hsame⟩ := hown
    · exact absurd (hrefuses.symm.trans hrefused) Bool.false_ne_true
    have hstarted := (startTelegramTyping_of_idle hrefuses hlookup).2
    have hsome : (s.typing.startTelegramTyping d.threadId d.itemId).2 = some d.generation := by
      rw [hstarted, hsame]
    rw [if_pos hsome]
    refine hs.started (d := { d with stage := .deciding }) hroom rfl hsome ?_ (hs.counted n d hd).1 (le_refl _) rfl
    intro d' hd'
    cases Option.some.inj (hd.symm.trans hd')
    exact hidle

theorem decideStep (hstage : d.stage = .deciding) :
    (if s.typing.hasSendDelay d.key d.generation then s.moveTo n d .throttled
      else if s.typing.waitsForUpdate d.key d.generation then s.moveTo n d .waiting
      else s.moveTo n d .ended).Driven := by
  have hlive : d.stage.live = true := by rw [hstage]; rfl
  have hfits : ∀ typing, s.typing.byItem.lookup d.key = some typing → typing.generation = d.generation →
      typing.sending = true ∧ (typing.finished = true → typing.dirty = true) := by
    intro typing hlookup hsame
    obtain ⟨hsending, hfits⟩ := hs.serving n d typing hd hlive hlookup hsame
    rw [hstage] at hfits
    exact ⟨hsending, hfits⟩
  split
  next hdelay =>
    obtain ⟨typing, hlookup, hdue⟩ := (any_eq_true _ _).mp hdelay
    simp only [Bool.and_eq_true, decide_eq_true_eq] at hdue
    obtain ⟨⟨hsame, hsending⟩, hdirty⟩ := hdue
    refine hs.act hd hlive rfl (fun _ _ => rfl) fun new hnew => .inl ?_
    cases Option.some.inj (hlookup.symm.trans hnew)
    exact ⟨hsame, hsending, hdirty⟩
  next hdelay =>
    split
    next hwaits =>
      obtain ⟨typing, hlookup, hidle⟩ := (any_eq_true _ _).mp hwaits
      simp only [Bool.and_eq_true, decide_eq_true_eq] at hidle
      obtain ⟨⟨⟨hsame, hsending⟩, _⟩, _⟩ := hidle
      refine hs.act hd hlive rfl (fun _ _ => rfl) fun new hnew => .inl ?_
      cases Option.some.inj (hlookup.symm.trans hnew)
      exact ⟨hsame, hsending, (hfits typing hlookup hsame).2⟩
    next hwaits =>
      refine hs.act hd hlive rfl (fun _ _ => rfl) fun new hnew => .inr ⟨?_, hnew⟩
      intro hsame
      obtain ⟨hsending, hfinish⟩ := hfits new hnew hsame
      simp [hasSendDelay, hnew, hsame, hsending] at hdelay
      simp [waitsForUpdate, hnew, hsame, hsending, hdelay] at hwaits
      exact absurd (hdelay.symm.trans (hfinish hwaits)) Bool.false_ne_true

theorem notifiedStep (hstage : d.stage = .waiting) : (s.moveTo n d .deciding).Driven := by
  have hlive : d.stage.live = true := by rw [hstage]; rfl
  refine hs.act hd hlive rfl (fun _ _ => rfl) fun new hnew => ?_
  by_cases hsame : new.generation = d.generation
  · obtain ⟨hsending, hfits⟩ := hs.serving n d new hd hlive hnew hsame
    rw [hstage] at hfits
    exact .inl ⟨hsame, hsending, hfits⟩
  · exact .inr ⟨hsame, hnew⟩

theorem renewalStep (hstage : d.stage = .waiting) :
    ((s.withTyping (s.typing.markTelegramTypingRenewalDue d.key d.generation).1).moveTo n d
      (if (s.typing.markTelegramTypingRenewalDue d.key d.generation).2 then .deciding else .ended)).Driven := by
  have hlive : d.stage.live = true := by rw [hstage]; rfl
  unfold markTelegramTypingRenewalDue
  cases hlookup : s.typing.byItem.lookup d.key with
  | none =>
    refine hs.act hd hlive rfl (fun _ _ => rfl) fun new hnew => ?_
    cases hlookup.symm.trans hnew
  | some typing =>
    dsimp only
    split
    next hstale =>
      refine hs.act hd hlive rfl (fun _ _ => rfl) fun new hnew => .inr ⟨?_, hnew⟩
      cases Option.some.inj (hlookup.symm.trans hnew)
      intro hsame
      have hsending := (hs.serving n d typing hd hlive hlookup hsame).1
      simp [hsame, hsending] at hstale
    next hcurrent =>
      simp only [Bool.or_eq_true, not_or, decide_eq_true_eq, ne_eq, not_not, Bool.not_eq_true', Bool.not_eq_false]
        at hcurrent
      obtain ⟨hsame, hsending⟩ := hcurrent
      have hdue := Touched.markDue typing
      obtain ⟨_, hfits⟩ := hs.serving n d typing hd hlive hlookup hsame
      rw [hstage] at hfits
      refine hs.act hd hlive rfl (fun key hkey => AList.lookup_insert_ne hkey) fun new hnew => .inl ?_
      cases Option.some.inj ((AList.lookup_insert _).symm.trans hnew)
      exact ⟨hdue.generation.trans hsame, hdue.sending.trans hsending, hdue.fits .waiting hfits⟩

theorem snapshotStep (hstage : d.stage = .throttled) :
    ((s.withTyping (s.typing.takeTelegramTypingSnapshot d.key d.generation).1).moveTo n d
      (match (s.typing.takeTelegramTypingSnapshot d.key d.generation).2 with
      | none => .ended
      | some (finished, revision) => .sending finished revision)).Driven := by
  have hlive : d.stage.live = true := by rw [hstage]; rfl
  unfold takeTelegramTypingSnapshot
  cases hlookup : s.typing.byItem.lookup d.key with
  | none =>
    refine hs.act hd hlive rfl (fun _ _ => rfl) fun new hnew => ?_
    cases hlookup.symm.trans hnew
  | some typing =>
    dsimp only
    by_cases hsame : typing.generation = d.generation
    · obtain ⟨hsending, hdirty⟩ := hs.serving n d typing hd hlive hlookup hsame
      rw [hstage] at hdirty
      have hdirty : typing.dirty = true := hdirty
      simp only [hsame, hsending, hdirty, ne_eq, not_true_eq_false, if_false, Bool.not_true, Bool.or_self,
        Bool.false_eq_true]
      refine hs.act hd hlive rfl (fun key hkey => AList.lookup_insert_ne hkey) fun new hnew => .inl ?_
      cases Option.some.inj ((AList.lookup_insert _).symm.trans hnew)
      exact ⟨rfl, rfl, fun hfinished => .inr ⟨hfinished, rfl⟩⟩
    · rw [if_pos hsame]
      refine hs.act hd hlive rfl (fun _ _ => rfl) fun new hnew => .inr ⟨?_, hnew⟩
      cases Option.some.inj (hlookup.symm.trans hnew)
      exact hsame

theorem reportStep {finished succeeded : Bool} {revision : Nat} {stopped : TypingStage}
    (hstage : d.stage = .sending finished revision) (hstopped : stopped.live = false) :
    ((s.withTyping (s.typing.completeTelegramTypingSend d.key d.generation revision succeeded).1).moveTo n d
      (match (s.typing.completeTelegramTypingSend d.key d.generation revision succeeded).2 with
      | .continue => .deciding
      | .stop => stopped)).Driven := by
  have hlive : d.stage.live = true := by rw [hstage]; rfl
  have hremoved : ((s.withTyping (s.typing.removeTelegramTyping d.key)).moveTo n d stopped).Driven := by
    refine hs.act hd hlive rfl (fun key hkey => AList.lookup_erase_ne hkey) fun new hnew => ?_
    cases (AList.lookup_erase d.key s.typing.byItem).symm.trans hnew
  unfold completeTelegramTypingSend
  cases hlookup : s.typing.byItem.lookup d.key with
  | none =>
    refine hs.act hd hlive rfl (fun _ _ => rfl) fun new hnew => ?_
    cases hlookup.symm.trans hnew
  | some typing =>
    dsimp only
    by_cases hsame : typing.generation = d.generation
    · obtain ⟨hsending, hfits⟩ := hs.serving n d typing hd hlive hlookup hsame
      rw [hstage] at hfits
      rw [if_neg (not_not.mpr hsame)]
      have hgoesOn : (typing.finished = true → typing.dirty = true) → ((s.withTyping s.typing).moveTo n d .deciding).Driven := by
        intro hfinish
        refine hs.act hd hlive rfl (fun _ _ => rfl) fun new hnew => .inl ?_
        cases Option.some.inj (hlookup.symm.trans hnew)
        exact ⟨hsame, hsending, hfinish⟩
      cases succeeded with
      | false =>
        simp only [Bool.not_false, if_true]
        split
        next => exact hremoved
        next =>
          refine hs.act hd hlive rfl (fun key hkey => AList.lookup_insert_ne hkey) fun new hnew => .inl ?_
          cases Option.some.inj ((AList.lookup_insert _).symm.trans hnew)
          refine ⟨hsame, hstopped.symm, TypingStage.fits_of_dirty rfl stopped⟩
      | true =>
        simp only [Bool.not_true, Bool.false_eq_true, if_false]
        split
        next hagain =>
          refine hgoesOn fun hfinished => ?_
          obtain hdirty | ⟨_, hrevision⟩ := hfits hfinished
          · exact hdirty
          · simpa [hrevision] using hagain
        next hclean =>
          split
          next => exact hremoved
          next hopen => exact hgoesOn fun hfinished => absurd hfinished hopen
    · rw [if_pos hsame]
      refine hs.act hd hlive rfl (fun _ _ => rfl) fun new hnew => .inr ⟨?_, hnew⟩
      cases Option.some.inj (hlookup.symm.trans hnew)
      exact hsame

end

end Driven

theorem step_driven {a : TypingStep} (hs : s.Driven) (hg : s.Regular a) (h : step s a = some t) : t.Driven := by
  cases a with
  | start threadId itemId =>
    cases Option.some.inj h
    exact hs.startStep hg.1
  | finish threadId currentTurn =>
    cases Option.some.inj h
    exact hs.stop threadId true none currentTurn
  | suspend threadId terminal turnId currentTurn =>
    cases Option.some.inj h
    have hsuspended : (s.withTyping { s.typing with
        suspendedThreads := s.typing.suspendedThreads.insert threadId }).Driven := hs.remove rfl fun _ _ => id
    exact hsuspended.stop threadId terminal turnId currentTurn
  | resume threadId =>
    cases Option.some.inj h
    exact hs.remove rfl fun _ _ => id
  | wake threadId =>
    cases Option.some.inj h
    refine hs.touch rfl fun key new hnew => ?_
    obtain ⟨old, hold, rfl⟩ := map_eq_some_iff.mp ((Table.lookup_mapValues _ _ _).symm.trans hnew)
    refine ⟨old, hold, ?_⟩
    split
    next => exact .markDue old
    next => exact .refl old
  | cancel threadId itemId generation =>
    cases Option.some.inj h
    unfold cancelTelegramTypingGeneration
    split
    next =>
      have hcleared := hs.clearKeys [telegramTypingKey threadId itemId]
      exact hcleared
    next => exact hs
  | clearThread threadId =>
    cases Option.some.inj h
    exact hs.clearKeys _
  | bridgeGeneration =>
    cases Option.some.inj h
    have hresumed : (s.withTyping { s.typing with suspendedThreads := [] }).Driven := hs.remove rfl fun _ _ => id
    exact hresumed.clearKeys _
  | decide n =>
    obtain ⟨d, hd, rfl⟩ := map_eq_some_iff.mp h
    obtain ⟨hd, hstage⟩ := driverAt_eq_some.mp hd
    exact hs.decideStep hd hstage
  | notified n =>
    obtain ⟨d, hd, rfl⟩ := map_eq_some_iff.mp h
    obtain ⟨hd, hstage⟩ := driverAt_eq_some.mp hd
    exact hs.notifiedStep hd hstage
  | renewalDue n =>
    obtain ⟨d, hd, rfl⟩ := map_eq_some_iff.mp h
    obtain ⟨hd, hstage⟩ := driverAt_eq_some.mp hd
    exact hs.renewalStep hd hstage
  | takeSnapshot n =>
    obtain ⟨d, hd, rfl⟩ := map_eq_some_iff.mp h
    obtain ⟨hd, hstage⟩ := driverAt_eq_some.mp hd
    exact hs.snapshotStep hd hstage
  | report n succeeded =>
    simp only [step] at h
    split at h
    next => cases h
    next d hd =>
      split at h
      next finished revision hstage =>
        obtain ⟨_, h⟩ := ite_none_left_eq_some.mp h
        cases Option.some.inj h
        refine hs.reportStep hd hstage ?_
        split <;> rfl
      next => cases h
  | restart n =>
    obtain ⟨d, hd, rfl⟩ := map_eq_some_iff.mp h
    obtain ⟨hd, hstage⟩ := driverAt_eq_some.mp hd
    obtain ⟨hroom, _, hown⟩ := hg d hd
    exact hs.restartStep hd hstage hroom hown

end TypingSystem

end MochiPort

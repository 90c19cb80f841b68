import Mathlib.Algebra.GroupWithZero.Nat
import MochiPort.Coalescing
import MochiPort.RemoteClients
import MochiPort.Runs

namespace MochiPort

open Coalescing

structure WecomStreamState where
  content : String
  sentContent : String
  finished : Bool
  sending : Bool
  dirty : Bool
  delivered : Bool
  cleanupAfterDelivery : Bool
  revision : Nat
  deriving DecidableEq

def wecomStreamMaxBytes : Nat := 20 * 1024

def truncateUtf8Bytes (value : String) (limit : Nat) : String :=
  if (value.toList.map Char.utf8Size).sum ≤ limit then value else String.ofList (takeBytes limit value.toList)

namespace WecomStreamState

variable (stream : WecomStreamState)

/-- The stream that `remember_stream` makes for a message. -/
def new : WecomStreamState := ⟨"", "", false, false, false, false, false, 0⟩

def sendable (content : String) : String := truncateUtf8Bytes content wecomStreamMaxBytes

def changed (content : String) (finished : Bool) : WecomStreamState :=
  { stream with
    content := content
    finished := finished
    dirty := true
    revision := min (stream.revision + 1) u64Max
    sending := true }

end WecomStreamState

/-- Where the driver of a stream stands: in the pause before a snapshot, or sending one. -/
inductive WecomDriver where
  | asleep
  | sending (content : String) (finished : Bool)
  | ended

namespace WecomDriver

def live : WecomDriver → Bool
  | .asleep | .sending _ _ => true
  | .ended => false

def content? : WecomDriver → Option String
  | .sending content _ => some content
  | .asleep | .ended => none

/-- Whether what is on its way finishes the stream. -/
def finishes : WecomDriver → Bool
  | .sending _ finished => finished
  | .asleep | .ended => false

end WecomDriver

/-- One stream, kept until it is delivered or another message's stream takes its place, and its drivers. A
driver that finds the stream gone finds nothing or a stream with other ids. -/
structure WecomSystem where
  stream : Option WecomStreamState
  drivers : Table Nat WecomDriver
  spawned : Nat

inductive WecomStep where
  | delta (delta : String) (finish : Bool)
  | final (finalText : Option String) (cleanupAfterDelivery : Bool)
  -- a later message of the conversation, or a new bridge generation
  | replaced
  | wake (driver : Nat)
  | sent (driver : Nat)
  | sendFails (driver : Nat)

namespace WecomSystem

variable (s : WecomSystem)

def start : WecomSystem := ⟨some .new, ∅, 0⟩

def moveTo (driver : Nat) (stage : WecomDriver) : WecomSystem :=
  { s with drivers := s.drivers.insert driver stage }

/-- The changed stream, with a driver started where the stream had none. -/
def driveChanged (old new : WecomStreamState) : WecomSystem :=
  if old.sending then { s with stream := some new }
  else { stream := some new, drivers := s.drivers.insert s.spawned .asleep, spawned := s.spawned + 1 }

def sendWecomStreamDelta (delta : String) (finish : Bool) : WecomSystem :=
  match s.stream with
  | none => s
  | some stream => s.driveChanged stream (stream.changed (stream.content ++ delta) (stream.finished || finish))

def sendWecomStreamFinal (finalText : Option String) (cleanupAfterDelivery : Bool) : WecomSystem :=
  match s.stream with
  | none => s
  | some stream =>
    let contentChanged := finalText.any (· ≠ stream.content)
    if cleanupAfterDelivery && stream.delivered && stream.finished && !contentChanged then { s with stream := none }
    else s.driveChanged stream
      { stream.changed (finalText.getD stream.content) true with
        cleanupAfterDelivery := stream.cleanupAfterDelivery || cleanupAfterDelivery }

def step (s : WecomSystem) : WecomStep → Option WecomSystem
  | .delta delta finish => some (s.sendWecomStreamDelta delta finish)
  | .final finalText cleanupAfterDelivery => some (s.sendWecomStreamFinal finalText cleanupAfterDelivery)
  | .replaced => some { s with stream := none }
  | .wake driver =>
    match s.drivers.lookup driver, s.stream with
    | some .asleep, none => some (s.moveTo driver .ended)
    | some .asleep, some stream =>
      if !stream.dirty then some ({ s with stream := some { stream with sending := false } }.moveTo driver .ended)
      else some ({ s with stream := some { stream with dirty := false } }.moveTo driver
        (.sending (WecomStreamState.sendable stream.content) stream.finished))
    | _, _ => none
  | .sent driver =>
    match s.drivers.lookup driver, s.stream with
    | some (.sending _ _), none => some (s.moveTo driver .ended)
    | some (.sending content finished), some stream =>
      let stream := { stream with sentContent := content, delivered := stream.delivered || finished }
      if stream.cleanupAfterDelivery && stream.delivered && !stream.dirty then
        some ({ s with stream := none }.moveTo driver .ended)
      else if stream.dirty then some ({ s with stream := some stream }.moveTo driver .asleep)
      else some ({ s with stream := some { stream with sending := false } }.moveTo driver .ended)
    | _, _ => none
  | .sendFails driver =>
    match s.drivers.lookup driver, s.stream with
    | some (.sending _ _), none => some (s.moveTo driver .ended)
    | some (.sending _ _), some stream =>
      some ({ s with stream := some { stream with sending := false, dirty := false } }.moveTo driver .ended)
    | _, _ => none

def Live (driver : Nat) : Prop := (s.drivers.lookup driver).any WecomDriver.live = true

end WecomSystem

namespace WecomStreamState

def slot (stream : WecomStreamState) (driver : WecomDriver) : Slot String where
  current := sendable stream.content
  dirty := stream.dirty
  inFlight := driver.content?
  shown := stream.sentContent

/-- A stream and the driver that acts for it: what is changed behind the snapshot on its way stays marked. -/
structure Driven (stream : WecomStreamState) (driver : WecomDriver) : Prop where
  sending : stream.sending = true
  settled : (stream.slot driver).Settled
  due : stream.finished = true → stream.delivered = true ∨ stream.dirty = true ∨ driver.finishes = true
  awake : driver = .asleep → stream.dirty = true

/-- A stream without a driver: its text has been sent, and the end of a turn that was handled as well. -/
structure Idle (stream : WecomStreamState) : Prop where
  idle : stream.sending = false
  clean : stream.dirty = false
  settled : (stream.slot .ended).Settled
  due : stream.finished = true → stream.delivered = true ∨ stream.cleanupAfterDelivery = false

variable {stream : WecomStreamState} {driver : WecomDriver}

theorem new_idle : new.Idle where
  idle := rfl
  clean := rfl
  settled _ := rfl
  due h := by cases h

theorem Driven.changed (h : stream.Driven driver) (content : String) (finished : Bool) :
    (stream.changed content finished).Driven driver where
  sending := rfl
  settled := h.settled.step (.revise _ (sendable content))
  due _ := .inr (.inl rfl)
  awake _ := rfl

theorem Idle.changed (h : stream.Idle) (content : String) (finished : Bool) :
    (stream.changed content finished).Driven .asleep where
  sending := rfl
  settled := h.settled.step (.revise _ (sendable content))
  due _ := .inr (.inl rfl)
  awake _ := rfl

theorem Driven.cleanup (h : stream.Driven driver) (cleanup : Bool) :
    { stream with cleanupAfterDelivery := cleanup }.Driven driver :=
  ⟨h.sending, h.settled, h.due, h.awake⟩

theorem Driven.taken (h : stream.Driven .asleep) :
    { stream with dirty := false }.Driven (.sending (sendable stream.content) stream.finished) where
  sending := h.sending
  settled := h.settled.step (.claim _ rfl)
  due hfinished := .inr (.inr hfinished)
  awake hasleep := by cases hasleep

/-- The stream after its driver has sent a snapshot. -/
def sent (stream : WecomStreamState) (content : String) (finished : Bool) : WecomStreamState :=
  { stream with sentContent := content, delivered := stream.delivered || finished }

section Sent

variable {content : String} {finished : Bool}

section

variable (h : stream.Driven (.sending content finished))
include h

theorem Driven.sent_settled : ((stream.sent content finished).slot .asleep).Settled :=
  h.settled.step (.deliver _ rfl)

theorem Driven.sent_dirty (hdirty : stream.dirty = true) : (stream.sent content finished).Driven .asleep where
  sending := h.sending
  settled := h.sent_settled
  due _ := .inr (.inl hdirty)
  awake _ := hdirty

theorem Driven.sent_clean (hclean : stream.dirty = false) :
    { stream.sent content finished with sending := false }.Idle where
  idle := rfl
  clean := hclean
  settled := h.sent_settled
  due hfinished := by
    obtain hdelivered | hdirty | hfinishes := h.due hfinished
    · exact .inl (by simp [sent, hdelivered])
    · exact absurd (hclean.symm.trans hdirty) Bool.false_ne_true
    · have hfinishes : finished = true := hfinishes
      exact .inl (by simp [sent, hfinishes])

end

theorem Driven.failed (hsent : stream.sentContent = sendable stream.content)
    (hfinished : stream.finished = true → stream.delivered = true ∨ stream.cleanupAfterDelivery = false) :
    { stream with sending := false, dirty := false }.Idle where
  idle := rfl
  clean := rfl
  settled := Slot.abandon_settled_iff (s := stream.slot .ended).mpr hsent
  due := hfinished

end Sent

end WecomStreamState

namespace WecomSystem

open WecomStreamState

variable {s t : WecomSystem}

/-- What every reached state keeps: one driver acts for a stream that is sending, and none for another. -/
structure Sound (s : WecomSystem) : Prop where
  counted : ∀ n driver, s.drivers.lookup n = some driver → n < s.spawned
  alone : ∀ n m, s.Live n → s.Live m → m = n
  served : ∀ stream, s.stream = some stream → stream.Idle ∨
    ∃ n driver, s.drivers.lookup n = some driver ∧ driver.live = true ∧ stream.Driven driver
  serving : ∀ n driver stream, s.drivers.lookup n = some driver → driver.live = true → s.stream = some stream →
    stream.Driven driver

theorem start_sound : start.Sound := by
  refine ⟨?_, ?_, ?_, ?_⟩
  · intro n driver h
    cases h
  · intro n m h
    cases h
  · intro stream h
    cases Option.some.inj h
    exact .inl new_idle
  · intro n driver stream h
    cases h

theorem live_of_lookup {n : Nat} {driver : WecomDriver} (hd : s.drivers.lookup n = some driver) :
    s.Live n ↔ driver.live = true := by
  rw [Live, hd]
  exact Iff.rfl

namespace Sound

theorem act (hs : s.Sound) {n : Nat} {driver stage : WecomDriver} {stream : Option WecomStreamState}
    (hd : s.drivers.lookup n = some driver) (hlive : driver.live = true)
    (h : ∀ new, stream = some new → (stage.live = true ∧ new.Driven stage) ∨ (stage.live = false ∧ new.Idle)) :
    ({ s with stream := stream }.moveTo n stage).Sound := by
  have hlookup : ∀ m, (s.drivers.insert n stage).lookup m = if m = n then some stage else s.drivers.lookup m :=
    fun m => Table.lookup_insert_eq _ _ _ _
  have hwas : s.Live n := (live_of_lookup hd).mpr hlive
  have honly : ∀ m, ({ s with stream := stream }.moveTo n stage).Live m → m = n := by
    intro m hm
    by_cases hmn : m = n
    · exact hmn
    · refine hs.alone n m hwas ?_
      rw [Live, moveTo, hlookup, if_neg hmn] at hm
      exact hm
  refine ⟨?_, ?_, ?_, ?_⟩
  · intro m driver' hd'
    have hd' := (hlookup m).symm.trans hd'
    split at hd'
    next hmn => exact hmn ▸ hs.counted n driver hd
    next => exact hs.counted m driver' hd'
  · intro m m' hm hm'
    exact (honly m' hm').trans (honly m hm).symm
  · intro new hnew
    obtain ⟨hstage, hdriven⟩ | ⟨_, hidle⟩ := h new hnew
    · exact .inr ⟨n, stage, AList.lookup_insert _, hstage, hdriven⟩
    · exact .inl hidle
  · intro m driver' new hd' hlive' hnew
    have hm := honly m ((live_of_lookup hd').mpr hlive')
    subst hm
    cases Option.some.inj ((AList.lookup_insert _).symm.trans hd')
    obtain ⟨_, hdriven⟩ | ⟨hstage, _⟩ := h new hnew
    · exact hdriven
    · exact absurd (hstage.symm.trans hlive') Bool.false_ne_true

theorem gone (hs : s.Sound) : Sound { s with stream := none } := by
  refine ⟨hs.counted, hs.alone, ?_, ?_⟩
  · intro stream h
    cases h
  · intro n driver stream _ _ h
    cases h

theorem driveChanged (hs : s.Sound) {old new : WecomStreamState} (hold : s.stream = some old)
    (hdriven : ∀ driver, old.Driven driver → new.Driven driver) (hidle : old.Idle → new.Driven .asleep) :
    (s.driveChanged old new).Sound := by
  unfold WecomSystem.driveChanged
  obtain hi | ⟨n, driver, hd, hlive, hdrives⟩ := hs.served old hold
  · rw [if_neg (by rw [hi.idle]; exact Bool.false_ne_true)]
    have hnone : ∀ m, ¬ s.Live m := by
      intro m hm
      obtain ⟨driver, hd, hlive⟩ := (Option.any_eq_true _ _).mp hm
      exact absurd (hi.idle.symm.trans (hs.serving m driver old hd hlive hold).sending) Bool.false_ne_true
    have hlookup : ∀ m, (s.drivers.insert s.spawned .asleep).lookup m =
        if m = s.spawned then some .asleep else s.drivers.lookup m := fun m => Table.lookup_insert_eq _ _ _ _
    have honly : ∀ m, ((s.drivers.insert s.spawned .asleep).lookup m).any WecomDriver.live = true → m = s.spawned := by
      intro m hm
      rw [hlookup] at hm
      split at hm
      next hmn => exact hmn
      next => exact absurd hm (hnone m)
    refine ⟨?_, ?_, ?_, ?_⟩
    · intro m driver hd
      have hd := (hlookup m).symm.trans hd
      split at hd
      next hmn => exact hmn ▸ Nat.lt_succ_self _
      next => exact Nat.lt_succ_of_lt (hs.counted m driver hd)
    · intro m m' hm hm'
      exact (honly m' hm').trans (honly m hm).symm
    · intro stream hstream
      cases Option.some.inj hstream
      exact .inr ⟨s.spawned, .asleep, AList.lookup_insert _, rfl, hidle hi⟩
    · intro m driver stream hd hlive hstream
      cases Option.some.inj hstream
      have hm := honly m (by rw [hd]; exact hlive)
      subst hm
      cases Option.some.inj ((AList.lookup_insert _).symm.trans hd)
      exact hidle hi
  · rw [if_pos hdrives.sending]
    refine ⟨hs.counted, hs.alone, ?_, ?_⟩
    · intro stream hstream
      cases Option.some.inj hstream
      exact .inr ⟨n, driver, hd, hlive, hdriven driver hdrives⟩
    · intro m driver' stream hd' hlive' hstream
      cases Option.some.inj hstream
      exact hdriven driver' (hs.serving m driver' old hd' hlive' hold)

end Sound

/-- A send fails only while the text sent last is the stream's and a turn's end that was handled has been
sent. -/
def Regular (s : WecomSystem) : WecomStep → Prop
  | .sendFails _ => ∀ stream ∈ s.stream, stream.sentContent = sendable stream.content ∧
    (stream.finished = true → stream.delivered = true ∨ stream.cleanupAfterDelivery = false)
  | _ => True

instance (a : WecomStep) : Decidable (s.Regular a) :=
  match a with
  | .sendFails _ => inferInstanceAs (Decidable (∀ stream ∈ s.stream, _ ∧ (_ → _ ∨ _)))
  | .delta _ _ | .final _ _ | .replaced | .wake _ | .sent _ => .isTrue trivial

theorem step_sound {a : WecomStep} (hs : s.Sound) (hg : s.Regular a) (h : step s a = some t) : t.Sound := by
  cases a with
  | delta delta finish =>
    cases Option.some.inj h
    unfold sendWecomStreamDelta
    split
    next => exact hs
    next stream hstream =>
      exact hs.driveChanged hstream (fun driver hdriven => hdriven.changed _ _) fun hidle => hidle.changed _ _
  | final finalText cleanupAfterDelivery =>
    cases Option.some.inj h
    unfold sendWecomStreamFinal
    split
    next => exact hs
    next stream hstream =>
      dsimp only
      split
      next => exact hs.gone
      next =>
        exact hs.driveChanged hstream (fun driver hdriven => (hdriven.changed _ _).cleanup _) fun hidle =>
          (hidle.changed _ _).cleanup _
  | replaced =>
    cases Option.some.inj h
    exact hs.gone
  | wake n =>
    simp only [step] at h
    split at h
    next hd hstream =>
      cases Option.some.inj h
      refine hs.act hd rfl fun new hnew => ?_
      cases hstream.symm.trans hnew
    next stream hd hstream =>
      have hdriven := hs.serving n .asleep stream hd rfl hstream
      rw [hdriven.awake rfl] at h
      cases Option.some.inj h
      refine hs.act hd rfl fun new hnew => .inl ⟨rfl, ?_⟩
      cases Option.some.inj hnew
      exact hdriven.taken
    next => cases h
  | sent n =>
    simp only [step] at h
    split at h
    next hd hstream =>
      cases Option.some.inj h
      refine hs.act hd rfl fun new hnew => ?_
      cases hstream.symm.trans hnew
    next content finished stream hd hstream =>
      have hdriven := hs.serving n _ stream hd rfl hstream
      split at h
      next =>
        cases Option.some.inj h
        refine hs.act hd rfl fun new hnew => ?_
        cases hnew
      next =>
        split at h
        next hdirty =>
          cases Option.some.inj h
          refine hs.act hd rfl fun new hnew => .inl ⟨rfl, ?_⟩
          cases Option.some.inj hnew
          exact hdriven.sent_dirty hdirty
        next hclean =>
          cases Option.some.inj h
          refine hs.act hd rfl fun new hnew => .inr ⟨rfl, ?_⟩
          cases Option.some.inj hnew
          exact hdriven.sent_clean (Bool.eq_false_iff.mpr hclean)
    next => cases h
  | sendFails n =>
    simp only [step] at h
    split at h
    next hd hstream =>
      cases Option.some.inj h
      refine hs.act hd rfl fun new hnew => ?_
      cases hstream.symm.trans hnew
    next stream hd hstream =>
      cases Option.some.inj h
      obtain ⟨hsent, hfinished⟩ := hg stream hstream
      refine hs.act hd rfl fun new hnew => .inr ⟨rfl, ?_⟩
      cases Option.some.inj hnew
      exact Driven.failed hsent hfinished
    next => cases h

/-- The driver gets a finished stream delivered from here by steps of its own. -/
def WillDeliver (s : WecomSystem) : Prop :=
  ∃ n steps t, (∀ a ∈ steps, a = WecomStep.wake n ∨ a = WecomStep.sent n) ∧ Runs.run step s steps = some t ∧
    ∀ stream, t.stream = some stream → stream.delivered = true

variable {stream : WecomStreamState}

theorem willDeliver_sending {n : Nat} {content : String} (hd : s.drivers.lookup n = some (.sending content true))
    (hstream : s.stream = some stream) :
    ∃ t, step s (.sent n) = some t ∧ ∀ stream', t.stream = some stream' → stream'.delivered = true := by
  simp only [step, hd, hstream]
  split
  next =>
    refine ⟨_, rfl, fun stream' h => ?_⟩
    cases h
  next =>
    split
    next =>
      refine ⟨_, rfl, fun stream' h => ?_⟩
      cases Option.some.inj h
      exact Bool.or_true _
    next =>
      refine ⟨_, rfl, fun stream' h => ?_⟩
      cases Option.some.inj h
      exact Bool.or_true _

theorem willDeliver_asleep {n : Nat} (hd : s.drivers.lookup n = some .asleep) (hstream : s.stream = some stream)
    (hdirty : stream.dirty = true) (hfinished : stream.finished = true) :
    ∃ t, Runs.run step s [.wake n, .sent n] = some t ∧
      ∀ stream', t.stream = some stream' → stream'.delivered = true := by
  have hwake : step s (.wake n) = some ({ s with stream := some { stream with dirty := false } }.moveTo n
      (.sending (sendable stream.content) true)) := by
    simp [step, hd, hstream, hdirty, hfinished]
  obtain ⟨t, ht, hdelivered⟩ := willDeliver_sending
    (s := { s with stream := some { stream with dirty := false } }.moveTo n (.sending (sendable stream.content) true))
    (AList.lookup_insert _) rfl
  exact ⟨t, by simp [Runs.run, hwake, ht], hdelivered⟩

theorem Sound.willDeliver (hs : s.Sound) (hstream : s.stream = some stream) (hfinished : stream.finished = true)
    (hdelivered : stream.delivered = false) (hcleanup : stream.cleanupAfterDelivery = true) : s.WillDeliver := by
  obtain hidle | ⟨n, driver, hd, hlive, hdriven⟩ := hs.served stream hstream
  · obtain hwas | hopen := hidle.due hfinished
    · exact absurd (hdelivered.symm.trans hwas) Bool.false_ne_true
    · exact absurd (hopen.symm.trans hcleanup) Bool.false_ne_true
  cases driver with
  | ended => cases hlive
  | asleep =>
    obtain ⟨t, ht, hall⟩ := willDeliver_asleep hd hstream (hdriven.awake rfl) hfinished
    exact ⟨n, _, t, by simp, ht, hall⟩
  | sending content finishing =>
    cases finishing with
    | true =>
      obtain ⟨t, ht, hall⟩ := willDeliver_sending hd hstream
      exact ⟨n, [.sent n], t, by simp, by simp [Runs.run, ht], hall⟩
    | false =>
      -- the finish came after the snapshot on its way, so the stream is dirty and goes out once more
      have hdirty : stream.dirty = true := by
        obtain hwas | hdirty | hfinishes := hdriven.due hfinished
        · exact absurd (hdelivered.symm.trans hwas) Bool.false_ne_true
        · exact hdirty
        · cases hfinishes
      have hsent : step s (.sent n) = some ({ s with stream := some (stream.sent content false) }.moveTo n .asleep) := by
        simp [step, hd, hstream, hdirty, hdelivered, WecomStreamState.sent]
      have hkept : ({ s with stream := some (stream.sent content false) }.moveTo n .asleep).stream =
          some (stream.sent content false) := rfl
      obtain ⟨t, ht, hall⟩ := willDeliver_asleep (AList.lookup_insert _) hkept hdirty hfinished
      exact ⟨n, [.sent n, .wake n, .sent n], t, by simp, by rw [Runs.run, hsent]; exact ht, hall⟩

/-- What the reader of a stream can rely on: text that is neither marked nor on its way was sent, and a finished
stream was delivered, or its driver or the end of its turn, which is still to come, delivers it. -/
structure Delivers (s : WecomSystem) : Prop where
  content : ∀ stream, s.stream = some stream → stream.sending = false → stream.dirty = false →
    stream.sentContent = sendable stream.content
  finished : ∀ stream, s.stream = some stream → stream.finished = true →
    stream.delivered = true ∨ s.WillDeliver ∨ stream.cleanupAfterDelivery = false

theorem Sound.delivers (hs : s.Sound) : s.Delivers where
  content stream hstream hstopped hclean := by
    obtain hidle | ⟨n, driver, _, _, hdriven⟩ := hs.served stream hstream
    · exact hidle.settled.shown_eq hclean rfl
    · exact absurd (hstopped.symm.trans hdriven.sending) Bool.false_ne_true
  finished stream hstream hfinished := by
    cases hdelivered : stream.delivered with
    | true => exact .inl rfl
    | false =>
      cases hcleanup : stream.cleanupAfterDelivery with
      | true => exact .inr (.inl (hs.willDeliver hstream hfinished hdelivered hcleanup))
      | false => exact .inr (.inr rfl)

/-- In every run whose failed sends leave nothing unsent a stream's last content reaches its reader. -/
theorem wecom_stream_delivers_last_content {steps : List WecomStep} (hm : Runs.Meets step Regular start steps)
    (h : Runs.run step start steps = some s) : s.Delivers :=
  (Runs.run_invariant_of_meets Sound (fun _ _ _ => step_sound) start_sound hm h).delivers

/-- The reply changes while its first part is on its way; sending the second part again fails. -/
def resentReply : List WecomStep :=
  [.delta "hello" false, .wake 0, .delta " world" false, .sent 0, .wake 0, .sent 0,
    .final (some "hello world") false, .wake 1, .sendFails 1, .final (some "hello world") true, .wake 2]

theorem wecom_stream_delivers_last_content_resent :
    ∃ s, Runs.run step start resentReply = some s ∧ s.stream.map (·.sentContent) = some "hello world" ∧
      s.Delivers := by
  have hrun : (Runs.run step start resentReply).map (fun s => s.stream.map (·.sentContent)) =
      some (some "hello world") := by decide +kernel
  obtain ⟨s, hs, hsent⟩ := Option.map_eq_some_iff.mp hrun
  exact ⟨s, hs, hsent, wecom_stream_delivers_last_content (by decide +kernel) hs⟩

/-- The send of a finished stream fails, and its text is neither marked nor on its way. -/
theorem failed_final_forgotten :
    ¬ ∀ (steps : List WecomStep) (s : WecomSystem), Runs.run step start steps = some s → s.Delivers := by
  intro hall
  have hrun : (Runs.run step start [.final (some "done") true, .wake 0, .sendFails 0]).map (·.stream) =
      some (some ⟨"done", "", true, false, false, false, true, 1⟩) := by decide +kernel
  obtain ⟨s, hs, hstream⟩ := Option.map_eq_some_iff.mp hrun
  have hsent := (hall _ s hs).content _ hstream rfl rfl
  exact absurd hsent (by decide +kernel)

end WecomSystem

end MochiPort

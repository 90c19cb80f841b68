import MochiPort.ProgressDelivery

namespace MochiPort

open Coalescing Option TelegramCommandProgressState ThreadProgress

namespace ProgressSystem

variable {s t : ProgressSystem}

/-- The progress message as its reader has it: nothing before the first delivery. -/
def view (s : ProgressSystem) : Slot TelegramCommandProgressSnapshot where
  current := s.entry.snapshot.content
  dirty := s.entry.dirty
  inFlight := if s.entry.inFlightRevision.isSome then s.claimed.map (·.content) else none
  shown := (s.delivered.map (·.content)).getD (new s.turnId).snapshot.content

variable {driver : Nat} {snapshot : TelegramCommandProgressSnapshot}

theorem view_inFlight (hs : s.Driven) (hd : s.Holds driver snapshot)
    (hflight : s.entry.inFlightRevision = some snapshot.revision) : s.view.inFlight = some snapshot.content := by
  have hclaimed := (hs.flight (.inr (hs.sending_of_flight hflight)) hd).2
  simp [view, hflight, hclaimed]

variable {rows : ThreadProgress}

section

variable (hs : s.Driven)
include hs

theorem view_withRows (hsame : rows.progress = s.rows.progress) : (s.withRows rows).view = s.view := by
  have hentry : (s.withRows rows).entry = s.entry := by
    change rows.progress.getD _ = s.rows.progress.getD _
    rw [hsame]
    rfl
  have hdelivered : (s.withRows rows).delivered = s.delivered := by
    change (if rows.progress.isNone then none else s.delivered) = s.delivered
    rw [hsame]
    exact congrArg ProgressSystem.delivered hs.withRows_self
  rw [view, hentry, hdelivered]
  rfl

theorem change_steps (he : Edited s.rows rows s.turnId) : Steps s.view (s.withRows rows).view := by
  obtain rfl | ⟨progress, rfl, ht⟩ := he
  · rw [hs.withRows_self]
  have hflight : (s.withRows (s.rows.store progress)).view.inFlight = s.view.inFlight := by
    change (if progress.inFlightRevision.isSome then _ else _) = _
    rw [ht.inFlightRevision]
    rfl
  obtain ⟨hsnapshot, hdirty⟩ | ⟨_, hdirty⟩ := ht.noted
  · have hview : (s.withRows (s.rows.store progress)).view = s.view :=
      Slot.ext (congrArg TelegramCommandProgressSnapshot.content hsnapshot) hdirty hflight rfl
    rw [hview]
  · have hview : (s.withRows (s.rows.store progress)).view = s.view.revise progress.snapshot.content :=
      Slot.ext rfl hdirty hflight rfl
    rw [hview]
    exact .single (.revise _ _)

omit hs in
theorem view_of_none (hnone : s.rows.progress = none) (hdelivered : s.delivered = none) :
    s.view = .new (new s.turnId).snapshot.content := by
  have hentry : s.entry = new s.turnId := by
    rw [entry, ThreadProgress.entry, hnone]
    rfl
  rw [view, hentry, hdelivered]
  rfl

omit hs in
theorem restart_steps (hnone : t.rows.progress = none) (hdelivered : t.delivered = none) : Steps s.view t.view := by
  rw [view_of_none hnone hdelivered]
  exact .single (.restart _ _)

theorem turnCompleted_steps (turnId : Option String) (ended : Bool) :
    Steps s.view ({ s.withRows (s.rows.markTurnCompleted turnId).1 with ended := ended } : ProgressSystem).view := by
  obtain hsame | ⟨_, _, hkept⟩ | ⟨_, hnone⟩ := markTurnCompleted_cases s.rows s.turnId turnId
  · rw [hsame, hs.withRows_self]
    exact .refl
  · rw [hkept]
    exact .refl
  · rw [hnone]
    exact restart_steps rfl rfl

omit hs in
theorem view_takeUp (driver : Nat) (messageId : Option String) :
    (s.takeUp driver (s.rows.store { s.entry.taken with messageId := messageId },
      some { s.entry with messageId := messageId }.snapshot)).view = s.view.claim :=
  Slot.ext rfl rfl rfl rfl

theorem view_takeUp_none : (s.takeUp driver (s.rows, none)).view = s.view := by
  change ((s.withRows s.rows).moveTo driver .ended).view = s.view
  rw [hs.withRows_self]
  rfl

theorem claim_steps (driver : Nat) :
    Steps s.view (s.takeUp driver (s.rows.claimTelegramCommandProgressDelivery s.turnId)).view := by
  obtain hnone | ⟨hidle, _, _, hclaim⟩ := claim_cases hs.sound
  · rw [hnone, view_takeUp_none hs]
  · have hfree : s.view.inFlight = none := by
      cases hflight : s.entry.inFlightRevision with
      | none => simp [view, hflight]
      | some revision => exact absurd (hidle.symm.trans (hs.sending_of_flight hflight)) Bool.false_ne_true
    have hview := view_takeUp (s := s) driver s.entry.messageId
    rw [hclaim]
    exact .single (hview ▸ .claim _ hfree)

theorem retry_steps (driver : Nat) :
    Steps s.view (s.takeUp driver (s.rows.retryTelegramCommandProgressDelivery s.turnId)).view := by
  obtain hnone | ⟨_, hfree, hretry⟩ := retry_cases s.rows s.turnId
  · rw [hnone, view_takeUp_none hs]
  · have hfree : s.entry.inFlightRevision = none := hfree
    have hview := view_takeUp (s := s) driver s.entry.messageId
    rw [hretry]
    exact .single (hview ▸ .claim _ (by simp [view, hfree]))

theorem sent_steps (hd : s.drivers.lookup driver = some (.sending snapshot)) (messageId : String) :
    Steps s.view ((s.noteDelivered snapshot).takeUp driver
      (s.rows.completeTelegramCommandProgressDelivery s.turnId snapshot.revision messageId)).view := by
  obtain ⟨hother, hsame⟩ | ⟨hflight, hreported⟩ := complete_cases hs.sound snapshot.revision messageId
  · have hnoted : s.noteDelivered snapshot = s := if_neg hother
    rw [hsame, hnoted, view_takeUp_none hs]
  have hnoted : s.noteDelivered snapshot = { s with delivered := some snapshot } := if_pos hflight
  have hdeliver : Step s.view (s.view.deliver snapshot.content) :=
    .deliver _ (view_inFlight hs ((holds_of_lookup hd).mpr rfl) hflight)
  rw [hnoted]
  obtain ⟨_, hnext⟩ | ⟨_, hgone⟩ | ⟨_, _, hidle⟩ := hreported
  · rw [hnext]
    exact (Relation.ReflTransGen.single hdeliver).tail (.claim _ rfl)
  · rw [hgone]
    exact restart_steps rfl rfl
  · rw [hidle]
    exact .single hdeliver

theorem sendFails_steps {stage : ProgressDriver} : Steps s.view ((s.withRows
      (s.rows.failTelegramCommandProgressDelivery s.turnId snapshot.revision).1).moveTo driver stage).view := by
  obtain ⟨_, hsame⟩ | ⟨_, hreported⟩ := fail_cases hs.sound snapshot.revision
  · rw [hsame, hs.withRows_self]
    exact .refl
  obtain ⟨_, hretained⟩ | ⟨_, hdropped⟩ := hreported
  · rw [hretained]
    exact .single (.fail _)
  · rw [hdropped]
    exact .single (.fail _)

theorem step_steps {a : ProgressStep} (hg : s.Regular a) (h : step s a = some t) : Steps s.view t.view := by
  cases a with
  | turnStarted =>
    obtain ⟨_, h⟩ := ite_none_left_eq_some.mp h
    cases Option.some.inj h
    rw [view_withRows hs (markTurnStarted_progress hs.sound.ofTurn)]
  | change change =>
    cases Option.some.inj h
    exact change_steps hs (apply_edited hs.sound.ofTurn change hg.1)
  | turnCompleted turnId =>
    cases Option.some.inj h
    exact turnCompleted_steps hs turnId _
  | deliver driver =>
    obtain ⟨_, h⟩ := ite_none_left_eq_some.mp h
    cases Option.some.inj h
    exact claim_steps hs driver
  | checkCurrent driver =>
    simp only [step] at h
    split at h
    next =>
      split at h
      next =>
        cases Option.some.inj h
        exact .refl
      next =>
        cases Option.some.inj h
        exact .refl
    next => cases h
  | sent driver messageId =>
    simp only [step] at h
    split at h
    next snapshot hd =>
      cases Option.some.inj h
      exact sent_steps hs hd messageId
    next => cases h
  | sendFails driver retryAfter =>
    simp only [step] at h
    split at h
    next snapshot hd =>
      cases Option.some.inj h
      exact sendFails_steps hs
    next => cases h
  | wake driver =>
    simp only [step] at h
    split at h
    next deliveryRetained hd =>
      cases Option.some.inj h
      cases deliveryRetained with
      | true => exact retry_steps hs driver
      | false => exact claim_steps hs driver
    next => cases h

end

variable {turnId : String}

theorem run_settled {steps : List ProgressStep} (hm : Runs.Meets step Regular (start turnId) steps)
    (h : Runs.run step (start turnId) steps = some s) : s.Driven ∧ s.view.Settled := by
  refine Runs.run_invariant_of_meets (fun s => s.Driven ∧ s.view.Settled) ?_ ⟨start_driven turnId, ?_⟩ hm h
  · rintro s a t ⟨hs, hsettled⟩ hg ht
    exact ⟨step_driven hs hg ht, hsettled.steps (step_steps hs hg ht)⟩
  · intro _
    rfl

/-- What no reached state may break: one claimed snapshot is on its way, a report on any other does nothing,
and an entry that is neither dirty nor on its way is the one delivered last, or still the empty one. -/
structure Lossless (s : ProgressSystem) : Prop where
  oneInFlight : ∀ driver other snapshot snapshot', s.Holds driver snapshot → s.Holds other snapshot' → other = driver
  straysIgnored : ∀ revision messageId, (∀ snapshot, s.InFlight snapshot → snapshot.revision ≠ revision) →
    s.rows.completeTelegramCommandProgressDelivery s.turnId revision messageId = (s.rows, none) ∧
      s.rows.failTelegramCommandProgressDelivery s.turnId revision = (s.rows, false)
  shown : ∀ progress, s.rows.progress = some progress → progress.dirty = false →
    (∀ snapshot, ¬ s.InFlight snapshot) →
      let last := s.delivered.getD (new s.turnId).snapshot
      last.rendered = progress.snapshot.rendered ∧ last.revision = progress.revision

/-- A change of what an entry shows raises its revision. -/
def Grows (s t : ProgressSystem) : Prop :=
  ∀ progress progress', s.rows.progress = some progress → t.rows.progress = some progress' →
    progress'.snapshot.rendered ≠ progress.snapshot.rendered → progress.revision < progress'.revision

theorem Driven.inFlight (hs : s.Driven) {revision : Nat} (h : s.entry.inFlightRevision = some revision) :
    ∃ snapshot, s.InFlight snapshot ∧ snapshot.revision = revision := by
  obtain ⟨driver, snapshot, hd, hsame⟩ := hs.carried revision h
  exact ⟨snapshot, ⟨by rw [hsame]; exact h, driver, hd⟩, hsame⟩

theorem Driven.straysIgnored (hs : s.Driven) {revision : Nat} (messageId : String)
    (hother : ∀ snapshot, s.InFlight snapshot → snapshot.revision ≠ revision) :
    s.rows.completeTelegramCommandProgressDelivery s.turnId revision messageId = (s.rows, none) ∧
      s.rows.failTelegramCommandProgressDelivery s.turnId revision = (s.rows, false) := by
  have hrevision : (s.rows.entry s.turnId).inFlightRevision ≠ some revision := by
    intro hflight
    obtain ⟨snapshot, hin, hsame⟩ := hs.inFlight hflight
    exact hother snapshot hin hsame
  constructor
  · obtain ⟨_, hsame⟩ | ⟨hflight, _⟩ := complete_cases hs.sound revision messageId
    · exact hsame
    · exact absurd hflight hrevision
  · obtain ⟨_, hsame⟩ | ⟨hflight, _⟩ := fail_cases hs.sound revision
    · exact hsame
    · exact absurd hflight hrevision

theorem Driven.lossless (hs : s.Driven) (hsettled : s.view.Settled) : s.Lossless where
  oneInFlight := hs.alone
  straysIgnored _ messageId := hs.straysIgnored messageId
  shown progress hp hclean hnone := by
    have hentry : s.entry = progress := entry_of_some hp
    have hfree : s.entry.inFlightRevision = none := by
      rw [eq_none_iff_forall_ne_some]
      intro revision hflight
      obtain ⟨snapshot, hin, _⟩ := hs.inFlight hflight
      exact hnone snapshot hin
    have hmark : s.view.dirty = false := by
      change s.entry.dirty = false
      rw [hentry]
      exact hclean
    have hshown := hsettled.shown_eq hmark (by simp [view, hfree])
    have hcontent : (s.delivered.getD (new s.turnId).snapshot).content = progress.snapshot.content := by
      rw [← hentry]
      refine Eq.trans ?_ hshown
      rw [view]
      cases s.delivered <;> rfl
    exact ⟨congrArg (fun content => { content with revision := 0 }) hcontent,
      congrArg TelegramCommandProgressSnapshot.revision hcontent⟩

/-- The rows show what they showed before, if anything. -/
def SameShown (turnId : String) (r r' : ThreadProgress) : Prop :=
  ∀ progress, r'.progress = some progress → progress.snapshot.rendered = (r.entry turnId).snapshot.rendered

theorem SameShown.same {r r' : ThreadProgress} (h : r'.progress = r.progress) : SameShown turnId r r' := by
  intro progress hp
  rw [entry_of_some (h.symm.trans hp)]

theorem SameShown.store {r : ThreadProgress} {progress : TelegramCommandProgressState}
    (h : progress.snapshot.rendered = (r.entry turnId).snapshot.rendered) :
    SameShown turnId r (r.store progress) := by
  intro stored hstored
  cases Option.some.inj hstored
  exact h

theorem SameShown.none {r r' : ThreadProgress} (h : r'.progress = none) : SameShown turnId r r' := by
  intro progress hp
  cases h.symm.trans hp

theorem takeUp_rows {result : ThreadProgress × Option TelegramCommandProgressSnapshot} :
    (s.takeUp driver result).rows = result.1 := by
  unfold takeUp
  split <;> rfl

theorem claim_sameShown (hs : s.Driven) :
    SameShown s.turnId s.rows (s.rows.claimTelegramCommandProgressDelivery s.turnId).1 := by
  obtain hnone | ⟨_, _, _, hclaim⟩ := claim_cases hs.sound
  · rw [hnone]
    exact .same rfl
  · rw [hclaim]
    exact .store rfl

theorem retry_sameShown (s : ProgressSystem) :
    SameShown s.turnId s.rows (s.rows.retryTelegramCommandProgressDelivery s.turnId).1 := by
  obtain hnone | ⟨_, _, hretry⟩ := retry_cases s.rows s.turnId
  · rw [hnone]
    exact .same rfl
  · rw [hretry]
    exact .store rfl

theorem complete_sameShown (hs : s.Driven) (revision : Nat) (messageId : String) :
    SameShown s.turnId s.rows
      (s.rows.completeTelegramCommandProgressDelivery s.turnId revision messageId).1 := by
  obtain ⟨_, hsame⟩ | ⟨_, ⟨_, hnext⟩ | ⟨_, hgone⟩ | ⟨_, _, hidle⟩⟩ := complete_cases hs.sound revision messageId
  · rw [hsame]
    exact .same rfl
  · rw [hnext]
    exact .store rfl
  · rw [hgone]
    exact .none rfl
  · rw [hidle]
    exact .store rfl

theorem fail_sameShown (hs : s.Driven) (revision : Nat) :
    SameShown s.turnId s.rows (s.rows.failTelegramCommandProgressDelivery s.turnId revision).1 := by
  obtain ⟨_, hsame⟩ | ⟨_, ⟨_, hretained⟩ | ⟨_, hdropped⟩⟩ := fail_cases hs.sound revision
  · rw [hsame]
    exact .same rfl
  · rw [hretained]
    exact .store rfl
  · rw [hdropped]
    exact .store rfl

theorem turnCompleted_sameShown (s : ProgressSystem) (completed : Option String) :
    SameShown s.turnId s.rows (s.rows.markTurnCompleted completed).1 := by
  obtain hsame | ⟨_, _, hkept⟩ | ⟨_, hnone⟩ := markTurnCompleted_cases s.rows s.turnId completed
  · rw [hsame]
    exact .same rfl
  · rw [hkept]
    intro progress hp
    cases Option.some.inj hp
    rfl
  · rw [hnone]
    exact .none rfl

theorem Grows.sameShown (h : SameShown s.turnId s.rows t.rows) : Grows s t := by
  intro progress progress' hp hp' hne
  have hsame := h progress' hp'
  rw [entry_of_some hp] at hsame
  exact absurd hsame hne

theorem change_grows (he : Edited s.rows rows s.turnId) (hroom : s.entry.revision < u64Max) :
    Grows s (s.withRows rows) := by
  intro progress progress' hp hp' hne
  obtain rfl | ⟨stored, rfl, ht⟩ := he
  · cases Option.some.inj (hp.symm.trans hp')
    exact absurd rfl hne
  cases Option.some.inj hp'
  have hentry : s.entry = progress := entry_of_some hp
  rw [← hentry] at hne ⊢
  obtain ⟨hsnapshot, _⟩ | ⟨hrevision, _⟩ := ht.noted
  · exact absurd (congrArg TelegramCommandProgressSnapshot.rendered hsnapshot) hne
  · rw [hrevision]
    unfold saturatingAdd
    have hroom : (s.rows.entry s.turnId).revision < u64Max := hroom
    change (s.rows.entry s.turnId).revision < _
    omega

theorem step_grows {a : ProgressStep} (hs : s.Driven) (hg : s.Regular a) (h : step s a = some t) : Grows s t := by
  cases a with
  | turnStarted =>
    obtain ⟨_, h⟩ := ite_none_left_eq_some.mp h
    cases Option.some.inj h
    exact .sameShown (.same (markTurnStarted_progress hs.sound.ofTurn))
  | change change =>
    cases Option.some.inj h
    exact change_grows (apply_edited hs.sound.ofTurn change hg.1) hg.2
  | turnCompleted turnId =>
    cases Option.some.inj h
    exact .sameShown (turnCompleted_sameShown s turnId)
  | deliver driver =>
    obtain ⟨_, h⟩ := ite_none_left_eq_some.mp h
    cases Option.some.inj h
    exact .sameShown (takeUp_rows ▸ claim_sameShown hs)
  | checkCurrent driver =>
    simp only [step] at h
    split at h
    next =>
      split at h
      next =>
        cases Option.some.inj h
        exact .sameShown (.same rfl)
      next =>
        cases Option.some.inj h
        exact .sameShown (.same rfl)
    next => cases h
  | sent driver messageId =>
    simp only [step] at h
    split at h
    next snapshot hd =>
      cases Option.some.inj h
      exact .sameShown (takeUp_rows ▸ complete_sameShown hs snapshot.revision messageId)
    next => cases h
  | sendFails driver retryAfter =>
    simp only [step] at h
    split at h
    next snapshot hd =>
      cases Option.some.inj h
      exact .sameShown (fail_sameShown hs snapshot.revision)
    next => cases h
  | wake driver =>
    simp only [step] at h
    split at h
    next deliveryRetained hd =>
      cases Option.some.inj h
      cases deliveryRetained with
      | true => exact .sameShown (takeUp_rows ▸ retry_sameShown s)
      | false => exact .sameShown (takeUp_rows ▸ claim_sameShown hs)
    next => cases h

/-- In every run whose changes are regular no update of the progress message is lost. -/
theorem progress_loses_no_update {turnId : String} {steps : List ProgressStep}
    (hm : Runs.Meets step Regular (start turnId) steps) (h : Runs.run step (start turnId) steps = some s) :
    s.Lossless ∧ ∀ a t, s.Regular a → step s a = some t → Grows s t := by
  obtain ⟨hs, hsettled⟩ := run_settled hm h
  exact ⟨hs.lossless hsettled, fun a t hg ht => step_grows hs hg ht⟩

/-- A text is said and taken back while it is on its way; the delivery fails once and is tried again. -/
def retriedDelivery : List ProgressStep :=
  [.turnStarted, .change (.upsertCommentary "said" "looking"), .deliver 0, .checkCurrent 0,
    .change (.removeCommentary "said"), .sendFails 0 true, .wake 0, .checkCurrent 0, .sent 0 "message"]

theorem progress_loses_no_update_retried :
    ∃ s, Runs.run step (start "turn") retriedDelivery = some s ∧ s.delivered.map (·.revision) = some 2 ∧
      s.Lossless ∧ ∀ a t, s.Regular a → step s a = some t → Grows s t := by
  have hrun : (Runs.run step (start "turn") retriedDelivery).map (·.delivered.map (·.revision)) = some (some 2) := by
    decide +kernel
  obtain ⟨s, hs, hdelivered⟩ := map_eq_some_iff.mp hrun
  exact ⟨s, hs, hdelivered, progress_loses_no_update (by decide +kernel) hs⟩

/-- The plan is taken back while it is on its way, and its delivery leaves it shown. -/
theorem emptied_plan_stays_shown :
    ¬ ∀ (steps : List ProgressStep) (s : ProgressSystem),
      Runs.run step (start "turn") steps = some s → s.Lossless := by
  intro hall
  let steps : List ProgressStep := [.turnStarted, .change (.updatePlan none [⟨"build", .pending⟩] true), .deliver 0,
    .checkCurrent 0, .change (.updatePlan none [] true), .sent 0 "message"]
  have hrun : (Runs.run step (start "turn") steps).map (fun s =>
      (s.rows.progress.map fun progress => (progress.dirty, progress.inFlightRevision, progress.plan),
        s.delivered.map (·.plan))) =
      some (some (false, none, []), some [⟨"build", .pending⟩]) := by decide +kernel
  obtain ⟨s, hs, hview⟩ := map_eq_some_iff.mp hrun
  obtain ⟨hprogress, hdelivered⟩ := Prod.mk.inj hview
  obtain ⟨progress, hp, hentry⟩ := map_eq_some_iff.mp hprogress
  obtain ⟨hclean, hrest⟩ := Prod.mk.inj hentry
  obtain ⟨hflight, hplan⟩ := Prod.mk.inj hrest
  obtain ⟨last, hlast, hshown⟩ := map_eq_some_iff.mp hdelivered
  have hfree : ∀ snapshot, ¬ s.InFlight snapshot := by
    rintro snapshot ⟨hin, _⟩
    rw [entry, entry_of_some hp, hflight] at hin
    cases hin
  have hsame := ((hall steps s hs).shown progress hp hclean hfree).1
  rw [hlast] at hsame
  have hplans := congrArg TelegramCommandProgressSnapshot.plan hsame
  change last.plan = progress.plan at hplans
  rw [hshown, hplan] at hplans
  cases hplans

end ProgressSystem

end MochiPort

import MochiPort.SettingsSteps

namespace MochiPort

open Option

namespace SettingsSystem

open SettingsRuntime

/-- The client's answer settles an apply that is being submitted: a refusal releases it, an acceptance
arms its time-out. -/
def AnswerSettles (s : SettingsSystem) (apply : Nat) (claim : SettingsClaim) : Prop :=
  (∃ t, step s (.answered apply false) = some t ∧ (apply, .released apply) ∈ t.ended) ∧
    ∃ t, step s (.answered apply true) = some t ∧
      t.timers.lookup apply = some (claim.requestId, claim.revision)

def TimeOutSettles (s : SettingsSystem) (apply : Nat) : Prop :=
  ∃ t, step s (.timedOut apply) = some t ∧ (apply, .unconfirmed apply) ∈ t.ended

/-- An observation of the claim's thread that shows the patch confirms the apply. -/
def ObservationSettles (s : SettingsSystem) (apply : Nat) (claim : SettingsClaim) : Prop :=
  ∀ update : ThreadSettingsSnapshot,
    (∀ request pending, s.runtime.telegramModelSwitchRequest claim.requestId = some request →
      request.pendingApply = some pending → pending.patch.matchesSnapshot
        ((s.runtime.threadSettingsSnapshot claim.threadId).mergeFrom update) = true) →
    ∃ t, step s (.observe claim.threadId update (some claim.requestId)) = some t ∧ (apply, .confirmed) ∈ t.ended

/-- Every claimed apply has ended, by a step of its own if by a release or a time-out, or is outstanding:
then its own next step settles it, a confirming observation does, and its thread has no other. -/
structure Orderly (s : SettingsSystem) : Prop where
  accounted : ∀ apply claim, s.claims.lookup apply = some claim →
    s.Outstanding apply claim ∨ ∃ how, (apply, how) ∈ s.ended
  own : ∀ apply how, (apply, how) ∈ s.ended → how.Own apply
  settles : ∀ apply claim, s.Outstanding apply claim → s.AnswerSettles apply claim ∨ s.TimeOutSettles apply
  confirms : ∀ apply claim, s.Outstanding apply claim → s.ObservationSettles apply claim
  single : ∀ apply other claim claim', s.Outstanding apply claim → s.Outstanding other claim' →
    claim'.threadId = claim.threadId → other = apply

/-- What a handler writes back keeps the stale mark and the pending apply that the editor has. -/
def KeepsMarks (s t : SettingsSystem) : Prop :=
  ∀ id request request', s.runtime.telegramModelSwitchRequest id = some request →
    t.runtime.telegramModelSwitchRequest id = some request' →
      (request.stale = true → request'.stale = true) ∧
        ∀ pending, request.pendingApply = some pending → request'.pendingApply = some pending

/-- No apply was dropped together with its editor's draft. -/
def NoneWithdrawn (s : SettingsSystem) : Prop := ∀ apply, (apply, ApplyEnd.withdrawn) ∉ s.ended

def IdleIn (s : SettingsSystem) (conversationKey : String) : Prop :=
  ∀ id request, s.runtime.telegramModelSwitchRequest id = some request →
    request.conversationKey = conversationKey → request.pendingApply = none

def IdleAt (s : SettingsSystem) (requestId : String) : Prop :=
  ∀ request, s.runtime.telegramModelSwitchRequest requestId = some request → request.pendingApply = none

/-- No editor is closed, replaced or marked stale while an apply is pending in it. -/
def Quiet (s : SettingsSystem) : SettingsStep → Prop
  | .open opening => s.IdleIn opening.conversationKey
  | .remember n => ∀ handler, s.handlers.lookup n = some handler → s.IdleIn handler.conversationKey
  | .callback c => ∀ request, s.runtime.telegramModelSwitchRequest c.requestId = some request →
      request.expiresAtMs ≤ c.nowMs → s.IdleAt c.requestId
  | .verify n _ => ∀ handler action request, s.handlers.lookup n = some handler →
      handler.stage = .read action request → request.stale = true → s.IdleAt request.requestId
  | .act n _ => ∀ handler action request, s.handlers.lookup n = some handler →
      handler.stage = .verified action request → request.outcome action = .close → s.IdleAt request.requestId
  | .observe threadId update editor => ∀ id request pending, editor = some id →
      s.runtime.telegramModelSwitchRequest id = some request → request.pendingApply = some pending →
      pending.patch.matchesSnapshot ((s.runtime.threadSettingsSnapshot threadId).mergeFrom update) = true ∨
        request.draft.wasChangedExternally (s.runtime.threadSettingsSnapshot threadId) update = false
  | .bind threadId route => s.runtime.reroutes threadId route = true → s.IdleIn route.conversationKey ∧
      ∀ previous, s.runtime.routeByThread.lookup threadId = some previous → s.IdleIn previous.conversationKey
  | .unbind conversationKey => s.IdleIn conversationKey
  | .openRouting conversationKey => s.IdleIn conversationKey
  | .restart => ∀ id, s.IdleAt id
  | .rendered _ _ | .answered _ _ | .timedOut _ => True

variable {s t : SettingsSystem}

variable {apply : Nat} {claim : SettingsClaim} {conversationKey : String}

theorem Sound.answerSettles (hs : s.Sound) (houtstanding : s.Outstanding apply claim)
    (hn : s.handlers.lookup apply = some ⟨conversationKey, .submitting claim.requestId claim.revision⟩) :
    s.AnswerSettles apply claim := by
  obtain ⟨request, hrequest, hpending, hrevision, -, howner, -⟩ := houtstanding
  have hstep : ∀ accepted, step s (.answered apply accepted) =
      some (s.answer apply claim.requestId claim.revision accepted) := by
    intro accepted
    simp only [step, hn]
  refine ⟨⟨_, hstep false, ?_⟩, ⟨_, hstep true, AList.lookup_insert _⟩⟩
  have hrelease : (s.runtime.releaseTelegramThreadSettingsApply claim.requestId claim.revision).1 =
      s.runtime.storeRequest { request with pendingApply := none } := by
    obtain ⟨-, hspent⟩ | ⟨request', hrequest', -, -, hrelease⟩ :=
      release_cases s.runtime claim.requestId claim.revision
    · rw [hspent request hrequest hrevision] at hpending
      cases hpending
    · cases hrequest.symm.trans hrequest'
      exact hrelease
  refine List.mem_append_left _ (mem_endings.mpr ⟨rfl, _, ⟨request, hrequest, hpending⟩, ?_, howner⟩)
  rw [hrelease]
  rintro ⟨request', hrequest', hpending'⟩
  have hkeyed : request.requestId = claim.requestId := hs.tidy.keyed _ _ hrequest
  rw [request_storeRequest, if_pos hkeyed.symm] at hrequest'
  cases hrequest'
  cases hpending'

theorem Sound.timeOutSettles (houtstanding : s.Outstanding apply claim)
    (hn : s.timers.lookup apply = some (claim.requestId, claim.revision)) : s.TimeOutSettles apply := by
  obtain ⟨request, hrequest, hpending, hrevision, -, howner, -⟩ := houtstanding
  have hstep : step s (.timedOut apply) = some (s.expire apply claim.requestId claim.revision) := by
    simp only [step, hn]
  refine ⟨_, hstep, ?_⟩
  have htake : (s.runtime.takeUnconfirmedTelegramThreadSettingsApply claim.requestId claim.revision).1 =
      s.runtime.clearTelegramModelSwitchRequest claim.requestId := by
    obtain ⟨-, hspent⟩ | ⟨-, -, -, -, htake⟩ := take_cases s.runtime claim.requestId claim.revision
    · rw [hspent request hrequest hrevision] at hpending
      cases hpending
    · exact htake
  refine List.mem_append_left _ (mem_endings.mpr ⟨rfl, _, ⟨request, hrequest, hpending⟩, ?_, howner⟩)
  rw [htake]
  rintro ⟨request', hrequest', -⟩
  rw [request_clear, if_pos rfl] at hrequest'
  cases hrequest'

theorem Sound.observationSettles (hs : s.Sound) (houtstanding : s.Outstanding apply claim) :
    s.ObservationSettles apply claim := by
  intro update hshows
  obtain ⟨request, hrequest, hpending, -, hthread, howner, -⟩ := houtstanding
  obtain ⟨pending, hpatch⟩ := isSome_iff_exists.mp hpending
  have hfinds : s.finds claim.threadId (some claim.requestId) = true := by
    simp only [finds, hrequest, any_some, hthread, decide_true]
  have hstep : step s (.observe claim.threadId update (some claim.requestId)) =
      some (s.observed claim.threadId update (some claim.requestId)) := if_pos hfinds
  refine ⟨_, hstep, ?_⟩
  have hmatch := hshows request pending hrequest hpatch
  obtain ⟨hnone, -⟩ | ⟨id, request', row, hid, hrequest', hrow, hfound⟩ :=
    observe_cases s.runtime claim.threadId update (some claim.requestId)
  · cases hrequest.symm.trans hnone
  cases hid
  cases hrequest.symm.trans hrequest'
  rw [hpatch, any_some, hmatch] at hfound
  obtain ⟨-, hconfirmed⟩ | ⟨hno, -⟩ := hfound
  · have hid : request.requestId = claim.requestId := hs.tidy.keyed _ _ hrequest
    have hkeyed : row.requestId = claim.requestId := by
      rw [hrow]
      exact hid
    unfold observed
    rw [hconfirmed]
    refine List.mem_append_left _ (mem_endings.mpr ⟨rfl, _, ⟨request, hrequest, hpending⟩, ?_, howner⟩)
    rintro ⟨request', hrequest', -⟩
    rw [request_clear, if_pos hkeyed.symm] at hrequest'
    cases hrequest'
  · cases hno

theorem Sound.orderly (hs : s.Sound) : s.Orderly := by
  refine ⟨hs.accounted, hs.own, ?_, fun _ _ => hs.observationSettles, ?_⟩
  · intro apply claim houtstanding
    have hticket := houtstanding
    obtain ⟨-, -, -, -, -, -, ⟨key, hn⟩ | hn⟩ := hticket
    · exact .inl (hs.answerSettles houtstanding hn)
    · exact .inr (Sound.timeOutSettles houtstanding hn)
  · rintro apply other claim claim' ⟨request, hrequest, hpending, -, hthread, howner, -⟩
      ⟨request', hrequest', hpending', -, hthread', howner', -⟩ hsame
    -- the thread has one route, a conversation has one editor, and an editor has one owner
    obtain ⟨route, hroute, hkey⟩ := hs.placed _ request hrequest hpending
    obtain ⟨route', hroute', hkey'⟩ := hs.placed _ request' hrequest' hpending'
    rw [hthread', hsame, ← hthread] at hroute'
    cases hroute.symm.trans hroute'
    have hid : claim'.requestId = claim.requestId :=
      hs.tidy.single _ _ request request' hrequest hrequest' (hkey'.symm.trans hkey)
    rw [hid] at howner'
    exact Option.some.inj (howner'.symm.trans howner)

theorem keepsMarks_of_lookup (h : ∀ id request', t.runtime.telegramModelSwitchRequest id = some request' →
    s.runtime.telegramModelSwitchRequest id = some request') : s.KeepsMarks t := by
  intro id request request' hrequest hrequest'
  cases hrequest.symm.trans (h id request' hrequest')
  exact ⟨fun h => h, fun _ h => h⟩

theorem keepsMarks_of_store {row earlier : TelegramModelSwitchRequestState}
    (hstored : s.runtime.telegramModelSwitchRequest row.requestId = some earlier)
    (hidle : earlier.pendingApply = none) (hfresh : earlier.stale = false)
    (hruntime : t.runtime = s.runtime.storeRequest row) : s.KeepsMarks t := by
  intro id request request' hrequest hrequest'
  rw [hruntime, request_storeRequest] at hrequest'
  split at hrequest'
  next hid =>
    rw [hid] at hrequest
    cases hstored.symm.trans hrequest
    rw [hidle, hfresh]
    exact ⟨fun h => absurd h Bool.false_ne_true, fun _ h => by cases h⟩
  next =>
    cases hrequest.symm.trans hrequest'
    exact ⟨fun h => h, fun _ h => h⟩

theorem actOn_keepsMarks (hs : s.Sound) {n nowMs : Nat} (hregular : s.Regular (.act n nowMs))
    (h : step s (.act n nowMs) = some t) : s.KeepsMarks t := by
  simp only [step] at h
  split at h
  next conversationKey action request hn =>
    cases h
    obtain ⟨hcopy, hfresh, -⟩ := hs.stages n _ hn
    cases houtcome : request.outcome action with
    | refuse =>
      simp only [actOn, houtcome]
      exact keepsMarks_of_lookup fun _ _ h => h
    | save saved =>
      obtain ⟨hpending, hmax, hunchanged⟩ := hregular.maySave hn houtcome
      simp only [actOn, houtcome, updateTelegramModelSwitchRequest]
      by_cases hcurrent :
        s.runtime.isCurrentTelegramModelSwitchRequest saved.requestId saved.conversationKey = true
      · rw [if_pos hcurrent]
        have hid := (TelegramModelSwitchRequestState.outcome_save houtcome).requestId
        obtain ⟨stored, hstored, -⟩ := hs.tidy.current _ _ hcurrent
        have hread : s.runtime.telegramModelSwitchRequest request.requestId = some stored := hid ▸ hstored
        obtain ⟨hidle, hstale⟩ := hcopy.agrees stored hread (hunchanged stored hread) hmax
        exact keepsMarks_of_store hstored (hidle.trans hpending) (hstale.trans hfresh) rfl
      · rw [if_neg hcurrent]
        exact keepsMarks_of_lookup fun _ _ h => h
    | close =>
      simp only [actOn, houtcome]
      refine keepsMarks_of_lookup fun id request' h => ?_
      have h := (request_clear request.requestId id).symm.trans h
      split at h
      next => cases h
      next => exact h
    | submit patch =>
      simp only [actOn, houtcome]
      obtain hnone | ⟨earlier, hstored, -, hidle, hunstale, hclaim⟩ :=
        claim_cases s.runtime request.requestId request.revision patch nowMs
      · rw [hnone]
        exact keepsMarks_of_lookup fun _ _ h => h
      · rw [hclaim]
        have hfound := request_of_find hs hstored
        refine keepsMarks_of_store ?_ hidle hunstale rfl
        exact hfound
  next => cases h

variable {runtime : SettingsRuntime}

theorem noneWithdrawn_commit {how : ApplyEnd} (hs : s.NoneWithdrawn)
    (h : how = .withdrawn → ∀ id, s.runtime.Pending id → runtime.Pending id) :
    (s.commit runtime how).NoneWithdrawn := by
  intro apply hmem
  obtain hmem | hmem := List.mem_append.mp hmem
  · obtain ⟨hhow, id, hbefore, hafter, -⟩ := mem_endings.mp hmem
    exact hafter (h hhow.symm id hbefore)
  · exact hs apply hmem

variable {id : String}

theorem pending_clear {requestId : String} (hidle : s.IdleAt requestId) (h : s.runtime.Pending id) :
    (s.runtime.clearTelegramModelSwitchRequest requestId).Pending id := by
  obtain ⟨request, hrequest, hpending⟩ := h
  refine ⟨request, ?_, hpending⟩
  rw [request_clear, if_neg]
  · exact hrequest
  · rintro rfl
    rw [hidle request hrequest] at hpending
    cases hpending

theorem pending_clearConversation (hidle : ∀ id request, runtime.telegramModelSwitchRequest id = some request →
      request.conversationKey = conversationKey → request.pendingApply = none) (h : runtime.Pending id) :
    (runtime.clearTelegramModelSwitchRequestsForConversation conversationKey).Pending id := by
  obtain ⟨request, hrequest, hpending⟩ := h
  refine ⟨request, ?_, hpending⟩
  rw [request_clearConversation, hrequest]
  refine filter_eq_some_iff.mpr ⟨rfl, decide_eq_true fun hkey => ?_⟩
  rw [hidle id request hrequest hkey] at hpending
  cases hpending

theorem pending_store {row earlier : TelegramModelSwitchRequestState}
    (hstored : runtime.telegramModelSwitchRequest row.requestId = some earlier)
    (hkept : earlier.pendingApply.isSome = true → row.pendingApply.isSome = true) (h : runtime.Pending id) :
    (runtime.storeRequest row).Pending id := by
  obtain ⟨request, hrequest, hpending⟩ := h
  by_cases hid : id = row.requestId
  · rw [hid] at hrequest
    cases hstored.symm.trans hrequest
    exact ⟨row, (request_storeRequest row id).trans (if_pos hid), hkept hpending⟩
  · exact ⟨request, ((request_storeRequest row id).trans (if_neg hid)).trans hrequest, hpending⟩

theorem observed_noneWithdrawn (hs : s.Sound) (hn : s.NoneWithdrawn) {threadId : String}
    {update : ThreadSettingsSnapshot} {editor : Option String} (hquiet : s.Quiet (.observe threadId update editor)) :
    (s.observed threadId update editor).NoneWithdrawn := by
  unfold observed
  obtain ⟨-, hnone⟩ | ⟨id, request, row, heditor, hid, hrow, hfound⟩ :=
    observe_cases s.runtime threadId update editor
  · rw [hnone]
    exact noneWithdrawn_commit hn fun _ _ h => h
  have hkeyed : request.requestId = id := hs.tidy.keyed _ _ hid
  have hrowId : row.requestId = id := by
    rw [hrow]
    exact hkeyed
  have hpending : row.pendingApply = request.pendingApply := by rw [hrow]
  have hstored : (s.runtime.observing threadId update).telegramModelSwitchRequest row.requestId = some request := by
    rw [hrowId]
    exact hid
  obtain ⟨-, hconfirmed⟩ | ⟨hno, ⟨-, hchanged, hstale⟩ | hseen⟩ := hfound
  · rw [hconfirmed]
    refine noneWithdrawn_commit hn fun h => ?_
    cases h
  · rw [hstale]
    have hmarked : (s.runtime.observing threadId update).telegramModelSwitchRequest
        (markedStale row).requestId = some request := hstored
    refine noneWithdrawn_commit hn fun _ id' h => pending_store hmarked ?_ h
    intro hsome
    obtain ⟨pending, hpatch⟩ := isSome_iff_exists.mp hsome
    obtain hmatch | hsame := hquiet id request pending heditor hid hpatch
    · rw [hpatch, any_some, hmatch] at hno
      cases hno
    · rw [hsame] at hchanged
      cases hchanged
  · rw [hseen]
    exact noneWithdrawn_commit hn fun _ id' h => pending_store hstored (fun h => hpending ▸ h) h

variable {request : TelegramModelSwitchRequestState}

theorem rememberEditor_noneWithdrawn (hs : s.Sound) (hn : s.NoneWithdrawn) {n : Nat}
    (hstage : s.handlers.lookup n = some ⟨conversationKey, .opening request⟩) (hidle : s.IdleIn conversationKey) :
    (s.rememberEditor n conversationKey request).NoneWithdrawn := by
  have hkey : request.conversationKey = conversationKey := (hs.stages n _ hstage).1
  refine noneWithdrawn_commit (s := s) hn fun _ id h => ?_
  obtain ⟨request', hrequest', hpending⟩ := h
  refine ⟨request', ?_, hpending⟩
  rw [request_remember, if_neg]
  · rw [hrequest']
    refine filter_eq_some_iff.mpr ⟨rfl, decide_eq_true fun hsame => ?_⟩
    rw [hidle id request' hrequest' (hsame.trans hkey)] at hpending
    cases hpending
  · intro hid
    obtain ⟨k, hk, hissued⟩ := hs.issued id request' hrequest'
    exact Nat.ne_of_lt hk (nextTelegramModelSwitchRequestId_injective (hissued.symm.trans hid))

theorem actOn_noneWithdrawn (hs : s.Sound) (hn : s.NoneWithdrawn) {n nowMs : Nat} {action : EditorAction}
    (hstage : s.handlers.lookup n = some ⟨conversationKey, .verified action request⟩)
    (hsave : ∀ saved, request.outcome action = .save saved → s.MaySave request)
    (hclose : request.outcome action = .close → s.IdleAt request.requestId) :
    (s.actOn n conversationKey action request nowMs).NoneWithdrawn := by
  obtain ⟨hcopy, -, -⟩ := hs.stages n _ hstage
  cases houtcome : request.outcome action with
  | refuse =>
    simp only [actOn, houtcome]
    exact hn
  | save saved =>
    obtain ⟨hpending, hmax, hunchanged⟩ := hsave saved houtcome
    simp only [actOn, houtcome, updateTelegramModelSwitchRequest]
    by_cases hcurrent :
      s.runtime.isCurrentTelegramModelSwitchRequest saved.requestId saved.conversationKey = true
    · rw [if_pos hcurrent]
      have hid := (TelegramModelSwitchRequestState.outcome_save houtcome).requestId
      obtain ⟨stored, hstored, -⟩ := hs.tidy.current _ _ hcurrent
      have hread : s.runtime.telegramModelSwitchRequest request.requestId = some stored := hid ▸ hstored
      obtain ⟨hidle, -⟩ := hcopy.agrees stored hread (hunchanged stored hread) hmax
      refine noneWithdrawn_commit (s := s) hn fun _ id h => pending_store hstored ?_ h
      rw [hidle, hpending]
      intro h
      cases h
    · rw [if_neg hcurrent]
      exact hn
  | close =>
    simp only [actOn, houtcome]
    exact noneWithdrawn_commit (s := s) hn fun _ id h => pending_clear (hclose houtcome) h
  | submit patch =>
    simp only [actOn, houtcome]
    obtain hnone | ⟨earlier, hstored, -, -, -, hclaim⟩ :=
      claim_cases s.runtime request.requestId request.revision patch nowMs
    · rw [hnone]
      exact hn
    · rw [hclaim]
      have hfound := request_of_find hs hstored
      have hrow : s.runtime.telegramModelSwitchRequest
          { earlier with pendingApply := some ⟨patch, nowMs⟩ }.requestId = some earlier := hfound
      exact noneWithdrawn_commit (s := s) hn fun _ id h => pending_store hrow (fun _ => rfl) h

theorem step_noneWithdrawn (hs : s.Sound) (hn : s.NoneWithdrawn) {a : SettingsStep} (hregular : s.Regular a)
    (hquiet : s.Quiet a) (h : step s a = some t) : t.NoneWithdrawn := by
  cases a with
  | «open» opening =>
    simp only [step] at h
    split at h
    next =>
      cases h
      unfold beginOpen
      cases hcurrent : s.runtime.currentTelegramModelSwitchRequest opening.conversationKey with
      | none => exact noneWithdrawn_commit (s := s) hn fun _ _ h => h
      | some request =>
        refine noneWithdrawn_commit (s := s) hn fun _ id h => pending_clear ?_ h
        obtain ⟨current, hid, hrequest⟩ := bind_eq_some_iff.mp hcurrent
        obtain ⟨request', hrequest', hkey⟩ := hs.tidy.current _ _ (decide_eq_true hid)
        cases hrequest.symm.trans hrequest'
        intro stored hstored
        rw [hs.tidy.keyed _ _ hrequest] at hstored
        cases hrequest.symm.trans hstored
        exact hquiet _ request hrequest hkey
    next => cases h
  | remember n =>
    simp only [step] at h
    split at h
    next key request hstage =>
      cases h
      exact rememberEditor_noneWithdrawn hs hn hstage (hquiet _ hstage)
    next => cases h
  | callback c =>
    simp only [step] at h
    split at h
    next =>
      cases h
      unfold readEditor
      cases hstored : s.runtime.telegramModelSwitchRequest c.requestId with
      | none => exact hn
      | some request =>
        dsimp only
        split
        next hexpired =>
          exact noneWithdrawn_commit hn fun _ id h => pending_clear (hquiet request hstored hexpired) h
        next =>
          split
          next => exact hn
          next => exact hn
    next => cases h
  | verify n live =>
    simp only [step] at h
    split at h
    next key action request hstage =>
      cases h
      unfold verifyEditor
      split
      next hstale =>
        exact noneWithdrawn_commit (s := s) hn fun _ id h =>
          pending_clear (hquiet _ action request hstage rfl hstale) h
      next =>
        split
        next => exact hn
        next => exact hn
    next => cases h
  | act n nowMs =>
    simp only [step] at h
    split at h
    next key action request hstage =>
      cases h
      exact actOn_noneWithdrawn hs hn hstage (fun saved hsave => hregular.maySave hstage hsave)
        (hquiet _ action request hstage rfl)
    next => cases h
  | rendered n messageId =>
    simp only [step] at h
    split at h
    next key requestId hstage =>
      cases messageId with
      | none =>
        cases h
        exact hn
      | some messageId =>
        cases h
        refine noneWithdrawn_commit (s := s) hn fun _ id h => ?_
        unfold updateTelegramModelSwitchRequestMessageId
        cases hstored : s.runtime.telegramModelSwitchRequest requestId with
        | none => exact h
        | some request =>
          have hfound := request_of_find hs hstored
          have hrow : s.runtime.telegramModelSwitchRequest
              { request with messageId := some messageId }.requestId = some request := hfound
          exact pending_store hrow (fun h => h) h
    next => cases h
  | answered n accepted =>
    simp only [step] at h
    split at h
    next key requestId revision hstage =>
      cases h
      cases accepted with
      | true => exact hn
      | false =>
        refine noneWithdrawn_commit (s := s) hn fun h => ?_
        cases h
    next => cases h
  | timedOut n =>
    simp only [step] at h
    split at h
    next requestId revision htimer =>
      cases h
      refine noneWithdrawn_commit (s := s) hn fun h => ?_
      cases h
    next => cases h
  | observe threadId update editor =>
    simp only [step] at h
    split at h
    next =>
      cases h
      exact observed_noneWithdrawn hs hn hquiet
    next => cases h
  | bind threadId route =>
    cases h
    refine noneWithdrawn_commit hn fun _ id h => ?_
    unfold bindRoute
    split
    next hmoved =>
      obtain ⟨hnew, hold⟩ := hquiet hmoved
      have hclosed : ({ s.runtime with routeByThread := s.runtime.routeByThread.insert threadId route
          }.clearTelegramModelSwitchRequestsForConversation route.conversationKey).Pending id :=
        pending_clearConversation hnew h
      cases hprevious : s.runtime.routeByThread.lookup threadId with
      | none => exact hclosed
      | some previous =>
        refine pending_clearConversation (fun id' request hrequest hkey => ?_) hclosed
        rw [request_clearConversation] at hrequest
        exact hold previous hprevious id' request (filter_eq_some_iff.mp hrequest).1 hkey
    next => exact h
  | unbind conversationKey | openRouting conversationKey =>
    cases h
    exact noneWithdrawn_commit hn fun _ id h => pending_clearConversation hquiet h
  | restart =>
    cases h
    refine noneWithdrawn_commit (s := s) hn fun _ id h => ?_
    obtain ⟨request, hrequest, hpending⟩ := h
    rw [hquiet id request hrequest] at hpending
    cases hpending

/-- In every run in which handlers save only what they may, each claimed apply has ended or is outstanding,
with a next step of its own that ends it, and handlers write back no stale mark and no pending apply of
others. If moreover no editor closes or goes stale over a pending apply, each apply ends by its own release or
time-out, or by a confirming observation. -/
theorem every_apply_settled {steps : List SettingsStep} (h : Runs.run step start steps = some s)
    (hregular : Runs.Meets step Regular start steps) :
    s.Orderly ∧
      (∀ n nowMs t, s.Regular (.act n nowMs) → step s (.act n nowMs) = some t → s.KeepsMarks t) ∧
        (Runs.Meets step Quiet start steps → s.NoneWithdrawn) := by
  have hs := run_sound h hregular
  refine ⟨hs.orderly, fun n nowMs t => actOn_keepsMarks hs, ?_⟩
  intro hquiet
  have hboth : Runs.Meets step (fun s a => s.Regular a ∧ s.Quiet a) start steps :=
    Runs.meets_and.mpr ⟨hregular, hquiet⟩
  refine (Runs.run_invariant_of_meets (fun s => s.Sound ∧ s.NoneWithdrawn) ?_ ⟨start_sound, ?_⟩ hboth h).2
  · rintro s a t ⟨hs, hn⟩ ⟨hr, hq⟩ hstep
    exact ⟨step_sound hs hr hstep, step_noneWithdrawn hs hn hr hq hstep⟩
  · intro apply hmem
    cases hmem

instance (request : TelegramModelSwitchRequestState) : Decidable (s.MaySave request) :=
  inferInstanceAs (Decidable (_ ∧ _ ∧ ∀ stored ∈ _, _))

instance (a : SettingsStep) : Decidable (s.Regular a) :=
  match a with
  | .act _ _ => inferInstanceAs (Decidable (∀ handler ∈ _, ∀ request ∈ _, _))
  | .remember _ => inferInstanceAs (Decidable (_ < _))
  | .open _ | .callback _ | .verify _ _ | .rendered _ _ | .answered _ _ | .timedOut _ | .observe _ _ _
  | .bind _ _ | .unbind _ | .openRouting _ | .restart => .isTrue trivial

def chatOpening : EditorOpening :=
  ⟨"telegram:bot:chat", "bot", "chat", "thread-1", "client", [⟨"gpt-test", "GPT Test", ["medium"], some "medium", true⟩], 9⟩

/-- One button of the editor from its message to its new card. -/
def pressed (n revision : Nat) (action : EditorAction) : List SettingsStep :=
  [.callback ⟨"telegram:bot:chat", action, "thread-model-1", revision, some "101", 1⟩, .verify n true, .act n 1]

def modelChosen : List SettingsStep :=
  [.bind "thread-1" ⟨.telegram, "telegram:bot:chat", "bot", "chat", "client"⟩, .open chatOpening, .remember 0,
    .rendered 0 (some "101")] ++ pressed 1 1 (.openField .model) ++ [.rendered 1 (some "101")] ++
    pressed 2 2 (.chooseModel 1 0) ++ [.rendered 2 (some "101")]

/-- The client refuses the first apply and accepts the second, which nothing confirms. -/
def refusedThenAccepted : List SettingsStep :=
  modelChosen ++ pressed 3 3 .apply ++ [.answered 3 false] ++ pressed 4 3 .apply ++
    [.answered 4 true, .timedOut 4]

theorem every_apply_settled_refused :
    ∃ s, Runs.run step start refusedThenAccepted = some s ∧
      s.ended = [(4, .unconfirmed 4), (3, .released 3)] ∧ s.Orderly ∧
        (∀ n nowMs t, s.Regular (.act n nowMs) → step s (.act n nowMs) = some t → s.KeepsMarks t) ∧
          (Runs.Meets step Quiet start refusedThenAccepted → s.NoneWithdrawn) := by
  have hrun : (Runs.run step start refusedThenAccepted).map (·.ended) =
      some [(4, .unconfirmed 4), (3, .released 3)] := by decide +kernel
  obtain ⟨s, hs, hended⟩ := map_eq_some_iff.mp hrun
  exact ⟨s, hs, hended, every_apply_settled hs (by decide +kernel)⟩

/-- A field opened while an apply is pending raises the revision, so the time-out no longer takes the apply:
it stays pending without a party. -/
theorem opened_field_strands_apply :
    ¬∀ (steps : List SettingsStep) (s : SettingsSystem), Runs.run step start steps = some s →
      ∀ apply claim, s.claims.lookup apply = some claim →
        s.Outstanding apply claim ∨ ∃ how, (apply, how) ∈ s.ended := by
  intro hall
  have hrun : (Runs.run step start (modelChosen ++ pressed 3 3 .apply ++ [.answered 3 true] ++
      pressed 4 3 (.openField .speed) ++ [.timedOut 3])).map (fun s =>
        (s.claims.lookup 3, (s.handlers.lookup 3).isNone, (s.timers.lookup 3).isNone, s.ended)) =
      some (some ⟨"thread-model-1", "thread-1", 3⟩, true, true, []) := by decide +kernel
  obtain ⟨s, hs, hview⟩ := map_eq_some_iff.mp hrun
  obtain ⟨hclaim, hview⟩ := Prod.mk.inj hview
  obtain ⟨hhandler, hview⟩ := Prod.mk.inj hview
  obtain ⟨htimer, hended⟩ := Prod.mk.inj hview
  obtain ⟨-, -, -, -, -, -, ⟨key, h⟩ | h⟩ | ⟨how, h⟩ := hall _ s hs 3 _ hclaim
  · rw [h] at hhandler
    cases hhandler
  · rw [h] at htimer
    cases htimer
  · rw [hended] at h
    cases h

end SettingsSystem

end MochiPort

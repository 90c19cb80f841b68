import MochiPort.SettingsApplies

namespace MochiPort

open Option

namespace SettingsSystem

open SettingsRuntime

variable {s t : SettingsSystem}

variable {request : TelegramModelSwitchRequestState}

variable {id : String}

theorem request_of_find (hs : s.Sound) (h : s.runtime.telegramModelSwitchRequest id = some request) :
    s.runtime.telegramModelSwitchRequest request.requestId = some request := by
  rw [hs.tidy.keyed _ _ h]
  exact h

theorem Sound.close (hs : s.Sound) (requestId : String) :
    (s.commit (s.runtime.clearTelegramModelSwitchRequest requestId) .withdrawn).Sound :=
  hs.commit (hs.tidy.clear requestId) (shrinks_clear requestId) (keepsRoutes_of_eq (routeByThread_clear requestId))
    fun _ _ _ _ _ => trivial

theorem beginOpen_sound (hs : s.Sound) {opening : EditorOpening} (hidle : s.idle opening.conversationKey = true) :
    (s.beginOpen opening).Sound := by
  unfold beginOpen
  cases hcurrent : s.runtime.currentTelegramModelSwitchRequest opening.conversationKey with
  | none =>
    have hsame : (s.commit s.runtime .withdrawn).Sound :=
      hs.commit hs.tidy (Shrinks.refl _) (keepsRoutes_of_eq rfl) fun _ _ _ _ _ => trivial
    exact hsame.spawn hidle (fun _ _ h => by cases h) ⟨rfl, rfl, rfl⟩
  | some request =>
    exact (hs.close request.requestId).spawn hidle (fun _ _ h => by cases h) ⟨rfl, rfl, rfl⟩

variable {conversationKey : String} {n : Nat}

theorem rememberEditor_sound (hs : s.Sound) (hroom : s.requestSequence < u64Max)
    (hn : s.handlers.lookup n = some ⟨conversationKey, .opening request⟩) :
    (s.rememberEditor n conversationKey request).Sound := by
  obtain ⟨hkey, hpending, hfirst⟩ := hs.stages n _ hn
  unfold rememberEditor
  generalize hrow : ({ request with requestId := nextTelegramModelSwitchRequestId s.requestSequence } :
    TelegramModelSwitchRequestState) = row
  have hid : row.requestId = nextTelegramModelSwitchRequestId s.requestSequence := by rw [← hrow]
  have hidle : row.pendingApply = none := by rw [← hrow]; exact hpending
  have hbounded : row.revision ≤ u64Max := by rw [← hrow]; exact hfirst.trans_le (by decide)
  have hnew : ∀ id, s.Issued id → id ≠ row.requestId := by
    rintro id ⟨k, hk, rfl⟩ heq
    rw [hid] at heq
    exact Nat.ne_of_lt hk (nextTelegramModelSwitchRequestId_injective heq)
  have hnext : (s.requestSequence + 1) % (u64Max + 1) = s.requestSequence + 1 := Nat.mod_eq_of_lt (by omega)
  have hof : ∀ id request', (s.runtime.rememberTelegramModelSwitchRequest row).telegramModelSwitchRequest id =
      some request' → (id = row.requestId ∧ request' = row) ∨
        s.runtime.telegramModelSwitchRequest id = some request' := by
    intro id request' h
    rw [request_remember] at h
    split at h
    next h' => exact .inl ⟨h', (Option.some.inj h).symm⟩
    next => exact .inr (filter_eq_some_iff.mp h).1
  have hroutes : (s.runtime.rememberTelegramModelSwitchRequest row).routeByThread = s.runtime.routeByThread := by
    exact routeByThread_clear row.requestId
  rw [hnext]
  have hlater : s.requestSequence ≤ s.requestSequence + 1 := Nat.le_succ _
  have hstored : ({ s.commit (s.runtime.rememberTelegramModelSwitchRequest row) .withdrawn with
      requestSequence := s.requestSequence + 1 } : SettingsSystem).Sound := by
    refine ⟨hs.tidy.remember (fun _ => hidle) hbounded, ?_, ?_, ?_, ?_, ?_,
      ⟨hs.parties.apart, hs.parties.timed, hs.parties.alone⟩, ?_, ?_, ?_⟩
    · intro id request' h
      obtain ⟨rfl, -⟩ | h := hof id request' h
      · exact ⟨s.requestSequence, Nat.lt_succ_self _, hid⟩
      · exact (hs.issued id request' h).mono hlater
    · intro id request' h hsome
      obtain ⟨-, rfl⟩ | h := hof id request' h
      · rw [hidle] at hsome
        cases hsome
      · exact hs.ticketed id request' h hsome
    · intro m id revision h
      exact (hs.known m id revision h).mono hlater
    · intro m id revision request' hticket h
      obtain ⟨rfl, -⟩ | h := hof id request' h
      · exact absurd rfl (hnew _ (hs.known m _ revision hticket))
      · exact hs.owned m id revision request' hticket h
    · intro id request' h hsome
      obtain ⟨-, rfl⟩ | h := hof id request' h
      · rw [hidle] at hsome
        cases hsome
      · obtain ⟨route, hlookup, hroute⟩ := hs.placed id request' h hsome
        exact ⟨route, hroutes.symm ▸ hlookup, hroute⟩
    · intro m handler hm
      refine (hs.stages m handler hm).of_shrinks ?_ (keepsRoutes_of_eq hroutes) hlater
      intro id hissued request' h
      obtain ⟨rfl, -⟩ | h := hof id request' h
      · exact absurd rfl (hnew _ hissued)
      · exact ⟨request', h, ⟨rfl, rfl, rfl, rfl, rfl⟩⟩
    · intro apply claim hclaim
      refine hs.accounted_of (t := { s.commit (s.runtime.rememberTelegramModelSwitchRequest row) .withdrawn with
        requestSequence := s.requestSequence + 1 }) rfl ?_ hclaim
      rintro apply claim ⟨earlier, hearlier, hsome, hrest⟩ ⟨request', h, -⟩
      obtain ⟨heq, -⟩ | h' := hof _ request' h
      · exact absurd heq (hnew _ (hs.issued _ _ hearlier))
      · cases hearlier.symm.trans h'
        exact ⟨earlier, h, hsome, hrest⟩
    · intro apply how h
      exact hs.own_of (t := { s.commit (s.runtime.rememberTelegramModelSwitchRequest row) .withdrawn with
        requestSequence := s.requestSequence + 1 }) rfl (fun _ _ _ _ _ => trivial) h
  exact hstored.moveTo hn (fun _ _ h => by cases h) (fun _ _ h => by cases h) trivial

theorem readEditor_sound (hs : s.Sound) {c : EditorCallback} (hidle : s.idle c.conversationKey = true) :
    (s.readEditor c).Sound := by
  unfold readEditor
  cases hstored : s.runtime.telegramModelSwitchRequest c.requestId with
  | none => exact hs
  | some request =>
    dsimp only
    split
    next => exact hs.close c.requestId
    next =>
      split
      next hcurrent =>
        simp only [Bool.and_eq_true, decide_eq_true_eq] at hcurrent
        obtain ⟨⟨⟨-, hkey⟩, -⟩, -⟩ := hcurrent
        have hkeyed : request.requestId = c.requestId := hs.tidy.keyed _ _ hstored
        refine hs.spawn hidle (fun _ _ h => by cases h) ⟨hkey, hkeyed ▸ hs.issued _ _ hstored, ?_, ?_⟩
        · intro request' h
          cases (hkeyed ▸ hstored).symm.trans h
          exact ⟨hkey, rfl, Nat.le_refl _⟩
        · intro request' h _ _
          cases (hkeyed ▸ hstored).symm.trans h
          exact ⟨rfl, rfl⟩
      next => exact hs

theorem ticketless_of {handler : EditorHandler} (hn : s.handlers.lookup n = some handler)
    (h : ∀ requestId revision, handler.stage ≠ .submitting requestId revision) : s.Ticketless n := by
  intro handler' hn'
  cases hn.symm.trans hn'
  exact h

variable {action : EditorAction}

theorem verifyEditor_sound (hs : s.Sound) {live : Bool}
    (hn : s.handlers.lookup n = some ⟨conversationKey, .read action request⟩) :
    (s.verifyEditor n conversationKey action request live).Sound := by
  have hticketless : s.Ticketless n := ticketless_of hn fun _ _ h => by cases h
  unfold verifyEditor
  split
  next => exact (hs.close request.requestId).finish hticketless
  next hstale =>
    split
    next hrouted =>
      refine hs.moveTo hn (fun _ _ h => by cases h) (fun _ _ h => by cases h)
        ⟨hs.stages n _ hn, Bool.eq_false_iff.mpr hstale, ?_⟩
      intro _ _
      rw [Bool.and_eq_true, routed, any_eq_true] at hrouted
      obtain ⟨-, route, hlookup, hroute⟩ := hrouted
      rw [Bool.and_eq_true, decide_eq_true_eq] at hroute
      exact ⟨route, hlookup, hroute.1⟩
    next => exact hs.finish hticketless

theorem save_sound (hs : s.Sound) {request saved : TelegramModelSwitchRequestState}
    (hn : s.handlers.lookup n = some ⟨conversationKey, .verified action request⟩) (hsaved : request.WrittenBack saved)
    (hpending : request.pendingApply = none) (hmax : request.revision < u64Max)
    (hunchanged : ∀ stored, s.runtime.telegramModelSwitchRequest request.requestId = some stored →
      stored.revision = request.revision)
    (hcurrent : s.runtime.isCurrentTelegramModelSwitchRequest saved.requestId saved.conversationKey = true) :
    ((s.commit (s.runtime.storeRequest saved) .withdrawn).moveTo n conversationKey
      (.rendering saved.requestId)).Sound := by
  obtain ⟨hcopy, hfresh, -⟩ := hs.stages n _ hn
  obtain ⟨stored, hstored, -⟩ := hs.tidy.current _ _ hcurrent
  have hread : s.runtime.telegramModelSwitchRequest request.requestId = some stored := hsaved.requestId ▸ hstored
  have hrevision := hunchanged stored hread
  obtain ⟨hkey, hthread, -⟩ := hcopy.stored stored hread
  obtain ⟨hidle, hstale⟩ := hcopy.agrees stored hread hrevision hmax
  have hbumped : saved.revision = stored.revision + 1 := by
    rw [hsaved.revision, hrevision, saturatingAdd, Nat.min_eq_left (by omega)]
  have hnone : saved.pendingApply = none := hsaved.pendingApply.trans hpending
  have hwritten : (s.commit (s.runtime.storeRequest saved) .withdrawn).Sound := by
    refine hs.store hstored (fun id => request_storeRequest saved id) ?_ rfl ?_ ?_ hnone (by omega) (by omega)
      ?_ fun _ => trivial
    · exact hs.tidy.store hstored (hsaved.conversationKey.trans (hcopy.conversation.trans hkey.symm))
        (fun _ => hnone) (by omega)
    · exact hsaved.conversationKey.trans (hcopy.conversation.trans hkey.symm)
    · exact hsaved.expectedThreadId.trans hthread.symm
    · intro m revision hticket
      obtain ⟨hsome, -⟩ | hmarked := hs.owned m _ revision stored hticket hstored
      · rw [hidle, hpending] at hsome
        cases hsome
      · rw [hstale, hfresh] at hmarked
        cases hmarked
  exact hwritten.moveTo hn (fun _ _ h => by cases h) (fun _ _ h => by cases h) trivial

/-- A handler may save its copy of an editor when it read the editor with nothing pending and finds it
under the revision that it read. -/
def MaySave (s : SettingsSystem) (request : TelegramModelSwitchRequestState) : Prop :=
  request.pendingApply = none ∧ request.revision < u64Max ∧
    ∀ stored ∈ s.runtime.telegramModelSwitchRequest request.requestId, stored.revision = request.revision

variable {nowMs : Nat}

theorem submitted_sound (hs : s.Sound) {patch : TelegramThreadSettingsPatch}
    (hn : s.handlers.lookup n = some ⟨conversationKey, .verified action request⟩)
    (houtcome : request.outcome action = .submit patch) : (s.actOn n conversationKey action request nowMs).Sound := by
  unfold actOn
  rw [houtcome]
  dsimp only
  obtain hnone | ⟨earlier, hstored, hrevision, hidle, hfresh, hclaim⟩ :=
    claim_cases s.runtime request.requestId request.revision patch nowMs
  · rw [hnone]
    exact hs.finish (ticketless_of hn fun _ _ h => by cases h)
  · rw [hclaim]
    have hkeyed : earlier.requestId = request.requestId := hs.tidy.keyed _ _ hstored
    have hfound := request_of_find hs hstored
    exact hs.claimed hn hkeyed hfound hidle hfresh ⟨rfl, rfl, rfl, rfl, rfl⟩ rfl

theorem actOn_sound (hs : s.Sound) (hn : s.handlers.lookup n = some ⟨conversationKey, .verified action request⟩)
    (hsave : ∀ saved, request.outcome action = .save saved → s.MaySave request) :
    (s.actOn n conversationKey action request nowMs).Sound := by
  have hticketless : s.Ticketless n := ticketless_of hn fun _ _ h => by cases h
  cases houtcome : request.outcome action with
  | refuse =>
    simp only [actOn, houtcome]
    exact hs.finish hticketless
  | save saved =>
    obtain ⟨hpending, hmax, hunchanged⟩ := hsave saved houtcome
    simp only [actOn, houtcome, updateTelegramModelSwitchRequest]
    by_cases hcurrent :
      s.runtime.isCurrentTelegramModelSwitchRequest saved.requestId saved.conversationKey = true
    · rw [if_pos hcurrent]
      exact save_sound hs hn (TelegramModelSwitchRequestState.outcome_save houtcome) hpending hmax hunchanged
        hcurrent
    · rw [if_neg hcurrent]
      exact hs.finish hticketless
  | close =>
    simp only [actOn, houtcome]
    exact (hs.close request.requestId).finish hticketless
  | submit patch => exact submitted_sound hs hn houtcome

variable {requestId conversationKey : String}

theorem rendered_sound (hs : s.Sound) {messageId : String}
    (hn : s.handlers.lookup n = some ⟨conversationKey, .rendering requestId⟩) :
    ((s.commit (s.runtime.updateTelegramModelSwitchRequestMessageId requestId messageId)
      .withdrawn).finish n).Sound := by
  have hticketless : s.Ticketless n := ticketless_of hn fun _ _ h => by cases h
  have hupdated :
      (s.commit (s.runtime.updateTelegramModelSwitchRequestMessageId requestId messageId) .withdrawn).Sound := by
    unfold updateTelegramModelSwitchRequestMessageId
    cases hstored : s.runtime.telegramModelSwitchRequest requestId with
    | none => exact hs.commit hs.tidy (Shrinks.refl _) (keepsRoutes_of_eq rfl) fun _ _ _ _ _ => trivial
    | some request =>
      have hfound := request_of_find hs hstored
      have hidle := hs.tidy.idle _ _ hfound
      have hbounded := hs.tidy.bounded _ _ hfound
      exact hs.commit (hs.tidy.store hfound rfl hidle hbounded) (shrinks_store hfound ⟨rfl, rfl, rfl, rfl, rfl⟩)
        (keepsRoutes_of_eq rfl) fun _ _ _ _ _ => trivial
  exact hupdated.finish hticketless

variable {revision : Nat}

theorem Sound.spent (hs : s.Sound) {handlers : Table Nat EditorHandler} {timers : Table Nat (String × Nat)}
    (hspent : ∀ request, s.runtime.telegramModelSwitchRequest requestId = some request →
      request.revision = revision → request.pendingApply = none)
    (hticket : ∀ id r, s.Ticket n id r → id = requestId ∧ r = revision)
    (hhandlers : ∀ m handler, handlers.lookup m = some handler → s.handlers.lookup m = some handler)
    (htimers : ∀ m timer, timers.lookup m = some timer → s.timers.lookup m = some timer)
    (hothers : ∀ m, m ≠ n → handlers.lookup m = s.handlers.lookup m ∧ timers.lookup m = s.timers.lookup m) :
    ({ s with handlers := handlers, timers := timers } : SettingsSystem).Sound := by
  refine hs.withParties ?_ ?_ ⟨?_, ?_, ?_⟩ ?_
  · rintro m id r (⟨key, h⟩ | h)
    · exact .inl ⟨key, hhandlers _ _ h⟩
    · exact .inr (htimers _ _ h)
  · intro m id request h hrequest hsome
    by_cases hm : m = n
    · subst hm
      obtain ⟨rfl, hrevision⟩ := hticket _ _ h
      rw [hspent request hrequest hrevision] at hsome
      cases hsome
    · obtain ⟨hhandler, htimer⟩ := hothers m hm
      obtain ⟨key, h⟩ | h := h
      · exact .inl ⟨key, hhandler.trans h⟩
      · exact .inr (htimer.trans h)
  · intro m handler hm
    obtain ⟨hlt, hnone⟩ := hs.parties.apart m handler (hhandlers _ _ hm)
    refine ⟨hlt, eq_none_iff_forall_ne_some.mpr fun timer htimer => ?_⟩
    cases hnone.symm.trans (htimers _ _ htimer)
  · intro m timer hm
    exact hs.parties.timed m timer (htimers _ _ hm)
  · intro m k handler handler' hm hk
    exact hs.parties.alone m k handler handler' (hhandlers _ _ hm) (hhandlers _ _ hk)
  · intro m handler hm
    exact hs.stages m handler (hhandlers _ _ hm)

theorem ticket_of_handler (hs : s.Parties) {r : Nat}
    (hn : s.handlers.lookup n = some ⟨conversationKey, .submitting requestId revision⟩) (h : s.Ticket n id r) :
    id = requestId ∧ r = revision := by
  obtain ⟨key, h⟩ | h := h
  · cases hn.symm.trans h
    exact ⟨rfl, rfl⟩
  · cases (hs.apart n _ hn).2.symm.trans h

theorem ticket_of_timer (hs : s.Parties) {r : Nat} (hn : s.timers.lookup n = some (requestId, revision))
    (h : s.Ticket n id r) : id = requestId ∧ r = revision := by
  obtain ⟨key, h⟩ | h := h
  · cases hn.symm.trans (hs.apart n _ h).2
  · cases hn.symm.trans h
    exact ⟨rfl, rfl⟩

variable {n : Nat}

section

variable (hs : s.Sound)
include hs

section

variable (hn : s.handlers.lookup n = some ⟨conversationKey, .submitting requestId revision⟩)
include hn

theorem accepted_sound : (s.answer n requestId revision true).Sound := by
  have hlt : n < s.spawned := (hs.parties.apart n _ hn).1
  have htimer : ∀ m timer, (s.timers.insert n (requestId, revision)).lookup m = some timer →
      (m = n ∧ timer = (requestId, revision)) ∨ (m ≠ n ∧ s.timers.lookup m = some timer) := by
    intro m timer h
    rw [Table.lookup_insert_eq] at h
    split at h
    next hm => exact .inl ⟨hm, (Option.some.inj h).symm⟩
    next hm => exact .inr ⟨hm, h⟩
  refine hs.withParties ?_ ?_ ⟨?_, ?_, ?_⟩ ?_
  · rintro m id r (⟨key, h⟩ | h)
    · exact .inl ⟨key, (lookup_finish h).2⟩
    · obtain ⟨rfl, heq⟩ | ⟨-, h⟩ := htimer _ _ h
      · cases heq
        exact .inl ⟨conversationKey, hn⟩
      · exact .inr h
  · rintro m id request hticket - -
    by_cases hm : m = n
    · subst hm
      obtain ⟨rfl, hrevision⟩ := ticket_of_handler hs.parties hn hticket
      exact .inr (hrevision ▸ AList.lookup_insert _)
    · obtain ⟨key, h⟩ | h := hticket
      · exact .inl ⟨key, (Table.lookup_erase_eq _ _ _).trans ((if_neg hm).trans h)⟩
      · exact .inr ((AList.lookup_insert_ne hm).trans h)
  · intro m handler hm
    obtain ⟨hne, hm⟩ := lookup_finish hm
    obtain ⟨hless, hnone⟩ := hs.parties.apart m handler hm
    exact ⟨hless, (AList.lookup_insert_ne hne).trans hnone⟩
  · intro m timer hm
    obtain ⟨rfl, -⟩ | ⟨-, hm⟩ := htimer _ _ hm
    · exact hlt
    · exact hs.parties.timed m timer hm
  · exact (hs.parties.finish n).alone
  · intro m handler hm
    exact hs.stages m handler (lookup_finish hm).2

theorem rejected_sound : (s.answer n requestId revision false).Sound := by
  have hanswer : s.answer n requestId revision false =
      (s.commit (s.runtime.releaseTelegramThreadSettingsApply requestId revision).1 (.released n)).finish n := rfl
  rw [hanswer]
  obtain ⟨hsame, hspent⟩ | ⟨earlier, hstored, hrevision, hpending, hrelease⟩ :=
    release_cases s.runtime requestId revision
  · rw [hsame]
    have hunchanged : (s.commit s.runtime (.released n)).Sound :=
      hs.commit hs.tidy (Shrinks.refl _) (keepsRoutes_of_eq rfl) fun _ _ hbefore hafter => absurd hbefore hafter
    refine hunchanged.spent hspent (fun id r h => ticket_of_handler hs.parties hn h) ?_ ?_ ?_
    · intro m handler hm
      exact (lookup_finish hm).2
    · intro m timer hm
      exact hm
    · intro m hm
      exact ⟨AList.lookup_erase_ne hm, rfl⟩
  · rw [hrelease]
    have hkeyed : earlier.requestId = requestId := hs.tidy.keyed _ _ hstored
    have hfound := request_of_find hs hstored
    have hsubmitting : s.handlers.lookup n = some ⟨conversationKey, .submitting earlier.requestId revision⟩ := by
      rw [hkeyed]
      exact hn
    exact hs.released hsubmitting hfound hpending ⟨rfl, rfl, rfl, rfl, rfl⟩

end

theorem expire_sound (hn : s.timers.lookup n = some (requestId, revision)) : (s.expire n requestId revision).Sound := by
  have htaken : (s.commit (s.runtime.takeUnconfirmedTelegramThreadSettingsApply requestId revision).1
      (.unconfirmed n)).Sound ∧ ∀ request,
        (s.runtime.takeUnconfirmedTelegramThreadSettingsApply requestId revision).1.telegramModelSwitchRequest
          requestId = some request → request.revision = revision → request.pendingApply = none := by
    obtain ⟨hsame, hspent⟩ | ⟨earlier, hstored, hrevision, hpending, htake⟩ :=
      take_cases s.runtime requestId revision
    · rw [hsame]
      exact ⟨hs.commit hs.tidy (Shrinks.refl _) (keepsRoutes_of_eq rfl)
        fun _ _ hbefore hafter => absurd hbefore hafter, hspent⟩
    · rw [htake]
      have howner : s.owner.lookup requestId = some n := by
        obtain ⟨-, -, howner⟩ | hstale := hs.owned n _ revision earlier (.inr hn) hstored
        · exact howner
        · rw [hs.tidy.idle _ _ hstored hstale] at hpending
          cases hpending
      refine ⟨hs.commit (hs.tidy.clear requestId) (shrinks_clear requestId)
        (keepsRoutes_of_eq (routeByThread_clear requestId)) ?_, ?_⟩
      · rintro id m ⟨request, hrequest, hbefore⟩ hafter hm
        by_cases hid : id = requestId
        · rw [hid, howner] at hm
          exact Option.some.inj hm
        · exact absurd ⟨request, (request_clear _ _).trans ((if_neg hid).trans hrequest), hbefore⟩ hafter
      · intro request hrequest
        rw [request_clear, if_pos rfl] at hrequest
        cases hrequest
  refine htaken.1.spent htaken.2 (fun id r h => ticket_of_timer hs.parties hn h) ?_ ?_ ?_
  · intro m handler hm
    exact hm
  · intro m timer hm
    have hm := Table.lookup_erase_eq s.timers n m ▸ hm
    split at hm
    next => cases hm
    next => exact hm
  · intro m hm
    exact ⟨rfl, AList.lookup_erase_ne hm⟩

theorem observed_sound (threadId : String) (update : ThreadSettingsSnapshot) (editor : Option String) :
    (s.observed threadId update editor).Sound := by
  have htidy : (s.runtime.observing threadId update).Tidy := hs.tidy.congr rfl rfl
  have hshrinks : s.runtime.Shrinks (s.runtime.observing threadId update) := shrinks_of_lookup fun _ _ h => h
  unfold observed
  obtain ⟨-, hnone⟩ | ⟨id, request, row, -, hid, hrow, hfound⟩ :=
    observe_cases s.runtime threadId update editor
  · rw [hnone]
    exact hs.commit htidy hshrinks (keepsRoutes_of_eq rfl) fun _ _ _ _ _ => trivial
  have hstored := request_of_find hs hid
  have hmarks : row.SameMarks request := by
    rw [hrow]
    exact ⟨rfl, rfl, rfl, rfl, rfl⟩
  have hrowId : row.requestId = request.requestId := by rw [hrow]
  rw [← hrowId] at hstored
  have hidle : row.stale = true → row.pendingApply = none := by
    rw [hmarks.stale, hmarks.pendingApply]
    exact hs.tidy.idle _ _ hstored
  have hbounded : request.revision ≤ u64Max := hs.tidy.bounded _ _ hstored
  have hwritten : ((s.runtime.observing threadId update).storeRequest row).Tidy :=
    htidy.store hstored hmarks.conversationKey hidle (hmarks.revision ▸ hbounded)
  have hkept : s.runtime.Shrinks ((s.runtime.observing threadId update).storeRequest row) :=
    hshrinks.trans (shrinks_store hstored hmarks)
  obtain ⟨-, hconfirmed⟩ | ⟨-, ⟨-, -, hstale⟩ | hseen⟩ := hfound
  · rw [hconfirmed]
    exact hs.commit (hwritten.clear _) (hkept.trans (shrinks_clear _))
      (keepsRoutes_of_eq (routeByThread_clear _)) fun _ _ _ _ _ => trivial
  · -- the draft is stale, and an apply that was pending is dropped with it
    rw [hstale]
    have hlater : (markedStale row).revision = saturatingAdd request.revision 1 := by
      rw [← hmarks.revision]
      rfl
    have hrevision : saturatingAdd request.revision 1 = min (request.revision + 1) u64Max := rfl
    have hfound : s.runtime.telegramModelSwitchRequest (markedStale row).requestId = some request := hstored
    refine hs.store hfound (fun id => request_storeRequest (markedStale row) id) ?_ rfl hmarks.conversationKey
      hmarks.expectedThreadId rfl (by omega) (by omega) (fun _ _ _ => rfl) fun _ => trivial
    exact htidy.store hfound hmarks.conversationKey (fun _ => rfl) (by omega)
  · rw [hseen]
    exact hs.commit hwritten hkept (keepsRoutes_of_eq rfl) fun _ _ _ _ _ => trivial

/-- The editors that a new route leaves open are those of other conversations, or of a thread that stays
in its conversation. -/
theorem bind_sound (threadId : String) (route : RouteTarget) :
    (s.commit (s.runtime.bindRoute threadId route) .withdrawn).Sound := by
  generalize hbound : ({ s.runtime with
    routeByThread := s.runtime.routeByThread.insert threadId route } : SettingsRuntime) = bound
  have htidy : bound.Tidy := hbound ▸ hs.tidy.congr rfl rfl
  have hshrinks : s.runtime.Shrinks bound := by
    rw [← hbound]
    exact shrinks_of_lookup fun _ _ h => h
  have hlookup : ∀ thread, bound.routeByThread.lookup thread =
      if thread = threadId then some route else s.runtime.routeByThread.lookup thread := by
    intro thread
    rw [← hbound]
    exact Table.lookup_insert_eq _ _ _ _
  -- a thread that keeps its conversation is routed there still
  have hstays : ∀ {key thread : String}, s.runtime.RoutedTo key thread →
      (thread = threadId → route.conversationKey = key) → bound.RoutedTo key thread := by
    rintro key thread ⟨previous, hprevious, hkey⟩ hsame
    by_cases hthread : thread = threadId
    · exact ⟨route, (hlookup thread).trans (if_pos hthread), hsame hthread⟩
    · exact ⟨previous, ((hlookup thread).trans (if_neg hthread)).trans hprevious, hkey⟩
  unfold bindRoute reroutes
  rw [hbound]
  have hclosed : ∀ key, bound.Shrinks (bound.clearTelegramModelSwitchRequestsForConversation key) :=
    shrinks_clearConversation
  cases hprevious : s.runtime.routeByThread.lookup threadId with
  | none =>
    refine hs.commit (htidy.clearConversation _) (hshrinks.trans (hclosed _)) ?_ fun _ _ _ _ _ => trivial
    rintro id request - hrouted
    refine hstays hrouted ?_
    rintro rfl
    obtain ⟨previous, h, -⟩ := hrouted
    cases hprevious.symm.trans h
  | some previous =>
    dsimp only [all_some]
    split
    next =>
      refine hs.commit ((htidy.clearConversation _).clearConversation _)
        ((hshrinks.trans (hclosed _)).trans (shrinks_clearConversation _)) ?_ fun _ _ _ _ _ => trivial
      intro id request hrequest hrouted
      refine hstays hrouted ?_
      rintro rfl
      obtain ⟨earlier, h, hkey⟩ := hrouted
      cases hprevious.symm.trans h
      rw [request_clearConversation] at hrequest
      have hother := (filter_eq_some_iff.mp hrequest).2
      exact absurd hkey.symm (of_decide_eq_true hother)
    next hmoved =>
      refine hs.commit htidy hshrinks ?_ fun _ _ _ _ _ => trivial
      rintro id request - hrouted
      refine hstays hrouted ?_
      rintro rfl
      obtain ⟨earlier, h, hkey⟩ := hrouted
      cases hprevious.symm.trans h
      simp only [ne_eq, decide_eq_true_eq, not_or, not_not] at hmoved
      exact hmoved.1.symm.trans hkey

theorem closeConversation_sound (conversationKey : String) :
    (s.commit (s.runtime.clearTelegramModelSwitchRequestsForConversation conversationKey) .withdrawn).Sound :=
  hs.commit (hs.tidy.clearConversation conversationKey) (shrinks_clearConversation conversationKey)
    (keepsRoutes_of_eq rfl) fun _ _ _ _ _ => trivial

theorem unbind_sound (conversationKey : String) :
    (s.commit (s.runtime.unbindRoutesForConversation conversationKey) .withdrawn).Sound := by
  have htidy : (s.runtime.unroute conversationKey).Tidy := hs.tidy.congr rfl rfl
  have hshrinks : s.runtime.Shrinks (s.runtime.unroute conversationKey) := shrinks_of_lookup fun _ _ h => h
  refine hs.commit (htidy.clearConversation _) (hshrinks.trans (shrinks_clearConversation _)) ?_
    fun _ _ _ _ _ => trivial
  rintro id request hrequest ⟨route, hroute, hkey⟩
  rw [unbindRoutesForConversation, request_clearConversation] at hrequest
  have hother := of_decide_eq_true (filter_eq_some_iff.mp hrequest).2
  refine ⟨route, ?_, hkey⟩
  refine (Table.lookup_retain _ _ _).trans ?_
  rw [hroute]
  refine filter_eq_some_iff.mpr ⟨rfl, ?_⟩
  dsimp only
  rw [hroute, any_some, hkey, Bool.not_eq_true', decide_eq_false_iff_not]
  exact hother

theorem restart_sound : ({ s.commit s.runtime.resetEditors .withdrawn with handlers := ∅ } : SettingsSystem).Sound := by
  have hreset : (s.commit s.runtime.resetEditors .withdrawn).Sound := by
    refine hs.commit (.reset _) ?_ ?_ fun _ _ _ _ _ => trivial
    · intro id request h
      cases h
    · intro id request h
      cases h
  refine hreset.withParties ?_ ?_ ⟨?_, hreset.parties.timed, ?_⟩ ?_
  · rintro n id revision (⟨key, h⟩ | h)
    · cases h
    · exact .inr h
  · intro n id request _ h
    cases h
  · intro n handler h
    cases h
  · intro n m handler handler' h
    cases h
  · intro n handler h
    cases h

end

/-- Handlers save only what they may, and the numbers of editors do not wrap. -/
def Regular (s : SettingsSystem) : SettingsStep → Prop
  | .act n _ => ∀ handler ∈ s.handlers.lookup n, ∀ request ∈ handler.saving, s.MaySave request
  | .remember _ => s.requestSequence < u64Max
  | _ => True

theorem Regular.maySave {request saved : TelegramModelSwitchRequestState} (h : s.Regular (.act n nowMs))
    (hn : s.handlers.lookup n = some ⟨conversationKey, .verified action request⟩)
    (houtcome : request.outcome action = .save saved) : s.MaySave request := by
  refine h _ hn request ?_
  simp only [EditorHandler.saving, houtcome, mem_def]

theorem step_sound (hs : s.Sound) {a : SettingsStep} (hregular : s.Regular a) (h : step s a = some t) : t.Sound := by
  cases a with
  | «open» opening =>
    simp only [step] at h
    split at h
    next hidle =>
      cases h
      exact beginOpen_sound hs hidle
    next => cases h
  | remember n =>
    simp only [step] at h
    split at h
    next key request hn =>
      cases h
      exact rememberEditor_sound hs hregular hn
    next => cases h
  | callback c =>
    simp only [step] at h
    split at h
    next hidle =>
      cases h
      exact readEditor_sound hs hidle
    next => cases h
  | verify n live =>
    simp only [step] at h
    split at h
    next key action request hn =>
      cases h
      exact verifyEditor_sound hs hn
    next => cases h
  | act n nowMs =>
    simp only [step] at h
    split at h
    next key action request hn =>
      cases h
      exact actOn_sound hs hn fun saved hsave => hregular.maySave hn hsave
    next => cases h
  | rendered n messageId =>
    simp only [step] at h
    split at h
    next key requestId hn =>
      cases messageId with
      | none =>
        cases h
        exact hs.finish (ticketless_of hn fun _ _ h => by cases h)
      | some messageId =>
        cases h
        exact rendered_sound hs hn
    next => cases h
  | answered n accepted =>
    simp only [step] at h
    split at h
    next key requestId revision hn =>
      cases h
      cases accepted with
      | true => exact accepted_sound hs hn
      | false => exact rejected_sound hs hn
    next => cases h
  | timedOut n =>
    simp only [step] at h
    split at h
    next requestId revision hn =>
      cases h
      exact expire_sound hs hn
    next => cases h
  | observe threadId update editor =>
    simp only [step] at h
    split at h
    next =>
      cases h
      exact observed_sound hs threadId update editor
    next => cases h
  | bind threadId route =>
    cases h
    exact bind_sound hs threadId route
  | unbind conversationKey =>
    cases h
    exact unbind_sound hs conversationKey
  | openRouting conversationKey =>
    cases h
    exact closeConversation_sound hs conversationKey
  | restart =>
    cases h
    exact restart_sound hs

theorem run_sound {steps : List SettingsStep} (h : Runs.run step start steps = some s)
    (hregular : Runs.Meets step Regular start steps) : s.Sound :=
  Runs.run_invariant_of_meets Sound (fun _ _ _ hs hr h => step_sound hs hr h) start_sound hregular h

end SettingsSystem

end MochiPort

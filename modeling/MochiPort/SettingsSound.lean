import MochiPort.SettingsSystem

namespace MochiPort

theorem nextTelegramModelSwitchRequestId_injective {m n : Nat}
    (h : nextTelegramModelSwitchRequestId m = nextTelegramModelSwitchRequestId n) : m = n := by
  have hlist := congrArg String.toList h
  simp only [nextTelegramModelSwitchRequestId, String.toList_append, List.append_cancel_left_eq] at hlist
  exact RustText.toString_injective (String.toList_inj.mp hlist)

/-- The editor in what claims, releases and time-outs look at. -/
structure TelegramModelSwitchRequestState.SameMarks (request earlier : TelegramModelSwitchRequestState) : Prop where
  conversationKey : request.conversationKey = earlier.conversationKey
  expectedThreadId : request.expectedThreadId = earlier.expectedThreadId
  revision : request.revision = earlier.revision
  pendingApply : request.pendingApply = earlier.pendingApply
  stale : request.stale = earlier.stale

namespace SettingsRuntime

/-- Editors may have gone, and those that stayed keep their marks. -/
def Shrinks (s t : SettingsRuntime) : Prop :=
  ∀ id request, t.telegramModelSwitchRequest id = some request →
    ∃ earlier, s.telegramModelSwitchRequest id = some earlier ∧ request.SameMarks earlier

def RoutedTo (s : SettingsRuntime) (conversationKey threadId : String) : Prop :=
  ∃ route, s.routeByThread.lookup threadId = some route ∧ route.conversationKey = conversationKey

def KeepsRoutes (s t : SettingsRuntime) : Prop :=
  ∀ id request, t.telegramModelSwitchRequest id = some request →
    s.RoutedTo request.conversationKey request.expectedThreadId →
      t.RoutedTo request.conversationKey request.expectedThreadId

variable {s : SettingsRuntime}

variable {t : SettingsRuntime}

theorem shrinks_of_lookup (h : ∀ id request, t.telegramModelSwitchRequest id = some request →
      s.telegramModelSwitchRequest id = some request) : s.Shrinks t :=
  fun id request hrequest => ⟨request, h id request hrequest, ⟨rfl, rfl, rfl, rfl, rfl⟩⟩

theorem Shrinks.refl (s : SettingsRuntime) : s.Shrinks s := shrinks_of_lookup fun _ _ h => h

theorem shrinks_clear (requestId : String) : s.Shrinks (s.clearTelegramModelSwitchRequest requestId) := by
  refine shrinks_of_lookup fun id request h => ?_
  rw [request_clear] at h
  split at h
  next => cases h
  next => exact h

theorem shrinks_clearConversation (conversationKey : String) :
    s.Shrinks (s.clearTelegramModelSwitchRequestsForConversation conversationKey) := by
  refine shrinks_of_lookup fun id request h => ?_
  rw [request_clearConversation] at h
  exact (Option.filter_eq_some_iff.mp h).1

theorem Shrinks.trans {u : SettingsRuntime} (hst : s.Shrinks t) (htu : t.Shrinks u) : s.Shrinks u := by
  intro id request h
  obtain ⟨between, hbetween, hmarks⟩ := htu id request h
  obtain ⟨earlier, hearlier, hmarks'⟩ := hst id between hbetween
  exact ⟨earlier, hearlier, hmarks.1.trans hmarks'.1, hmarks.2.trans hmarks'.2,
    hmarks.3.trans hmarks'.3, hmarks.4.trans hmarks'.4, hmarks.5.trans hmarks'.5⟩

theorem shrinks_store {request earlier : TelegramModelSwitchRequestState}
    (hstored : s.telegramModelSwitchRequest request.requestId = some earlier)
    (hmarks : request.SameMarks earlier) : s.Shrinks (s.storeRequest request) := by
  intro id request' h
  rw [request_storeRequest] at h
  split at h
  next hid =>
    cases h
    exact ⟨earlier, hid ▸ hstored, hmarks⟩
  next => exact ⟨request', h, ⟨rfl, rfl, rfl, rfl, rfl⟩⟩

theorem keepsRoutes_of_eq (h : t.routeByThread = s.routeByThread) : s.KeepsRoutes t := by
  rintro id request - ⟨route, hroute, hkey⟩
  exact ⟨route, h ▸ hroute, hkey⟩

@[simp] theorem routeByThread_clear (requestId : String) :
    (s.clearTelegramModelSwitchRequest requestId).routeByThread = s.routeByThread := by
  unfold clearTelegramModelSwitchRequest
  split <;> rfl

end SettingsRuntime

namespace ApplyEnd

/-- A release or a time-out that ended the apply was the apply's own. -/
def Own (apply : Nat) : ApplyEnd → Prop
  | .released party => party = apply
  | .unconfirmed party => party = apply
  | .confirmed => True
  | .withdrawn => True

end ApplyEnd

namespace SettingsSystem

open SettingsRuntime

/-- A party that will release the apply or take it back: its handler awaits the client's answer, or its
time-out is armed. -/
def Ticket (s : SettingsSystem) (apply : Nat) (requestId : String) (revision : Nat) : Prop :=
  (∃ conversationKey, s.handlers.lookup apply = some ⟨conversationKey, .submitting requestId revision⟩) ∨
    s.timers.lookup apply = some (requestId, revision)

/-- The apply is pending in its editor, under the revision that its own party will ask for. -/
def Outstanding (s : SettingsSystem) (apply : Nat) (claim : SettingsClaim) : Prop :=
  ∃ request, s.runtime.telegramModelSwitchRequest claim.requestId = some request ∧
    request.pendingApply.isSome = true ∧ request.revision = claim.revision ∧
    request.expectedThreadId = claim.threadId ∧ s.owner.lookup claim.requestId = some apply ∧
    s.Ticket apply claim.requestId claim.revision

def Issued (s : SettingsSystem) (requestId : String) : Prop :=
  ∃ k < s.requestSequence, requestId = nextTelegramModelSwitchRequestId k

/-- A handler's copy agrees with the stored editor for as long as their revisions agree. -/
structure CopySound (s : SettingsSystem) (conversationKey : String) (copy : TelegramModelSwitchRequestState) :
    Prop where
  conversation : copy.conversationKey = conversationKey
  issued : s.Issued copy.requestId
  stored : ∀ request, s.runtime.telegramModelSwitchRequest copy.requestId = some request →
    request.conversationKey = conversationKey ∧ request.expectedThreadId = copy.expectedThreadId ∧
      copy.revision ≤ request.revision
  agrees : ∀ request, s.runtime.telegramModelSwitchRequest copy.requestId = some request →
    request.revision = copy.revision → copy.revision < u64Max →
      request.pendingApply = copy.pendingApply ∧ request.stale = copy.stale

def StageSound (s : SettingsSystem) (conversationKey : String) : EditorStage → Prop
  | .opening request =>
    request.conversationKey = conversationKey ∧ request.pendingApply = none ∧ request.revision = 1
  | .read _ copy => s.CopySound conversationKey copy
  | .verified _ copy =>
    s.CopySound conversationKey copy ∧ copy.stale = false ∧
      ∀ request, s.runtime.telegramModelSwitchRequest copy.requestId = some request →
        s.runtime.RoutedTo conversationKey copy.expectedThreadId
  | .submitting requestId _ =>
    s.Issued requestId ∧
      ∀ request, s.runtime.telegramModelSwitchRequest requestId = some request →
        request.conversationKey = conversationKey
  | .rendering _ => True

/-- Handlers and time-outs have numbers of their own, and a conversation has one handler at most. -/
structure Parties (s : SettingsSystem) : Prop where
  apart : ∀ n handler, s.handlers.lookup n = some handler → n < s.spawned ∧ s.timers.lookup n = none
  timed : ∀ n timer, s.timers.lookup n = some timer → n < s.spawned
  alone : ∀ n m handler handler', s.handlers.lookup n = some handler → s.handlers.lookup m = some handler' →
    handler'.conversationKey = handler.conversationKey → m = n

/-- What holds in every state that a run reaches in which handlers save only what they may: a pending
apply has the party of its claim, and no other party asks for its editor's revision. -/
structure Sound (s : SettingsSystem) : Prop where
  tidy : s.runtime.Tidy
  issued : ∀ id request, s.runtime.telegramModelSwitchRequest id = some request → s.Issued id
  ticketed : ∀ id request, s.runtime.telegramModelSwitchRequest id = some request →
    request.pendingApply.isSome = true →
      ∃ n, s.owner.lookup id = some n ∧ s.Ticket n id request.revision
  known : ∀ n id revision, s.Ticket n id revision → s.Issued id
  owned : ∀ n id revision request, s.Ticket n id revision →
    s.runtime.telegramModelSwitchRequest id = some request →
      (request.pendingApply.isSome = true ∧ request.revision = revision ∧ s.owner.lookup id = some n) ∨
        request.stale = true
  placed : ∀ id request, s.runtime.telegramModelSwitchRequest id = some request →
    request.pendingApply.isSome = true →
      s.runtime.RoutedTo request.conversationKey request.expectedThreadId
  parties : s.Parties
  stages : ∀ n handler, s.handlers.lookup n = some handler →
    s.StageSound handler.conversationKey handler.stage
  accounted : ∀ apply claim, s.claims.lookup apply = some claim →
    s.Outstanding apply claim ∨ ∃ how, (apply, how) ∈ s.ended
  own : ∀ apply how, (apply, how) ∈ s.ended → how.Own apply

theorem start_sound : start.Sound := by
  refine ⟨.empty, ?_, ?_, ?_, ?_, ?_, ⟨?_, ?_, ?_⟩, ?_, ?_, ?_⟩
  · intro id request h
    cases h
  · intro id request h
    cases h
  · rintro n id revision (⟨key, h⟩ | h) <;> cases h
  · intro n id revision request _ h
    cases h
  · intro id request h
    cases h
  · intro n handler h
    cases h
  · intro n timer h
    cases h
  · intro n m handler handler' h
    cases h
  · intro n handler h
    cases h
  · intro apply claim h
    cases h
  · intro apply how h
    cases h

variable {s t : SettingsSystem}

variable {apply : Nat}

theorem mem_endings {runtime : SettingsRuntime} {how how' : ApplyEnd} :
    (apply, how') ∈ s.endings runtime how ↔
      how' = how ∧ ∃ id, s.runtime.Pending id ∧ ¬runtime.Pending id ∧ s.owner.lookup id = some apply := by
  simp only [endings, List.mem_filterMap, List.mem_filter, mem_pendingIds, decide_eq_true_eq,
    Option.map_eq_some_iff, Prod.mk.injEq]
  constructor
  · rintro ⟨id, ⟨hbefore, hafter⟩, n, hn, rfl, rfl⟩
    exact ⟨rfl, id, hbefore, hafter, hn⟩
  · rintro ⟨rfl, id, hbefore, hafter, hn⟩
    exact ⟨id, ⟨hbefore, hafter⟩, apply, hn, rfl, rfl⟩

variable {how : ApplyEnd}

theorem Sound.accounted_of (hs : s.Sound) (hended : t.ended = s.endings t.runtime how ++ s.ended)
    (hkept : ∀ apply claim, s.Outstanding apply claim → t.runtime.Pending claim.requestId →
      t.Outstanding apply claim) {claim : SettingsClaim} (hclaim : s.claims.lookup apply = some claim) :
    t.Outstanding apply claim ∨ ∃ how, (apply, how) ∈ t.ended := by
  obtain houtstanding | ⟨how', hmem⟩ := hs.accounted apply claim hclaim
  · by_cases hpending : t.runtime.Pending claim.requestId
    · exact .inl (hkept apply claim houtstanding hpending)
    · obtain ⟨request, hrequest, hsome, -, -, howner, -⟩ := houtstanding
      refine .inr ⟨how, ?_⟩
      rw [hended]
      exact List.mem_append_left _ (mem_endings.mpr ⟨rfl, _, ⟨request, hrequest, hsome⟩, hpending, howner⟩)
  · refine .inr ⟨how', ?_⟩
    rw [hended]
    exact List.mem_append_right _ hmem

theorem Sound.own_of (hs : s.Sound) (hended : t.ended = s.endings t.runtime how ++ s.ended)
    (hown : ∀ id apply, s.runtime.Pending id → ¬t.runtime.Pending id → s.owner.lookup id = some apply →
      how.Own apply) {how' : ApplyEnd} (h : (apply, how') ∈ t.ended) : how'.Own apply := by
  rw [hended] at h
  obtain h | h := List.mem_append.mp h
  · obtain ⟨rfl, id, hbefore, hafter, hn⟩ := mem_endings.mp h
    exact hown id apply hbefore hafter hn
  · exact hs.own apply how' h

theorem Issued.mono (hsequence : s.requestSequence ≤ t.requestSequence) {requestId : String}
    (h : s.Issued requestId) : t.Issued requestId := by
  obtain ⟨k, hk, hid⟩ := h
  exact ⟨k, Nat.lt_of_lt_of_le hk hsequence, hid⟩

variable {conversationKey : String}

theorem CopySound.of_shrinks {copy : TelegramModelSwitchRequestState} (hs : s.CopySound conversationKey copy)
    (hshrinks : ∀ id, s.Issued id → ∀ request, t.runtime.telegramModelSwitchRequest id = some request →
      ∃ earlier, s.runtime.telegramModelSwitchRequest id = some earlier ∧ request.SameMarks earlier)
    (hsequence : s.requestSequence ≤ t.requestSequence) : t.CopySound conversationKey copy := by
  refine ⟨hs.conversation, hs.issued.mono hsequence, ?_, ?_⟩
  · intro request hrequest
    obtain ⟨earlier, hearlier, hmarks⟩ := hshrinks _ hs.issued _ hrequest
    obtain ⟨hkey, hthread, hrevision⟩ := hs.stored earlier hearlier
    exact ⟨hmarks.conversationKey.trans hkey, hmarks.expectedThreadId.trans hthread,
      hmarks.revision.symm ▸ hrevision⟩
  · intro request hrequest hrevision hmax
    obtain ⟨earlier, hearlier, hmarks⟩ := hshrinks _ hs.issued _ hrequest
    obtain ⟨hpending, hstale⟩ := hs.agrees earlier hearlier (hmarks.revision.symm.trans hrevision) hmax
    exact ⟨hmarks.pendingApply.trans hpending, hmarks.stale.trans hstale⟩

variable {stage : EditorStage}

theorem StageSound.of_shrinks (hs : s.StageSound conversationKey stage)
    (hshrinks : ∀ id, s.Issued id → ∀ request, t.runtime.telegramModelSwitchRequest id = some request →
      ∃ earlier, s.runtime.telegramModelSwitchRequest id = some earlier ∧ request.SameMarks earlier)
    (hroutes : s.runtime.KeepsRoutes t.runtime) (hsequence : s.requestSequence ≤ t.requestSequence) :
    t.StageSound conversationKey stage := by
  cases stage with
  | opening request => exact hs
  | read action copy => exact CopySound.of_shrinks hs hshrinks hsequence
  | verified action copy =>
    obtain ⟨hcopy, hstale, hrouted⟩ := hs
    refine ⟨hcopy.of_shrinks hshrinks hsequence, hstale, ?_⟩
    intro request hrequest
    obtain ⟨earlier, hearlier, hmarks⟩ := hshrinks _ hcopy.issued _ hrequest
    obtain ⟨hkey, hthread, -⟩ := hcopy.stored earlier hearlier
    have hkept := hroutes _ request hrequest
    rw [hmarks.conversationKey.trans hkey, hmarks.expectedThreadId.trans hthread] at hkept
    exact hkept (hrouted earlier hearlier)
  | submitting requestId revision =>
    refine ⟨hs.1.mono hsequence, ?_⟩
    intro request hrequest
    obtain ⟨earlier, hearlier, hmarks⟩ := hshrinks _ hs.1 _ hrequest
    exact hmarks.conversationKey.trans (hs.2 earlier hearlier)
  | rendering requestId => trivial

theorem Sound.commit (hs : s.Sound) {runtime : SettingsRuntime} (htidy : runtime.Tidy)
    (hshrinks : s.runtime.Shrinks runtime) (hroutes : s.runtime.KeepsRoutes runtime)
    (hown : ∀ id apply, s.runtime.Pending id → ¬runtime.Pending id → s.owner.lookup id = some apply → how.Own apply) :
    (s.commit runtime how).Sound where
  tidy := htidy
  issued := by
    intro id request hrequest
    obtain ⟨earlier, hearlier, -⟩ := hshrinks id request hrequest
    exact hs.issued id earlier hearlier
  ticketed := by
    intro id request hrequest hpending
    obtain ⟨earlier, hearlier, hmarks⟩ := hshrinks id request hrequest
    rw [hmarks.pendingApply] at hpending
    rw [hmarks.revision]
    exact hs.ticketed id earlier hearlier hpending
  known := hs.known
  owned := by
    intro n id revision request hticket hrequest
    obtain ⟨earlier, hearlier, hmarks⟩ := hshrinks id request hrequest
    rw [hmarks.pendingApply, hmarks.revision, hmarks.stale]
    exact hs.owned n id revision earlier hticket hearlier
  placed := by
    intro id request hrequest hpending
    obtain ⟨earlier, hearlier, hmarks⟩ := hshrinks id request hrequest
    rw [hmarks.pendingApply] at hpending
    refine hroutes id request hrequest ?_
    rw [hmarks.conversationKey, hmarks.expectedThreadId]
    exact hs.placed id earlier hearlier hpending
  parties := ⟨hs.parties.apart, hs.parties.timed, hs.parties.alone⟩
  stages := fun n handler hn => (hs.stages n handler hn).of_shrinks (fun id _ => hshrinks id) hroutes
    (Nat.le_refl _)
  accounted := by
    intro apply claim hclaim
    refine hs.accounted_of (t := s.commit runtime how) rfl ?_ hclaim
    rintro apply claim ⟨earlier, hearlier, hpending, hrevision, hthread, howner, hticket⟩ ⟨request, hrequest, -⟩
    obtain ⟨earlier', hearlier', hmarks⟩ := hshrinks _ request hrequest
    cases hearlier.symm.trans hearlier'
    exact ⟨request, hrequest, hmarks.pendingApply.symm ▸ hpending, hmarks.revision.trans hrevision,
      hmarks.expectedThreadId.trans hthread, howner, hticket⟩
  own := fun apply how' h => hs.own_of (t := s.commit runtime how) rfl hown h

variable {spawned : Nat}

/-- Handlers and time-outs come, go and move between stages. No ticket is new, and none goes for whose
revision an apply is pending. -/
theorem Sound.withParties (hs : s.Sound) {handlers : Table Nat EditorHandler} {timers : Table Nat (String × Nat)}
    (hold : ∀ n id revision,
      ({ s with handlers := handlers, timers := timers, spawned := spawned } : SettingsSystem).Ticket
        n id revision → s.Ticket n id revision) (hkept : ∀ n id request, s.Ticket n id request.revision →
      s.runtime.telegramModelSwitchRequest id = some request → request.pendingApply.isSome = true →
      ({ s with handlers := handlers, timers := timers, spawned := spawned } : SettingsSystem).Ticket
        n id request.revision)
    (hparties : ({ s with handlers := handlers, timers := timers, spawned := spawned } : SettingsSystem).Parties)
    (hstages : ∀ n handler, handlers.lookup n = some handler → s.StageSound handler.conversationKey handler.stage) :
    ({ s with handlers := handlers, timers := timers, spawned := spawned } : SettingsSystem).Sound where
  tidy := hs.tidy
  issued := hs.issued
  ticketed := by
    intro id request hrequest hpending
    obtain ⟨n, howner, hticket⟩ := hs.ticketed id request hrequest hpending
    exact ⟨n, howner, hkept n id request hticket hrequest hpending⟩
  known := fun n id revision hticket => hs.known n id revision (hold _ _ _ hticket)
  owned := fun n id revision request hticket => hs.owned n id revision request (hold _ _ _ hticket)
  placed := hs.placed
  parties := hparties
  stages := fun n handler hn => (hstages n handler hn).of_shrinks (fun id _ => Shrinks.refl _ id)
    (keepsRoutes_of_eq rfl) (Nat.le_refl _)
  accounted := by
    intro apply claim hclaim
    refine (hs.accounted apply claim hclaim).imp_left ?_
    rintro ⟨request, hrequest, hpending, hrevision, hthread, howner, hticket⟩
    rw [← hrevision] at hticket
    refine ⟨request, hrequest, hpending, hrevision, hthread, howner, ?_⟩
    rw [← hrevision]
    exact hkept apply _ request hticket hrequest hpending
  own := hs.own

def Ticketless (s : SettingsSystem) (n : Nat) : Prop :=
  ∀ handler, s.handlers.lookup n = some handler → ∀ requestId revision,
    handler.stage ≠ .submitting requestId revision

variable {n : Nat}

theorem ticket_finish {apply : Nat} {requestId : String} {revision : Nat} (hn : s.Ticketless n) :
    (s.finish n).Ticket apply requestId revision ↔ s.Ticket apply requestId revision := by
  constructor
  · rintro (⟨key, h⟩ | h)
    · have h := Table.lookup_erase_eq s.handlers n apply ▸ h
      split at h
      next => cases h
      next => exact .inl ⟨key, h⟩
    · exact .inr h
  · rintro (⟨key, h⟩ | h)
    · refine .inl ⟨key, ?_⟩
      rw [finish, Table.lookup_erase_eq, if_neg]
      · exact h
      · rintro rfl
        exact hn _ h _ _ rfl
    · exact .inr h

variable {handler : EditorHandler}

variable {m : Nat}

theorem lookup_finish (h : (s.finish n).handlers.lookup m = some handler) :
    m ≠ n ∧ s.handlers.lookup m = some handler := by
  rw [finish, Table.lookup_erase_eq] at h
  split at h
  next => cases h
  next hne => exact ⟨hne, h⟩

theorem Parties.finish (hs : s.Parties) (n : Nat) : (s.finish n).Parties := by
  refine ⟨?_, hs.timed, ?_⟩
  · intro m handler hm
    exact hs.apart m handler (lookup_finish hm).2
  · intro m k handler handler' hm hk
    exact hs.alone m k handler handler' (lookup_finish hm).2 (lookup_finish hk).2

theorem Sound.finish (hs : s.Sound) (hn : s.Ticketless n) : (s.finish n).Sound := by
  refine hs.withParties (fun _ _ _ => (ticket_finish hn).mp) (fun _ _ _ h _ _ => (ticket_finish hn).mpr h)
    (hs.parties.finish n) ?_
  intro m handler hm
  exact hs.stages m handler (lookup_finish hm).2

theorem lookup_put {handler handler' : EditorHandler} (h : (s.handlers.insert n handler).lookup m = some handler') :
    (m = n ∧ handler' = handler) ∨ (m ≠ n ∧ s.handlers.lookup m = some handler') := by
  rw [Table.lookup_insert_eq] at h
  split at h
  next hm => exact .inl ⟨hm, (Option.some.inj h).symm⟩
  next hm => exact .inr ⟨hm, h⟩

theorem Parties.put (hs : s.Parties) (hspawned : s.spawned ≤ spawned) (hfresh : n < spawned)
    (htimer : s.timers.lookup n = none) (hothers : ∀ m other, m ≠ n → s.handlers.lookup m = some other →
      other.conversationKey ≠ handler.conversationKey) :
    ({ s with handlers := s.handlers.insert n handler, spawned := spawned } : SettingsSystem).Parties := by
  constructor
  · intro m other hm
    obtain ⟨rfl, -⟩ | ⟨-, hm⟩ := lookup_put hm
    · exact ⟨hfresh, htimer⟩
    · obtain ⟨hlt, hnone⟩ := hs.apart m other hm
      exact ⟨Nat.lt_of_lt_of_le hlt hspawned, hnone⟩
  · intro m timer hm
    exact Nat.lt_of_lt_of_le (hs.timed m timer hm) hspawned
  · intro m k first second hm hk hsame
    obtain ⟨rfl, rfl⟩ | ⟨hmn, hfirst⟩ := lookup_put hm
    · obtain ⟨rfl, rfl⟩ | ⟨hkn, hsecond⟩ := lookup_put hk
      · rfl
      · exact absurd hsame (hothers k second hkn hsecond)
    · obtain ⟨rfl, rfl⟩ | ⟨-, hsecond⟩ := lookup_put hk
      · exact absurd hsame.symm (hothers m first hmn hfirst)
      · exact hs.alone m k first second hfirst hsecond hsame

theorem Parties.moveTo (hs : s.Parties) (hn : s.handlers.lookup n = some handler) :
    (s.moveTo n handler.conversationKey stage).Parties := by
  obtain ⟨hlt, htimer⟩ := hs.apart n handler hn
  refine hs.put (Nat.le_refl _) hlt htimer ?_
  intro m other hne hm hsame
  exact hne (hs.alone n m handler other hn hm hsame)

theorem Sound.put (hs : s.Sound) (hn : s.Ticketless n)
    (hstage : ∀ requestId revision, stage ≠ .submitting requestId revision) (hparties : ({ s with
      handlers := s.handlers.insert n ⟨conversationKey, stage⟩, spawned := spawned } : SettingsSystem).Parties)
    (hsound : s.StageSound conversationKey stage) :
    ({ s with handlers := s.handlers.insert n ⟨conversationKey, stage⟩, spawned := spawned } :
      SettingsSystem).Sound := by
  refine hs.withParties ?_ ?_ hparties ?_
  · rintro apply requestId revision (⟨key, h⟩ | h)
    · obtain ⟨-, heq⟩ | ⟨-, h⟩ := lookup_put h
      · cases heq
        exact absurd rfl (hstage requestId revision)
      · exact .inl ⟨key, h⟩
    · exact .inr h
  · rintro apply requestId request (⟨key, h⟩ | h) - -
    · refine .inl ⟨key, (Table.lookup_insert_eq _ _ _ _).trans ((if_neg ?_).trans h)⟩
      rintro rfl
      exact hn _ h _ _ rfl
    · exact .inr h
  · intro m handler hm
    obtain ⟨rfl, rfl⟩ | ⟨-, hm⟩ := lookup_put hm
    · exact hsound
    · exact hs.stages m handler hm

theorem others_of_idle (h : s.idle conversationKey = true) (hm : s.handlers.lookup m = some handler) :
    handler.conversationKey ≠ conversationKey := by
  intro hkey
  have hfound : (s.handlers.findKey? fun handler => handler.conversationKey = conversationKey).isSome :=
    Table.findKey?_isSome.mpr ⟨m, handler, hm, decide_eq_true hkey⟩
  rw [idle, Option.isNone_iff_eq_none] at h
  rw [h] at hfound
  cases hfound

theorem Sound.spawn (hs : s.Sound) (hidle : s.idle conversationKey = true)
    (hstage : ∀ requestId revision, stage ≠ .submitting requestId revision)
    (hsound : s.StageSound conversationKey stage) : (s.spawn conversationKey stage).Sound := by
  have hnew : s.handlers.lookup s.spawned = none := by
    refine Option.eq_none_iff_forall_ne_some.mpr fun handler h => ?_
    exact Nat.lt_irrefl _ (hs.parties.apart _ handler h).1
  have htimer : s.timers.lookup s.spawned = none := by
    refine Option.eq_none_iff_forall_ne_some.mpr fun timer h => ?_
    exact Nat.lt_irrefl _ (hs.parties.timed _ timer h)
  have hparties : (s.spawn conversationKey stage).Parties :=
    hs.parties.put (Nat.le_succ _) (Nat.lt_succ_self _) htimer fun m handler _ => others_of_idle hidle
  refine hs.put ?_ hstage hparties hsound
  intro handler h
  rw [hnew] at h
  cases h

theorem Sound.moveTo (hs : s.Sound) (hn : s.handlers.lookup n = some handler)
    (hbefore : ∀ requestId revision, handler.stage ≠ .submitting requestId revision)
    (hafter : ∀ requestId revision, stage ≠ .submitting requestId revision)
    (hsound : s.StageSound handler.conversationKey stage) : (s.moveTo n handler.conversationKey stage).Sound := by
  refine hs.put ?_ hafter (hs.parties.moveTo hn) hsound
  intro handler' h
  cases hn.symm.trans h
  exact hbefore

variable {row : TelegramModelSwitchRequestState}

variable {earlier : TelegramModelSwitchRequestState}

theorem StageSound.of_store (hs : s.StageSound conversationKey stage)
    (hstored : s.runtime.telegramModelSwitchRequest row.requestId = some earlier)
    (hrequests : ∀ id, t.runtime.telegramModelSwitchRequest id =
      if id = row.requestId then some row else s.runtime.telegramModelSwitchRequest id)
    (hroutes : t.runtime.routeByThread = s.runtime.routeByThread) (hsequence : t.requestSequence = s.requestSequence)
    (hkey : row.conversationKey = earlier.conversationKey) (hthread : row.expectedThreadId = earlier.expectedThreadId)
    (hrevision : earlier.revision ≤ row.revision) (hcopy : earlier.conversationKey = conversationKey →
      ∀ copy : TelegramModelSwitchRequestState, copy.revision ≤ earlier.revision →
      row.revision = copy.revision → copy.revision < u64Max →
        row.pendingApply = copy.pendingApply ∧ row.stale = copy.stale) : t.StageSound conversationKey stage := by
  have hof : ∀ id request, t.runtime.telegramModelSwitchRequest id = some request →
      (id = row.requestId ∧ request = row) ∨ s.runtime.telegramModelSwitchRequest id = some request := by
    intro id request h
    rw [hrequests] at h
    split at h
    next hid => exact .inl ⟨hid, (Option.some.inj h).symm⟩
    next => exact .inr h
  have hcopied : ∀ copy, s.CopySound conversationKey copy → t.CopySound conversationKey copy := by
    intro copy hsound
    refine ⟨hsound.conversation, hsound.issued.mono (Nat.le_of_eq hsequence.symm), ?_, ?_⟩
    · intro request hrequest
      obtain ⟨hid, rfl⟩ | hrequest := hof _ _ hrequest
      · obtain ⟨hkey', hthread', hle⟩ := hsound.stored earlier (hid ▸ hstored)
        exact ⟨hkey.trans hkey', hthread.trans hthread', Nat.le_trans hle hrevision⟩
      · exact hsound.stored request hrequest
    · intro request hrequest hsame hmax
      obtain ⟨hid, rfl⟩ | hrequest := hof _ _ hrequest
      · obtain ⟨hkey', -, hle⟩ := hsound.stored earlier (hid ▸ hstored)
        exact hcopy hkey' copy hle hsame hmax
      · exact hsound.agrees request hrequest hsame hmax
  cases stage with
  | opening request => exact hs
  | read action copy => exact hcopied copy hs
  | verified action copy =>
    obtain ⟨hsound, hstale, hrouted⟩ := hs
    refine ⟨hcopied copy hsound, hstale, ?_⟩
    intro request hrequest
    have hroute : s.runtime.RoutedTo conversationKey copy.expectedThreadId := by
      obtain ⟨hid, rfl⟩ | hrequest := hof _ _ hrequest
      · exact hrouted earlier (hid ▸ hstored)
      · exact hrouted request hrequest
    obtain ⟨route, hlookup, hkey⟩ := hroute
    exact ⟨route, hroutes ▸ hlookup, hkey⟩
  | submitting requestId revision =>
    refine ⟨hs.1.mono (Nat.le_of_eq hsequence.symm), ?_⟩
    intro request hrequest
    obtain ⟨hid, rfl⟩ | hrequest := hof _ _ hrequest
    · exact hkey.trans (hs.2 earlier (hid ▸ hstored))
    · exact hs.2 request hrequest
  | rendering requestId => trivial

/-- A stored editor is replaced by `row`. What a claim, a release, a save and a stale mark have in common:
the other editors keep their parties, and `row` is pending exactly for the party that its owner is. -/
theorem Sound.rewrite (hs : s.Sound) (hstored : s.runtime.telegramModelSwitchRequest row.requestId = some earlier)
    (hrequests : ∀ id, t.runtime.telegramModelSwitchRequest id =
      if id = row.requestId then some row else s.runtime.telegramModelSwitchRequest id) (htidy : t.runtime.Tidy)
    (hroutes : t.runtime.routeByThread = s.runtime.routeByThread) (hsequence : t.requestSequence = s.requestSequence)
    (hothers : ∀ n id revision, id ≠ row.requestId → (t.Ticket n id revision ↔ s.Ticket n id revision))
    (howner : ∀ id, id ≠ row.requestId → t.owner.lookup id = s.owner.lookup id)
    (hheld : row.pendingApply.isSome = true →
      (∃ n, t.owner.lookup row.requestId = some n ∧ t.Ticket n row.requestId row.revision) ∧
        s.runtime.RoutedTo row.conversationKey row.expectedThreadId)
    (howned : ∀ n revision, t.Ticket n row.requestId revision →
      (row.pendingApply.isSome = true ∧ row.revision = revision ∧
        t.owner.lookup row.requestId = some n) ∨ row.stale = true) (hparties : t.Parties)
    (hstages : ∀ n handler, t.handlers.lookup n = some handler → t.StageSound handler.conversationKey handler.stage)
    (haccounted : ∀ apply claim, t.claims.lookup apply = some claim →
      t.Outstanding apply claim ∨ ∃ how, (apply, how) ∈ t.ended)
    (hown : ∀ apply how, (apply, how) ∈ t.ended → how.Own apply) : t.Sound := by
  have hof : ∀ id request, t.runtime.telegramModelSwitchRequest id = some request →
      (id = row.requestId ∧ request = row) ∨
        (id ≠ row.requestId ∧ s.runtime.telegramModelSwitchRequest id = some request) := by
    intro id request h
    rw [hrequests] at h
    split at h
    next hid => exact .inl ⟨hid, (Option.some.inj h).symm⟩
    next hid => exact .inr ⟨hid, h⟩
  refine ⟨htidy, ?_, ?_, ?_, ?_, ?_, hparties, hstages, haccounted, hown⟩
  · intro id request hrequest
    refine Issued.mono (Nat.le_of_eq hsequence.symm) ?_
    obtain ⟨rfl, -⟩ | ⟨-, hrequest⟩ := hof id request hrequest
    · exact hs.issued _ _ hstored
    · exact hs.issued _ _ hrequest
  · intro id request hrequest hpending
    obtain ⟨rfl, rfl⟩ | ⟨hne, hrequest⟩ := hof id request hrequest
    · exact (hheld hpending).1
    · obtain ⟨n, hn, hticket⟩ := hs.ticketed id request hrequest hpending
      exact ⟨n, (howner id hne).trans hn, (hothers n id _ hne).mpr hticket⟩
  · intro n id revision hticket
    refine Issued.mono (Nat.le_of_eq hsequence.symm) ?_
    by_cases hid : id = row.requestId
    · exact hid ▸ hs.issued _ _ hstored
    · exact hs.known n id revision ((hothers n id revision hid).mp hticket)
  · intro n id revision request hticket hrequest
    obtain ⟨rfl, rfl⟩ | ⟨hne, hrequest⟩ := hof id request hrequest
    · exact howned n revision hticket
    · rw [howner id hne]
      exact hs.owned n id revision request ((hothers n id revision hne).mp hticket) hrequest
  · intro id request hrequest hpending
    have hrouted : s.runtime.RoutedTo request.conversationKey request.expectedThreadId := by
      obtain ⟨rfl, rfl⟩ | ⟨-, hrequest⟩ := hof id request hrequest
      · exact (hheld hpending).2
      · exact hs.placed id request hrequest hpending
    obtain ⟨route, hlookup, hroute⟩ := hrouted
    exact ⟨route, hroutes.symm ▸ hlookup, hroute⟩

theorem Outstanding.of_rewrite {claim : SettingsClaim} (hs : s.Outstanding apply claim)
    (hne : claim.requestId ≠ row.requestId) (hrequests : ∀ id, t.runtime.telegramModelSwitchRequest id =
      if id = row.requestId then some row else s.runtime.telegramModelSwitchRequest id)
    (hothers : ∀ n id revision, id ≠ row.requestId → (t.Ticket n id revision ↔ s.Ticket n id revision))
    (howner : ∀ id, id ≠ row.requestId → t.owner.lookup id = s.owner.lookup id) : t.Outstanding apply claim := by
  obtain ⟨request, hrequest, hpending, hrevision, hthread, hn, hticket⟩ := hs
  refine ⟨request, ?_, hpending, hrevision, hthread, (howner _ hne).trans hn, (hothers _ _ _ hne).mpr hticket⟩
  rw [hrequests, if_neg hne]
  exact hrequest

end SettingsSystem

end MochiPort

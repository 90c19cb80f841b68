import MochiPort.SettingsSound

namespace MochiPort

namespace SettingsSystem

open SettingsRuntime

variable {s t : SettingsSystem}

/-- A stored editor is replaced by one with a later revision and nothing pending, for which no party asks
unless it is stale. -/
theorem Sound.store (hs : s.Sound) {row earlier : TelegramModelSwitchRequestState} {runtime : SettingsRuntime}
    {how : ApplyEnd}
    (hstored : s.runtime.telegramModelSwitchRequest row.requestId = some earlier)
    (hrequests : ∀ id, runtime.telegramModelSwitchRequest id =
      if id = row.requestId then some row else s.runtime.telegramModelSwitchRequest id)
    (htidy : runtime.Tidy) (hroutes : runtime.routeByThread = s.runtime.routeByThread)
    (hkey : row.conversationKey = earlier.conversationKey)
    (hthread : row.expectedThreadId = earlier.expectedThreadId)
    (hpending : row.pendingApply = none)
    (hrevision : earlier.revision ≤ row.revision)
    (hbumped : earlier.revision < u64Max → earlier.revision < row.revision)
    (htickets : ∀ n revision, s.Ticket n row.requestId revision → row.stale = true)
    (hown : ∀ apply, how.Own apply) : (s.commit runtime how).Sound := by
  refine hs.rewrite hstored hrequests htidy hroutes rfl (fun _ _ _ _ => Iff.rfl) (fun _ _ => rfl) ?_
    (fun n revision h => .inr (htickets n revision h))
    ⟨hs.parties.apart, hs.parties.timed, hs.parties.alone⟩ ?_ ?_ ?_
  · intro h
    rw [hpending] at h
    cases h
  · intro n handler hn
    refine (hs.stages n handler hn).of_store hstored hrequests hroutes rfl hkey hthread hrevision ?_
    -- a copy is no newer than the editor was, so it differs from the new revision
    intro _ copy hle hsame hmax
    omega
  · intro apply claim hclaim
    refine hs.accounted_of (t := s.commit runtime how) rfl ?_ hclaim
    rintro apply claim houtstanding ⟨request, hrequest, hafter⟩
    refine houtstanding.of_rewrite ?_ hrequests (fun _ _ _ _ => Iff.rfl) fun _ _ => rfl
    intro hid
    rw [show (s.commit runtime how).runtime.telegramModelSwitchRequest claim.requestId = _ from hrequests _,
      if_pos hid] at hrequest
    cases hrequest
    rw [hpending] at hafter
    cases hafter
  · intro apply how' h
    exact hs.own_of (t := s.commit runtime how) rfl (fun _ apply _ _ _ => hown apply) h

theorem Sound.claimed (hs : s.Sound) {n : Nat} {conversationKey : String} {action : EditorAction}
    {copy earlier row : TelegramModelSwitchRequestState}
    (hn : s.handlers.lookup n = some ⟨conversationKey, .verified action copy⟩) (hid : row.requestId = copy.requestId)
    (hstored : s.runtime.telegramModelSwitchRequest row.requestId = some earlier)
    (hidle : earlier.pendingApply = none) (hfresh : earlier.stale = false)
    (hmarks : row.SameMarks { earlier with pendingApply := row.pendingApply })
    (hsome : row.pendingApply.isSome = true) :
    (s.claimed n conversationKey (s.runtime.storeRequest row) row).Sound := by
  obtain ⟨hcopy, -, hrouted⟩ := hs.stages n _ hn
  obtain ⟨hkey, hthread, -⟩ := hcopy.stored earlier (hid ▸ hstored)
  have hfree : ∀ m revision, ¬s.Ticket m row.requestId revision := by
    intro m revision hticket
    obtain ⟨hpending, -⟩ | hstale := hs.owned m _ revision earlier hticket hstored
    · rw [hidle] at hpending
      cases hpending
    · rw [hfresh] at hstale
      cases hstale
  have hplaced : s.runtime.RoutedTo row.conversationKey row.expectedThreadId := by
    rw [hmarks.conversationKey.trans hkey, hmarks.expectedThreadId.trans hthread]
    exact hrouted earlier (hid ▸ hstored)
  have hown : (s.claimed n conversationKey (s.runtime.storeRequest row) row).Ticket n row.requestId
      row.revision := .inl ⟨conversationKey, AList.lookup_insert _⟩
  have hticket : ∀ m id revision,
      (s.claimed n conversationKey (s.runtime.storeRequest row) row).Ticket m id revision →
        (m = n ∧ id = row.requestId ∧ revision = row.revision) ∨ s.Ticket m id revision := by
    rintro m id revision (⟨key, h⟩ | h)
    · obtain ⟨hm, heq⟩ | ⟨-, h⟩ := lookup_put h
      · cases heq
        exact .inl ⟨hm, rfl, rfl⟩
      · exact .inr (.inl ⟨key, h⟩)
    · exact .inr (.inr h)
  have hothers : ∀ m id revision, id ≠ row.requestId →
      ((s.claimed n conversationKey (s.runtime.storeRequest row) row).Ticket m id revision ↔
        s.Ticket m id revision) := by
    intro m id revision hne
    constructor
    · intro h
      exact (hticket m id revision h).resolve_left fun h => hne h.2.1
    · rintro (⟨key, h⟩ | h)
      · refine .inl ⟨key, (Table.lookup_insert_eq _ _ _ _).trans ((if_neg ?_).trans h)⟩
        rintro rfl
        cases hn.symm.trans h
      · exact .inr h
  have howner : ∀ id, id ≠ row.requestId →
      (s.claimed n conversationKey (s.runtime.storeRequest row) row).owner.lookup id = s.owner.lookup id :=
    fun id hne => AList.lookup_insert_ne hne
  have hrequests := fun id => request_storeRequest (s := s.runtime) row id
  have hbounded : earlier.revision ≤ u64Max := hs.tidy.bounded _ _ hstored
  refine hs.rewrite hstored hrequests ?_ rfl rfl hothers howner
    (fun _ => ⟨⟨n, AList.lookup_insert _, hown⟩, hplaced⟩) ?_ ?_ ?_ ?_ ?_
  · refine hs.tidy.store hstored hmarks.conversationKey ?_ (hmarks.revision.trans_le hbounded)
    intro hstale
    exact absurd (hfresh.symm.trans (hmarks.stale.symm.trans hstale)) Bool.false_ne_true
  · intro m revision h
    obtain ⟨rfl, -, rfl⟩ | h := hticket m _ revision h
    · exact .inl ⟨hsome, rfl, AList.lookup_insert _⟩
    · exact absurd h (hfree m revision)
  · have hmoved : (s.moveTo n conversationKey (.submitting row.requestId row.revision)).Parties := hs.parties.moveTo hn
    exact ⟨hmoved.apart, hmoved.timed, hmoved.alone⟩
  · intro m handler hm
    obtain ⟨-, rfl⟩ | ⟨hmn, hm⟩ := lookup_put hm
    · refine ⟨hs.issued _ _ hstored, ?_⟩
      intro request hrequest
      cases (request_storeRequest row _).symm.trans hrequest |>.symm.trans (if_pos rfl)
      exact hmarks.conversationKey.trans hkey
    · refine (hs.stages m handler hm).of_store hstored hrequests rfl rfl hmarks.conversationKey
        hmarks.expectedThreadId (Nat.le_of_eq hmarks.revision.symm) ?_
      -- another handler's copy is of another conversation
      intro hsame
      exact absurd (hs.parties.alone n m _ handler hn hm (hsame.symm.trans hkey)) hmn
  · intro m claim hclaim
    change (s.claims.insert n ⟨row.requestId, row.expectedThreadId, row.revision⟩).lookup m =
      some claim at hclaim
    rw [Table.lookup_insert_eq] at hclaim
    split at hclaim
    next hm =>
      cases hclaim
      rw [hm]
      exact .inl ⟨row, (hrequests _).trans (if_pos rfl), hsome, rfl, rfl, AList.lookup_insert _, hown⟩
    next =>
      refine (hs.accounted m claim hclaim).imp ?_ ?_
      · intro houtstanding
        refine houtstanding.of_rewrite ?_ hrequests hothers howner
        intro heq
        obtain ⟨-, -, -, -, -, -, hmticket⟩ := houtstanding
        exact hfree m claim.revision (heq ▸ hmticket)
      · rintro ⟨how, hmem⟩
        exact ⟨how, List.mem_append_right _ hmem⟩
  · intro m how h
    exact hs.own_of (t := s.claimed n conversationKey (s.runtime.storeRequest row) row) rfl
      (fun _ _ _ _ _ => trivial) h

theorem Sound.released (hs : s.Sound) {n revision : Nat} {conversationKey : String}
    {row earlier : TelegramModelSwitchRequestState}
    (hn : s.handlers.lookup n = some ⟨conversationKey, .submitting row.requestId revision⟩)
    (hstored : s.runtime.telegramModelSwitchRequest row.requestId = some earlier)
    (hpending : earlier.pendingApply.isSome = true) (hmarks : row.SameMarks { earlier with pendingApply := none }) :
    ((s.commit (s.runtime.storeRequest row) (.released n)).finish n).Sound := by
  have hrequests := fun id => request_storeRequest (s := s.runtime) row id
  have hnone : row.pendingApply = none := hmarks.pendingApply
  have howner : s.owner.lookup row.requestId = some n := by
    obtain ⟨-, -, howner⟩ | hstale := hs.owned n _ revision earlier (.inl ⟨_, hn⟩) hstored
    · exact howner
    · rw [hs.tidy.idle _ _ hstored hstale] at hpending
      cases hpending
  have hof : ∀ m id r, ((s.commit (s.runtime.storeRequest row) (.released n)).finish n).Ticket m id r →
      s.Ticket m id r ∧ m ≠ n := by
    rintro m id r (⟨key, h⟩ | h)
    · obtain ⟨hne, h⟩ := lookup_finish h
      exact ⟨.inl ⟨key, h⟩, hne⟩
    · refine ⟨.inr h, ?_⟩
      rintro rfl
      have htimer : s.timers.lookup m = none := (hs.parties.apart m _ hn).2
      cases htimer.symm.trans h
  have hothers : ∀ m id r, id ≠ row.requestId →
      (((s.commit (s.runtime.storeRequest row) (.released n)).finish n).Ticket m id r ↔ s.Ticket m id r) := by
    intro m id r hne
    constructor
    · exact fun h => (hof m id r h).1
    · rintro (⟨key, h⟩ | h)
      · refine .inl ⟨key, (Table.lookup_erase_eq _ _ _).trans ((if_neg ?_).trans h)⟩
        rintro rfl
        cases hn.symm.trans h
        exact hne rfl
      · exact .inr h
  refine hs.rewrite hstored hrequests ?_ rfl rfl hothers (fun _ _ => rfl) ?_ ?_ ?_ ?_ ?_ ?_
  · exact hs.tidy.store hstored hmarks.conversationKey (fun _ => hnone)
      (hmarks.revision.trans_le (hs.tidy.bounded _ earlier hstored))
  · intro h
    rw [hnone] at h
    cases h
  · intro m r h
    obtain ⟨hticket, hne⟩ := hof m _ r h
    obtain ⟨-, -, hm⟩ | hstale := hs.owned m _ r earlier hticket hstored
    · exact absurd (Option.some.inj (hm.symm.trans howner)) hne
    · exact .inr (hmarks.stale.trans hstale)
  · have hfinished := hs.parties.finish n
    exact ⟨hfinished.apart, hfinished.timed, hfinished.alone⟩
  · intro m handler hm
    obtain ⟨hmn, hm⟩ := lookup_finish hm
    refine (hs.stages m handler hm).of_store hstored hrequests rfl rfl hmarks.conversationKey
      hmarks.expectedThreadId (Nat.le_of_eq hmarks.revision.symm) ?_
    intro hsame
    have hkey : earlier.conversationKey = conversationKey := (hs.stages n _ hn).2 earlier hstored
    exact absurd (hs.parties.alone n m _ handler hn hm (hsame.symm.trans hkey)) hmn
  · intro apply claim hclaim
    refine hs.accounted_of (t := (s.commit (s.runtime.storeRequest row) (.released n)).finish n) rfl ?_ hclaim
    rintro apply claim houtstanding ⟨request, hrequest, hafter⟩
    refine houtstanding.of_rewrite ?_ hrequests hothers fun _ _ => rfl
    intro hid
    cases hrequest.symm.trans ((hrequests _).trans (if_pos hid))
    rw [hnone] at hafter
    cases hafter
  · intro apply how h
    refine hs.own_of (t := (s.commit (s.runtime.storeRequest row) (.released n)).finish n) rfl ?_ h
    -- only the editor of the released apply changes
    rintro id m ⟨request, hrequest, hbefore⟩ hafter hm
    by_cases hid : id = row.requestId
    · rw [hid, howner] at hm
      exact Option.some.inj hm
    · exact absurd ⟨request, ((hrequests id).trans (if_neg hid)).trans hrequest, hbefore⟩ hafter

end SettingsSystem

end MochiPort

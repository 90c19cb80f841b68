import MochiPort.ApprovalSteps

namespace MochiPort

open PendingApprovals

def ReplyStage.answeredApproval : ReplyStage → Option PendingApproval
  | .answered pending => some pending
  | _ => none

namespace ApprovalSystem

/-- The approval whose response a handler has sent and which it now removes. -/
def answeredAt (s : ApprovalSystem) (call : Nat) : Option PendingApproval :=
  (s.stage.lookup call).bind ReplyStage.answeredApproval

/-- The client whose request a step resolves, where it resolves one. -/
def settles (s : ApprovalSystem) : ApprovalStep → Option (Option String)
  | .resolvedEvent remoteClientKey _ => some remoteClientKey
  | .removeAnswered call => (s.answeredAt call).map (·.remoteClientKey)
  | _ => none

/-- A request that is new for its client is queued, and the resolution of a client's request leaves the
requests of the other clients in their queues. -/
structure NoneLost (s : ApprovalSystem) (a : ApprovalStep) (t : ApprovalSystem) : Prop where
  queued : ∀ conversationKey clientKey requestId decisions,
    a = .request conversationKey (some clientKey) requestId decisions → (clientKey, requestId) ∉ s.seen →
      ∃ c, ∃ request ∈ t.approvals.requestsOf c,
        request.remoteClientKey = some clientKey ∧ request.requestId = requestId
  others : ∀ c, ∀ request ∈ s.approvals.requestsOf c,
    s.settles a ≠ some request.remoteClientKey → request ∈ t.approvals.requestsOf c

/-- The approval that is queued under the key of a request id, if any, is the client's own. -/
def OwnKey (s : ApprovalSystem) (remoteClientKey : Option String) (requestId : RequestId) : Prop :=
  ∀ found ∈ s.approvals.approvalByRequestKeyAnywhere (approvalRequestKey requestId),
    found.2.remoteClientKey = remoteClientKey

/-- A new request's thread is routed and its id is not queued for another client, and a resolution finds
under its id a request of the client whose request it resolves. -/
def Separate (s : ApprovalSystem) : ApprovalStep → Prop
  | .request conversationKey remoteClientKey requestId _ =>
    ∀ clientKey ∈ remoteClientKey, (clientKey, requestId) ∉ s.seen → conversationKey.isSome ∧
      s.approvals.approvalByRequestKeyAnywhere (approvalRequestKey requestId) = none
  | .resolvedEvent remoteClientKey requestId => s.OwnKey remoteClientKey requestId
  | .removeAnswered call => ∀ pending ∈ s.answeredAt call, s.OwnKey pending.remoteClientKey pending.requestId
  | _ => True

instance (s : ApprovalSystem) (remoteClientKey : Option String) (requestId : RequestId) :
    Decidable (s.OwnKey remoteClientKey requestId) := by
  unfold OwnKey; infer_instance

instance (s : ApprovalSystem) (a : ApprovalStep) : Decidable (s.Separate a) := by
  cases a <;> unfold Separate <;> infer_instance

variable {codec : ApprovalCodec} {s t : ApprovalSystem} {requestId : RequestId}

def SeenQueued (s : ApprovalSystem) : Prop :=
  ∀ c, ∀ request ∈ s.approvals.requestsOf c, ∃ clientKey,
    request.remoteClientKey = some clientKey ∧ (clientKey, request.requestId) ∈ s.seen

theorem step_seenQueued {a : ApprovalStep} (hs : s.Sound ∧ s.SeenQueued) (h : s.step codec a = some t) :
    t.Sound ∧ t.SeenQueued := by
  refine ⟨step_sound hs.1 h, ?_⟩
  obtain ⟨hsound, hseen⟩ := hs
  cases hreply : a.reply with
  | some call =>
    obtain ⟨stage, rfl, -⟩ := reply_cases hreply h
    exact hseen
  | none =>
    cases a with
    | request conversationKey remoteClientKey requestId decisions =>
      simp only [step] at h
      split at h
      next => cases h; exact hseen
      next clientKey =>
        have hnoted : SeenQueued { s with seen := (clientKey, requestId) :: s.seen } := by
          intro c request hm
          obtain ⟨client, hclient, hin⟩ := hseen c request hm
          exact ⟨client, hclient, List.mem_cons_of_mem _ hin⟩
        split at h
        next => cases h; exact hnoted
        next conversationKey =>
          cases h
          rcases receive_cases (s := { s with seen := (clientKey, requestId) :: s.seen })
            conversationKey clientKey requestId decisions with ⟨-, he⟩ | ⟨t, he, -, -, hqueues, -, -, -, hseen', -⟩
          · rw [he]; exact hnoted
          rw [he]
          intro c request hm
          rw [hqueues] at hm
          rw [hseen']
          split at hm
          next =>
            rcases List.mem_append.mp hm with hm | hm
            · exact hnoted _ request hm
            · rw [List.mem_singleton.mp hm]
              exact ⟨clientKey, rfl, .head _⟩
          next => exact hnoted c request hm
    | resolvedEvent remoteClientKey requestId =>
      cases h
      obtain ⟨-, -, hsame, -, -⟩ := resolve_frame s requestId
        fun resolved => if resolved.wasCurrent then resolved.nextCurrent else none
      intro c request hm
      rw [hsame]
      exact hseen c request ((mem_resolve hsound).mp hm).1
    | sendResponse call =>
      simp only [step] at h
      split at h
      next =>
        split at h
        next => cases h; exact hseen
        next => cases h
      next => cases h
    | removeAnswered call =>
      simp only [step] at h
      split at h
      next pending _ =>
        cases h
        obtain ⟨-, -, hsame, -, -⟩ := resolve_frame s pending.requestId ResolvedApproval.nextCurrent
        intro c request hm
        show ∃ clientKey, _ ∧ _ ∈ (s.resolve pending.requestId ResolvedApproval.nextCurrent).seen
        rw [hsame]
        exact hseen c request ((mem_resolve hsound).mp hm).1
      next => cases h
    | rememberMessageId requestId messageId =>
      cases h
      intro c request hm
      rw [requestsOf_rememberApprovalMessageId] at hm
      exact hseen c request hm
    | _ => cases hreply

theorem ownKey_iff (hs : s.Sound) {remoteClientKey : Option String} :
    s.OwnKey remoteClientKey requestId ↔ ∀ c, ∀ request ∈ s.approvals.requestsOf c,
      request.requestKey = approvalRequestKey requestId → request.remoteClientKey = remoteClientKey := by
  constructor
  · intro h c request hm hkey
    cases hfound : s.approvals.approvalByRequestKeyAnywhere (approvalRequestKey requestId) with
    | none => exact (approvalByRequestKeyAnywhere_eq_none hfound c request hm hkey).elim
    | some found =>
      rw [hs.approvals.found_unique hfound hm hkey]
      exact h found hfound
  · rintro h ⟨c, approval⟩ hfound
    obtain ⟨hm, hkey⟩ := approvalByRequestKeyAnywhere_eq_some hfound
    exact h c approval.toApprovalRequest (List.mem_map_of_mem hm) hkey

theorem keeps_others_iff (hs : s.Sound) (next : ResolvedApproval → Option PendingApproval) {remoteClientKey : Option String} :
    (∀ c, ∀ request ∈ s.approvals.requestsOf c, some remoteClientKey ≠ some request.remoteClientKey →
        request ∈ (s.resolve requestId next).approvals.requestsOf c) ↔ s.OwnKey remoteClientKey requestId := by
  rw [ownKey_iff hs]
  constructor
  · intro h c request hm hkey
    by_contra hne
    have hkept := h c request hm fun he => hne (Option.some.inj he).symm
    exact ((mem_resolve hs).mp hkept).2 hkey
  · intro h c request hm hne
    exact (mem_resolve hs).mpr ⟨hm, fun hkey => hne (congrArg some (h c request hm hkey).symm)⟩

theorem noneLost_iff_separate {a : ApprovalStep} (hs : s.Sound ∧ s.SeenQueued) (h : s.step codec a = some t) :
    s.NoneLost a t ↔ s.Separate a := by
  obtain ⟨hsound, hseen⟩ := hs
  -- a step that is no request and takes nothing out of a queue
  have hquiet : (∀ conversationKey clientKey requestId decisions,
      a ≠ .request conversationKey (some clientKey) requestId decisions) → s.Separate a →
      (∀ c, t.approvals.requestsOf c = s.approvals.requestsOf c) → (s.NoneLost a t ↔ s.Separate a) := by
    intro hne hseparate hsame
    refine ⟨fun _ => hseparate, fun _ => ⟨fun _ _ _ _ he => (hne _ _ _ _ he).elim, fun c request hm _ => ?_⟩⟩
    rw [hsame]
    exact hm
  cases a with
  | request conversationKey remoteClientKey requestId decisions =>
    cases remoteClientKey with
    | none =>
      cases h
      exact hquiet (fun _ _ _ _ he => by cases he) (fun clientKey hm => by cases hm) fun _ => rfl
    | some clientKey =>
      have hseparate : s.Separate (.request conversationKey (some clientKey) requestId decisions) ↔
          ((clientKey, requestId) ∉ s.seen → conversationKey.isSome ∧
            s.approvals.approvalByRequestKeyAnywhere (approvalRequestKey requestId) = none) := by
        simp [Separate]
      have hfresh : (clientKey, requestId) ∉ s.seen → ¬∃ c, ∃ request ∈ s.approvals.requestsOf c,
          request.remoteClientKey = some clientKey ∧ request.requestId = requestId := by
        rintro hnew ⟨c, request, hm, hclient, rfl⟩
        obtain ⟨client, he, hin⟩ := hseen c request hm
        cases hclient.symm.trans he
        exact hnew hin
      rw [hseparate]
      cases conversationKey with
      | none =>
        cases h
        constructor
        · intro hn hnew
          exact (hfresh hnew (hn.queued _ _ _ _ rfl hnew)).elim
        · intro hn
          refine ⟨fun _ _ _ _ he hnew => ?_, fun c request hm _ => hm⟩
          cases he
          cases (hn hnew).1
      | some conversationKey =>
        cases h
        have hothers : ∀ c, ∀ request ∈ s.approvals.requestsOf c,
            s.settles (.request (some conversationKey) (some clientKey) requestId decisions) ≠
              some request.remoteClientKey →
            request ∈ (receive { s with seen := (clientKey, requestId) :: s.seen } conversationKey clientKey
              requestId decisions).approvals.requestsOf c :=
          fun c request hm _ => mem_receive (s := { s with seen := (clientKey, requestId) :: s.seen }) hm
        rcases receive_cases (s := { s with seen := (clientKey, requestId) :: s.seen })
          conversationKey clientKey requestId decisions with ⟨hkey, he⟩ | ⟨t, he, hkey, -, hqueues, -⟩
        · obtain ⟨c, request, hm, hrequest⟩ := (hsound.approvals.keys _).mp hkey
          constructor
          · intro hn hnew
            have hqueued := hn.queued _ _ _ _ rfl hnew
            rw [he] at hqueued
            exact (hfresh hnew hqueued).elim
          · intro hn
            refine ⟨fun _ _ _ _ hrfl hnew => ?_, hothers⟩
            cases hrfl
            exact (approvalByRequestKeyAnywhere_eq_none (hn hnew).2 c request hm hrequest).elim
        · constructor
          · intro hn hnew
            refine ⟨rfl, Option.eq_none_iff_forall_ne_some.mpr fun found hfound => hkey ?_⟩
            obtain ⟨hm, hrequest⟩ := approvalByRequestKeyAnywhere_eq_some hfound
            exact (hsound.approvals.keys _).mpr ⟨found.1, _, List.mem_map_of_mem hm, hrequest⟩
          · intro hn
            refine ⟨fun _ _ _ _ hrfl hnew => ?_, hothers⟩
            cases hrfl
            rw [he]
            refine ⟨conversationKey, ⟨s.arrivals, requestId, some clientKey⟩, ?_, rfl, rfl⟩
            rw [hqueues, if_pos rfl]
            exact List.mem_append_right _ (List.mem_singleton_self _)
  | resolvedEvent remoteClientKey requestId =>
    cases h
    refine Iff.trans ⟨fun hn => hn.others, fun hn => ⟨fun _ _ _ _ he => (by cases he), hn⟩⟩ (keeps_others_iff hsound _)
  | removeAnswered call =>
    simp only [step] at h
    split at h
    next pending hstage =>
      cases h
      have hanswered : s.answeredAt call = some pending := by simp [answeredAt, hstage, ReplyStage.answeredApproval]
      have hseparate : s.Separate (.removeAnswered call) ↔ s.OwnKey pending.remoteClientKey pending.requestId := by
        simp [Separate, hanswered]
      rw [hseparate, ← keeps_others_iff hsound ResolvedApproval.nextCurrent]
      have hsettles : s.settles (.removeAnswered call) = some pending.remoteClientKey := by
        simp [settles, hanswered]
      exact ⟨fun hn c request hm hne => hn.others c request hm (hsettles ▸ hne),
        fun hn => ⟨fun _ _ _ _ he => (by cases he), fun c request hm hne => hn c request hm (hsettles ▸ hne)⟩⟩
    next => cases h
  | sendResponse call =>
    have hsame : t.approvals = s.approvals := by
      simp only [step] at h
      split at h
      next =>
        split at h
        next => cases h; rfl
        next => cases h
      next => cases h
    exact hquiet (fun _ _ _ _ he => by cases he) trivial fun c => by rw [hsame]
  | rememberMessageId requestId messageId =>
    cases h
    exact hquiet (fun _ _ _ _ he => by cases he) trivial fun c =>
      requestsOf_rememberApprovalMessageId _ _ _
  | textReply call | cardReply call | checkCurrent call | buttonReply call | sendFails call =>
    obtain ⟨stage, rfl, -⟩ := reply_cases rfl h
    exact hquiet (fun _ _ _ _ he => by cases he) trivial fun _ => rfl

/-- A run loses no request exactly when all its steps are separate. -/
theorem no_approval_lost_iff {steps : List ApprovalStep} (h : Runs.run (step codec) start steps = some s) :
    Runs.Meets (step codec) (fun s a => ∀ t, s.step codec a = some t → s.NoneLost a t) start steps ↔
      Runs.Meets (step codec) Separate start steps := by
  refine Runs.meets_iff (fun s => s.Sound ∧ s.SeenQueued) (fun s a t => step_seenQueued)
    (fun s a t hs ht => ?_) ⟨start_sound, fun c request hm => by cases hm⟩ h
  rw [← noneLost_iff_separate hs ht]
  exact ⟨fun hn => hn t ht, fun hn u hu => Option.some.inj (ht.symm.trans hu) ▸ hn⟩

/-- Two clients whose requests have different ids, the second of which is answered from IM. -/
def differentIds : List ApprovalStep :=
  [.request (some "feishu:default:chat") (some "im:feishu:chat") (.number "1") acceptOrDecline,
    .request (some "wechat:default:chat") (some "im:wechat:chat") (.number "2") acceptOrDecline,
    .textReply 0 "wechat:default:chat" .yes, .sendResponse 0, .removeAnswered 0]

theorem no_approval_lost_different :
    ∃ s, Runs.run (step wordCodec) start differentIds = some s ∧
      Runs.Meets (step wordCodec) (fun s a => ∀ t, s.step wordCodec a = some t → s.NoneLost a t) start
        differentIds := by
  have hrun : ((Runs.run (step wordCodec) start differentIds).map (·.resolved)) = some [1] := by
    decide +kernel
  obtain ⟨s, hs, -⟩ := Option.map_eq_some_iff.mp hrun
  exact ⟨s, hs, (no_approval_lost_iff hs).mpr (by decide +kernel)⟩

def firstOf (conversationKey clientKey : String) : ApprovalStep :=
  .request (some conversationKey) (some clientKey) (.number "1") acceptOrDecline

/-- The second client's request is taken for a repetition of the first client's. -/
theorem same_id_lost :
    ¬∀ (codec : ApprovalCodec) (steps : List ApprovalStep) (s t : ApprovalSystem) (a : ApprovalStep),
      Runs.run (step codec) start steps = some s → s.step codec a = some t → s.NoneLost a t := by
  intro h
  let steps := [firstOf "feishu:default:chat" "im:feishu:chat"]
  have hrun : ((Runs.run (step wordCodec) start steps).bind fun s =>
      (s.step wordCodec (firstOf "wechat:default:chat" "im:wechat:chat")).map fun t =>
        (s.seen, t.approvals.approvalByRequestKeyAnywhere "number:1")) =
      some ([("im:feishu:chat", .number "1")], some ("feishu:default:chat",
        ⟨⟨0, .number "1", some "im:feishu:chat"⟩, acceptOrDecline, none⟩)) := by
    decide +kernel
  obtain ⟨s, hs, he⟩ := Option.bind_eq_some_iff.mp hrun
  obtain ⟨t, ht, he⟩ := Option.map_eq_some_iff.mp he
  obtain ⟨hseen, hfound⟩ := Prod.mk.inj he
  have hsound : t.Sound := step_sound (run_sound hs) ht
  obtain ⟨c, request, hm, hclient, hid⟩ := (h wordCodec steps s t _ hs ht).queued _ _ _ _ rfl
    (by rw [hseen]; decide)
  have hkey : request.requestKey = "number:1" := by
    rw [ApprovalRequest.requestKey, hid]
    decide
  have hsame := hsound.approvals.found_unique hfound hm hkey
  rw [hsame] at hclient
  exact absurd hclient (by decide)

end ApprovalSystem

end MochiPort

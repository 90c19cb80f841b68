import MochiPort.PendingApprovals
import MochiPort.Runs

namespace MochiPort

open List PendingApprovals

/-- How far the handling of one approval reply has come. `found` stands between the two looks that a card
reply takes at the queues, `answered` between the response and the removal. -/
inductive ReplyStage where
  | found (conversationKey requestKey : String) (pending : PendingApproval) (input : ApprovalInput)
  | ready (pending : PendingApproval) (decision : ApprovalDecisionOption)
  | answered (pending : PendingApproval)
  | ended

/-- The approvals with the handlers at work on them, and what has happened: the client and id of each
request that arrived, the approvals that a caller was told to send, the responses that were sent and the
approvals that were resolved. -/
structure ApprovalSystem where
  approvals : PendingApprovals
  stage : Table Nat ReplyStage
  arrivals : Nat
  seen : List (String × RequestId)
  presented : List (String × Nat)
  responses : List (ApprovalRequest × String)
  resolved : List Nat

inductive ApprovalStep where
  -- the conversation is that of the thread's route, none where the thread is not routed
  | request (conversationKey remoteClientKey : Option String) (requestId : RequestId)
      (decisions : List ApprovalDecisionOption)
  | resolvedEvent (remoteClientKey : Option String) (requestId : RequestId)
  | textReply (call : Nat) (conversationKey : String) (input : ApprovalInput)
  | cardReply (call : Nat) (requestKey : String) (input : ApprovalInput)
  | checkCurrent (call : Nat)
  | buttonReply (call : Nat) (conversationKey requestFingerprint : String) (optionIndex : Nat)
  | sendResponse (call : Nat)
  | sendFails (call : Nat)
  | removeAnswered (call : Nat)
  | rememberMessageId (requestId : RequestId) (messageId : String)

namespace ReplyStage

/-- The approval that a handler has taken up and not yet removed. -/
def holds : ReplyStage → Option PendingApproval
  | .found _ _ pending _ | .ready pending _ | .answered pending => some pending
  | .ended => none

end ReplyStage

namespace ApprovalStep

/-- The handler of a step that only moves its handler on. -/
def reply : ApprovalStep → Option Nat
  | .textReply call _ _ | .cardReply call _ _ | .checkCurrent call | .buttonReply call _ _ _
  | .sendFails call => some call
  | _ => none

end ApprovalStep

namespace ApprovalSystem

variable (codec : ApprovalCodec) (s : ApprovalSystem)

def start : ApprovalSystem := ⟨.empty, ∅, 0, [], [], [], []⟩

def moveTo (call : Nat) (stage : ReplyStage) : ApprovalSystem :=
  { s with stage := s.stage.insert call stage }

/-- The router's handling of an approval request whose thread is routed. -/
def receive (conversationKey remoteClientKey : String) (requestId : RequestId)
    (decisions : List ApprovalDecisionOption) : ApprovalSystem :=
  let shouldSendNow := !s.approvals.hasPendingApprovals conversationKey
  match s.approvals.pushApproval conversationKey ⟨⟨s.arrivals, requestId, some remoteClientKey⟩, decisions, none⟩ with
  | none => s
  | some approvals => { s with
      approvals := approvals
      arrivals := s.arrivals + 1
      presented := if shouldSendNow then (conversationKey, s.arrivals) :: s.presented else s.presented }

/-- A resolution, after which its caller sends the approval that `next` chooses. -/
def resolve (requestId : RequestId) (next : ResolvedApproval → Option PendingApproval) : ApprovalSystem :=
  match s.approvals.resolveApprovalRequestWithContext requestId with
  | (approvals, none) => { s with approvals := approvals }
  | (approvals, some resolved) => { s with
      approvals := approvals
      resolved := resolved.approval.arrival :: s.resolved
      presented := match next resolved with
        | none => s.presented
        | some approval => (resolved.conversationKey, approval.arrival) :: s.presented }

def chosen (pending : PendingApproval) (decision : Option (Nat × ApprovalDecisionOption)) : ReplyStage :=
  match decision with
  | none => .ended
  | some decision => .ready pending decision.2

/-- The approval that a reply takes out of the queues' view, where its input chooses a decision. -/
def takenUp : ApprovalStep → Option PendingApproval
  | .textReply _ conversationKey input => (s.approvals.currentApproval conversationKey).filter fun pending =>
    (approvalDecisionByInput codec pending input).isSome
  | .cardReply _ requestKey _ => (s.approvals.approvalByRequestKeyAnywhere requestKey).map (·.2)
  | .buttonReply _ conversationKey requestFingerprint optionIndex =>
    (s.approvals.currentApproval conversationKey).filter fun pending =>
      codec.approvalRequestFingerprint pending.requestKey = requestFingerprint &&
        (pending.decisionAt optionIndex).isSome
  | _ => none

def submittable (pending : PendingApproval) : Bool :=
  pending.remoteClientKey.any fun clientKey => RustText.trim clientKey ≠ ""

def step (s : ApprovalSystem) : ApprovalStep → Option ApprovalSystem
  | .request conversationKey remoteClientKey requestId decisions =>
    match remoteClientKey with
    | none => some s
    | some clientKey =>
      let noted := { s with seen := (clientKey, requestId) :: s.seen }
      match conversationKey with
      | none => some noted
      | some conversationKey => some (noted.receive conversationKey clientKey requestId decisions)
  | .resolvedEvent _ requestId =>
    some (s.resolve requestId fun resolved => if resolved.wasCurrent then resolved.nextCurrent else none)
  | .textReply call conversationKey input =>
    if (s.stage.lookup call).isSome then none
    else
      match s.approvals.currentApproval conversationKey with
      | none => some (s.moveTo call .ended)
      | some pending => some (s.moveTo call (chosen pending (approvalDecisionByInput codec pending input)))
  | .cardReply call requestKey input =>
    if (s.stage.lookup call).isSome then none
    else
      match s.approvals.approvalByRequestKeyAnywhere requestKey with
      | none => some (s.moveTo call .ended)
      | some found => some (s.moveTo call (.found found.1 requestKey found.2 input))
  | .checkCurrent call =>
    match s.stage.lookup call with
    | some (.found conversationKey requestKey pending input) =>
      if s.approvals.isCurrentApproval conversationKey requestKey then
        some (s.moveTo call (chosen pending (approvalDecisionByInput codec pending input)))
      else some (s.moveTo call .ended)
    | _ => none
  | .buttonReply call conversationKey requestFingerprint optionIndex =>
    if (s.stage.lookup call).isSome then none
    else
      match s.approvals.currentApproval conversationKey with
      | none => some (s.moveTo call .ended)
      | some pending =>
        if codec.approvalRequestFingerprint pending.requestKey ≠ requestFingerprint then
          some (s.moveTo call .ended)
        else
          some (s.moveTo call
            (chosen pending ((pending.decisionAt optionIndex).map fun decision => (optionIndex, decision))))
  | .sendResponse call =>
    match s.stage.lookup call with
    | some (.ready pending decision) =>
      if submittable pending then
        some { s.moveTo call (.answered pending) with
          responses := (pending.toApprovalRequest, decision.decision) :: s.responses }
      else none
    | _ => none
  | .sendFails call =>
    match s.stage.lookup call with
    | some (.ready _ _) => some (s.moveTo call .ended)
    | _ => none
  | .removeAnswered call =>
    match s.stage.lookup call with
    | some (.answered pending) =>
      some ((s.resolve pending.requestId ResolvedApproval.nextCurrent).moveTo call .ended)
    | _ => none
  | .rememberMessageId requestId messageId =>
    some { s with approvals := s.approvals.rememberApprovalMessageId requestId messageId }

/-- Requests are numbered in the order of their arrival, and a number belongs to one queued request. -/
structure Numbered (s : ApprovalSystem) : Prop where
  below : ∀ c, ∀ request ∈ s.approvals.requestsOf c, request.arrival < s.arrivals
  distinct : ∀ c d, ∀ x ∈ s.approvals.requestsOf c, ∀ y ∈ s.approvals.requestsOf d,
    x.arrival = y.arrival → x = y

/-- An approval is presented once at most; of a queue the head has been presented and nothing else. -/
structure Presented (s : ApprovalSystem) : Prop where
  below : ∀ p ∈ s.presented, p.2 < s.arrivals
  once : (s.presented.map Prod.snd).Nodup
  head : ∀ c request rest, s.approvals.requestsOf c = request :: rest → (c, request.arrival) ∈ s.presented
  tail : ∀ c request rest, s.approvals.requestsOf c = request :: rest →
    ∀ later ∈ rest, later.arrival ∉ s.presented.map Prod.snd

structure Sound (s : ApprovalSystem) : Prop where
  approvals : s.approvals.Sound
  numbered : s.Numbered
  presented : s.Presented

variable {codec s} {t : ApprovalSystem} {requestId : RequestId}
  {next : ResolvedApproval → Option PendingApproval}

/-- Both callers of a resolution send what the resolution names, which it does when the head is taken out. -/
def SendsNext (next : ResolvedApproval → Option PendingApproval) : Prop :=
  ∀ resolved, (resolved.wasCurrent = false → resolved.nextCurrent = none) → next resolved = resolved.nextCurrent

theorem sendsNext_event : SendsNext fun resolved => if resolved.wasCurrent then resolved.nextCurrent else none := by
  intro resolved h
  cases hw : resolved.wasCurrent with
  | false => simp [hw, h hw]
  | true => simp [hw]

theorem sendsNext_answer : SendsNext ResolvedApproval.nextCurrent := fun _ _ => rfl

/-- The request that a resolution makes the head of its queue. -/
def promoted (before after : List ApprovalRequest) : Option ApprovalRequest :=
  if before = [] then after.head? else none

theorem resolve_cases (s : ApprovalSystem) (requestId : RequestId) (hnext : SendsNext next) :
    ((∀ c, ∀ request ∈ s.approvals.requestsOf c, request.requestKey ≠ approvalRequestKey requestId) ∧
        (∀ c, (s.resolve requestId next).approvals.requestsOf c = s.approvals.requestsOf c) ∧
        (s.resolve requestId next).presented = s.presented ∧
        (s.resolve requestId next).resolved = s.resolved) ∨
      ∃ conversationKey before request after,
        s.approvals.requestsOf conversationKey = before ++ request :: after ∧
        request.requestKey = approvalRequestKey requestId ∧
        (∀ c, (s.resolve requestId next).approvals.requestsOf c =
          if c = conversationKey then before ++ after else s.approvals.requestsOf c) ∧
        (s.resolve requestId next).presented =
          ((promoted before after).map fun request => (conversationKey, request.arrival)).toList ++ s.presented ∧
        (s.resolve requestId next).resolved = request.arrival :: s.resolved := by
  rcases PendingApprovals.resolve_cases (s := s.approvals) requestId with ⟨hnone, h⟩ |
    ⟨conversationKey, before, approval, after, approvals, hqueue, hkey, h, ht⟩
  · left
    refine ⟨find?_eq_none hnone, fun c => ?_, ?_, ?_⟩ <;> simp only [resolve, h]
    rfl
  · right
    refine ⟨conversationKey, before.map PendingApproval.toApprovalRequest, approval.toApprovalRequest,
      after.map PendingApproval.toApprovalRequest, ?_, hkey, fun c => ?_, ?_, ?_⟩
    · simp [requestsOf, hqueue]
    · simp only [resolve, h, requestsOf, ht]
      split <;> simp
    · simp only [resolve, h]
      rw [hnext _ (by cases before <;> simp)]
      cases before with
      | nil => cases after <;> simp [promoted]
      | cons => simp [promoted]
    · simp only [resolve, h]

theorem resolve_frame (s : ApprovalSystem) (requestId : RequestId)
    (next : ResolvedApproval → Option PendingApproval) : (s.resolve requestId next).stage = s.stage ∧
    (s.resolve requestId next).arrivals = s.arrivals ∧ (s.resolve requestId next).seen = s.seen ∧
    (s.resolve requestId next).responses = s.responses ∧
    (s.resolve requestId next).approvals = (s.approvals.resolveApprovalRequestWithContext requestId).1 := by
  unfold resolve
  split <;> simp_all

theorem Sound.resolve (hs : s.Sound) (hnext : SendsNext next) : (s.resolve requestId next).Sound := by
  obtain ⟨-, harrivals, -, -, happrovals⟩ := resolve_frame s requestId next
  have hsound := happrovals ▸ hs.approvals.resolve requestId
  rcases resolve_cases s requestId hnext with ⟨-, hqueues, hpresented, -⟩ |
    ⟨conversationKey, before, request, after, hqueue, hkey, hqueues, hpresented, -⟩
  · refine ⟨hsound, ⟨?_, ?_⟩, ⟨?_, ?_, ?_, ?_⟩⟩ <;> simp only [hqueues, hpresented, harrivals]
    exacts [hs.numbered.below, hs.numbered.distinct, hs.presented.below, hs.presented.once,
      hs.presented.head, hs.presented.tail]
  · have hsub : ∀ c, ∀ x ∈ (s.resolve requestId next).approvals.requestsOf c, x ∈ s.approvals.requestsOf c := by
      intro c x hx
      rw [hqueues] at hx
      split at hx
      next hc =>
        rw [hc, hqueue]
        rcases mem_append.mp hx with hx | hx
        · exact mem_append_left _ hx
        · exact mem_append_right _ (mem_cons_of_mem _ hx)
      next => exact hx
    have hnumbered : (s.resolve requestId next).Numbered := by
      refine ⟨fun c x hx => ?_, fun c d x hx y hy => hs.numbered.distinct c d x (hsub c x hx) y (hsub d y hy)⟩
      rw [harrivals]
      exact hs.numbered.below c x (hsub c x hx)
    refine ⟨hsound, hnumbered, ?_⟩
    cases before with
    | cons first before =>
      -- the head stays
      refine ⟨?_, ?_, fun c head rest h => ?_, fun c head rest h later hl => ?_⟩
      · rw [hpresented, harrivals]; exact hs.presented.below
      · rw [hpresented]; exact hs.presented.once
      · rw [hqueues] at h
        rw [hpresented]
        split at h
        next hc =>
          cases h
          exact hs.presented.head c _ _ (hc ▸ hqueue)
        next => exact hs.presented.head c _ _ h
      · rw [hqueues] at h
        rw [hpresented]
        split at h
        next hc =>
          cases h
          refine hs.presented.tail c _ _ (hc ▸ hqueue) later ?_
          rcases mem_append.mp hl with hl | hl
          · exact mem_append_left _ hl
          · exact mem_append_right _ (mem_cons_of_mem _ hl)
        next => exact hs.presented.tail c _ _ h later hl
    | nil =>
      cases after with
      | nil =>
        refine ⟨?_, ?_, fun c head rest h => ?_, fun c head rest h => ?_⟩
        · rw [hpresented, harrivals]; exact hs.presented.below
        · rw [hpresented]; exact hs.presented.once
        all_goals
          rw [hqueues] at h
          rw [hpresented]
          split at h
          next => cases h
        · exact hs.presented.head c _ _ h
        · exact hs.presented.tail c _ _ h
      | cons promoted rest =>
        have hpresented : (s.resolve requestId next).presented =
            (conversationKey, promoted.arrival) :: s.presented := hpresented
        have hnew : ∀ later ∈ promoted :: rest, later.arrival ∉ s.presented.map Prod.snd :=
          hs.presented.tail _ _ _ hqueue
        have hlt : promoted.arrival < s.arrivals := hs.numbered.below conversationKey promoted (by simp [hqueue])
        have honce := hs.approvals.once conversationKey
        simp only [hqueue, nil_append, map_cons, nodup_cons] at honce
        refine ⟨fun p hp => ?_, ?_, fun c head others h => ?_, fun c head others h later hl hm => ?_⟩
        · rw [hpresented] at hp
          rw [harrivals]
          rcases mem_cons.mp hp with rfl | hp
          · exact hlt
          · exact hs.presented.below p hp
        · rw [hpresented, map_cons, nodup_cons]
          exact ⟨hnew promoted (.head _), hs.presented.once⟩
        · rw [hqueues] at h
          rw [hpresented]
          split at h
          next hc => cases h; exact hc ▸ .head _
          next => exact mem_cons_of_mem _ (hs.presented.head c _ _ h)
        · rw [hpresented, map_cons, mem_cons] at hm
          rw [hqueues] at h
          split at h
          next hc =>
            cases h
            rcases hm with hm | hm
            · have heq := hs.numbered.distinct conversationKey conversationKey later
                (by simp [hqueue, hl]) promoted (by simp [hqueue]) hm
              exact honce.2.1 (heq ▸ mem_map_of_mem hl)
            · exact hnew later (mem_cons_of_mem _ hl) hm
          next hc =>
            rcases hm with hm | hm
            · have heq := hs.numbered.distinct c conversationKey later (by simp [h, hl]) promoted (by simp [hqueue]) hm
              exact hc (hs.approvals.apart c conversationKey later (by simp [h, hl]) promoted
                (by simp [hqueue]) (heq ▸ rfl))
            · exact hs.presented.tail c _ _ h later hl hm

theorem receive_cases (conversationKey remoteClientKey : String) (requestId : RequestId)
    (decisions : List ApprovalDecisionOption) :
    (approvalRequestKey requestId ∈ s.approvals.pendingApprovalRequestKeys ∧
        s.receive conversationKey remoteClientKey requestId decisions = s) ∨
      ∃ t, s.receive conversationKey remoteClientKey requestId decisions = t ∧
        approvalRequestKey requestId ∉ s.approvals.pendingApprovalRequestKeys ∧
        (s.approvals.Sound → t.approvals.Sound) ∧
        (∀ c, t.approvals.requestsOf c = if c = conversationKey then
          s.approvals.requestsOf conversationKey ++ [⟨s.arrivals, requestId, some remoteClientKey⟩]
          else s.approvals.requestsOf c) ∧
        t.arrivals = s.arrivals + 1 ∧
        t.presented = (if s.approvals.requestsOf conversationKey = [] then
          (conversationKey, s.arrivals) :: s.presented else s.presented) ∧
        t.stage = s.stage ∧ t.seen = s.seen ∧ t.responses = s.responses ∧ t.resolved = s.resolved := by
  unfold receive
  cases hpush : s.approvals.pushApproval conversationKey
      ⟨⟨s.arrivals, requestId, some remoteClientKey⟩, decisions, none⟩ with
  | none =>
    left
    unfold pushApproval at hpush
    split at hpush
    next h => exact ⟨h, rfl⟩
    next => cases hpush
  | some approvals =>
    right
    obtain ⟨hnew, -, hqueues⟩ := pushApproval_eq_some hpush
    refine ⟨_, rfl, hnew, fun hs => hs.pushApproval hpush, hqueues, rfl, ?_, rfl, rfl, rfl, rfl⟩
    have hempty : (!s.approvals.hasPendingApprovals conversationKey) = true ↔
        s.approvals.requestsOf conversationKey = [] := by
      rw [Bool.not_eq_true', ← Bool.not_eq_true, hasPendingApprovals_eq_true]
      simp [requestsOf]
    simp only [hempty]

theorem Sound.receive (hs : s.Sound) (conversationKey remoteClientKey : String)
    (decisions : List ApprovalDecisionOption) :
    (s.receive conversationKey remoteClientKey requestId decisions).Sound := by
  rcases receive_cases (s := s) conversationKey remoteClientKey requestId decisions with ⟨-, h⟩ |
    ⟨t, h, -, hsound, hqueues, harrivals, hpresented, -⟩
  · rw [h]; exact hs
  rw [h]
  have hmem : ∀ c x, x ∈ t.approvals.requestsOf c ↔ x ∈ s.approvals.requestsOf c ∨
      c = conversationKey ∧ x = ⟨s.arrivals, requestId, some remoteClientKey⟩ := by
    intro c x
    rw [hqueues]
    split
    next hc => subst hc; simp
    next hc => simp [hc]
  have hunsent : s.arrivals ∉ s.presented.map Prod.snd := by
    intro hm
    obtain ⟨p, hp, he⟩ := mem_map.mp hm
    have hlt := hs.presented.below p hp
    omega
  refine ⟨hsound hs.approvals, ⟨fun c x hx => ?_, fun c d x hx y hy he => ?_⟩, ⟨fun p hp => ?_, ?_, ?_, ?_⟩⟩
  · rw [harrivals]
    rcases (hmem c x).mp hx with hx | ⟨-, rfl⟩
    · exact Nat.lt_succ_of_lt (hs.numbered.below c x hx)
    · exact Nat.lt_succ_self _
  · rcases (hmem c x).mp hx with hx | ⟨-, rfl⟩ <;> rcases (hmem d y).mp hy with hy | ⟨-, rfl⟩
    · exact hs.numbered.distinct c d x hx y hy he
    · have hlt := hs.numbered.below c x hx
      simp only at he
      omega
    · have hlt := hs.numbered.below d y hy
      simp only at he
      omega
    · rfl
  · rw [harrivals]
    rw [hpresented] at hp
    split at hp
    next =>
      rcases mem_cons.mp hp with rfl | hp
      · exact Nat.lt_succ_self _
      · exact Nat.lt_succ_of_lt (hs.presented.below p hp)
    next => exact Nat.lt_succ_of_lt (hs.presented.below p hp)
  · rw [hpresented]
    split
    next => exact nodup_cons.mpr ⟨hunsent, hs.presented.once⟩
    next => exact hs.presented.once
  · intro c head rest hq
    rw [hqueues] at hq
    split at hq
    next hc =>
      subst hc
      rw [hpresented]
      cases hold : s.approvals.requestsOf c with
      | nil =>
        rw [hold] at hq
        cases hq
        exact .head _
      | cons first others =>
        rw [hold] at hq
        cases hq
        exact hs.presented.head c _ _ hold
    next =>
      have hm := hs.presented.head c head rest hq
      rw [hpresented]
      split
      next => exact mem_cons_of_mem _ hm
      next => exact hm
  · intro c head rest hq later hl
    have hwas : later.arrival ∉ s.presented.map Prod.snd ∧ (later.arrival ≠ s.arrivals ∨
        s.approvals.requestsOf conversationKey ≠ []) := by
      rw [hqueues] at hq
      split at hq
      next hc =>
        subst hc
        cases hold : s.approvals.requestsOf c with
        | nil =>
          rw [hold] at hq
          cases hq
          cases hl
        | cons first others =>
          rw [hold] at hq
          cases hq
          refine ⟨?_, .inr (cons_ne_nil _ _)⟩
          rcases mem_append.mp hl with hl | hl
          · exact hs.presented.tail c _ _ hold later hl
          · rw [mem_singleton.mp hl]
            exact hunsent
      next =>
        refine ⟨hs.presented.tail c head rest hq later hl, .inl ?_⟩
        have hlt := hs.numbered.below c later (hq ▸ mem_cons_of_mem _ hl)
        omega
    rw [hpresented]
    split
    next hempty =>
      have hne := hwas.2.resolve_right (not_not_intro hempty)
      exact fun hm => (mem_cons.mp hm).elim hne hwas.1
    next => exact hwas.1

theorem Sound.rememberApprovalMessageId (hs : s.Sound) (requestId : RequestId) (messageId : String) :
    Sound { s with approvals := s.approvals.rememberApprovalMessageId requestId messageId } := by
  refine ⟨hs.approvals.rememberApprovalMessageId _ _, ⟨?_, ?_⟩, ⟨hs.presented.below, hs.presented.once, ?_, ?_⟩⟩
  · simpa only [requestsOf_rememberApprovalMessageId] using hs.numbered.below
  · simpa only [requestsOf_rememberApprovalMessageId] using hs.numbered.distinct
  · simpa only [requestsOf_rememberApprovalMessageId] using hs.presented.head
  · simpa only [requestsOf_rememberApprovalMessageId] using hs.presented.tail

theorem mem_resolve (hs : s.Sound) {c : String} {request : ApprovalRequest} :
    request ∈ (s.resolve requestId next).approvals.requestsOf c ↔
      request ∈ s.approvals.requestsOf c ∧ request.requestKey ≠ approvalRequestKey requestId := by
  obtain ⟨-, -, -, -, h⟩ := resolve_frame s requestId next
  rw [h]
  exact hs.approvals.mem_resolve requestId

theorem mem_receive {conversationKey remoteClientKey c : String} {decisions : List ApprovalDecisionOption}
    {request : ApprovalRequest} (h : request ∈ s.approvals.requestsOf c) :
    request ∈ (s.receive conversationKey remoteClientKey requestId decisions).approvals.requestsOf c := by
  rcases receive_cases (s := s) conversationKey remoteClientKey requestId decisions with ⟨-, he⟩ |
    ⟨t, he, -, -, hqueues, -⟩
  · rwa [he]
  rw [he, hqueues]
  split
  next hc => exact mem_append_left _ (hc ▸ h)
  next => exact h

theorem Sound.congr (hs : s.Sound) (happrovals : t.approvals = s.approvals) (harrivals : t.arrivals = s.arrivals)
    (hpresented : t.presented = s.presented) : t.Sound := by
  refine ⟨?_, ⟨?_, ?_⟩, ⟨?_, ?_, ?_, ?_⟩⟩ <;> simp only [happrovals, harrivals, hpresented]
  exacts [hs.approvals, hs.numbered.below, hs.numbered.distinct, hs.presented.below, hs.presented.once,
    hs.presented.head, hs.presented.tail]

variable {decision : Option (Nat × ApprovalDecisionOption)}

theorem holds_chosen {pending held : PendingApproval} (h : (chosen pending decision).holds = some held) : held = pending ∧ decision.isSome = true := by
  unfold chosen at h
  split at h
  next => cases h
  next => exact ⟨(Option.some.inj h).symm, rfl⟩

theorem chosen_ne_answered {pending held : PendingApproval} : chosen pending decision ≠ .answered held := by
  unfold chosen
  split <;> exact ReplyStage.noConfusion

variable {a : ApprovalStep}

theorem takenUp_queued {held : PendingApproval} (h : s.takenUp codec a = some held) :
    ∃ c, held ∈ s.approvals.approvalsOf c := by
  cases a with
  | textReply call conversationKey input | buttonReply call conversationKey fingerprint index =>
    exact ⟨_, mem_of_currentApproval (Option.filter_eq_some_iff.mp h).1⟩
  | cardReply call requestKey input =>
    obtain ⟨found, hfound, rfl⟩ := Option.map_eq_some_iff.mp h
    exact ⟨_, (approvalByRequestKeyAnywhere_eq_some hfound).1⟩
  | _ => cases h

/-- A step of a reply moves its handler, which has sent no response yet and holds what it has just taken
up or what it held before. -/
theorem reply_cases {call : Nat} (ha : a.reply = some call) (h : s.step codec a = some t) :
    ∃ stage, t = s.moveTo call stage ∧
      (∀ held, stage ≠ .answered held ∧ s.stage.lookup call ≠ some (.answered held)) ∧
      ∀ held, stage.holds = some held →
        (s.stage.lookup call = none ∧ s.takenUp codec a = some held) ∨
          ∃ old, s.stage.lookup call = some old ∧ old.holds = some held := by
  have hended : ∀ old : Option ReplyStage, (∀ held, old ≠ some (.answered held)) →
      (∀ held, ReplyStage.ended ≠ .answered held ∧ old ≠ some (.answered held)) :=
    fun _ hold held => ⟨ReplyStage.noConfusion, hold held⟩
  cases a with
  | textReply c conversationKey input =>
    cases ha
    simp only [step] at h
    split at h
    next => cases h
    next hfree =>
      have hfree : s.stage.lookup call = none := by simpa using hfree
      split at h
      next => cases h; exact ⟨_, rfl, hended _ (by simp [hfree]), fun _ hh => by cases hh⟩
      next pending hcurrent =>
        cases h
        refine ⟨_, rfl, fun _ => ⟨chosen_ne_answered, by simp [hfree]⟩, fun held hh => .inl ⟨hfree, ?_⟩⟩
        obtain ⟨rfl, hsome⟩ := holds_chosen hh
        exact Option.filter_eq_some_iff.mpr ⟨hcurrent, hsome⟩
  | cardReply c requestKey input =>
    cases ha
    simp only [step] at h
    split at h
    next => cases h
    next hfree =>
      have hfree : s.stage.lookup call = none := by simpa using hfree
      split at h
      next => cases h; exact ⟨_, rfl, hended _ (by simp [hfree]), fun _ hh => by cases hh⟩
      next found hfound =>
        cases h
        refine ⟨_, rfl, fun _ => ⟨ReplyStage.noConfusion, by simp [hfree]⟩, fun held hh => .inl ⟨hfree, ?_⟩⟩
        cases hh
        exact Option.map_eq_some_iff.mpr ⟨found, hfound, rfl⟩
  | checkCurrent c =>
    cases ha
    simp only [step] at h
    split at h
    next conversationKey requestKey pending input hold =>
      split at h
      next =>
        cases h
        refine ⟨_, rfl, fun _ => ⟨chosen_ne_answered, by simp [hold]⟩, fun held hh => .inr ⟨_, hold, ?_⟩⟩
        exact congrArg some (holds_chosen hh).1.symm
      next => cases h; exact ⟨_, rfl, hended _ (by simp [hold]), fun _ hh => by cases hh⟩
    next => cases h
  | buttonReply c conversationKey fingerprint index =>
    cases ha
    simp only [step] at h
    split at h
    next => cases h
    next hfree =>
      have hfree : s.stage.lookup call = none := by simpa using hfree
      split at h
      next => cases h; exact ⟨_, rfl, hended _ (by simp [hfree]), fun _ hh => by cases hh⟩
      next pending hcurrent =>
        split at h
        next => cases h; exact ⟨_, rfl, hended _ (by simp [hfree]), fun _ hh => by cases hh⟩
        next hprint =>
          cases h
          refine ⟨_, rfl, fun _ => ⟨chosen_ne_answered, by simp [hfree]⟩, fun held hh => .inl ⟨hfree, ?_⟩⟩
          obtain ⟨rfl, hsome⟩ := holds_chosen hh
          rw [Option.isSome_map] at hsome
          refine Option.filter_eq_some_iff.mpr ⟨hcurrent, ?_⟩
          simpa [hsome] using hprint
  | sendFails c =>
    cases ha
    simp only [step] at h
    split at h
    next hold => cases h; exact ⟨_, rfl, hended _ (by simp [hold]), fun _ hh => by cases hh⟩
    next => cases h
  | _ => cases ha

theorem step_sound (hs : s.Sound) (h : s.step codec a = some t) : t.Sound := by
  cases hreply : a.reply with
  | some call =>
    obtain ⟨stage, rfl, -⟩ := reply_cases hreply h
    exact hs.congr rfl rfl rfl
  | none =>
    cases a with
    | request conversationKey remoteClientKey requestId decisions =>
      simp only [step] at h
      split at h
      next => cases h; exact hs
      next clientKey =>
        have hnoted : Sound { s with seen := (clientKey, requestId) :: s.seen } := hs.congr rfl rfl rfl
        split at h
        next => cases h; exact hnoted
        next => cases h; exact hnoted.receive _ _ _
    | resolvedEvent remoteClientKey requestId =>
      cases h
      exact hs.resolve sendsNext_event
    | sendResponse call =>
      simp only [step] at h
      split at h
      next =>
        split at h
        next => cases h; exact hs.congr rfl rfl rfl
        next => cases h
      next => cases h
    | removeAnswered call =>
      simp only [step] at h
      split at h
      next => cases h; exact (hs.resolve sendsNext_answer).congr rfl rfl rfl
      next => cases h
    | rememberMessageId requestId messageId =>
      cases h
      exact hs.rememberApprovalMessageId requestId messageId
    | _ => cases hreply

theorem start_sound : start.Sound := by
  refine ⟨⟨fun key => ?_, fun c => ?_, fun c d x hx => ?_, fun c => ?_⟩, ⟨fun c x hx => ?_, fun c d x hx => ?_⟩,
    ⟨fun p hp => ?_, nodup_nil, fun c x rest hq => ?_, fun c x rest hq => ?_⟩⟩
  · simp [start, empty, requestsOf, approvalsOf]
  · exact nodup_nil
  · cases hx
  · exact (Option.some_ne_none _).symm
  · cases hx
  · cases hx
  · cases hp
  · cases hq
  · cases hq

theorem run_sound {steps : List ApprovalStep} (h : Runs.run (step codec) start steps = some s) : s.Sound :=
  Runs.run_invariant Sound (fun _ _ _ hs h => step_sound hs h) start_sound h

/-- A step makes its caller send nothing, or the head of a queue. -/
def PresentsHead (s t : ApprovalSystem) : Prop :=
  t.presented = s.presented ∨ ∃ conversationKey request rest,
    t.presented = (conversationKey, request.arrival) :: s.presented ∧
      t.approvals.requestsOf conversationKey = request :: rest

theorem receive_presentsHead (conversationKey remoteClientKey : String) (decisions : List ApprovalDecisionOption) :
    s.PresentsHead (s.receive conversationKey remoteClientKey requestId decisions) := by
  rcases receive_cases (s := s) conversationKey remoteClientKey requestId decisions with ⟨-, h⟩ |
    ⟨t, h, -, -, hqueues, -, hpresented, -⟩
  · rw [h]
    exact .inl rfl
  rw [h]
  by_cases hempty : s.approvals.requestsOf conversationKey = []
  · refine .inr ⟨conversationKey, ⟨s.arrivals, requestId, some remoteClientKey⟩, [], ?_, ?_⟩
    · rw [hpresented, if_pos hempty]
    · rw [hqueues, if_pos rfl, hempty, nil_append]
  · exact .inl (hpresented.trans (if_neg hempty))

theorem resolve_presentsHead (hnext : SendsNext next) : s.PresentsHead (s.resolve requestId next) := by
  rcases resolve_cases s requestId hnext with ⟨-, -, hpresented, -⟩ |
    ⟨conversationKey, before, request, after, -, -, hqueues, hpresented, -⟩
  · exact .inl hpresented
  cases before with
  | cons first before => exact .inl hpresented
  | nil =>
    cases after with
    | nil => exact .inl hpresented
    | cons promoted rest =>
      exact .inr ⟨conversationKey, promoted, rest, hpresented, (hqueues conversationKey).trans (if_pos rfl)⟩

theorem step_presentsHead (h : s.step codec a = some t) : s.PresentsHead t := by
  cases hreply : a.reply with
  | some call =>
    obtain ⟨stage, rfl, -⟩ := reply_cases hreply h
    exact .inl rfl
  | none =>
    cases a with
    | request conversationKey remoteClientKey requestId decisions =>
      simp only [step] at h
      split at h
      next => cases h; exact .inl rfl
      next clientKey =>
        split at h
        next => cases h; exact .inl rfl
        next => cases h; exact receive_presentsHead (s := { s with seen := _ }) _ _ _
    | resolvedEvent remoteClientKey requestId =>
      cases h
      exact resolve_presentsHead sendsNext_event
    | sendResponse call =>
      simp only [step] at h
      split at h
      next =>
        split at h
        next => cases h; exact .inl rfl
        next => cases h
      next => cases h
    | removeAnswered call =>
      simp only [step] at h
      split at h
      next => cases h; exact resolve_presentsHead (s := s) sendsNext_answer
      next => cases h
    | rememberMessageId requestId messageId => cases h; exact .inl rfl
    | _ => cases hreply

/-- In every run the key set is that of the queues and no key is queued twice, each approval is presented
at most once and only as the head of its queue, and every head has been presented. -/
theorem approvals_presented_in_order {steps : List ApprovalStep} (h : Runs.run (step codec) start steps = some s) :
    s.approvals.Sound ∧ s.Presented ∧ ∀ a t, s.step codec a = some t → s.PresentsHead t :=
  ⟨(run_sound h).approvals, (run_sound h).presented, fun _ _ => step_presentsHead⟩

def wordCodec : ApprovalCodec :=
  ⟨id, fun decision => decision = "accept" || decision = "approved",
    fun decision => decision = "decline" || decision = "cancel" || decision = "denied"⟩

def acceptOrDecline : List ApprovalDecisionOption := [⟨"Yes", "accept"⟩, ⟨"No", "decline"⟩]

/-- Two requests for one conversation, of which the first is resolved elsewhere. -/
def resolvedElsewhere : List ApprovalStep :=
  [.request (some "feishu:default:chat") (some "im:feishu:chat") (.number "1") acceptOrDecline,
    .request (some "feishu:default:chat") (some "im:feishu:chat") (.number "2") acceptOrDecline,
    .resolvedEvent (some "im:feishu:chat") (.number "1")]

theorem approvals_presented_in_order_resolved :
    ∃ s, Runs.run (step wordCodec) start resolvedElsewhere = some s ∧
      s.presented = [("feishu:default:chat", 1), ("feishu:default:chat", 0)] ∧
      s.approvals.Sound ∧ s.Presented := by
  have hrun : ((Runs.run (step wordCodec) start resolvedElsewhere).map (·.presented)) =
      some [("feishu:default:chat", 1), ("feishu:default:chat", 0)] := by
    decide +kernel
  obtain ⟨s, hs, hpresented⟩ := Option.map_eq_some_iff.mp hrun
  obtain ⟨hsound, horder, -⟩ := approvals_presented_in_order hs
  exact ⟨s, hs, hpresented, hsound, horder⟩

end ApprovalSystem

end MochiPort

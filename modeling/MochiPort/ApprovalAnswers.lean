import MochiPort.ApprovalSteps

namespace MochiPort

open List

namespace ApprovalSystem

/-- A reply takes up an approval that no other handler has taken up and not yet removed. -/
def Alone (codec : ApprovalCodec) (s : ApprovalSystem) (a : ApprovalStep) : Prop :=
  ∀ pending ∈ s.takenUp codec a, ∀ call ∈ s.stage.keys, ∀ stage ∈ s.stage.lookup call,
    ∀ held ∈ stage.holds, held.arrival ≠ pending.arrival

instance (codec : ApprovalCodec) (s : ApprovalSystem) (a : ApprovalStep) : Decidable (s.Alone codec a) := by
  unfold Alone; infer_instance

def answers (s : ApprovalSystem) : List Nat := s.responses.map (·.1.arrival)

/-- What the handlers hold is theirs alone and unanswered until they answer it, and an answered approval
is out of the queues or about to be taken out. -/
structure Answering (s : ApprovalSystem) : Prop where
  once : s.answers.Nodup
  below : ∀ n ∈ s.answers, n < s.arrivals
  alone : ∀ call other x y p q, s.stage.lookup call = some x → s.stage.lookup other = some y →
    x.holds = some p → y.holds = some q → p.arrival = q.arrival → call = other
  held : ∀ call x p, s.stage.lookup call = some x → x.holds = some p → p.arrival < s.arrivals ∧
    ∀ c, ∀ request ∈ s.approvals.requestsOf c, request.arrival = p.arrival → request = p.toApprovalRequest
  unanswered : ∀ call x p, s.stage.lookup call = some x → x.holds = some p →
    (∀ held, x ≠ .answered held) → p.arrival ∉ s.answers
  closed : ∀ n ∈ s.answers, (∀ c, ∀ request ∈ s.approvals.requestsOf c, request.arrival ≠ n) ∨
    ∃ call p, s.stage.lookup call = some (.answered p) ∧ p.arrival = n

variable {codec : ApprovalCodec} {s t : ApprovalSystem}

theorem start_answering : start.Answering where
  once := nodup_nil
  below n hn := by cases hn
  alone call other x y p q hx := by simp [start] at hx
  held call x p hx := by simp [start] at hx
  unanswered call x p hx := by simp [start] at hx
  closed n hn := by cases hn

theorem Answering.queues (hs : s.Answering) (hstage : t.stage = s.stage) (hresponses : t.responses = s.responses)
    (harrivals : s.arrivals ≤ t.arrivals) (hqueues : ∀ c, ∀ request ∈ t.approvals.requestsOf c,
      request ∈ s.approvals.requestsOf c ∨ s.arrivals ≤ request.arrival) : t.Answering := by
  have hanswers : t.answers = s.answers := by unfold answers; rw [hresponses]
  refine ⟨?_, fun n hn => ?_, ?_, fun call x p hx hp => ?_, ?_, fun n hn => ?_⟩
  · rw [hanswers]; exact hs.once
  · rw [hanswers] at hn
    exact Nat.lt_of_lt_of_le (hs.below n hn) harrivals
  · rw [hstage]; exact hs.alone
  · rw [hstage] at hx
    obtain ⟨hlt, hsame⟩ := hs.held call x p hx hp
    refine ⟨Nat.lt_of_lt_of_le hlt harrivals, fun c request hm he => ?_⟩
    rcases hqueues c request hm with hm | hnew
    · exact hsame c request hm he
    · omega
  · rw [hstage, hanswers]; exact hs.unanswered
  · rw [hanswers] at hn
    rw [hstage]
    rcases hs.closed n hn with hout | hheld
    · refine .inl fun c request hm he => ?_
      rcases hqueues c request hm with hm | hnew
      · exact hout c request hm he
      · have hlt := hs.below n hn
        omega
    · exact .inr hheld

theorem lookup_moveTo {call other : Nat} {stage : ReplyStage} :
    (s.moveTo call stage).stage.lookup other = if other = call then some stage else s.stage.lookup other :=
  Table.lookup_insert_eq _ _ _ _

theorem lookup_moveTo_cases {call other : Nat} {stage x : ReplyStage}
    (h : (s.moveTo call stage).stage.lookup other = some x) :
    (other = call ∧ x = stage) ∨ other ≠ call ∧ s.stage.lookup other = some x := by
  rw [lookup_moveTo] at h
  split at h
  next he => exact .inl ⟨he, (Option.some.inj h).symm⟩
  next hne => exact .inr ⟨hne, h⟩

theorem Answering.moveTo {call : Nat} {stage : ReplyStage} (hs : s.Answering) (hsound : s.Sound)
    (hopen : ∀ held, stage ≠ .answered held ∧ s.stage.lookup call ≠ some (.answered held))
    (hholds : ∀ p, stage.holds = some p →
      (∃ old, s.stage.lookup call = some old ∧ old.holds = some p) ∨ (∃ c, p ∈ s.approvals.approvalsOf c) ∧
          ∀ other x q, s.stage.lookup other = some x → x.holds = some q → q.arrival ≠ p.arrival) :
    (s.moveTo call stage).Answering := by
  have hother : ∀ p, stage.holds = some p → ∀ other x q, other ≠ call → s.stage.lookup other = some x →
      x.holds = some q → q.arrival ≠ p.arrival := by
    intro p hp other x q hne hx hq he
    rcases hholds p hp with ⟨old, hold, hpold⟩ | ⟨-, hfree⟩
    · exact hne (hs.alone other call x old q p hx hold hq hpold he)
    · exact hfree other x q hx hq he
  refine ⟨hs.once, hs.below, fun c d x y p q hx hy hp hq he => ?_, fun c x p hx hp => ?_,
    fun c x p hx hp hne => ?_, fun n hn => ?_⟩
  · rcases lookup_moveTo_cases hx with ⟨rfl, rfl⟩ | ⟨hc, hx'⟩ <;>
      rcases lookup_moveTo_cases hy with ⟨rfl, rfl⟩ | ⟨hd, hy'⟩
    · rfl
    · exact (hother p hp d y q hd hy' hq he.symm).elim
    · exact (hother q hq c x p hc hx' hp he).elim
    · exact hs.alone c d x y p q hx' hy' hp hq he
  · rcases lookup_moveTo_cases hx with ⟨rfl, rfl⟩ | ⟨hc, hx⟩
    · rcases hholds p hp with ⟨old, hold, hpold⟩ | ⟨⟨d, hqueued⟩, -⟩
      · exact hs.held c old p hold hpold
      · have hm : p.toApprovalRequest ∈ s.approvals.requestsOf d := mem_map_of_mem hqueued
        exact ⟨hsound.numbered.below d _ hm, fun c request hr he => hsound.numbered.distinct c d request hr _ hm he⟩
    · exact hs.held c x p hx hp
  · rcases lookup_moveTo_cases hx with ⟨rfl, rfl⟩ | ⟨hc, hx⟩
    · rcases hholds p hp with ⟨old, hold, hpold⟩ | ⟨⟨d, hqueued⟩, hfree⟩
      · exact hs.unanswered c old p hold hpold fun held he => (hopen held).2 (he ▸ hold)
      · intro hin
        rcases hs.closed _ hin with hout | ⟨other, q, hq, he⟩
        · exact hout d p.toApprovalRequest (mem_map_of_mem hqueued) rfl
        · exact hfree other _ q hq rfl he
    · exact hs.unanswered c x p hx hp hne
  · rcases hs.closed n hn with hout | ⟨other, p, hp, he⟩
    · exact .inl hout
    · have hne : other ≠ call := fun h => (hopen p).2 (h ▸ hp)
      exact .inr ⟨other, p, by rw [lookup_moveTo, if_neg hne]; exact hp, he⟩

theorem Answering.send {call : Nat} {pending : PendingApproval} {decision : ApprovalDecisionOption}
    {text : String} (hs : s.Answering) (hstage : s.stage.lookup call = some (.ready pending decision)) :
    Answering { s.moveTo call (.answered pending) with
      responses := (pending.toApprovalRequest, text) :: s.responses } := by
  have hopen : pending.arrival ∉ s.answers := hs.unanswered call _ pending hstage rfl fun _ => ReplyStage.noConfusion
  obtain ⟨hlt, hsame⟩ := hs.held call _ pending hstage rfl
  refine ⟨nodup_cons.mpr ⟨hopen, hs.once⟩, fun n hn => ?_, fun c d x y p q hx hy hp hq he => ?_,
    fun c x p hx hp => ?_, fun c x p hx hp hne => ?_, fun n hn => ?_⟩
  · rcases mem_cons.mp hn with rfl | hn
    · exact hlt
    · exact hs.below n hn
  · rcases lookup_moveTo_cases hx with ⟨rfl, rfl⟩ | ⟨hc, hx'⟩ <;>
      rcases lookup_moveTo_cases hy with ⟨rfl, rfl⟩ | ⟨hd, hy'⟩
    · rfl
    · exact hs.alone c d _ y pending q hstage hy' rfl hq (Option.some.inj hp ▸ he)
    · exact hs.alone c d x _ p pending hx' hstage hp rfl (Option.some.inj hq ▸ he)
    · exact hs.alone c d x y p q hx' hy' hp hq he
  · rcases lookup_moveTo_cases hx with ⟨rfl, rfl⟩ | ⟨hc, hx⟩
    · cases hp
      exact ⟨hlt, hsame⟩
    · exact hs.held c x p hx hp
  · rcases lookup_moveTo_cases hx with ⟨rfl, rfl⟩ | ⟨hc, hx⟩
    · exact (hne pending rfl).elim
    · intro hin
      rcases mem_cons.mp hin with he | hin
      · exact hc (hs.alone c call x _ p pending hx hstage hp rfl he)
      · exact hs.unanswered c x p hx hp hne hin
  · rcases mem_cons.mp hn with rfl | hn
    · exact .inr ⟨call, pending, by rw [lookup_moveTo, if_pos rfl], rfl⟩
    · rcases hs.closed n hn with hout | ⟨other, p, hp, he⟩
      · exact .inl hout
      · have hne : other ≠ call := by
          rintro rfl
          rw [hstage] at hp
          cases hp
        exact .inr ⟨other, p, by rw [lookup_moveTo, if_neg hne]; exact hp, he⟩

theorem Answering.remove {call : Nat} {pending : PendingApproval} (hs : s.Answering)
    (hstage : s.stage.lookup call = some (.answered pending))
    (hout : ∀ c, ∀ request ∈ s.approvals.requestsOf c, request.arrival ≠ pending.arrival) :
    (s.moveTo call .ended).Answering := by
  refine ⟨hs.once, hs.below, fun c d x y p q hx hy hp hq he => ?_, fun c x p hx hp => ?_,
    fun c x p hx hp hne => ?_, fun n hn => ?_⟩
  · rcases lookup_moveTo_cases hx with ⟨rfl, rfl⟩ | ⟨hc, hx⟩
    · cases hp
    rcases lookup_moveTo_cases hy with ⟨rfl, rfl⟩ | ⟨hd, hy⟩
    · cases hq
    exact hs.alone c d x y p q hx hy hp hq he
  · rcases lookup_moveTo_cases hx with ⟨rfl, rfl⟩ | ⟨hc, hx⟩
    · cases hp
    exact hs.held c x p hx hp
  · rcases lookup_moveTo_cases hx with ⟨rfl, rfl⟩ | ⟨hc, hx⟩
    · cases hp
    exact hs.unanswered c x p hx hp hne
  · rcases hs.closed n hn with hgone | ⟨other, p, hp, rfl⟩
    · exact .inl hgone
    by_cases hne : other = call
    · subst hne
      rw [hstage] at hp
      cases hp
      exact .inl hout
    · exact .inr ⟨other, p, by rw [lookup_moveTo, if_neg hne]; exact hp, rfl⟩

variable {next : ResolvedApproval → Option PendingApproval}

theorem Answering.resolve {requestId : RequestId} (hs : s.Answering) (hsound : s.Sound) : (s.resolve requestId next).Answering := by
  obtain ⟨hstage, harrivals, -, hresponses, -⟩ := resolve_frame s requestId next
  exact hs.queues hstage hresponses (Nat.le_of_eq harrivals.symm) fun c request hm =>
    .inl ((mem_resolve hsound).mp hm).1

theorem step_answering {a : ApprovalStep} (hs : s.Sound ∧ s.Answering) (ha : s.Alone codec a)
    (h : s.step codec a = some t) : t.Sound ∧ t.Answering := by
  refine ⟨step_sound hs.1 h, ?_⟩
  obtain ⟨hsound, hs⟩ := hs
  cases hreply : a.reply with
  | some call =>
    obtain ⟨stage, rfl, hopen, hholds⟩ := reply_cases hreply h
    refine hs.moveTo hsound hopen fun p hp => ?_
    rcases hholds p hp with ⟨-, htaken⟩ | hold
    · refine .inr ⟨takenUp_queued htaken, fun other x q hx hq => ?_⟩
      have hkey : other ∈ s.stage.keys := AList.mem_keys.mpr (AList.lookup_isSome.mp (by simp [hx]))
      exact ha p htaken other hkey x hx q hq
    · exact .inl hold
  | none =>
    cases a with
    | request conversationKey remoteClientKey requestId decisions =>
      simp only [step] at h
      split at h
      next => cases h; exact hs
      next clientKey =>
        have hnoted : Answering { s with seen := (clientKey, requestId) :: s.seen } :=
          hs.queues rfl rfl (Nat.le_refl _) fun _ _ hm => .inl hm
        split at h
        next => cases h; exact hnoted
        next conversationKey =>
          cases h
          rcases receive_cases (s := { s with seen := (clientKey, requestId) :: s.seen })
            conversationKey clientKey requestId decisions with
            ⟨-, he⟩ | ⟨t, he, -, -, hqueues, harrivals, -, hstage, -, hresponses, -⟩
          · rw [he]; exact hnoted
          rw [he]
          refine hnoted.queues hstage hresponses (by rw [harrivals]; exact Nat.le_succ _) fun c request hm => ?_
          rw [hqueues] at hm
          split at hm
          next hc =>
            rcases mem_append.mp hm with hm | hm
            · exact .inl (hc ▸ hm)
            · rw [mem_singleton.mp hm]
              exact .inr (Nat.le_refl _)
          next => exact .inl hm
    | resolvedEvent remoteClientKey requestId =>
      cases h
      exact hs.resolve hsound
    | sendResponse call =>
      simp only [step] at h
      split at h
      next pending decision hstage =>
        split at h
        next => cases h; exact hs.send hstage
        next => cases h
      next => cases h
    | removeAnswered call =>
      simp only [step] at h
      split at h
      next pending hstage =>
        cases h
        obtain ⟨hsame, -, -, -, -⟩ := resolve_frame s pending.requestId ResolvedApproval.nextCurrent
        refine (hs.resolve hsound).remove (hsame ▸ hstage) fun c request hm he => ?_
        obtain ⟨hm, hne⟩ := (mem_resolve hsound).mp hm
        have hrequest := (hs.held call _ pending hstage rfl).2 c request hm he
        exact hne (hrequest ▸ rfl)
      next => cases h
    | rememberMessageId requestId messageId =>
      cases h
      refine hs.queues rfl rfl (Nat.le_refl _) fun c request hm => .inl ?_
      rwa [PendingApprovals.requestsOf_rememberApprovalMessageId] at hm
    | _ => cases hreply

/-- Every accepted request is queued or has been resolved. -/
def Settled (s : ApprovalSystem) : Prop :=
  ∀ n < s.arrivals, (∃ c, ∃ request ∈ s.approvals.requestsOf c, request.arrival = n) ∨ n ∈ s.resolved

theorem Settled.resolve {requestId : RequestId} (hs : s.Settled) (hnext : SendsNext next) : (s.resolve requestId next).Settled := by
  obtain ⟨-, harrivals, -, -, -⟩ := resolve_frame s requestId next
  intro n hn
  rw [harrivals] at hn
  rcases resolve_cases s requestId hnext with ⟨-, hqueues, -, hresolved⟩ |
    ⟨conversationKey, before, request, after, hqueue, -, hqueues, -, hresolved⟩
  · rw [hresolved]
    simp only [hqueues]
    exact hs n hn
  rw [hresolved]
  rcases hs n hn with ⟨c, other, hm, rfl⟩ | hr
  · by_cases hc : c = conversationKey
    · subst hc
      rw [hqueue] at hm
      rcases mem_append.mp hm with hm | hm
      · exact .inl ⟨c, other, by rw [hqueues, if_pos rfl]; exact mem_append_left _ hm, rfl⟩
      rcases mem_cons.mp hm with rfl | hm
      · exact .inr (.head _)
      · exact .inl ⟨c, other, by rw [hqueues, if_pos rfl]; exact mem_append_right _ hm, rfl⟩
    · exact .inl ⟨c, other, by rw [hqueues, if_neg hc]; exact hm, rfl⟩
  · exact .inr (mem_cons_of_mem _ hr)

theorem step_settled {a : ApprovalStep} (hs : s.Settled) (h : s.step codec a = some t) : t.Settled := by
  cases hreply : a.reply with
  | some call =>
    obtain ⟨stage, rfl, -⟩ := reply_cases hreply h
    exact hs
  | none =>
    cases a with
    | request conversationKey remoteClientKey requestId decisions =>
      simp only [step] at h
      split at h
      next => cases h; exact hs
      next clientKey =>
        split at h
        next => cases h; exact hs
        next conversationKey =>
          cases h
          rcases receive_cases (s := { s with seen := (clientKey, requestId) :: s.seen })
            conversationKey clientKey requestId decisions with
            ⟨-, he⟩ | ⟨t, he, -, -, hqueues, harrivals, -, -, -, -, hresolved⟩
          · rw [he]; exact hs
          rw [he]
          intro n hn
          rw [hresolved]
          rcases Nat.lt_succ_iff_lt_or_eq.mp (harrivals ▸ hn) with hn | rfl
          · rcases hs n hn with ⟨c, request, hm, rfl⟩ | hr
            · refine .inl ⟨c, request, ?_, rfl⟩
              rw [hqueues]
              split
              next hc => exact mem_append_left _ (hc ▸ hm)
              next => exact hm
            · exact .inr hr
          · refine .inl ⟨conversationKey, ⟨s.arrivals, requestId, some clientKey⟩, ?_, rfl⟩
            rw [hqueues, if_pos rfl]
            exact mem_append_right _ (mem_singleton_self _)
    | resolvedEvent remoteClientKey requestId => cases h; exact hs.resolve sendsNext_event
    | sendResponse call =>
      simp only [step] at h
      split at h
      next =>
        split at h
        next => cases h; exact hs
        next => cases h
      next => cases h
    | removeAnswered call =>
      simp only [step] at h
      split at h
      next => cases h; exact hs.resolve sendsNext_answer
      next => cases h
    | rememberMessageId requestId messageId =>
      cases h
      intro n hn
      simp only [PendingApprovals.requestsOf_rememberApprovalMessageId]
      exact hs n hn
    | _ => cases hreply

/-- While no two handlers have taken up the same approval, each is answered at most once, and a response that
cannot be sent changes nothing: its approval is unanswered, and queued unless it has been resolved. -/
theorem one_decision_per_approval {steps : List ApprovalStep} (h : Runs.run (step codec) start steps = some s)
    (hm : Runs.Meets (step codec) (Alone codec) start steps) :
    s.answers.Nodup ∧ ∀ call t, s.step codec (.sendFails call) = some t →
      t.approvals = s.approvals ∧ t.responses = s.responses ∧ t.resolved = s.resolved ∧
      ∀ pending decision, s.stage.lookup call = some (.ready pending decision) → pending.arrival ∉ t.answers ∧
        ((∃ c, pending.toApprovalRequest ∈ t.approvals.requestsOf c) ∨ pending.arrival ∈ t.resolved) := by
  obtain ⟨hsound, hs⟩ := Runs.run_invariant_of_meets (fun s => s.Sound ∧ s.Answering)
    (fun s a t hs ha h => step_answering hs ha h) ⟨start_sound, start_answering⟩ hm h
  have hsettled : s.Settled := Runs.run_invariant Settled (fun s a t hs h => step_settled hs h)
    (fun n hn => absurd hn (Nat.not_lt_zero n)) h
  refine ⟨hs.once, fun call t ht => ?_⟩
  obtain ⟨stage, rfl, -⟩ := reply_cases rfl ht
  refine ⟨rfl, rfl, rfl, fun pending decision hstage => ?_⟩
  obtain ⟨hlt, hsame⟩ := hs.held call _ pending hstage rfl
  refine ⟨hs.unanswered call _ pending hstage rfl fun _ => ReplyStage.noConfusion, ?_⟩
  rcases hsettled pending.arrival hlt with ⟨c, request, hin, he⟩ | hr
  · exact .inl ⟨c, hsame c request hin he ▸ hin⟩
  · exact .inr hr

/-- A reply that accepts, with its response sent once the first attempt has failed. -/
def retriedReply : List ApprovalStep :=
  [.request (some "feishu:default:chat") (some "im:feishu:chat") (.number "1") acceptOrDecline,
    .textReply 0 "feishu:default:chat" .yes, .sendFails 0,
    .textReply 1 "feishu:default:chat" .yes, .sendResponse 1, .removeAnswered 1]

theorem one_decision_per_approval_retried :
    ∃ s, Runs.run (step wordCodec) start retriedReply = some s ∧ s.responses.map (·.2) = ["accept"] ∧
      s.answers.Nodup := by
  have hrun : ((Runs.run (step wordCodec) start retriedReply).map (·.responses.map (·.2))) = some ["accept"] := by
    decide +kernel
  obtain ⟨s, hs, hresponses⟩ := Option.map_eq_some_iff.mp hrun
  exact ⟨s, hs, hresponses, (one_decision_per_approval hs (by decide +kernel)).1⟩

/-- Two replies look the approval up before either has removed it: one accepts it and one declines it. -/
theorem answered_twice :
    ¬∀ (codec : ApprovalCodec) (steps : List ApprovalStep) (s : ApprovalSystem),
      Runs.run (step codec) start steps = some s → s.answers.Nodup := by
  intro h
  have hrun : ((Runs.run (step wordCodec) start
      [.request (some "feishu:default:chat") (some "im:feishu:chat") (.number "1") acceptOrDecline,
        .textReply 0 "feishu:default:chat" .yes, .textReply 1 "feishu:default:chat" .no,
        .sendResponse 0, .sendResponse 1]).map (·.answers)) = some [0, 0] := by
    decide +kernel
  obtain ⟨s, hs, hanswers⟩ := Option.map_eq_some_iff.mp hrun
  have hnodup := h _ _ s hs
  rw [hanswers] at hnodup
  exact absurd hnodup (by decide)

end ApprovalSystem

end MochiPort

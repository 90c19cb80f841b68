import Mathlib.Data.Finset.Basic
import MochiPort.RustText
import MochiPort.Tables

namespace MochiPort

open List

/-- The `id` of a JSON-RPC request; a number and any other value are given by the JSON text they print as. -/
inductive RequestId where
  | number (text : String)
  | string (value : String)
  | other (text : String)
  deriving DecidableEq

def approvalRequestKey : RequestId → String
  | .number text => "number:" ++ text
  | .string value => "string:" ++ value
  | .other text => "json:" ++ text

structure ApprovalDecisionOption where
  label : String
  -- the JSON text of the decision
  decision : String
  deriving DecidableEq

/-- What tells approval requests apart. The arrival numbers them; the source keeps no such number. -/
structure ApprovalRequest where
  arrival : Nat
  requestId : RequestId
  remoteClientKey : Option String
  deriving DecidableEq

def ApprovalRequest.requestKey (request : ApprovalRequest) : String := approvalRequestKey request.requestId

structure PendingApproval extends ApprovalRequest where
  decisions : List ApprovalDecisionOption
  messageId : Option String
  deriving DecidableEq

structure ResolvedApproval where
  conversationKey : String
  approval : PendingApproval
  wasCurrent : Bool
  nextCurrent : Option PendingApproval
  deriving DecidableEq

/-- The runtime's approvals: a queue for each conversation and the keys of all that are queued. -/
structure PendingApprovals where
  pendingApprovalsByConversation : Table String (List PendingApproval)
  pendingApprovalRequestKeys : Finset String

/-- The functions of the source that read a request key or a decision: the digest shown on buttons,
and which decisions `/y` and `/n` choose. -/
structure ApprovalCodec where
  approvalRequestFingerprint : String → String
  isAcceptDecision : String → Bool
  isNegativeDecision : String → Bool

/-- An approval reply: the number of an option, or one of the words for yes and no. -/
inductive ApprovalInput where
  | option (index : Nat)
  | yes
  | no
  | unknown
  deriving DecidableEq

namespace PendingApproval

def hasKey (requestKey : String) (pending : PendingApproval) : Bool := pending.requestKey = requestKey

def inQueue (requestKey : String) (queue : List PendingApproval) : Bool := queue.any (hasKey requestKey)

def decisionAt (pending : PendingApproval) (index : Nat) : Option ApprovalDecisionOption :=
  if index = 0 then none else pending.decisions[index - 1]?

def decisionWhere (pending : PendingApproval) (p : String → Bool) : Option (Nat × ApprovalDecisionOption) :=
  (pending.decisions.findIdx? fun option => p option.decision).bind fun index =>
    pending.decisions[index]?.map fun option => (index + 1, option)

end PendingApproval

def approvalDecisionByInput (codec : ApprovalCodec) (pending : PendingApproval) :
    ApprovalInput → Option (Nat × ApprovalDecisionOption)
  | .option index => (pending.decisionAt index).map fun decision => (index, decision)
  | .yes => pending.decisionWhere codec.isAcceptDecision
  | .no => pending.decisionWhere codec.isNegativeDecision
  | .unknown => none

namespace PendingApprovals

variable (s : PendingApprovals)

def empty : PendingApprovals := ⟨∅, ∅⟩

def approvalsOf (conversationKey : String) : List PendingApproval :=
  (s.pendingApprovalsByConversation.lookup conversationKey).getD []

def hasPendingApprovals (conversationKey : String) : Bool :=
  (s.pendingApprovalsByConversation.lookup conversationKey).any (· ≠ [])

/-- The approvals with the new one queued, unless its key is queued already. -/
def pushApproval (conversationKey : String) (approval : PendingApproval) : Option PendingApprovals :=
  if approval.requestKey ∈ s.pendingApprovalRequestKeys then none
  else some {
    pendingApprovalsByConversation :=
      s.pendingApprovalsByConversation.insert conversationKey (s.approvalsOf conversationKey ++ [approval])
    pendingApprovalRequestKeys := insert approval.requestKey s.pendingApprovalRequestKeys }

def currentApproval (conversationKey : String) : Option PendingApproval :=
  (s.pendingApprovalsByConversation.lookup conversationKey).bind List.head?

def isCurrentApproval (conversationKey requestKey : String) : Bool :=
  (s.currentApproval conversationKey).any (·.requestKey = requestKey)

/-- The conversation that holds a request key and the place of its approval in the queue. -/
def find? (requestKey : String) : Option (String × Nat) :=
  (s.pendingApprovalsByConversation.findKey? (PendingApproval.inQueue requestKey)).map fun conversationKey =>
    (conversationKey, (s.approvalsOf conversationKey).findIdx (PendingApproval.hasKey requestKey))

def approvalByRequestKeyAnywhere (requestKey : String) : Option (String × PendingApproval) :=
  (s.find? requestKey).bind fun found =>
    (s.approvalsOf found.1)[found.2]?.map fun approval => (found.1, approval)

def rememberApprovalMessageId (requestId : RequestId) (messageId : String) : PendingApprovals :=
  match s.find? (approvalRequestKey requestId) with
  | none => s
  | some found => { s with
      pendingApprovalsByConversation := s.pendingApprovalsByConversation.insert found.1
        ((s.approvalsOf found.1).modify found.2 fun approval =>
          { approval with messageId := some messageId }) }

/-- The table with the conversation's queue replaced; an empty queue is removed. -/
def storeQueue (conversationKey : String) (queue : List PendingApproval) : Table String (List PendingApproval) :=
  if queue = [] then s.pendingApprovalsByConversation.erase conversationKey
  else s.pendingApprovalsByConversation.insert conversationKey queue

def resolveApprovalRequestWithContext (requestId : RequestId) : PendingApprovals × Option ResolvedApproval :=
  let requestKey := approvalRequestKey requestId
  let keys := s.pendingApprovalRequestKeys.erase requestKey
  match s.find? requestKey with
  | none => ({ s with pendingApprovalRequestKeys := keys }, none)
  | some found =>
    let rest := (s.approvalsOf found.1).eraseIdx found.2
    let wasCurrent := found.2 = 0
    (⟨s.storeQueue found.1 rest, keys⟩,
      (s.approvalsOf found.1)[found.2]?.map fun approval =>
        ⟨found.1, approval, wasCurrent, if wasCurrent then rest.head? else none⟩)

/-- The queue of a conversation without what its approvals show and offer. -/
def requestsOf (conversationKey : String) : List ApprovalRequest :=
  (s.approvalsOf conversationKey).map PendingApproval.toApprovalRequest

/-- The key set is that of the queues, a key is queued once, and no queue is empty. -/
structure Sound (s : PendingApprovals) : Prop where
  keys : ∀ key, key ∈ s.pendingApprovalRequestKeys ↔
    ∃ conversationKey, ∃ request ∈ s.requestsOf conversationKey, request.requestKey = key
  once : ∀ conversationKey, ((s.requestsOf conversationKey).map ApprovalRequest.requestKey).Nodup
  apart : ∀ c d, ∀ x ∈ s.requestsOf c, ∀ y ∈ s.requestsOf d, x.requestKey = y.requestKey → c = d
  filled : ∀ conversationKey, s.pendingApprovalsByConversation.lookup conversationKey ≠ some []

variable {s} {t : PendingApprovals} {conversationKey requestKey : String} {approval : PendingApproval}

theorem approvalsOf_of_lookup {queue : List PendingApproval}
    (h : s.pendingApprovalsByConversation.lookup conversationKey = some queue) :
    s.approvalsOf conversationKey = queue := by
  simp [approvalsOf, h]

theorem currentApproval_eq : s.currentApproval conversationKey = (s.approvalsOf conversationKey).head? := by
  unfold currentApproval approvalsOf
  cases s.pendingApprovalsByConversation.lookup conversationKey <;> rfl

theorem hasPendingApprovals_eq_true :
    s.hasPendingApprovals conversationKey = true ↔ s.approvalsOf conversationKey ≠ [] := by
  unfold hasPendingApprovals approvalsOf
  cases s.pendingApprovalsByConversation.lookup conversationKey <;> simp

theorem approvalsOf_insert (queue : List PendingApproval) (keys : Finset String) (c : String) :
    approvalsOf ⟨s.pendingApprovalsByConversation.insert conversationKey queue, keys⟩ c =
      if c = conversationKey then queue else s.approvalsOf c := by
  simp only [approvalsOf, Table.lookup_insert_eq]
  split <;> rfl

theorem approvalsOf_storeQueue (queue : List PendingApproval) (keys : Finset String) (c : String) :
    approvalsOf ⟨s.storeQueue conversationKey queue, keys⟩ c =
      if c = conversationKey then queue else s.approvalsOf c := by
  unfold storeQueue
  split
  next hnil =>
    subst hnil
    simp only [approvalsOf, Table.lookup_erase_eq]
    split <;> rfl
  next => exact approvalsOf_insert queue keys c

theorem find?_eq_none (h : s.find? requestKey = none) (c : String) :
    ∀ x ∈ s.requestsOf c, x.requestKey ≠ requestKey := by
  intro x hx hkey
  obtain ⟨pending, hp, rfl⟩ := mem_map.mp hx
  cases hq : s.pendingApprovalsByConversation.lookup c with
  | none => simp [approvalsOf, hq] at hp
  | some queue =>
    rw [approvalsOf_of_lookup hq] at hp
    have hany : PendingApproval.inQueue requestKey queue = true :=
      any_eq_true.mpr ⟨pending, hp, decide_eq_true hkey⟩
    have hsome := Table.findKey?_isSome.mpr ⟨c, queue, hq, hany⟩
    rw [Option.map_eq_none_iff.mp h] at hsome
    cases hsome

theorem find?_eq_some {index : Nat} (h : s.find? requestKey = some (conversationKey, index)) :
    ∃ before approval after, s.approvalsOf conversationKey = before ++ approval :: after ∧
      before.length = index ∧ approval.requestKey = requestKey := by
  obtain ⟨c, hc, he⟩ := Option.map_eq_some_iff.mp h
  cases he
  obtain ⟨queue, hq, hany⟩ := Table.lookup_of_findKey? hc
  have hlt := findIdx_lt_length_of_exists (any_eq_true.mp hany)
  rw [approvalsOf_of_lookup hq]
  generalize hi : queue.findIdx (PendingApproval.hasKey requestKey) = index at hlt
  refine ⟨queue.take index, queue[index], queue.drop (index + 1), ?_, ?_, ?_⟩
  · rw [← drop_eq_getElem_cons hlt, take_append_drop]
  · exact length_take_of_le (Nat.le_of_lt hlt)
  · subst hi
    have hkey : PendingApproval.hasKey requestKey queue[queue.findIdx (PendingApproval.hasKey requestKey)] = true :=
      findIdx_getElem
    exact of_decide_eq_true hkey

theorem mem_of_currentApproval (h : s.currentApproval conversationKey = some approval) :
    approval ∈ s.approvalsOf conversationKey := by
  rw [currentApproval_eq] at h
  exact mem_of_head? h

theorem approvalByRequestKeyAnywhere_eq_some
    (h : s.approvalByRequestKeyAnywhere requestKey = some (conversationKey, approval)) :
    approval ∈ s.approvalsOf conversationKey ∧ approval.requestKey = requestKey := by
  obtain ⟨⟨c, index⟩, hplace, h⟩ := Option.bind_eq_some_iff.mp h
  obtain ⟨x, hx, he⟩ := Option.map_eq_some_iff.mp h
  cases he
  obtain ⟨before, first, after, hqueue, rfl, hkey⟩ := find?_eq_some hplace
  rw [hqueue, List.getElem?_append_right (Nat.le_refl _), Nat.sub_self] at hx
  cases hx
  exact ⟨by simp [hqueue], hkey⟩

theorem pushApproval_eq_some (h : s.pushApproval conversationKey approval = some t) :
    approval.requestKey ∉ s.pendingApprovalRequestKeys ∧
      t.pendingApprovalRequestKeys = insert approval.requestKey s.pendingApprovalRequestKeys ∧
      ∀ c, t.requestsOf c = if c = conversationKey then
        s.requestsOf conversationKey ++ [approval.toApprovalRequest] else s.requestsOf c := by
  unfold pushApproval at h
  split at h
  next => cases h
  next hnew =>
    cases h
    refine ⟨hnew, rfl, fun c => ?_⟩
    simp only [requestsOf, approvalsOf_insert]
    split <;> simp

variable (requestId : RequestId)

/-- A resolution that finds its key takes one approval out of one queue, and names what stands next when
that approval was the head. -/
theorem resolve_cases :
    (s.find? (approvalRequestKey requestId) = none ∧
        s.resolveApprovalRequestWithContext requestId =
          ({ s with pendingApprovalRequestKeys :=
              s.pendingApprovalRequestKeys.erase (approvalRequestKey requestId) }, none)) ∨
      ∃ conversationKey before approval after t,
        s.approvalsOf conversationKey = before ++ approval :: after ∧
        approval.requestKey = approvalRequestKey requestId ∧
        s.resolveApprovalRequestWithContext requestId =
          (t, some ⟨conversationKey, approval, before = [], if before = [] then after.head? else none⟩) ∧
        ∀ c, t.approvalsOf c = if c = conversationKey then before ++ after else s.approvalsOf c := by
  cases hfind : s.find? (approvalRequestKey requestId) with
  | none =>
    left
    simp [resolveApprovalRequestWithContext, hfind]
  | some found =>
    right
    obtain ⟨conversationKey, index⟩ := found
    obtain ⟨before, approval, after, hqueue, rfl, hkey⟩ := find?_eq_some hfind
    have hrest : (before ++ approval :: after).eraseIdx before.length = before ++ after := by
      simp [eraseIdx_append_of_length_le]
    refine ⟨conversationKey, before, approval, after, _, hqueue, hkey,
      Prod.ext rfl ?_, fun c => ?_⟩
    · simp only [resolveApprovalRequestWithContext, hfind, hqueue, hrest]
      cases before <;> simp
    · simp only [resolveApprovalRequestWithContext, hfind, hqueue, hrest, approvalsOf_storeQueue]

theorem Sound.mem_resolve {c : String} {request : ApprovalRequest} (hs : s.Sound) (requestId : RequestId) :
    request ∈ (s.resolveApprovalRequestWithContext requestId).1.requestsOf c ↔
      request ∈ s.requestsOf c ∧ request.requestKey ≠ approvalRequestKey requestId := by
  rcases resolve_cases (s := s) requestId with ⟨hnone, h⟩ |
    ⟨conversationKey, before, approval, after, t, hqueue, hkey, h, ht⟩
  · rw [h]
    exact ⟨fun hm => ⟨hm, find?_eq_none hnone c request hm⟩, And.left⟩
  rw [h]
  have hmem : approval.toApprovalRequest ∈ s.requestsOf conversationKey := by
    simp [requestsOf, hqueue]
  have honce := hs.once conversationKey
  simp only [requestsOf, hqueue, map_append, map_cons, nodup_append, nodup_cons] at honce
  obtain ⟨-, ⟨hafter, -⟩, hbefore⟩ := honce
  by_cases hc : c = conversationKey
  · subst hc
    simp only [requestsOf, ht, if_pos, hqueue, map_append, map_cons, mem_append, mem_cons]
    constructor
    · rintro (h | h)
      · exact ⟨.inl h, fun he => hbefore _ (mem_map_of_mem h) _ (.head _) (he.trans hkey.symm)⟩
      · exact ⟨.inr (.inr h), fun he => hafter (hkey.trans he.symm ▸ mem_map_of_mem h)⟩
    · rintro ⟨h | rfl | h, hne⟩
      · exact .inl h
      · exact (hne hkey).elim
      · exact .inr h
  · rw [show t.requestsOf c = s.requestsOf c by simp only [requestsOf, ht, if_neg hc]]
    exact ⟨fun h => ⟨h, fun he => hc (hs.apart _ _ _ h _ hmem (he.trans hkey.symm))⟩, And.left⟩

theorem Sound.pushApproval (hs : s.Sound) (h : s.pushApproval conversationKey approval = some t) : t.Sound := by
  obtain ⟨hnew, hkeys, hqueues⟩ := pushApproval_eq_some h
  have hmem : ∀ c request, request ∈ t.requestsOf c ↔
      request ∈ s.requestsOf c ∨ c = conversationKey ∧ request = approval.toApprovalRequest := by
    intro c request
    rw [hqueues]
    split
    next hc => subst hc; simp
    next hc => simp [hc]
  have hfresh : ∀ c, ∀ x ∈ s.requestsOf c, x.requestKey ≠ approval.requestKey :=
    fun c x hx he => hnew ((hs.keys _).mpr ⟨c, x, hx, he⟩)
  refine ⟨fun key => ?_, fun c => ?_, fun c d x hx y hy he => ?_, fun c => ?_⟩
  · rw [hkeys, Finset.mem_insert, hs.keys]
    constructor
    · rintro (rfl | ⟨c, request, hm, hk⟩)
      · exact ⟨conversationKey, _, (hmem _ _).mpr (.inr ⟨rfl, rfl⟩), rfl⟩
      · exact ⟨c, request, (hmem _ _).mpr (.inl hm), hk⟩
    · rintro ⟨c, request, hm, hk⟩
      rcases (hmem _ _).mp hm with hm | ⟨-, rfl⟩
      · exact .inr ⟨c, request, hm, hk⟩
      · exact .inl hk.symm
  · rw [hqueues]
    split
    next hc =>
      rw [map_append, nodup_append]
      refine ⟨hs.once _, nodup_singleton _, fun x hx y hy he => ?_⟩
      obtain ⟨request, hm, rfl⟩ := mem_map.mp hx
      exact hfresh _ request hm (he.trans (mem_singleton.mp hy))
    next => exact hs.once c
  · rcases (hmem _ _).mp hx with hx | ⟨rfl, rfl⟩ <;> rcases (hmem _ _).mp hy with hy | ⟨rfl, rfl⟩
    · exact hs.apart c d x hx y hy he
    · exact (hfresh _ x hx he).elim
    · exact (hfresh _ y hy he.symm).elim
    · rfl
  · unfold PendingApprovals.pushApproval at h
    split at h
    next => cases h
    cases h
    rw [Table.lookup_insert_eq]
    split
    next => simp
    next => exact hs.filled c

section

variable (h : ∀ c, s.pendingApprovalsByConversation.lookup c ≠ some [])
include h

theorem storeQueue_filled (queue : List PendingApproval) (c : String) :
    (s.storeQueue conversationKey queue).lookup c ≠ some [] := by
  unfold storeQueue
  split
  next =>
    rw [Table.lookup_erase_eq]
    split
    next => exact (Option.some_ne_none _).symm
    next => exact h c
  next hne =>
    rw [Table.lookup_insert_eq]
    split
    next => exact fun he => hne (Option.some.inj he)
    next => exact h c

theorem resolve_filled (requestId : RequestId) (c : String) :
    (s.resolveApprovalRequestWithContext requestId).1.pendingApprovalsByConversation.lookup c ≠ some [] := by
  cases hfind : s.find? (approvalRequestKey requestId) with
  | none =>
    simp only [resolveApprovalRequestWithContext, hfind]
    exact h c
  | some found =>
    simp only [resolveApprovalRequestWithContext, hfind]
    exact storeQueue_filled h _ c

end

theorem resolve_keys :
    (s.resolveApprovalRequestWithContext requestId).1.pendingApprovalRequestKeys =
      s.pendingApprovalRequestKeys.erase (approvalRequestKey requestId) := by
  cases hfind : s.find? (approvalRequestKey requestId) <;> simp only [resolveApprovalRequestWithContext, hfind]

theorem resolve_sublist (c : String) :
    List.Sublist ((s.resolveApprovalRequestWithContext requestId).1.requestsOf c) (s.requestsOf c) := by
  rcases resolve_cases (s := s) requestId with ⟨-, h⟩ | ⟨conversationKey, before, approval, after, t, hqueue, -, h, ht⟩
  · rw [h]
    exact List.Sublist.refl _
  rw [h]
  simp only [requestsOf, ht]
  split
  next hc =>
    rw [hc, hqueue]
    exact (List.Sublist.append_left (sublist_cons_self _ _) _).map _
  next => exact List.Sublist.refl _

theorem Sound.resolve (hs : s.Sound) (requestId : RequestId) :
    (s.resolveApprovalRequestWithContext requestId).1.Sound := by
  have hsub := fun c => resolve_sublist (s := s) requestId c
  refine ⟨fun key => ?_, fun c => (hs.once c).sublist ((hsub c).map _),
    fun c d x hx y hy => hs.apart c d x ((hsub c).subset hx) y ((hsub d).subset hy),
    resolve_filled hs.filled requestId⟩
  rw [resolve_keys, Finset.mem_erase, hs.keys]
  constructor
  · rintro ⟨hne, c, request, hm, rfl⟩
    exact ⟨c, request, (hs.mem_resolve requestId).mpr ⟨hm, hne⟩, rfl⟩
  · rintro ⟨c, request, hm, rfl⟩
    obtain ⟨hm, hne⟩ := (hs.mem_resolve requestId).mp hm
    exact ⟨hne, c, request, hm, rfl⟩

@[simp] theorem requestsOf_rememberApprovalMessageId (messageId c : String) :
    (s.rememberApprovalMessageId requestId messageId).requestsOf c = s.requestsOf c := by
  unfold rememberApprovalMessageId
  split
  next => rfl
  next found _ =>
    simp only [requestsOf, approvalsOf_insert]
    split
    next hc =>
      subst hc
      apply ext_getElem?
      intro i
      rw [List.getElem?_map, List.getElem?_map, List.getElem?_modify]
      split <;> cases (s.approvalsOf found.1)[i]? <;> rfl
    next => rfl

theorem Sound.rememberApprovalMessageId (hs : s.Sound) (requestId : RequestId) (messageId : String) :
    (s.rememberApprovalMessageId requestId messageId).Sound := by
  have hkeys : (s.rememberApprovalMessageId requestId messageId).pendingApprovalRequestKeys =
      s.pendingApprovalRequestKeys := by
    unfold PendingApprovals.rememberApprovalMessageId
    split <;> rfl
  refine ⟨?_, ?_, ?_, fun c => ?_⟩
  · simpa only [hkeys, requestsOf_rememberApprovalMessageId] using hs.keys
  · simpa only [requestsOf_rememberApprovalMessageId] using hs.once
  · simpa only [requestsOf_rememberApprovalMessageId] using hs.apart
  · unfold PendingApprovals.rememberApprovalMessageId
    split
    next => exact hs.filled c
    next found hfind =>
      rw [Table.lookup_insert_eq]
      split
      next =>
        obtain ⟨before, approval, after, hqueue, -, -⟩ := find?_eq_some hfind
        intro he
        have hlen := congrArg List.length (Option.some.inj he)
        simp [hqueue] at hlen
      next => exact hs.filled c

theorem Sound.found_unique {found : String × PendingApproval} {request : ApprovalRequest} {c : String}
    (hs : s.Sound) (hfound : s.approvalByRequestKeyAnywhere requestKey = some found)
    (hm : request ∈ s.requestsOf c) (hkey : request.requestKey = requestKey) :
    request = found.2.toApprovalRequest := by
  obtain ⟨d, approval⟩ := found
  obtain ⟨hin, hfirst⟩ := approvalByRequestKeyAnywhere_eq_some hfound
  have hin : approval.toApprovalRequest ∈ s.requestsOf d := mem_map_of_mem hin
  have hsame := hs.apart c d request hm _ hin (hkey.trans hfirst.symm)
  subst hsame
  exact inj_on_of_nodup_map (hs.once _) hm hin (hkey.trans hfirst.symm)

theorem approvalByRequestKeyAnywhere_eq_none (h : s.approvalByRequestKeyAnywhere requestKey = none) (c : String) :
    ∀ x ∈ s.requestsOf c, x.requestKey ≠ requestKey := by
  cases hfind : s.find? requestKey with
  | none => exact find?_eq_none hfind c
  | some place =>
    obtain ⟨before, approval, after, hqueue, hlen, -⟩ := find?_eq_some hfind
    simp [approvalByRequestKeyAnywhere, hfind, hqueue, ← hlen] at h

end PendingApprovals

end MochiPort

import MochiPort.Runs
import MochiPort.WechatRecovery

/-! Where the messages are, and what becomes of the tokens. -/

namespace MochiPort

open List OutboundMessage

inductive WechatPlace where
  | channel
  | worker
  | pending (key : String)
  | replayed (call : Nat)
  | finished
  deriving DecidableEq

def WechatSendStage.lookups : WechatSendStage → List TokenLookup
  | .textSend _ used => [used]
  | .textForget used => [used]
  | .textRetry used => [used]
  | .captionLookup used _ => [used]
  | .captionSend caption used _ => [caption, used]
  | .imageSend used _ => [used]
  | .forget used _ => [used]
  | _ => []

def WechatInboundStage.tickets : WechatInboundStage → List Nat
  | .replay _ => []
  | .enqueue messages => messages.map ticket

namespace WechatDelivery

def holds (s : WechatDelivery) : WechatPlace → List Nat
  | .channel => s.channel.map ticket
  | .worker => (s.worker.map fun held => held.1.ticket).toList
  | .pending key => (s.pendingOutboundByPeer key).map fun pending => pending.message.ticket
  | .replayed call => ((s.inbound.lookup call).map WechatInboundStage.tickets).getD []
  | .finished => s.finished.map Prod.fst

/-- An inbound message has stored its token and is about to take what is pending. -/
def ReplayDue (s : WechatDelivery) (key : String) : Prop := ∃ call, s.inbound.lookup call = some (.replay key)

/-- No token was stored since the failed attempt looked for one, and none was stored and replayed since the message
that is queued was tried; only the last image of a group is queued; a token that cannot be saved finds nothing
pending. -/
def Regular (s : WechatDelivery) : WechatStep → Prop
  | .forget => ∀ held ∈ s.worker, ∀ used ∈ held.2.used, s.storedAt held.1.key ≤ used.lookedAt
  | .queue => ∀ held ∈ s.worker, ∀ queued ∈ held.2.queued,
      queued.2 = [] ∧ (s.storedAt held.1.key ≤ queued.1 ∨ s.ReplayDue held.1.key)
  | .receive _ accountId peerId contextToken saved => saved = true ∨ RustText.trim contextToken = "" ∨
      s.pendingOutboundByPeer (wechatRecoveryKey accountId peerId) = [] ∨
      s.ReplayDue (wechatRecoveryKey accountId peerId)
  | _ => True

instance (s : WechatDelivery) (key : String) : Decidable (s.ReplayDue key) :=
  decidable_of_iff (∃ call ∈ s.inbound.keys, s.inbound.lookup call = some (.replay key))
    ⟨fun ⟨call, _, hcall⟩ => ⟨call, hcall⟩, fun ⟨call, hcall⟩ =>
      ⟨call, AList.mem_keys.mp (AList.lookup_isSome.mp (by rw [hcall]; rfl)), hcall⟩⟩

instance (s : WechatDelivery) (a : WechatStep) : Decidable (s.Regular a) := by
  cases a <;> unfold Regular <;> infer_instance

structure Sound (s : WechatDelivery) : Prop where
  accounted : Whereabouts.Accounted (· < s.submitted) s.holds
  home : ∀ key, ∀ pending ∈ s.pendingOutboundByPeer key, pending.message.key = key
  fresh : ∀ key, ∀ pending ∈ s.pendingOutboundByPeer key, s.storedAt key ≤ pending.triedAt ∨ s.ReplayDue key
  bounded : ∀ message stage, s.worker = some (message, stage) → ∀ l ∈ stage.lookups, l.lookedAt ≤ s.stored
  looked : ∀ message stage, s.worker = some (message, stage) → ∀ l ∈ stage.lookups,
    s.storedAt message.key ≤ l.lookedAt → s.contextTokens message.key = none ∨ s.contextTokens message.key = l.record
  kept : ∀ d ∈ s.discarded, d.record = none ∨ d.record = d.used.record

/-- The worker goes to another stage with its message, or is done with it. -/
def Advances (s : WechatDelivery) (message : OutboundMessage) (known : List TokenLookup) (t : WechatDelivery) : Prop :=
  (∃ stage, t = s.goTo message stage ∧ ∀ l ∈ stage.lookups, l ∈ known ∨ l = s.lookUpToken message) ∨
    ∃ fate, t = s.finish message fate

variable {s t : WechatDelivery} {message : OutboundMessage} {stage : WechatSendStage} {known : List TokenLookup}

theorem advances_goTo (h : ∀ l ∈ stage.lookups, l ∈ known ∨ l = s.lookUpToken message) :
    s.Advances message known (s.goTo message stage) := Or.inl ⟨stage, rfl, h⟩

theorem advances_quiet (h : stage.lookups = []) : s.Advances message known (s.goTo message stage) := by
  apply advances_goTo
  intro _ hl
  rw [h] at hl
  exact absurd hl not_mem_nil

theorem advances_known (h : stage.lookups ⊆ known) : s.Advances message known (s.goTo message stage) :=
  advances_goTo fun _ hl => Or.inl (h hl)

theorem advances_finish (fate : OutboundFate) : s.Advances message known (s.finish message fate) := Or.inr ⟨fate, rfl⟩

theorem sendImages_advances (images : List OutboundImage) (fate : OutboundFate) :
    s.Advances message known (s.sendImages message images fate) := by
  cases images with
  | nil => exact advances_finish fate
  | cons image rest => exact advances_quiet rfl

theorem sendWechatOutbound_advances : s.Advances message known (s.sendWechatOutbound message) := by
  unfold sendWechatOutbound
  cases message.payload with
  | text text | approval text | image image => exact advances_quiet rfl
  | imageGroup images => exact sendImages_advances images .sent

theorem checkAccount_advances (enabled hasApi : Bool) : s.Advances message known (s.checkAccount message enabled hasApi) := by
  unfold checkAccount
  split
  next => exact advances_finish .failed
  next =>
    split
    next => exact advances_quiet rfl
    next => exact advances_quiet rfl

theorem check_advances (h : s.check message stage = some t) : s.Advances message known t := by
  cases stage with
  | checkWaiting =>
    simp only [check] at h
    split at h
    next =>
      split at h
      next => exact Option.some.inj h ▸ sendWechatOutbound_advances
      next => exact Option.some.inj h ▸ advances_quiet rfl
    next => exact Option.some.inj h ▸ advances_quiet rfl
  | checkToken =>
    simp only [check] at h
    split at h
    next =>
      split at h
      next => exact Option.some.inj h ▸ sendWechatOutbound_advances
      next => exact Option.some.inj h ▸ advances_quiet rfl
    next => exact Option.some.inj h ▸ sendWechatOutbound_advances
  | _ => cases h

theorem lookUp_advances (h : s.lookUp message stage = some t) : s.Advances message stage.lookups t := by
  cases stage with
  | textLookup text =>
    refine Option.some.inj h ▸ advances_goTo fun l hl => Or.inr (mem_singleton.mp hl)
  | imageLookup image rest =>
    simp only [lookUp] at h
    split at h
    next => exact Option.some.inj h ▸ advances_goTo fun l hl => Or.inr (mem_singleton.mp hl)
    next => exact Option.some.inj h ▸ advances_goTo fun l hl => Or.inr (mem_singleton.mp hl)
  | captionLookup used rest =>
    refine Option.some.inj h ▸ advances_goTo fun l hl => ?_
    rcases mem_pair.mp hl with rfl | rfl
    · exact Or.inr rfl
    · exact Or.inl (mem_singleton_self l)
  | _ => cases h

theorem send_advances {result : Except String String} (h : s.send message stage result = some t) :
    s.Advances message stage.lookups t := by
  cases stage with
  | textSend text used =>
    cases result with
    | ok id => exact Option.some.inj h ▸ advances_finish .sent
    | error err =>
      simp only [send] at h
      split at h
      next =>
        split at h
        next => exact Option.some.inj h ▸ advances_known (List.Subset.refl _)
        next => exact Option.some.inj h ▸ advances_known (List.Subset.refl _)
      next => exact Option.some.inj h ▸ advances_finish .failed
  | textRetry used =>
    cases result with
    | ok id => exact Option.some.inj h ▸ advances_finish .sent
    | error err =>
      simp only [send] at h
      split at h
      next => exact Option.some.inj h ▸ advances_known (List.Subset.refl _)
      next => exact Option.some.inj h ▸ advances_finish .failed
  | captionSend caption used rest =>
    cases result with
    | ok id => exact Option.some.inj h ▸ advances_known (subset_cons_self caption [used])
    | error err =>
      simp only [send] at h
      split at h
      next =>
        have hfirst : [caption] ⊆ [caption, used] := cons_subset_cons caption (nil_subset _)
        exact Option.some.inj h ▸ advances_known hfirst
      next => exact Option.some.inj h ▸ sendImages_advances rest .failed
  | imageSend used rest =>
    cases result with
    | ok id => exact Option.some.inj h ▸ sendImages_advances rest .sent
    | error err =>
      simp only [send] at h
      split at h
      next => exact Option.some.inj h ▸ advances_known (List.Subset.refl _)
      next => exact Option.some.inj h ▸ sendImages_advances rest .failed
  | _ => cases h

theorem holds_goTo (hworker : s.worker = some (message, stage)) (next : WechatSendStage) :
    (s.goTo message next).holds = s.holds := by
  funext place
  cases place with
  | worker =>
    rw [holds, holds, hworker]
    rfl
  | _ => rfl

theorem holds_finish (hworker : s.worker = some (message, stage)) (fate : OutboundFate) :
    (s.finish message fate).holds = Whereabouts.move s.holds .worker .finished 1 := by
  have hheld : s.holds .worker = [message.ticket] := by
    rw [holds, hworker]
    rfl
  refine Whereabouts.eq_move WechatPlace.noConfusion ?_ ?_ fun place hworker hfinished => ?_
  · rw [hheld]
    rfl
  · rw [hheld]
    exact map_append
  · cases place with
    | worker => exact absurd rfl hworker
    | finished => exact absurd rfl hfinished
    | _ => rfl

section

variable (hs : Sound s) (hworker : s.worker = some (message, stage))
include hs hworker

theorem Sound.advance (h : s.Advances message stage.lookups t) : Sound t := by
  rcases h with ⟨next, rfl, hlookups⟩ | ⟨fate, rfl⟩
  · refine ⟨?_, hs.home, hs.fresh, ?_, ?_, hs.kept⟩
    · rw [holds_goTo hworker]
      exact hs.accounted
    · intro _ _ hnext l hl
      cases hnext
      rcases hlookups l hl with hold | rfl
      · exact hs.bounded message stage hworker l hold
      · exact Nat.le_refl _
    · intro _ _ hnext l hl hle
      cases hnext
      rcases hlookups l hl with hold | rfl
      · exact hs.looked message stage hworker l hold hle
      · exact Or.inr rfl
  · refine ⟨?_, hs.home, hs.fresh, ?_, ?_, hs.kept⟩
    · rw [holds_finish hworker]
      exact hs.accounted.move _ _ _
    · intro _ _ hnone
      cases hnone
    · intro _ _ hnone
      cases hnone

omit hworker in
theorem Sound.submit (route : RouteTarget) (payload : OutboundPayload) :
    Sound { s with
      channel := s.channel ++ [OutboundMessage.mk s.submitted route payload], submitted := s.submitted + 1 } := by
  have hput := hs.accounted.put .channel (Nat.lt_irrefl s.submitted)
  have hknown : (fun ticket => ticket < s.submitted ∨ ticket = s.submitted) = (· < s.submitted + 1) := by
    funext ticket
    exact propext Nat.lt_succ_iff_lt_or_eq.symm
  rw [hknown] at hput
  refine ⟨?_, hs.home, hs.fresh, hs.bounded, hs.looked, hs.kept⟩
  have hholds := @Whereabouts.eq_put _ _ _ s.holds .channel (holds { s with
      channel := s.channel ++ [OutboundMessage.mk s.submitted route payload], submitted := s.submitted + 1 })
    [s.submitted] map_append
  rw [hholds]
  · exact hput
  · intro place hchannel
    cases place with
    | channel => exact absurd rfl hchannel
    | _ => rfl

omit hworker in
theorem Sound.dequeue {rest : List OutboundMessage} (hworker : s.worker = none)
    (hchannel : s.channel = message :: rest) :
    Sound { s with channel := rest, worker := some (message, .channelEnabled) } := by
  refine ⟨?_, hs.home, hs.fresh, ?_, ?_, hs.kept⟩
  · have hqueued : s.holds .channel = message.ticket :: rest.map ticket := by
      rw [holds, hchannel]
      rfl
    have hfree : s.holds .worker = [] := by
      rw [holds, hworker]
      rfl
    refine @Whereabouts.Accounted.of_move _ _ _ s.holds .channel .worker _ _ 1 hs.accounted
      WechatPlace.noConfusion ?_ ?_ fun place hfrom hto => ?_
    · rw [hqueued]
      rfl
    · rw [hqueued, hfree]
      rfl
    · cases place with
      | channel => exact absurd rfl hfrom
      | worker => exact absurd rfl hto
      | _ => rfl
  · intro _ _ hnext l hl
    cases hnext
    exact absurd hl not_mem_nil
  · intro _ _ hnext l hl
    cases hnext
    exact absurd hl not_mem_nil

theorem Sound.forgetContextToken {used : TokenLookup}
    (hused : used ∈ stage.lookups) (hregular : s.storedAt message.key ≤ used.lookedAt) {next : WechatSendStage}
    (hnext : ∀ l ∈ next.lookups, l.lookedAt ≤ s.stored) :
    Sound ((s.forgetContextToken message used).goTo message next) := by
  have hkept : s.contextTokens message.key = none ∨ s.contextTokens message.key = used.record :=
    hs.looked message stage hworker used hused hregular
  refine ⟨?_, hs.home, hs.fresh, ?_, ?_, ?_⟩
  · have hholds : ((s.forgetContextToken message used).goTo message next).holds = s.holds := by
      funext place
      cases place with
      | worker =>
        rw [holds, holds, hworker]
        rfl
      | _ => rfl
    rw [hholds]
    exact hs.accounted
  · intro _ _ hstage l hl
    cases hstage
    exact hnext l hl
  · intro _ _ hstage l hl _
    cases hstage
    exact Or.inl (Function.update_self ..)
  · intro d hd
    rcases mem_append.mp hd with hd | hd
    · exact hs.kept d hd
    · rw [mem_singleton.mp hd]
      exact hkept

theorem Sound.forget (hregular : ∀ used ∈ stage.used, s.storedAt message.key ≤ used.lookedAt)
    (h : s.forget message stage = some t) : Sound t := by
  cases stage with
  | textForget used =>
    refine Option.some.inj h ▸ hs.forgetContextToken hworker (mem_singleton_self used) (hregular used rfl) ?_
    intro l hl
    rw [mem_singleton.mp hl]
  | forget used rest =>
    refine Option.some.inj h ▸ hs.forgetContextToken hworker (mem_singleton_self used) (hregular used rfl) ?_
    exact fun l hl => absurd hl not_mem_nil
  | _ => cases h

theorem Sound.queue (hregular : ∀ queued ∈ stage.queued,
      queued.2 = [] ∧ (s.storedAt message.key ≤ queued.1 ∨ s.ReplayDue message.key))
    (h : s.queueWechatPendingOutbound message stage = some t) : Sound t := by
  cases stage with
  | queue triedAt rest =>
    obtain ⟨hlast, hfresh⟩ := hregular (triedAt, rest) rfl
    cases hlast
    cases Option.some.inj h
    have hheld : s.holds .worker = [message.ticket] := by
      rw [holds, hworker]
      rfl
    refine ⟨?_, ?_, ?_, ?_, ?_, hs.kept⟩
    · refine @Whereabouts.Accounted.of_move _ _ _ s.holds .worker (.pending message.key) _ _ 1 hs.accounted
        WechatPlace.noConfusion ?_ ?_ ?_
      · rw [hheld]
        rfl
      · rw [hheld]
        simp only [holds, Function.update_self, map_append]
        rfl
      · intro place hfrom hto
        cases place with
        | worker => exact absurd rfl hfrom
        | pending key =>
          have hkey : key ≠ message.key := fun heq => hto (heq ▸ rfl)
          simp only [holds, Function.update_of_ne hkey]
        | _ => rfl
    · intro key pending hpending
      by_cases hkey : key = message.key
      · subst hkey
        dsimp only at hpending
        rw [Function.update_self] at hpending
        rcases mem_append.mp hpending with hold | hnew
        · exact hs.home _ pending hold
        · rw [mem_singleton.mp hnew]
      · dsimp only at hpending
        rw [Function.update_of_ne hkey] at hpending
        exact hs.home key pending hpending
    · intro key pending hpending
      by_cases hkey : key = message.key
      · subst hkey
        dsimp only at hpending
        rw [Function.update_self] at hpending
        rcases mem_append.mp hpending with hold | hnew
        · exact hs.fresh _ pending hold
        · rw [mem_singleton.mp hnew]
          exact hfresh
      · dsimp only at hpending
        rw [Function.update_of_ne hkey] at hpending
        exact hs.fresh key pending hpending
    · intro _ _ hnone
      cases hnone
    · intro _ _ hnone
      cases hnone
  | _ => cases h

end

variable {call : Nat}

theorem Sound.receive (hs : Sound s) (hcall : s.inbound.lookup call = none) {accountId peerId contextToken : String}
    {saved : Bool} (hregular : saved = true ∨ RustText.trim contextToken = "" ∨
      s.pendingOutboundByPeer (wechatRecoveryKey accountId peerId) = [] ∨
      s.ReplayDue (wechatRecoveryKey accountId peerId)) :
    Sound (s.receive call accountId peerId contextToken saved) := by
  have hdue : ∀ key, s.ReplayDue key → ∃ other,
      (s.inbound.insert call (.replay (wechatRecoveryKey accountId peerId))).lookup other = some (.replay key) := by
    rintro key ⟨other, hother⟩
    have hne : other ≠ call := by
      rintro rfl
      rw [hcall] at hother
      cases hother
    exact ⟨other, by rw [AList.lookup_insert_ne hne, hother]⟩
  have htickets : ∀ other, (((s.inbound.insert call (.replay (wechatRecoveryKey accountId peerId))).lookup other).map
      WechatInboundStage.tickets).getD [] = s.holds (.replayed other) := by
    intro other
    rw [holds]
    by_cases heq : other = call
    · subst heq
      rw [AList.lookup_insert, hcall]
      rfl
    · rw [AList.lookup_insert_ne heq]
  have hholds : ∀ t : WechatDelivery, t.channel = s.channel → t.worker = s.worker →
      t.pendingOutboundByPeer = s.pendingOutboundByPeer → t.finished = s.finished →
      (∀ other, t.holds (.replayed other) = s.holds (.replayed other)) → t.holds = s.holds := by
    intro t hchannel hworker hpending hfinished hreplayed
    funext place
    cases place with
    | channel => rw [holds, holds, hchannel]
    | worker => rw [holds, holds, hworker]
    | pending key => rw [holds, holds, hpending]
    | replayed other => exact hreplayed other
    | finished => rw [holds, holds, hfinished]
  unfold WechatDelivery.receive
  dsimp only
  split
  next =>
    refine ⟨?_, hs.home, fun key pending hpending => ?_, hs.bounded, hs.looked, hs.kept⟩
    · rw [hholds { s with inbound := s.inbound.insert call (.replay (wechatRecoveryKey accountId peerId)) }
        rfl rfl rfl rfl htickets]
      exact hs.accounted
    · exact (hs.fresh key pending hpending).imp_right (hdue key)
  next htoken =>
    refine ⟨?_, hs.home, fun key pending hpending => ?_, fun message stage hworker l hl => ?_,
      fun message stage hworker l hl hle => ?_, hs.kept⟩
    · rw [hholds]
      · exact hs.accounted
      · rfl
      · rfl
      · rfl
      · rfl
      · cases saved with
        | false => exact fun _ => rfl
        | true => exact htickets
    · dsimp only
      by_cases hkey : key = wechatRecoveryKey accountId peerId
      · subst hkey
        cases saved with
        | true => exact Or.inr ⟨call, AList.lookup_insert _⟩
        | false =>
          rcases hregular with hsaved | hblank | hnone | hreplay
          · cases hsaved
          · exact absurd hblank htoken
          · dsimp only at hpending
            rw [hnone] at hpending
            exact absurd hpending not_mem_nil
          · exact Or.inr hreplay
      · have hother : key ≠ contextTokenKey accountId peerId := hkey
        rw [Function.update_of_ne hother]
        refine (hs.fresh key pending hpending).imp_right fun h => ?_
        cases saved with
        | false => exact h
        | true => exact hdue key h
    · exact Nat.le_succ_of_le (hs.bounded message stage hworker l hl)
    · dsimp only at hle ⊢
      have hbound := hs.bounded message stage hworker l hl
      by_cases hkey : message.key = contextTokenKey accountId peerId
      · rw [hkey, Function.update_self] at hle
        omega
      · rw [Function.update_of_ne hkey] at hle ⊢
        exact hs.looked message stage hworker l hl hle

theorem replay_pending (s : WechatDelivery) (call : Nat) (key : String) :
    (s.replay call key).pendingOutboundByPeer = Function.update s.pendingOutboundByPeer key [] := rfl

theorem replay_inbound (s : WechatDelivery) (call : Nat) (key : String) : (s.replay call key).inbound =
    s.inbound.insert call (.enqueue ((s.pendingOutboundByPeer key).map PendingOutbound.message)) := rfl

theorem Sound.replay (hs : Sound s) {key : String} (hcall : s.inbound.lookup call = some (.replay key)) :
    Sound (s.replay call key) := by
  have hempty : s.holds (.replayed call) = [] := by
    rw [holds, hcall]
    rfl
  refine ⟨?_, fun other pending hpending => ?_, fun other pending hpending => ?_, hs.bounded, hs.looked, hs.kept⟩
  · refine @Whereabouts.Accounted.of_move _ _ _ s.holds (.pending key) (.replayed call) _ _
      (s.holds (.pending key)).length hs.accounted WechatPlace.noConfusion ?_ ?_ fun place hfrom hto => ?_
    · rw [drop_length, holds, replay_pending, Function.update_self]
      rfl
    · rw [take_length, hempty, holds, holds, replay_inbound, AList.lookup_insert]
      exact map_map
    · cases place with
      | pending other =>
        have hne : other ≠ key := fun heq => hfrom (heq ▸ rfl)
        rw [holds, holds, replay_pending, Function.update_of_ne hne]
      | replayed other =>
        have hne : other ≠ call := fun heq => hto (heq ▸ rfl)
        rw [holds, holds, replay_inbound, AList.lookup_insert_ne hne]
      | _ => rfl
  · by_cases hkey : other = key
    · subst hkey
      rw [replay_pending, Function.update_self] at hpending
      exact absurd hpending not_mem_nil
    · rw [replay_pending, Function.update_of_ne hkey] at hpending
      exact hs.home other pending hpending
  · by_cases hkey : other = key
    · subst hkey
      rw [replay_pending, Function.update_self] at hpending
      exact absurd hpending not_mem_nil
    · rw [replay_pending, Function.update_of_ne hkey] at hpending
      refine (hs.fresh other pending hpending).imp_right ?_
      rintro ⟨due, hdue⟩
      have hne : due ≠ call := by
        rintro rfl
        rw [hcall] at hdue
        cases hdue
        exact hkey rfl
      exact ⟨due, by rw [replay_inbound, AList.lookup_insert_ne hne, hdue]⟩

theorem Sound.enqueue (hs : Sound s) {rest : List OutboundMessage}
    (hcall : s.inbound.lookup call = some (.enqueue (message :: rest))) :
    Sound { s with channel := s.channel ++ [message], inbound := s.inbound.insert call (.enqueue rest) } := by
  have hheld : s.holds (.replayed call) = message.ticket :: rest.map ticket := by
    rw [holds, hcall]
    rfl
  refine ⟨?_, hs.home, fun key pending hpending => ?_, hs.bounded, hs.looked, hs.kept⟩
  · refine @Whereabouts.Accounted.of_move _ _ _ s.holds (.replayed call) .channel _ _ 1 hs.accounted
      WechatPlace.noConfusion ?_ ?_ fun place hfrom hto => ?_
    · rw [hheld, holds, AList.lookup_insert]
      rfl
    · rw [hheld]
      exact map_append
    · cases place with
      | channel => exact absurd rfl hto
      | replayed other =>
        have hne : other ≠ call := fun heq => hfrom (heq ▸ rfl)
        rw [holds, holds, AList.lookup_insert_ne hne]
      | _ => rfl
  · refine (hs.fresh key pending hpending).imp_right ?_
    rintro ⟨due, hdue⟩
    have hne : due ≠ call := by
      rintro rfl
      rw [hcall] at hdue
      cases hdue
    exact ⟨due, by rw [AList.lookup_insert_ne hne, hdue]⟩

theorem Sound.endReplay (hs : Sound s) (hcall : s.inbound.lookup call = some (.enqueue [])) :
    Sound { s with inbound := s.inbound.erase call } := by
  refine ⟨?_, hs.home, fun key pending hpending => ?_, hs.bounded, hs.looked, hs.kept⟩
  · have hholds : holds { s with inbound := s.inbound.erase call } = s.holds := by
      funext place
      cases place with
      | replayed other =>
        rw [holds, holds]
        by_cases heq : other = call
        · subst heq
          rw [AList.lookup_erase, hcall]
          rfl
        · rw [AList.lookup_erase_ne heq]
      | _ => rfl
    rw [hholds]
    exact hs.accounted
  · refine (hs.fresh key pending hpending).imp_right ?_
    rintro ⟨due, hdue⟩
    have hne : due ≠ call := by
      rintro rfl
      rw [hcall] at hdue
      cases hdue
    exact ⟨due, by rw [AList.lookup_erase_ne hne, hdue]⟩

theorem Sound.step (hs : Sound s) {a : WechatStep} (hregular : s.Regular a) (h : s.step a = some t) : Sound t := by
  cases a with
  | submit route payload =>
    cases Option.some.inj h
    exact hs.submit route payload
  | dequeue =>
    simp only [WechatDelivery.step] at h
    split at h
    next message rest hworker hchannel =>
      cases Option.some.inj h
      exact hs.dequeue hworker hchannel
    next => cases h
  | checkAccount enabled hasApi =>
    simp only [WechatDelivery.step] at h
    split at h
    next message hworker =>
      cases Option.some.inj h
      exact hs.advance hworker (checkAccount_advances enabled hasApi)
    next => cases h
  | otherSent fate =>
    simp only [WechatDelivery.step] at h
    split at h
    next message hworker =>
      cases Option.some.inj h
      exact hs.advance hworker (advances_finish fate)
    next => cases h
  | check =>
    obtain ⟨⟨message, stage⟩, hworker, h⟩ := Option.bind_eq_some_iff.mp h
    exact hs.advance hworker (check_advances h)
  | lookUp =>
    obtain ⟨⟨message, stage⟩, hworker, h⟩ := Option.bind_eq_some_iff.mp h
    exact hs.advance hworker (lookUp_advances h)
  | send result =>
    obtain ⟨⟨message, stage⟩, hworker, h⟩ := Option.bind_eq_some_iff.mp h
    exact hs.advance hworker (send_advances h)
  | forget =>
    obtain ⟨⟨message, stage⟩, hworker, h⟩ := Option.bind_eq_some_iff.mp h
    exact hs.forget hworker (hregular (message, stage) hworker) h
  | queue =>
    obtain ⟨⟨message, stage⟩, hworker, h⟩ := Option.bind_eq_some_iff.mp h
    exact hs.queue hworker (hregular (message, stage) hworker) h
  | receive call accountId peerId contextToken saved =>
    simp only [WechatDelivery.step] at h
    split at h
    next hcall =>
      cases Option.some.inj h
      exact hs.receive hcall hregular
    next => cases h
  | replay call =>
    simp only [WechatDelivery.step] at h
    split at h
    next key hcall =>
      cases Option.some.inj h
      exact hs.replay hcall
    next => cases h
  | enqueue call =>
    simp only [WechatDelivery.step] at h
    split at h
    next message rest hcall =>
      cases Option.some.inj h
      exact hs.enqueue hcall
    next hcall =>
      cases Option.some.inj h
      exact hs.endReplay hcall
    next => cases h

theorem sound_start (restored : String → Option String) : Sound (start restored) := by
  have hnowhere : ∀ place ticket, ticket ∉ (start restored).holds place := by
    intro place ticket
    cases place with
    | _ => exact not_mem_nil
  refine ⟨⟨fun place => ?_, fun place _ ticket hticket => ?_, fun ticket => ?_⟩, fun _ _ h => ?_, fun _ _ h => ?_,
    fun _ _ h => ?_, fun _ _ h => ?_, fun _ h => ?_⟩
  · rw [eq_nil_iff_forall_not_mem.mpr (hnowhere place)]
    exact nodup_nil
  · exact absurd hticket (hnowhere place ticket)
  · exact iff_of_false (Nat.not_lt_zero ticket) fun ⟨place, hticket⟩ => hnowhere place ticket hticket
  · exact absurd h not_mem_nil
  · exact absurd h not_mem_nil
  · cases h
  · cases h
  · exact absurd h not_mem_nil

/-- What is promised of the recovery: each message is at one place, no token is discarded that the failed attempt had
not used, and no message waits for a token that has come. -/
structure Recovers (s : WechatDelivery) : Prop where
  placed : ∀ ticket < s.submitted, ∃! place, ticket ∈ s.holds place
  once : ∀ place, (s.holds place).Nodup
  home : ∀ key, ∀ pending ∈ s.pendingOutboundByPeer key, pending.message.key = key
  kept : ∀ d ∈ s.discarded, d.record = none ∨ d.record = d.used.record
  awake : s.worker = none → ∀ key, ∀ pending ∈ s.pendingOutboundByPeer key,
    s.storedAt key ≤ pending.triedAt ∨ s.ReplayDue key

theorem Sound.recovers (hs : Sound s) : Recovers s :=
  ⟨fun _ hticket => hs.accounted.existsUnique hticket, hs.accounted.nodup, hs.home, hs.kept, fun _ => hs.fresh⟩

theorem wechat_recovery {restored : String → Option String} {steps : List WechatStep}
    (hregular : Runs.Meets step Regular (start restored) steps) (h : Runs.run step (start restored) steps = some s) :
    Recovers s := by
  have hsound := Runs.run_invariant_of_meets Sound (fun s a t hs hguard hstep => hs.step hguard hstep)
    (sound_start restored) hregular h
  exact hsound.recovers

section Runs

def peerRoute : RouteTarget := ⟨.wechat, "wechat:a:p", "a", "p", "wechat-a-p"⟩

/-- An image is refused for lack of a token, comes back with the first token, and is sent. -/
def refusedImage : List WechatStep :=
  [.submit peerRoute (.image ⟨"i.png", none, none⟩), .dequeue, .checkAccount true true, .check, .check, .queue,
    .receive 0 "a" "p" "t" true, .replay 0, .enqueue 0, .enqueue 0, .dequeue, .checkAccount true true, .check, .check, .lookUp,
    .send (.ok "m")]

/-- While an image is sent with the first token, the second one is stored and replayed; then the attempt fails. -/
def overtakenImage : List WechatStep :=
  [.receive 0 "a" "p" "t" true, .replay 0, .enqueue 0, .submit peerRoute (.image ⟨"i.png", none, none⟩), .dequeue,
    .checkAccount true true, .check, .check, .lookUp, .receive 1 "a" "p" "u" true, .replay 1, .enqueue 1,
    .send (.error "ret=-2"), .forget, .queue]

def failedGroup : List WechatStep :=
  [.receive 0 "a" "p" "t" true, .replay 0, .enqueue 0,
    .submit peerRoute (.imageGroup [⟨"i.png", none, none⟩, ⟨"j.png", none, none⟩]), .dequeue, .checkAccount true true, .check,
    .check, .lookUp, .send (.error "ret=-2"), .forget, .queue, .lookUp, .send (.error "ret=-2"), .forget, .queue]

theorem wechat_recovery_refused :
    ∃ s, Runs.run step (start fun _ => none) refusedImage = some s ∧ s.finished = [(0, .sent)] ∧ Recovers s := by
  have hregular : Runs.Meets step Regular (start fun _ => none) refusedImage := by decide +kernel
  have hrun : (Runs.run step (start fun _ => none) refusedImage).map finished = some [(0, .sent)] := by decide +kernel
  obtain ⟨s, hs, hfinished⟩ := Option.map_eq_some_iff.mp hrun
  exact ⟨s, hs, hfinished, wechat_recovery hregular hs⟩

/-- The token of an inbound message is discarded because of the one before it, and the image waits for a token that
has come; a group of which two images fail is pending twice. -/
theorem overtaken_token_discarded :
    ((Runs.run step (start fun _ => none) overtakenImage).map fun s => s.discarded.map fun d => (d.record, d.used)) =
        some [(some ⟨"u", 2⟩, ⟨some ⟨"t", 1⟩, 1⟩)] ∧
      ((Runs.run step (start fun _ => none) overtakenImage).map fun s => (s.worker.isNone, s.inbound.keys)) =
        some (true, []) ∧
      ((Runs.run step (start fun _ => none) overtakenImage).map fun s =>
        ((s.pendingOutboundByPeer "a:p").map PendingOutbound.triedAt, s.storedAt "a:p")) = some ([1], 2) ∧
      ((Runs.run step (start fun _ => none) failedGroup).map fun s => s.holds (.pending "a:p")) = some [0, 0] := by
  decide +kernel

end Runs

end WechatDelivery

end MochiPort

import MochiPort.GatewayRouting
import MochiPort.Runs

namespace MochiPort

/-- Something that happened to a route or a session. -/
inductive RoutingNote where
  | succeeded (routeId : String)
  | failed (routeId : String)
  | bound (sessionId routeId : String)
  deriving DecidableEq

abbrev RoutingLog := List (Nat × RoutingNote)

namespace RoutingLog

/-- The times of the failures of a route since it last succeeded. -/
def failures (routeId : String) : RoutingLog → List Nat
  | [] => []
  | (time, .failed other) :: log => if other = routeId then time :: failures routeId log else failures routeId log
  | (_, .succeeded other) :: log => if other = routeId then [] else failures routeId log
  | (_, .bound ..) :: log => failures routeId log

/-- The last failure of at least three in a row is not thirty seconds past. -/
def Blacklisted (log : RoutingLog) (routeId : String) (now : Nat) : Prop :=
  failureThreshold ≤ (log.failures routeId).length ∧ ∃ time, (log.failures routeId).head? = some time ∧ now < time + cooldown

/-- The route that a session was last bound to, and when. -/
def lastBinding (sessionId : String) : RoutingLog → Option SessionBinding
  | [] => none
  | (time, .bound other routeId) :: log => if other = sessionId then some ⟨routeId, time⟩ else lastBinding sessionId log
  | _ :: log => lastBinding sessionId log

/-- The route that a session is bound to, if that is not thirty minutes past. -/
def binding (log : RoutingLog) (sessionId : String) (now : Nat) : Option String :=
  ((log.lastBinding sessionId).filter fun binding => now - binding.lastUsed ≤ bindingTtl).map SessionBinding.routeId

end RoutingLog

inductive RoutingEvent where
  | recordSuccess (routeId : String)
  | recordFailure (routeId : String)
  | bind (sessionId routeId : String)
  | evictStale
  | resolve (model : String) (sessionId : Option String) (config : AiGatewayConfig) (required : Option ProviderType)

def RoutingEvent.session : RoutingEvent → Option String
  | .bind sessionId _ => some sessionId
  | .resolve _ sessionId .. => normalizedSession sessionId
  | _ => none

def resolveProvider (sha256 : List UInt8 → Vector UInt8 32) (model : String) (sessionId : Option String)
    (config : AiGatewayConfig) (required : Option ProviderType) (state : GatewayRoutingState) (now : Nat) :
    Except GatewayError (ProviderConfig × String) × GatewayRoutingState :=
  match required with
  | some providerType => resolveProviderWithStateForType sha256 model sessionId config state now providerType
  | none => resolveProviderWithState sha256 model sessionId config state now

structure RoutingSystem where
  now : Nat
  state : GatewayRoutingState
  log : RoutingLog

namespace RoutingSystem

def start : RoutingSystem := ⟨0, .empty, []⟩

/-- The routing state after an event, and what happened. -/
def apply (sha256 : List UInt8 → Vector UInt8 32) (s : RoutingSystem) (now : Nat) :
    RoutingEvent → GatewayRoutingState × Option RoutingNote
  | .recordSuccess routeId => (s.state.recordSuccess routeId, some (.succeeded routeId))
  | .recordFailure routeId => (s.state.recordFailure routeId now, some (.failed routeId))
  | .bind sessionId routeId => (s.state.bind sessionId routeId now, some (.bound sessionId routeId))
  | .evictStale => (s.state.evictStale now, none)
  | .resolve model sessionId config required =>
    match resolveProvider sha256 model sessionId config required s.state now with
    | (.ok (_, routeId), state) => (state, (normalizedSession sessionId).map fun sid => .bound sid routeId)
    | (.error _, state) => (state, none)

def step (sha256 : List UInt8 → Vector UInt8 32) (s : RoutingSystem) (e : Nat × RoutingEvent) : Option RoutingSystem :=
  if s.now ≤ e.1 then
    let (state, note) := s.apply sha256 e.1 e.2
    some ⟨e.1, state, (note.map fun note => (e.1, note)).toList ++ s.log⟩
  else none

end RoutingSystem

structure HealthOf (entry : ProviderHealth) (failures : List Nat) : Prop where
  count : entry.consecutiveFailures = min failures.length u32Max
  blacklisted : entry.blacklistedUntil =
    if failureThreshold ≤ failures.length then failures.head?.map (· + cooldown) else none

/-- The state knows what has happened, but for bindings that are too old. -/
structure Tracks (s : RoutingSystem) : Prop where
  health : ∀ routeId, HealthOf ((s.state.health.lookup routeId).getD ⟨0, none⟩) (s.log.failures routeId)
  kept : ∀ sid b, s.state.bindings.lookup sid = some b → s.log.lastBinding sid = some b
  known : ∀ sid b, s.log.lastBinding sid = some b →
    b.lastUsed ≤ s.now ∧ (s.state.bindings.lookup sid = some b ∨ bindingTtl < s.now - b.lastUsed)

section

variable {s s' : RoutingSystem} {sha256 : List UInt8 → Vector UInt8 32} {now : Nat}

theorem HealthOf.failed {entry : ProviderHealth} {failures : List Nat} (h : HealthOf entry failures) (now : Nat) :
    HealthOf ⟨min (entry.consecutiveFailures + 1) u32Max,
      if failureThreshold ≤ min (entry.consecutiveFailures + 1) u32Max then some (now + cooldown)
      else entry.blacklistedUntil⟩ (now :: failures) := by
  obtain ⟨hcount, huntil⟩ := h
  have hmax : failureThreshold ≤ u32Max := by decide
  have hnext : min (entry.consecutiveFailures + 1) u32Max = min (now :: failures).length u32Max := by
    rw [hcount, List.length_cons]
    omega
  rw [hnext]
  refine ⟨rfl, ?_⟩
  by_cases h : failureThreshold ≤ (now :: failures).length
  · rw [if_pos h, if_pos (Nat.le_min.mpr ⟨h, hmax⟩)]
    rfl
  · have hbefore : ¬ failureThreshold ≤ failures.length := by
      omega
    rw [if_neg (fun hc => h (Nat.le_min.mp hc).1), if_neg h, huntil, if_neg hbefore]

theorem HealthOf.blacklisted_iff {entry : ProviderHealth} {failures : List Nat} (h : HealthOf entry failures)
    (now : Nat) : entry.blacklistedUntil.any (fun deadline => now < deadline) = true ↔
      failureThreshold ≤ failures.length ∧ ∃ time, failures.head? = some time ∧ now < time + cooldown := by
  rw [h.blacklisted]
  by_cases hreached : failureThreshold ≤ failures.length
  · rw [if_pos hreached, and_iff_right hreached]
    cases failures.head? with
    | none => exact iff_of_false (fun h => nomatch h) (fun ⟨_, h, _⟩ => nomatch h)
    | some time =>
      rw [Option.map_some, Option.any_some, decide_eq_true_iff]
      constructor
      · intro hlt
        exact ⟨time, rfl, hlt⟩
      · rintro ⟨time', heq, hlt⟩
        rwa [Option.some.inj heq]
  · rw [if_neg hreached]
    exact iff_of_false (fun h => nomatch h) (fun h => hreached h.1)

section

variable (h : Tracks s)
include h

theorem Tracks.isBlacklisted (routeId : String) (now : Nat) :
    s.state.isBlacklisted routeId now = true ↔ s.log.Blacklisted routeId now := by
  have hiff := (h.health routeId).blacklisted_iff now
  have huntil : (s.state.health.lookup routeId).bind ProviderHealth.blacklistedUntil =
      ((s.state.health.lookup routeId).getD ⟨0, none⟩).blacklistedUntil := by
    cases s.state.health.lookup routeId with
    | none | some entry => rfl
  unfold GatewayRoutingState.isBlacklisted
  rw [huntil]
  exact hiff

theorem Tracks.bindingFor (sid : String) (hnow : s.now ≤ now) : s.state.bindingFor sid now = s.log.binding sid now := by
  unfold GatewayRoutingState.bindingFor RoutingLog.binding
  cases hlast : s.log.lastBinding sid with
  | none =>
    cases hfound : s.state.bindings.lookup sid with
    | none => rfl
    | some b =>
      rw [h.kept sid b hfound] at hlast
      cases hlast
  | some b =>
    obtain ⟨hpast, hfound | hold⟩ := h.known sid b hlast
    · rw [hfound]
    · cases hfound : s.state.bindings.lookup sid with
      | some b' =>
        rw [h.kept sid b' hfound] at hlast
        rw [hlast]
      | none =>
        have hstale : ¬ now - b.lastUsed ≤ bindingTtl := by omega
        rw [Option.filter_some, decide_eq_false hstale]
        rfl

omit h in
theorem tracks_start : Tracks .start :=
  ⟨fun _ => ⟨rfl, rfl⟩, fun _ _ h => (nomatch h), fun _ _ h => (nomatch h)⟩

theorem Tracks.later (hnow : s.now ≤ now) : Tracks ⟨now, s.state, s.log⟩ := by
  refine ⟨h.health, h.kept, fun sid b hlast => ?_⟩
  obtain ⟨hpast, hfound⟩ := h.known sid b hlast
  refine ⟨hpast.trans hnow, hfound.imp_right fun hold => ?_⟩
  dsimp only
  omega

theorem Tracks.recordSuccess (routeId : String) :
    Tracks ⟨s.now, s.state.recordSuccess routeId, (s.now, .succeeded routeId) :: s.log⟩ := by
  obtain ⟨hhealth, hkept, hknown⟩ := h
  have hbindings : (s.state.recordSuccess routeId).bindings = s.state.bindings := by
    unfold GatewayRoutingState.recordSuccess
    split
    next => rfl
    next => rfl
  refine ⟨fun other => ?_, fun sid b hb => hkept sid b (by rwa [hbindings] at hb), fun sid b hb => ?_⟩
  · unfold RoutingLog.failures
    by_cases hroute : routeId = other
    · subst hroute
      rw [if_pos rfl]
      unfold GatewayRoutingState.recordSuccess
      split
      next =>
        rw [AList.lookup_insert]
        exact ⟨rfl, rfl⟩
      next hnone =>
        rw [hnone]
        exact ⟨rfl, rfl⟩
    · rw [if_neg hroute]
      have hother : (s.state.recordSuccess routeId).health.lookup other = s.state.health.lookup other := by
        unfold GatewayRoutingState.recordSuccess
        split
        next => exact AList.lookup_insert_ne (Ne.symm hroute)
        next => rfl
      rw [hother]
      exact hhealth other
  · rw [hbindings]
    exact hknown sid b hb

theorem Tracks.recordFailure (routeId : String) :
    Tracks ⟨s.now, s.state.recordFailure routeId s.now, (s.now, .failed routeId) :: s.log⟩ := by
  obtain ⟨hhealth, hkept, hknown⟩ := h
  refine ⟨fun other => ?_, hkept, hknown⟩
  unfold RoutingLog.failures GatewayRoutingState.recordFailure
  by_cases hroute : routeId = other
  · subst hroute
    rw [if_pos rfl, AList.lookup_insert]
    exact (hhealth routeId).failed s.now
  · rw [if_neg hroute, AList.lookup_insert_ne (Ne.symm hroute)]
    exact hhealth other

theorem Tracks.bind (sessionId routeId : String) :
    Tracks ⟨s.now, s.state.bind sessionId routeId s.now, (s.now, .bound sessionId routeId) :: s.log⟩ := by
  obtain ⟨hhealth, hkept, hknown⟩ := h
  refine ⟨hhealth, fun sid b hb => ?_, fun sid b hb => ?_⟩
  · unfold RoutingLog.lastBinding
    rcases Table.of_lookup_insert hb with ⟨rfl, rfl⟩ | ⟨hne, hb⟩
    · exact if_pos rfl
    · rw [if_neg (Ne.symm hne)]
      exact hkept sid b hb
  · unfold RoutingLog.lastBinding at hb
    by_cases hsid : sessionId = sid
    · rw [if_pos hsid] at hb
      rw [← Option.some.inj hb, ← hsid]
      exact ⟨Nat.le_refl _, .inl (AList.lookup_insert _)⟩
    · rw [if_neg hsid] at hb
      obtain ⟨hpast, hfound⟩ := hknown sid b hb
      refine ⟨hpast, hfound.imp_left fun hfound => ?_⟩
      exact (AList.lookup_insert_ne (Ne.symm hsid)).trans hfound

theorem Tracks.evictStale : Tracks ⟨s.now, s.state.evictStale s.now, s.log⟩ := by
  obtain ⟨hhealth, hkept, hknown⟩ := h
  refine ⟨hhealth, fun sid b hb => hkept sid b (Table.of_lookup_retain hb), fun sid b hb => ?_⟩
  obtain ⟨hpast, hfound | hold⟩ := hknown sid b hb
  · refine ⟨hpast, ?_⟩
    by_cases hstale : s.now - b.lastUsed ≤ bindingTtl
    · refine .inl ((Table.lookup_retain _ _ _).trans ?_)
      rw [hfound, Option.filter_some, decide_eq_true hstale]
      rfl
    · exact .inr (Nat.lt_of_not_le hstale)
  · exact ⟨hpast, .inr hold⟩

end

end

end MochiPort

import MochiPort.RoutingLog

namespace MochiPort

open Option ProviderConfig RoutingSystem

def ProviderConfig.hasType (required : Option ProviderType) (provider : ProviderConfig) : Bool :=
  required.all fun providerType => provider.providerType = providerType

def AiGatewayConfig.candidates (config : AiGatewayConfig) (model : String) (accepts : ProviderConfig → Bool) :
    List ProviderConfig :=
  config.providers.filter fun provider => provider.enabled && provider.matchesModel model && accepts provider

/-- The owner of the model first, then the route of the session, then the greatest weight; a route that is
blacklisted only if all are. -/
structure Selects (blacklisted : String → Prop) (bound : Option String) (owner : Option ProviderConfig)
    (candidates : List ProviderConfig) (selected : ProviderConfig) : Prop where
  candidate : selected ∈ candidates
  healthy : (∃ c ∈ candidates, ¬ blacklisted (providerRouteId c)) → ¬ blacklisted (providerRouteId selected)
  owned : ∀ o, owner = some o → o ∈ candidates → ¬ blacklisted (providerRouteId o) → selected = o
  sticky : (∀ o, owner = some o → o ∈ candidates → blacklisted (providerRouteId o)) →
    ∀ c ∈ candidates, bound = some (providerRouteId c) → ¬ blacklisted (providerRouteId c) →
      providerRouteId selected = providerRouteId c
  weight : (∀ o, owner = some o → o ∈ candidates → blacklisted (providerRouteId o)) →
    (∀ c ∈ candidates, bound = some (providerRouteId c) → blacklisted (providerRouteId c)) →
    ∀ c ∈ candidates, (¬ blacklisted (providerRouteId c) ∨ ∀ c ∈ candidates, blacklisted (providerRouteId c)) →
      c.effectiveWeight ≤ selected.effectiveWeight

section

variable {blacklisted : String → Prop} {bound : Option String} {owner : Option ProviderConfig}
  {candidates : List ProviderConfig} {selected : ProviderConfig}

theorem Selects.of_owner (howner : owner = some selected) (hmem : selected ∈ candidates)
    (hfree : ¬ blacklisted (providerRouteId selected)) : Selects blacklisted bound owner candidates selected := by
  refine ⟨hmem, fun _ => hfree, fun o ho _ _ => ?_, fun hbusy => ?_, fun hbusy => ?_⟩
  · exact Option.some.inj (howner.symm.trans ho)
  · exact absurd (hbusy selected howner hmem) hfree
  · exact absurd (hbusy selected howner hmem) hfree

section

variable (hbusy : ∀ o, owner = some o → o ∈ candidates → blacklisted (providerRouteId o))
include hbusy

theorem Selects.of_bound (hmem : selected ∈ candidates) (hfree : ¬ blacklisted (providerRouteId selected))
    (hbound : bound = some (providerRouteId selected)) : Selects blacklisted bound owner candidates selected := by
  refine ⟨hmem, fun _ => hfree, fun o ho hmem' hfree' => ?_, fun _ c _ hc _ => ?_, fun _ hunbound => ?_⟩
  · exact absurd (hbusy o ho hmem') hfree'
  · exact Option.some.inj (hbound.symm.trans hc)
  · exact absurd (hunbound selected hmem hbound) hfree

theorem Selects.of_weight
    (hunbound : ∀ c ∈ candidates, bound = some (providerRouteId c) → blacklisted (providerRouteId c))
    (hmem : selected ∈ candidates)
    (hhealthy : (∃ c ∈ candidates, ¬ blacklisted (providerRouteId c)) → ¬ blacklisted (providerRouteId selected))
    (hweight : ∀ c ∈ candidates, (¬ blacklisted (providerRouteId c) ∨
      ∀ c ∈ candidates, blacklisted (providerRouteId c)) → c.effectiveWeight ≤ selected.effectiveWeight) :
    Selects blacklisted bound owner candidates selected := by
  refine ⟨hmem, hhealthy, fun o ho hmem' hfree => ?_, fun _ c hc hcbound hfree => ?_, fun _ _ => hweight⟩
  · exact absurd (hbusy o ho hmem') hfree
  · exact absurd (hunbound c hc hcbound) hfree

end

end

section

variable {sha256 : List UInt8 → Vector UInt8 32} {model : String} {sessionId : Option String}
  {config : AiGatewayConfig} {state : GatewayRoutingState} {now : Nat} {accepts : ProviderConfig → Bool}
  {required : Option ProviderType} {provider : ProviderConfig} {pool : List ProviderConfig}

theorem resolveProvider_eq (required : Option ProviderType) :
    resolveProvider sha256 model sessionId config required state now =
      resolveProviderWithStateMatching sha256 model sessionId config state now (hasType required) := by
  cases required with
  | none | some providerType => rfl

theorem mem_candidates : provider ∈ config.candidates model accepts ↔
    provider ∈ config.providers ∧ provider.enabled = true ∧ provider.matchesModel model = true ∧
      accepts provider = true := by
  unfold AiGatewayConfig.candidates
  rw [List.mem_filter, Bool.and_eq_true, Bool.and_eq_true, and_assoc]

theorem normalizedSession_eq_some {sid : String} :
    normalizedSession sessionId = some sid ↔ sid ≠ "" ∧ ∃ id, sessionId = some id ∧ RustText.trim id = sid := by
  simp [normalizedSession, filter_eq_some_iff, and_comm]

theorem effectiveModelOwner_spec (h : config.effectiveModelOwner model = some provider) :
    provider ∈ config.providers ∧ provider.enabled = true ∧ provider.matchesModel model = true ∧
      config.modelOwner model = some provider.name := by
  obtain ⟨owner, howner, hfound⟩ := bind_eq_some_iff.mp h
  have hfits := List.find?_some hfound
  rw [Bool.and_eq_true, Bool.and_eq_true, decide_eq_true_eq] at hfits
  obtain ⟨⟨rfl, henabled⟩, hmatches⟩ := hfits
  exact ⟨List.mem_of_find?_eq_some hfound, henabled, hmatches, howner⟩

theorem effectiveModelOwner_eq_none : config.effectiveModelOwner model = none ↔
    ∀ p ∈ config.providers, p.enabled = true → p.matchesModel model = true →
      config.modelOwner model ≠ some p.name := by
  unfold AiGatewayConfig.effectiveModelOwner
  cases config.modelOwner model with
  | none => simp
  | some owner =>
    simp only [bind_some, List.find?_eq_none, Bool.and_eq_true, decide_eq_true_eq, ne_eq, Option.some.injEq]
    exact forall₂_congr fun p _ =>
      ⟨fun h he hm ho => h ⟨⟨ho.symm, he⟩, hm⟩, fun h hall => h hall.1.2 hall.2 hall.1.1.symm⟩

/-- The owner is that of the first entry for the model, without regard to case and blanks. -/
theorem modelOwner_spec {owner : String} (h : config.modelOwner model = some owner) :
    owner ≠ "" ∧ ∃ entry ∈ config.modelOwners, RustText.trim entry.2 = owner ∧
      RustText.eqIgnoreAsciiCase (RustText.trim entry.1) (RustText.trim model) = true := by
  unfold AiGatewayConfig.modelOwner at h
  dsimp only at h
  split at h
  next => cases h
  next =>
    obtain ⟨hfound, hne⟩ := filter_eq_some_iff.mp h
    obtain ⟨entry, hentry, rfl⟩ := map_eq_some_iff.mp hfound
    have hsame := List.find?_some hentry
    exact ⟨of_decide_eq_true hne, entry, List.mem_of_find?_eq_some hentry, rfl, hsame⟩

variable (model config accepts provider) in
theorem owner_mem_candidates (h : config.effectiveModelOwner model = some provider) :
    provider ∈ config.candidates model accepts ↔ accepts provider = true := by
  obtain ⟨hmem, henabled, hmatches, -⟩ := effectiveModelOwner_spec h
  rw [mem_candidates]
  exact ⟨fun h => h.2.2.2, fun h => ⟨hmem, henabled, hmatches, h⟩⟩

theorem selectByPriority_spec (h : selectByPriority sha256 pool sessionId = some provider) :
    provider ∈ pool ∧ ∀ c ∈ pool, c.effectiveWeight ≤ provider.effectiveWeight := by
  have hrefines : LastMaximum.Refines (compareProviders sha256 (normalizedSession sessionId))
      effectiveWeight := LastMaximum.refines_then effectiveWeight _
  exact ⟨LastMaximum.mem_of_lastMax h, hrefines.le_lastMax h⟩

variable (sha256 sessionId) in
theorem selectByPriority_exists (hpool : pool ≠ []) :
    ∃ provider, selectByPriority sha256 pool sessionId = some provider := by
  cases h : selectByPriority sha256 pool sessionId with
  | none => exact absurd (LastMaximum.lastMax_eq_none.mp h) hpool
  | some provider => exact ⟨provider, rfl⟩

theorem resolve_cases (sha256 : List UInt8 → Vector UInt8 32) (model : String) (sessionId : Option String)
    (config : AiGatewayConfig) (state : GatewayRoutingState) (now : Nat) (accepts : ProviderConfig → Bool) :
    config.candidates model accepts = [] ∧
        resolveProviderWithStateMatching sha256 model sessionId config state now accepts =
          (.error (.invalidModel model), state) ∨
      ∃ selected, Selects (fun routeId => state.isBlacklisted routeId now = true)
          ((normalizedSession sessionId).bind fun sid => state.bindingFor sid now) (config.effectiveModelOwner model)
          (config.candidates model accepts) selected ∧
        resolveProviderWithStateMatching sha256 model sessionId config state now accepts =
          (.ok (selected, providerRouteId selected),
            state.bindSession (normalizedSession sessionId) (providerRouteId selected) now) := by
  unfold resolveProviderWithStateMatching
  have howner := fun o => owner_mem_candidates model config accepts o
  have hcandidates : (config.providers.filter fun provider =>
    provider.enabled && provider.matchesModel model && accepts provider) = config.candidates model accepts := rfl
  rw [hcandidates]
  generalize config.candidates model accepts = candidates at howner hcandidates ⊢
  generalize config.effectiveModelOwner model = owner at howner ⊢
  dsimp only
  by_cases hnone : candidates = []
  · exact .inl ⟨hnone, by rw [if_pos hnone]⟩
  refine .inr ?_
  rw [if_neg hnone]
  generalize hbusy : owner.filter (fun o => accepts o && !state.isBlacklisted (providerRouteId o) now) = free
  cases free with
  | some o =>
    obtain ⟨ho, hfits⟩ := filter_eq_some_iff.mp hbusy
    rw [Bool.and_eq_true, Bool.not_eq_true'] at hfits
    refine ⟨o, Selects.of_owner ho ((howner o ho).mpr hfits.1) ?_, rfl⟩
    rw [hfits.2]
    exact Bool.false_ne_true
  | none =>
    have hbusy : ∀ o, owner = some o → o ∈ candidates → state.isBlacklisted (providerRouteId o) now = true := by
      intro o ho hmem
      have hfits := filter_eq_none_iff.mp hbusy o ho
      rw [(howner o ho).mp hmem, Bool.true_and, Bool.not_eq_true', Bool.not_eq_false] at hfits
      exact hfits
    have hmemHealthy : ∀ c, c ∈ candidates.filter (fun c => !state.isBlacklisted (providerRouteId c) now) ↔
        c ∈ candidates ∧ ¬ state.isBlacklisted (providerRouteId c) now = true := by
      intro c
      rw [List.mem_filter, Bool.not_eq_true', Bool.not_eq_true]
    generalize candidates.filter (fun c => !state.isBlacklisted (providerRouteId c) now) = healthy at hmemHealthy ⊢
    generalize (normalizedSession sessionId).bind (fun sid => state.bindingFor sid now) = bound
    cases hfound : bound.bind fun bound =>
        (healthy.find? fun provider => providerRouteId provider = bound).map fun provider => (provider, bound) with
    | some found =>
      obtain ⟨route, hroute, hfound⟩ := bind_eq_some_iff.mp hfound
      obtain ⟨selected, hselected, rfl⟩ := map_eq_some_iff.mp hfound
      have hfits := List.find?_some hselected
      have hsame : providerRouteId selected = route := of_decide_eq_true hfits
      obtain ⟨hmem, hfree⟩ := (hmemHealthy selected).mp (List.mem_of_find?_eq_some hselected)
      refine ⟨selected, Selects.of_bound hbusy hmem hfree (by rw [hsame, hroute]), ?_⟩
      rw [hsame]
    | none =>
      have hunbound : ∀ c ∈ candidates, bound = some (providerRouteId c) →
          state.isBlacklisted (providerRouteId c) now = true := by
        intro c hc hbound
        by_contra hfree
        have hnotfound := bind_eq_none_iff.mp hfound _ hbound
        rw [map_eq_none_iff, List.find?_eq_none] at hnotfound
        exact hnotfound c ((hmemHealthy c).mpr ⟨hc, hfree⟩) (decide_eq_true rfl)
      have hpool : (if healthy = [] then candidates else healthy) ≠ [] := by
        split
        next => exact hnone
        next h => exact h
      obtain ⟨selected, hselected⟩ := selectByPriority_exists sha256 (normalizedSession sessionId) hpool
      obtain ⟨hmem, hweight⟩ := selectByPriority_spec hselected
      rw [hselected]
      refine ⟨selected, ?_, rfl⟩
      by_cases hall : healthy = []
      · rw [if_pos hall] at hmem hweight
        refine Selects.of_weight hbusy hunbound hmem ?_ fun c hc _ => hweight c hc
        rintro ⟨c, hc, hfree⟩
        have hmem' := (hmemHealthy c).mpr ⟨hc, hfree⟩
        rw [hall] at hmem'
        cases hmem'
      · rw [if_neg hall] at hmem hweight
        obtain ⟨hcandidate, hfree⟩ := (hmemHealthy selected).mp hmem
        refine Selects.of_weight hbusy hunbound hcandidate (fun _ => hfree) ?_
        rintro c hc (hfree' | hblacklisted)
        · exact hweight c ((hmemHealthy c).mpr ⟨hc, hfree'⟩)
        · exact absurd (hblacklisted selected hcandidate) hfree

theorem resolve_again {state' : GatewayRoutingState} {now' : Nat} {selected : ProviderConfig} {routeId : String}
    (h : (resolveProviderWithStateMatching sha256 model sessionId config state now accepts).1 =
      .ok (selected, routeId)) (hsame : ∀ c ∈ config.candidates model accepts,
      state'.isBlacklisted (providerRouteId c) now' = state.isBlacklisted (providerRouteId c) now)
    (hbound : (normalizedSession sessionId).bind (fun sid => state'.bindingFor sid now') = some routeId) :
    ∃ selected', (resolveProviderWithStateMatching sha256 model sessionId config state' now' accepts).1 =
      .ok (selected', routeId) := by
  unfold resolveProviderWithStateMatching at h ⊢
  have howner : (config.effectiveModelOwner model).filter
        (fun o => accepts o && !state'.isBlacklisted (providerRouteId o) now') =
      (config.effectiveModelOwner model).filter
        (fun o => accepts o && !state.isBlacklisted (providerRouteId o) now) := by
    cases ho : config.effectiveModelOwner model with
    | none => rfl
    | some o =>
      cases haccepts : accepts o with
      | false => simp [filter_some, haccepts]
      | true => rw [filter_some, filter_some, hsame o ((owner_mem_candidates model config accepts o ho).mpr haccepts)]
  have hcandidates : (config.providers.filter fun provider =>
    provider.enabled && provider.matchesModel model && accepts provider) = config.candidates model accepts := rfl
  rw [hcandidates] at h ⊢
  generalize config.candidates model accepts = candidates at hsame h ⊢
  have hhealthy : candidates.filter (fun c => !state'.isBlacklisted (providerRouteId c) now') =
      candidates.filter (fun c => !state.isBlacklisted (providerRouteId c) now) :=
    List.filter_congr fun c hc => congrArg Bool.not (hsame c hc)
  dsimp only at h ⊢
  rw [howner, hhealthy, hbound]
  generalize (config.effectiveModelOwner model).filter
    (fun o => accepts o && !state.isBlacklisted (providerRouteId o) now) = free at h ⊢
  by_cases hnone : candidates = []
  · rw [if_pos hnone] at h
    cases h
  rw [if_neg hnone] at h ⊢
  cases free with
  | some o =>
    cases h
    exact ⟨selected, rfl⟩
  | none =>
    rw [bind_some]
    generalize candidates.filter (fun c => !state.isBlacklisted (providerRouteId c) now) = healthy at h ⊢
    generalize (normalizedSession sessionId).bind (fun sid => state.bindingFor sid now) = bound at h
    cases hfind : healthy.find? fun provider => providerRouteId provider = routeId with
    | some selected' => exact ⟨selected', rfl⟩
    | none =>
      -- the first time it was not found either, so the same pool was searched for the greatest weight
      cases hfound : bound.bind fun bound =>
          (healthy.find? fun provider => providerRouteId provider = bound).map fun provider => (provider, bound) with
      | some found =>
        obtain ⟨route, _, hfound'⟩ := bind_eq_some_iff.mp hfound
        obtain ⟨selected', hselected, rfl⟩ := map_eq_some_iff.mp hfound'
        rw [hfound] at h
        cases h
        rw [hfind] at hselected
        cases hselected
      | none =>
        rw [hfound] at h
        generalize selectByPriority sha256 (if healthy = [] then candidates else healthy)
          (normalizedSession sessionId) = best at h ⊢
        cases best with
        | none => cases h
        | some best =>
          cases h
          exact ⟨selected, rfl⟩

end

section

variable {sha256 : List UInt8 → Vector UInt8 32} {s t : RoutingSystem} {e : Nat × RoutingEvent} {sid : String}
  {events : List (Nat × RoutingEvent)} {model : String} {sessionId : Option String} {config : AiGatewayConfig}
  {required : Option ProviderType}

theorem hasType_iff {provider : ProviderConfig} : provider.hasType required = true ↔
    ∀ providerType, required = some providerType → provider.providerType = providerType := by
  unfold hasType
  rw [all_eq_true]
  constructor
  · intro h providerType heq
    exact of_decide_eq_true (h providerType heq)
  · intro h providerType heq
    exact decide_eq_true (h providerType heq)

theorem apply_resolve (sha256 : List UInt8 → Vector UInt8 32) (s : RoutingSystem) (now : Nat) (model : String)
    (sessionId : Option String) (config : AiGatewayConfig) (required : Option ProviderType) :
    s.apply sha256 now (.resolve model sessionId config required) = (s.state, none) ∨
      ∃ routeId, s.apply sha256 now (.resolve model sessionId config required) =
        (s.state.bindSession (normalizedSession sessionId) routeId now,
          (normalizedSession sessionId).map fun sid => .bound sid routeId) := by
  unfold apply
  dsimp only
  rw [resolveProvider_eq]
  rcases resolve_cases sha256 model sessionId config s.state now (hasType required) with
    ⟨_, heq⟩ | ⟨selected, _, heq⟩
  · rw [heq]
    exact .inl rfl
  · rw [heq]
    exact .inr ⟨providerRouteId selected, rfl⟩

theorem step_cases (h : step sha256 s e = some t) :
    s.now ≤ e.1 ∧ t = ⟨e.1, (s.apply sha256 e.1 e.2).1,
      ((s.apply sha256 e.1 e.2).2.map fun note => (e.1, note)).toList ++ s.log⟩ := by
  unfold step at h
  split at h
  next hnow => exact ⟨hnow, (Option.some.inj h).symm⟩
  next => cases h

theorem Tracks.step (hs : Tracks s) (h : step sha256 s e = some t) : Tracks t := by
  obtain ⟨hnow, rfl⟩ := step_cases h
  have hlater := hs.later hnow
  obtain ⟨now, event⟩ := e
  cases event with
  | recordSuccess routeId => exact hlater.recordSuccess routeId
  | recordFailure routeId => exact hlater.recordFailure routeId
  | bind sessionId routeId => exact hlater.bind sessionId routeId
  | evictStale => exact hlater.evictStale
  | resolve model sessionId config required =>
    rcases apply_resolve sha256 s now model sessionId config required with heq | ⟨routeId, heq⟩
    · rw [heq]
      exact hlater
    · rw [heq]
      cases normalizedSession sessionId with
      | none => exact hlater
      | some sid => exact hlater.bind sid routeId

theorem Tracks.run (hs : Tracks s) (h : Runs.run (RoutingSystem.step sha256) s events = some t) : Tracks t :=
  Runs.run_invariant Tracks (fun _ _ _ hs hstep => hs.step hstep) hs h

theorem step_lastBinding (h : step sha256 s e = some t) (hsession : e.2.session ≠ some sid) :
    t.log.lastBinding sid = s.log.lastBinding sid := by
  obtain ⟨_, rfl⟩ := step_cases h
  obtain ⟨now, event⟩ := e
  have hbound : ∀ other routeId, other ≠ sid →
      RoutingLog.lastBinding sid ((now, .bound other routeId) :: s.log) = s.log.lastBinding sid :=
    fun other routeId hne => if_neg hne
  cases event with
  | recordSuccess routeId | recordFailure routeId | evictStale => rfl
  | bind sessionId routeId => exact hbound sessionId routeId fun heq => hsession (congrArg some heq)
  | resolve model sessionId config required =>
    rcases apply_resolve sha256 s now model sessionId config required with heq | ⟨routeId, heq⟩
    · rw [heq]
      rfl
    · rw [heq]
      unfold RoutingEvent.session at hsession
      dsimp only at hsession ⊢
      cases hother : normalizedSession sessionId with
      | none => rfl
      | some other =>
        rw [hother] at hsession
        exact hbound other routeId fun heq => hsession (congrArg some heq)

theorem run_lastBinding (h : Runs.run (step sha256) s events = some t)
    (hsession : ∀ e ∈ events, e.2.session ≠ some sid) : t.log.lastBinding sid = s.log.lastBinding sid := by
  induction events generalizing s with
  | nil =>
    cases Option.some.inj h
    rfl
  | cons e events ih =>
    obtain ⟨u, hu, h⟩ := Runs.run_cons_eq_some.mp h
    rw [ih h fun e' he' => hsession e' (List.mem_cons_of_mem e he'), step_lastBinding hu (hsession e List.mem_cons_self)]

theorem Tracks.resolve_cases (hs : Tracks s) (sha256 : List UInt8 → Vector UInt8 32) {now : Nat} (hnow : s.now ≤ now)
    (model : String) (sessionId : Option String) (config : AiGatewayConfig) (accepts : ProviderConfig → Bool) :
    config.candidates model accepts = [] ∧
        resolveProviderWithStateMatching sha256 model sessionId config s.state now accepts =
          (.error (.invalidModel model), s.state) ∨
      ∃ selected, Selects (fun routeId => s.log.Blacklisted routeId now)
          ((normalizedSession sessionId).bind fun sid => s.log.binding sid now) (config.effectiveModelOwner model)
          (config.candidates model accepts) selected ∧
        resolveProviderWithStateMatching sha256 model sessionId config s.state now accepts =
          (.ok (selected, providerRouteId selected),
            s.state.bindSession (normalizedSession sessionId) (providerRouteId selected) now) := by
  have hblacklisted : (fun routeId => s.log.Blacklisted routeId now) =
      fun routeId => s.state.isBlacklisted routeId now = true := by
    funext routeId
    exact propext (hs.isBlacklisted routeId now).symm
  have hbinding : (fun sid => s.log.binding sid now) = fun sid => s.state.bindingFor sid now := by
    funext sid
    exact (hs.bindingFor sid hnow).symm
  rw [hblacklisted, hbinding]
  exact MochiPort.resolve_cases sha256 model sessionId config s.state now accepts

/-- What a resolution gives after any events, and after any others again. -/
theorem provider_routing (sha256 : List UInt8 → Vector UInt8 32) (history : List (Nat × RoutingEvent))
    (s : RoutingSystem) (hrun : Runs.run (RoutingSystem.step sha256) .start history = some s) (now : Nat)
    (hnow : s.now ≤ now) (model : String) (sessionId : Option String) (config : AiGatewayConfig)
    (required : Option ProviderType) :
    ((∃ e, (resolveProvider sha256 model sessionId config required s.state now).1 = .error e) ↔
      ¬ ∃ p ∈ config.providers, p.enabled = true ∧ p.matchesModel model = true ∧
        ∀ providerType, required = some providerType → p.providerType = providerType) ∧
    ∀ selected routeId, (resolveProvider sha256 model sessionId config required s.state now).1 = .ok (selected, routeId) →
      routeId = providerRouteId selected ∧
      (selected ∈ config.providers ∧ selected.enabled = true ∧ selected.matchesModel model = true ∧
        ∀ providerType, required = some providerType → selected.providerType = providerType) ∧
      Selects (fun routeId => s.log.Blacklisted routeId now)
        ((normalizedSession sessionId).bind fun sid => s.log.binding sid now) (config.effectiveModelOwner model)
        (config.candidates model (hasType required)) selected ∧
      ∀ sid, normalizedSession sessionId = some sid →
        (resolveProvider sha256 model sessionId config required s.state now).2.bindingFor sid now = some routeId ∧
        ∀ between t later,
          Runs.run (RoutingSystem.step sha256) s ((now, .resolve model sessionId config required) :: between) = some t →
          (∀ e ∈ between, e.2.session ≠ some sid) → t.now ≤ later → later - now ≤ bindingTtl →
          (∀ c ∈ config.candidates model (hasType required),
            (t.log.Blacklisted (providerRouteId c) later ↔ s.log.Blacklisted (providerRouteId c) now)) →
          ∃ selected', (resolveProvider sha256 model sessionId config required t.state later).1 =
            .ok (selected', routeId) := by
  have hs := tracks_start.run hrun
  have hcases := hs.resolve_cases sha256 hnow model sessionId config (hasType required)
  rw [resolveProvider_eq]
  have hcandidate : ∀ p, p ∈ config.candidates model (hasType required) ↔
      p ∈ config.providers ∧ p.enabled = true ∧ p.matchesModel model = true ∧
        ∀ providerType, required = some providerType → p.providerType = providerType := by
    intro p
    rw [mem_candidates, hasType_iff]
  constructor
  · rcases hcases with ⟨hnone, heq⟩ | ⟨selected, hselects, heq⟩
    · refine iff_of_true ⟨_, congrArg Prod.fst heq⟩ ?_
      rintro ⟨p, hp⟩
      have hmem := (hcandidate p).mpr hp
      rw [hnone] at hmem
      cases hmem
    · refine iff_of_false ?_ fun hno => hno ⟨selected, (hcandidate selected).mp hselects.candidate⟩
      rintro ⟨e, he⟩
      rw [heq] at he
      cases he
  · intro selected routeId hok
    rcases hcases with ⟨_, heq⟩ | ⟨selected', hselects, heq⟩
    · rw [heq] at hok
      cases hok
    have hagain := hok
    rw [heq] at hok
    cases hok
    refine ⟨rfl, (hcandidate selected).mp hselects.candidate, hselects, ?_⟩
    intro sid hsid
    have hbinds : (s.state.bindSession (normalizedSession sessionId) (providerRouteId selected) now).bindings.lookup sid =
        some ⟨providerRouteId selected, now⟩ := by
      rw [hsid]
      exact AList.lookup_insert _
    constructor
    · rw [heq]
      unfold GatewayRoutingState.bindingFor
      have hnow : now - now ≤ bindingTtl := by omega
      rw [hbinds, filter_some, decide_eq_true hnow]
      rfl
    intro between t later hafter hothers hlater hfresh hhealth
    have ht := hs.run hafter
    obtain ⟨u, hu, hrest⟩ := Runs.run_cons_eq_some.mp hafter
    have hbinding : t.log.lastBinding sid = some ⟨providerRouteId selected, now⟩ := by
      rw [run_lastBinding hrest hothers]
      obtain ⟨_, rfl⟩ := step_cases hu
      unfold RoutingSystem.apply
      dsimp only
      rw [resolveProvider_eq, heq]
      rw [hsid]
      exact if_pos rfl
    rw [resolveProvider_eq]
    refine resolve_again hagain (fun c hc => ?_) ?_
    · have hiff := hhealth c hc
      rw [← ht.isBlacklisted, ← hs.isBlacklisted] at hiff
      exact Bool.eq_iff_iff.mpr hiff
    · rw [hsid, bind_some, ht.bindingFor sid hlater, RoutingLog.binding, hbinding, filter_some, decide_eq_true hfresh]
      rfl

end

def plainHash : List UInt8 → Vector UInt8 32 := fun _ => Vector.replicate 32 0

def twoProviders : AiGatewayConfig where
  providers := [{ name := "openai", models := ["m"] }, { name := "deepseek", models := ["m"], weight := 99 }]
  modelOwners := [("M", "deepseek")]

def ownerFailures : List (Nat × RoutingEvent) :=
  [(1, .recordFailure "deepseek\x00openai_responses\x00"), (2, .recordFailure "deepseek\x00openai_responses\x00"),
    (3, .recordFailure "deepseek\x00openai_responses\x00")]

def afterFailures : RoutingSystem := (Runs.run (step plainHash) .start ownerFailures).getD .start

/-- After three failures of its owner a model is routed to the other provider, and when the cooldown is over to its
owner again. -/
theorem provider_routing_failures :
    ∃ other owner, twoProviders.effectiveModelOwner "m" = some owner ∧ other ≠ owner ∧
      (resolveProvider plainHash "m" (some "s1") twoProviders none afterFailures.state 4).1 =
        .ok (other, "openai\x00openai_responses\x00") ∧
      (resolveProvider plainHash "m" (some "s1") twoProviders none afterFailures.state (3 + cooldown)).1 =
        .ok (owner, "deepseek\x00openai_responses\x00") ∧
      ∀ now selected, (now, selected) ∈ [(4, other), (3 + cooldown, owner)] →
        Selects (fun routeId => afterFailures.log.Blacklisted routeId now)
          ((normalizedSession (some "s1")).bind fun sid => afterFailures.log.binding sid now)
          (twoProviders.effectiveModelOwner "m") (twoProviders.candidates "m" (hasType none)) selected := by
  have hother : (resolveProvider plainHash "m" (some "s1") twoProviders none afterFailures.state 4).1 =
      .ok ({ name := "openai", models := ["m"] }, "openai\x00openai_responses\x00") := by rfl
  have howner : (resolveProvider plainHash "m" (some "s1") twoProviders none afterFailures.state (3 + cooldown)).1 =
      .ok ({ name := "deepseek", models := ["m"], weight := 99 }, "deepseek\x00openai_responses\x00") := by rfl
  refine ⟨_, _, rfl, by decide, hother, howner, fun now selected hmem => ?_⟩
  have hrouting := fun hnow => (provider_routing plainHash ownerFailures afterFailures rfl now hnow "m" (some "s1")
    twoProviders none).2 selected
  rcases List.mem_cons.mp hmem with hmem | hmem
  · cases hmem
    exact (hrouting (by decide) _ hother).2.2.1
  · cases List.mem_singleton.mp hmem
    exact (hrouting (by decide) _ howner).2.2.1

end MochiPort

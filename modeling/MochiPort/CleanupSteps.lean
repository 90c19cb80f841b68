import MochiPort.CleanupSound

namespace MochiPort

open CleanupStage Table TelegramTopicBindingState

variable {generation nextToken spawned calls : Nat} {bindings : Table String String} {states : TopicStates}
  {registrations : CleanupRegistrations} {workers : Table Nat CleanupWorker} {gates : Table String GateHolder}
  {requests : Table Nat CleanupRequest} {requested processed : List Cleanup} {binding : Option BindOperation}
  {registration : TelegramTopicCleanupRegistration} {n : Nat} {worker : CleanupWorker} {request : CleanupRequest}
  {cleanup : Cleanup} {key : String}

/-! The bridge generation. -/

variable {later : Nat}

theorem Staffed.nextGeneration (hs : Staffed generation registrations nextToken workers spawned)
    (hlater : generation ≤ later) : Staffed later registrations nextToken workers spawned where
  numbered := hs.numbered
  issued := hs.issued
  unique := hs.unique
  staffed := hs.staffed
  current hn := (hs.current hn).trans hlater
  replaced hn hlive hlost := (hs.replaced hn hlive hlost).trans_le hlater
  single := hs.single

theorem Gated.nextGeneration (hg : Gated generation registrations workers gates requests calls)
    (hlater : generation ≤ later) : Gated later registrations workers gates requests calls where
  numbered := hg.numbered
  held := hg.held
  topic := hg.topic
  current hn hpassed := (hg.current hn hpassed).trans hlater
  registered := hg.registered

theorem Settled.nextGeneration (hd : Settled generation bindings states registrations workers requested processed)
    (hlater : generation ≤ later) : Settled later bindings states registrations workers requested processed where
  current cleanup hmem := (hd.current cleanup hmem).trans hlater
  revision := hd.revision
  kept cleanup hmem hout := by
    obtain ⟨hgeneration, hbound, hstate⟩ := hout
    have hcurrent := hd.current cleanup hmem
    have hsame : generation = cleanup.lifecycleGeneration := by omega
    exact hd.kept cleanup hmem ⟨hsame, hbound, hstate⟩
  finishing := hd.finishing

/-! The lifecycles, while no bind is under way. -/

theorem Fitting.rewritten (hf : Fitting bindings states registrations workers none) {next : TopicStates}
    (hnext : Rewritten states next) : Fitting bindings next registrations workers none where
  paired := hf.paired.evolves hnext And.left
  topic := hf.topic
  revision := by
    intro key registration found hregistration hfound
    obtain ⟨before, hbefore, rfl | hnewer⟩ := hnext.of_some hfound
    · exact hf.revision hregistration hbefore
    · exact (hf.revision hregistration hbefore).trans hnewer.revision_le
  thread := by
    intro key registration found n worker hregistration hfound hn htoken
    obtain ⟨before, hbefore, rfl | hnewer⟩ := hnext.of_some hfound
    · exact hf.thread hregistration hbefore hn htoken
    · exact hnewer.1.trans (hf.thread hregistration hbefore hn htoken)
  admitted h := nomatch h

theorem Settled.rewritten (hd : Settled generation bindings states registrations workers requested processed)
    {next : TopicStates} (hnext : Rewritten states next) :
    Settled generation bindings next registrations workers requested processed where
  current := hd.current
  revision := by
    intro cleanup hmem found hfound
    obtain ⟨before, hbefore, rfl | hnewer⟩ := hnext.of_some hfound
    · exact hd.revision cleanup hmem before hbefore
    · exact (hd.revision cleanup hmem before hbefore).trans hnewer.revision_le
  kept := by
    intro cleanup hmem ⟨hgeneration, hbound, found, hfound, hfoundGeneration, hfoundRevision, hpending⟩
    obtain ⟨before, hbefore, rfl | hnewer⟩ := hnext.of_some hfound
    · exact hd.kept cleanup hmem ⟨hgeneration, hbound, before, hbefore, hfoundGeneration, hfoundRevision, hpending⟩
    · -- a newer lifecycle would have a newer revision than the one that was asked for
      have hle := hd.revision cleanup hmem before hbefore
      obtain ⟨_, hraised | ⟨hrevision, hsameGeneration, hsameState⟩⟩ := hnewer
      · omega
      · refine hd.kept cleanup hmem ⟨hgeneration, hbound, before, hbefore, by omega, by omega, ?_⟩
        simp only [cleanupPending] at hpending ⊢
        rw [← hsameState]
        exact hpending
  finishing := hd.finishing

theorem Fitting.forget (hf : Fitting bindings states registrations workers none) (key : String) :
    Fitting (bindings.erase key) (states.erase key) registrations workers none where
  paired := hf.paired.erase key
  topic := hf.topic
  revision hregistration hfound := hf.revision hregistration (of_lookup_erase hfound).2
  thread hregistration hfound hn htoken := hf.thread hregistration (of_lookup_erase hfound).2 hn htoken
  admitted h := nomatch h

theorem Settled.forget (hd : Settled generation bindings states registrations workers requested processed)
    (key : String) :
    Settled generation (bindings.erase key) (states.erase key) registrations workers requested processed where
  current := hd.current
  revision cleanup hmem found hfound := hd.revision cleanup hmem found (of_lookup_erase hfound).2
  kept := by
    intro cleanup hmem ⟨hgeneration, hbound, found, hfound, hrest⟩
    exact hd.kept cleanup hmem
      ⟨hgeneration, (of_lookup_erase hbound).2, found, (of_lookup_erase hfound).2, hrest⟩
  finishing := hd.finishing

/-! The binds. -/

theorem Fitting.setBinding (hf : Fitting bindings states registrations workers binding) {next : Option BindOperation}
    (hnext : ∀ operation, next = some operation → isTelegramTopicKey operation.conversationKey = true →
      operation.stage.Admitted (registrations.lookup operation.conversationKey = none)
        ((states.lookup operation.conversationKey).any cleanupPending = true)) :
    Fitting bindings states registrations workers next :=
  ⟨hf.paired, hf.topic, hf.revision, hf.thread, fun {operation} h => hnext operation h⟩

theorem Fitting.ne_of_checked {operation : BindOperation}
    (hf : Fitting bindings states registrations workers (some operation)) (hstage : operation.stage = .checked)
    (hregistration : registrations.lookup key = some registration) : key ≠ operation.conversationKey := by
  intro hkey
  subst hkey
  have hadmitted := hf.admitted rfl (hf.topic hregistration)
  rw [hstage] at hadmitted
  rw [hadmitted.1] at hregistration
  cases hregistration

theorem Fitting.commit {operation : BindOperation} {found : TelegramTopicBindingState}
    (hf : Fitting bindings states registrations workers (some operation)) (hstage : operation.stage = .checked)
    (hfound : found.threadId = operation.threadId) :
    Fitting ((bindings.retain fun _ boundThreadId => boundThreadId ≠ operation.threadId).insert
        operation.conversationKey operation.threadId)
      ((states.retain fun _ found => found.threadId ≠ operation.threadId).insert operation.conversationKey found)
      registrations workers none where
  paired := by
    rw [← hfound]
    exact (hf.paired.retain found.threadId).insert operation.conversationKey found
  topic := hf.topic
  revision := by
    intro key registration later hregistration hlater
    have hne := hf.ne_of_checked hstage hregistration
    rcases of_lookup_insert hlater with ⟨hsame, _⟩ | ⟨_, hlater⟩
    · exact absurd hsame hne
    · exact hf.revision hregistration (of_lookup_retain hlater)
  thread := by
    intro key registration later n worker hregistration hlater hn htoken
    have hne := hf.ne_of_checked hstage hregistration
    rcases of_lookup_insert hlater with ⟨hsame, _⟩ | ⟨_, hlater⟩
    · exact absurd hsame hne
    · exact hf.thread hregistration (of_lookup_retain hlater) hn htoken
  admitted h := nomatch h

theorem Fitting.unbind (hf : Fitting bindings states registrations workers binding) (threadId : String) :
    Fitting (bindings.retain fun _ boundThreadId => boundThreadId ≠ threadId)
      (states.retain fun _ found => found.threadId ≠ threadId) registrations workers none where
  paired := hf.paired.retain threadId
  topic := hf.topic
  revision hregistration hfound := hf.revision hregistration (of_lookup_retain hfound)
  thread hregistration hfound hn htoken := hf.thread hregistration (of_lookup_retain hfound) hn htoken
  admitted h := nomatch h

section

variable (hd : Settled generation bindings states registrations workers requested processed)
include hd

theorem Settled.unbind (threadId : String) :
    Settled generation (bindings.retain fun _ boundThreadId => boundThreadId ≠ threadId)
      (states.retain fun _ found => found.threadId ≠ threadId) registrations workers requested processed where
  current := hd.current
  revision cleanup hmem found hfound := hd.revision cleanup hmem found (of_lookup_retain hfound)
  kept := by
    intro cleanup hmem ⟨hgeneration, hbound, found, hfound, hrest⟩
    exact hd.kept cleanup hmem
      ⟨hgeneration, of_lookup_retain hbound, found, of_lookup_retain hfound, hrest⟩
  finishing := hd.finishing

theorem Settled.bind (hfree : registrations.lookup key = none) (threadId : String) (found : TelegramTopicBindingState) :
    Settled generation (bindings.insert key threadId) (states.insert key found) registrations workers
      (requested.filter fun cleanup => cleanup.conversationKey ≠ key)
      (processed.filter fun cleanup => cleanup.conversationKey ≠ key) where
  current cleanup hmem := hd.current cleanup (List.mem_of_mem_filter hmem)
  revision := by
    intro cleanup hmem later hlater
    obtain ⟨hmem, hne⟩ := List.mem_filter.mp hmem
    have hne := of_decide_eq_true hne
    rcases of_lookup_insert hlater with ⟨hsame, _⟩ | ⟨_, hlater⟩
    · exact absurd hsame hne
    · exact hd.revision cleanup hmem later hlater
  kept := by
    intro cleanup hmem ⟨hgeneration, hbound, later, hlater, hrest⟩
    obtain ⟨hmem, hdecide⟩ := List.mem_filter.mp hmem
    have hne := of_decide_eq_true hdecide
    rw [lookup_insert_eq, if_neg hne] at hbound hlater
    rcases hd.kept cleanup hmem ⟨hgeneration, hbound, later, hlater, hrest⟩ with hprocessed | hattended
    · exact .inl (List.mem_filter.mpr ⟨hprocessed, hdecide⟩)
    · exact .inr hattended
  finishing := by
    intro n worker hn hstage hregistered
    have hprocessed := hd.finishing hn hstage hregistered
    obtain ⟨registration, hregistration, _⟩ := hregistered
    apply List.mem_filter.mpr
    refine ⟨hprocessed, decide_eq_true ?_⟩
    intro hkey
    rw [hkey, hfree] at hregistration
    cases hregistration

end

/-! The calls under the mutation gates. -/

section

variable (hg : Gated generation registrations workers gates requests calls) (hn : requests.lookup n = some request)
include hg hn

theorem Gated.setRequest (stage : ScheduleStage) {next : Table String GateHolder}
    (hothers : ∀ {m other}, m ≠ n → requests.lookup m = some other → other.stage.holdsGate = true →
      next.lookup (gateAccount other.cleanup.conversationKey) = some (.caller m)) (hheld : stage.holdsGate = true →
      next.lookup (gateAccount request.cleanup.conversationKey) = some (.caller n))
    (hcurrent : stage.passedGeneration = true → request.cleanup.lifecycleGeneration ≤ generation)
    (hregistered : stage.passedGeneration = true → ∀ {m worker}, workers.lookup m = some worker →
      worker.stage ≠ .exited → worker.cleanup.conversationKey = request.cleanup.conversationKey →
      worker.cleanup.lifecycleGeneration = request.cleanup.lifecycleGeneration → Registered registrations worker) :
    Gated generation registrations workers next (requests.insert n { request with stage := stage }) calls where
  numbered hm := insert_cases hm (hg.numbered hn) fun _ => hg.numbered
  held hm := insert_cases hm hheld hothers
  topic hm := insert_cases hm (hg.topic hn :) fun _ => hg.topic
  current hm := insert_cases hm hcurrent fun _ => hg.current
  registered hm := insert_cases hm (fun hpassed => hregistered hpassed) fun _ => hg.registered

omit hn in
theorem Gated.newRequest (htopic : isTelegramTopicKey cleanup.conversationKey = true) :
    Gated generation registrations workers gates (requests.insert calls ⟨cleanup, .queued⟩) (calls + 1) where
  numbered hm := insert_cases hm (Nat.lt_succ_self calls) fun _ hm => Nat.lt_succ_of_lt (hg.numbered hm)
  held hm := insert_cases hm nofun fun _ => hg.held
  topic hm := insert_cases hm htopic fun _ => hg.topic
  current hm := insert_cases hm nofun fun _ => hg.current
  registered hm := insert_cases hm nofun fun _ => hg.registered

omit hn in
theorem Gated.setGates {next : Table String GateHolder} (accountId : String)
    (hfree : ∀ m, gates.lookup accountId ≠ some (.caller m))
    (hnext : ∀ other, other ≠ accountId → next.lookup other = gates.lookup other) :
    Gated generation registrations workers next requests calls where
  numbered := hg.numbered
  held := by
    intro m other hm hholds
    have hheld := hg.held hm hholds
    rw [hnext]
    · exact hheld
    · intro haccount
      exact hfree m (haccount ▸ hheld)
  topic := hg.topic
  current := hg.current
  registered := hg.registered

theorem Gated.lockGate (hfree : gates.lookup (gateAccount request.cleanup.conversationKey) = none) :
    Gated generation registrations workers
      (gates.insert (gateAccount request.cleanup.conversationKey) (.caller n))
      (requests.insert n { request with stage := .gated }) calls := by
  refine hg.setRequest hn .gated ?_ ?_ ?_ ?_
  · intro m other _ hm hholds
    have hheld := hg.held hm hholds
    rw [lookup_insert_eq, if_neg]
    · exact hheld
    · intro haccount
      rw [haccount, hfree] at hheld
      cases hheld
  · intro _
    exact AList.lookup_insert gates
  · intro hpassed
    cases hpassed
  · intro hpassed
    cases hpassed

theorem Gated.endRequest (hholds : request.stage.holdsGate = true) :
    Gated generation registrations workers (gates.erase (gateAccount request.cleanup.conversationKey))
      (requests.insert n { request with stage := .ended }) calls := by
  refine hg.setRequest hn .ended ?_ ?_ ?_ ?_
  · intro m other hne hm hotherHolds
    rw [lookup_erase_eq, if_neg]
    · exact hg.held hm hotherHolds
    · intro haccount
      exact hne (hg.alone hm hn hotherHolds hholds haccount)
  · intro hheld
    cases hheld
  · intro hpassed
    cases hpassed
  · intro hpassed
    cases hpassed

omit hn in
theorem Gated.readGeneration (hs : Staffed generation registrations nextToken workers spawned)
    (hn : requests.lookup n = some request) (hholds : request.stage.holdsGate = true)
    (hcurrent : generation = request.cleanup.lifecycleGeneration) :
    Gated generation registrations workers gates
      (requests.insert n { request with stage := .generationCurrent }) calls := by
  refine hg.setRequest hn .generationCurrent ?_ ?_ ?_ ?_
  · intro m other _ hm hotherHolds
    exact hg.held hm hotherHolds
  · intro _
    exact hg.held hn hholds
  · intro _
    exact hcurrent.ge
  · intro _ m worker hm hlive _ hgeneration
    by_contra hlost
    have hold := hs.replaced hm hlive hlost
    omega

theorem Gated.readRequired (hpassed : request.stage.passedGeneration = true) :
    Gated generation registrations workers gates (requests.insert n { request with stage := .required })
      calls := by
  refine hg.setRequest hn .required ?_ ?_ ?_ ?_
  · intro m other _ hm hotherHolds
    exact hg.held hm hotherHolds
  · intro _
    exact hg.held hn (ScheduleStage.holdsGate_of_passed hpassed)
  · intro _
    exact hg.current hn hpassed
  · intro _ m worker
    exact hg.registered hn hpassed

end

/-! The workers. -/

theorem registered_congr {other : CleanupWorker} (htoken : worker.token = other.token)
    (hkey : worker.cleanup.conversationKey = other.cleanup.conversationKey) :
    Registered registrations worker ↔ Registered registrations other := by
  obtain ⟨token, ⟨conversationKey, _, _, _⟩, _⟩ := worker
  subst htoken hkey
  exact Iff.rfl

theorem registered_raise (hregistration : registrations.lookup key = some registration) (revision : Nat)
    (worker : CleanupWorker) :
    Registered (registrations.insert key { registration with lifecycleRevision := revision }) worker ↔
      Registered registrations worker := by
  constructor
  · rintro ⟨found, hfound, htoken⟩
    rcases of_lookup_insert hfound with ⟨rfl, rfl⟩ | ⟨_, hfound⟩
    · exact ⟨registration, hregistration, htoken⟩
    · exact ⟨found, hfound, htoken⟩
  · rintro ⟨found, hfound, htoken⟩
    by_cases hkey : worker.cleanup.conversationKey = key
    · subst key
      rw [hregistration] at hfound
      cases hfound
      exact ⟨_, AList.lookup_insert registrations, htoken⟩
    · exact ⟨found, (AList.lookup_insert_ne hkey).trans hfound, htoken⟩

variable {next : CleanupRegistrations}

theorem Attended.congr (hnext : ∀ worker, Registered registrations worker → Registered next worker)
    (h : Attended registrations workers cleanup) : Attended next workers cleanup := by
  obtain ⟨n, worker, hn, hlive, hregistered, hrest⟩ := h
  exact ⟨n, worker, hn, hlive, hnext worker hregistered, hrest⟩

variable {revision : Nat}

theorem Staffed.raise (hs : Staffed generation registrations nextToken workers spawned)
    (hregistration : registrations.lookup key = some registration)
    (hrevision : registration.lifecycleRevision ≤ revision) :
    Staffed generation (registrations.insert key { registration with lifecycleRevision := revision }) nextToken
      workers spawned where
  numbered := hs.numbered
  issued := hs.issued
  unique := hs.unique
  staffed := by
    intro other found hfound
    refine insert_cases hfound ?_ fun _ => hs.staffed
    obtain ⟨n, worker, hn, hlive, htoken, hkey, hgeneration, hle⟩ := hs.staffed hregistration
    exact ⟨n, worker, hn, hlive, htoken, hkey, hgeneration, hle.trans hrevision⟩
  current := hs.current
  replaced hn hlive hlost :=
    hs.replaced hn hlive fun hregistered => hlost ((registered_raise hregistration revision _).mpr hregistered)
  single := hs.single

theorem Gated.raise (hg : Gated generation registrations workers gates requests calls)
    (hregistration : registrations.lookup key = some registration) (revision : Nat) :
    Gated generation (registrations.insert key { registration with lifecycleRevision := revision }) workers gates
      requests calls where
  numbered := hg.numbered
  held := hg.held
  topic := hg.topic
  current := hg.current
  registered hn hpassed hm hlive hkey hgeneration :=
    (registered_raise hregistration revision _).mpr (hg.registered hn hpassed hm hlive hkey hgeneration)

theorem BindStage.Admitted.congr {stage : BindStage} {unregistered later pending : Prop}
    (h : stage.Admitted unregistered pending) (hlater : unregistered → later) : stage.Admitted later pending := by
  cases stage with
  | started => trivial
  | registrationsRead cleanupWorkerPending =>
    cases cleanupWorkerPending with
    | false => exact h.imp_left hlater
    | true => trivial
  | checked => exact ⟨hlater h.1, h.2⟩

theorem Fitting.raise (hf : Fitting bindings states registrations workers binding)
    (hregistration : registrations.lookup key = some registration)
    (hrevision : ∀ found, states.lookup key = some found → revision ≤ found.lifecycleRevision) :
    Fitting bindings states (registrations.insert key { registration with lifecycleRevision := revision }) workers
      binding where
  paired := hf.paired
  topic hm := insert_cases hm (hf.topic hregistration) fun _ => hf.topic
  revision hfound := insert_cases hfound (fun hstate => hrevision _ hstate) fun _ => hf.revision
  thread hfound := insert_cases hfound
    (fun hstate hn htoken => hf.thread hregistration hstate hn htoken) fun _ => hf.thread
  admitted := by
    intro operation hoperation htopic
    refine (hf.admitted hoperation htopic).congr ?_
    intro hfree
    rw [lookup_insert_eq, if_neg]
    · exact hfree
    · intro hkey
      rw [hkey, hregistration] at hfree
      cases hfree

theorem Settled.raise (hd : Settled generation bindings states registrations workers requested processed)
    (hregistration : registrations.lookup key = some registration) (revision : Nat) :
    Settled generation bindings states
      (registrations.insert key { registration with lifecycleRevision := revision }) workers requested
      processed where
  current := hd.current
  revision := hd.revision
  kept cleanup hmem hout := (hd.kept cleanup hmem hout).imp_right
    (Attended.congr fun worker => (registered_raise hregistration revision worker).mpr)
  finishing hn hstage hregistered := hd.finishing hn hstage ((registered_raise hregistration revision _).mp hregistered)

/-- A live worker comes to another stage, for the same revision or for a newer one. -/
def CleanupWorker.advance (worker : CleanupWorker) (revision : Nat) (stage : CleanupStage) : CleanupWorker :=
  { worker with cleanup := { worker.cleanup with lifecycleRevision := revision }, stage := stage }

variable {m : Nat} {stage : CleanupStage}

theorem of_advanced (hn : workers.lookup n = some worker) (hlive : worker.stage ≠ .exited) {other : CleanupWorker}
    (hm : (workers.insert n (worker.advance revision stage)).lookup m = some other) :
    ∃ before, workers.lookup m = some before ∧ before.token = other.token ∧
      before.cleanup.conversationKey = other.cleanup.conversationKey ∧
      before.cleanup.threadId = other.cleanup.threadId ∧
      before.cleanup.lifecycleGeneration = other.cleanup.lifecycleGeneration ∧
      (other.stage ≠ .exited → before.stage ≠ .exited) := by
  rcases of_lookup_insert hm with ⟨rfl, rfl⟩ | ⟨_, hm⟩
  · exact ⟨worker, hn, rfl, rfl, rfl, rfl, fun _ => hlive⟩
  · exact ⟨other, hm, rfl, rfl, rfl, rfl, id⟩

theorem Staffed.advance (hs : Staffed generation registrations nextToken workers spawned)
    (hn : workers.lookup n = some worker) (hlive : worker.stage ≠ .exited) (hstage : stage ≠ .exited)
    (hrevision : ∀ registration, registrations.lookup worker.cleanup.conversationKey = some registration →
      worker.token = registration.token → revision ≤ registration.lifecycleRevision) :
    Staffed generation registrations nextToken (workers.insert n (worker.advance revision stage)) spawned where
  numbered hm := by
    obtain ⟨before, hbefore, _⟩ := of_advanced hn hlive hm
    exact hs.numbered hbefore
  issued hm := by
    obtain ⟨before, hbefore, htoken, _⟩ := of_advanced hn hlive hm
    have hlt := hs.issued hbefore
    omega
  unique hm hk htoken := by
    obtain ⟨before, hbefore, hbeforeToken, _⟩ := of_advanced hn hlive hm
    obtain ⟨other, hother, hotherToken, _⟩ := of_advanced hn hlive hk
    exact hs.unique hbefore hother (by omega)
  staffed := by
    intro key registration hregistration
    obtain ⟨m, other, hm, hotherLive, htoken, hkey, hgeneration, hle⟩ := hs.staffed hregistration
    by_cases hsame : m = n
    · subst m
      rw [hn] at hm
      cases hm
      refine ⟨n, worker.advance revision stage, AList.lookup_insert workers, hstage, htoken, hkey, hgeneration, ?_⟩
      exact hrevision registration (hkey ▸ hregistration) htoken
    · refine ⟨m, other, ?_, hotherLive, htoken, hkey, hgeneration, hle⟩
      rw [lookup_insert_eq, if_neg hsame, hm]
  current hm := by
    obtain ⟨before, hbefore, _, _, _, hgeneration, _⟩ := of_advanced hn hlive hm
    have hcurrent := hs.current hbefore
    omega
  replaced hm hmLive hlost := by
    obtain ⟨before, hbefore, htoken, hkey, _, hgeneration, hbeforeLive⟩ := of_advanced hn hlive hm
    have hreplaced := hs.replaced hbefore (hbeforeLive hmLive)
      fun hregistered => hlost ((registered_congr htoken hkey).mp hregistered)
    omega
  single hm hk hmLive hkLive hkey hgeneration := by
    obtain ⟨before, hbefore, _, hbeforeKey, _, hbeforeGeneration, hbeforeLive⟩ := of_advanced hn hlive hm
    obtain ⟨other, hother, _, hotherKey, _, hotherGeneration, hotherLive⟩ := of_advanced hn hlive hk
    exact hs.single hbefore hother (hbeforeLive hmLive) (hotherLive hkLive)
      (hbeforeKey.trans (hkey.trans hotherKey.symm))
      (hbeforeGeneration.trans (hgeneration.trans hotherGeneration.symm))

theorem Gated.advance (hg : Gated generation registrations workers gates requests calls)
    (hn : workers.lookup n = some worker) (hlive : worker.stage ≠ .exited) (revision : Nat) (stage : CleanupStage) :
    Gated generation registrations (workers.insert n (worker.advance revision stage)) gates requests calls where
  numbered := hg.numbered
  held := hg.held
  topic := hg.topic
  current := hg.current
  registered hrequest hpassed hm hmLive hkey hgeneration := by
    obtain ⟨before, hbefore, htoken, hbeforeKey, _, hbeforeGeneration, hbeforeLive⟩ := of_advanced hn hlive hm
    have hregistered := hg.registered hrequest hpassed hbefore (hbeforeLive hmLive) (hbeforeKey.trans hkey)
      (hbeforeGeneration.trans hgeneration)
    exact (registered_congr htoken hbeforeKey).mp hregistered

theorem Fitting.advance (hf : Fitting bindings states registrations workers binding)
    (hn : workers.lookup n = some worker) (hlive : worker.stage ≠ .exited) (revision : Nat) (stage : CleanupStage) :
    Fitting bindings states registrations (workers.insert n (worker.advance revision stage)) binding where
  paired := hf.paired
  topic := hf.topic
  revision := hf.revision
  thread hregistration hfound hm htoken := by
    obtain ⟨before, hbefore, hbeforeToken, _, hthread, _, _⟩ := of_advanced hn hlive hm
    exact (hf.thread hregistration hfound hbefore (hbeforeToken.trans htoken)).trans hthread
  admitted := hf.admitted

theorem Attended.advance (h : Attended registrations workers cleanup) (hn : workers.lookup n = some worker)
    (hstage : stage ≠ .exited)
    (hdone : worker.stage ≠ .exited → worker.cleanup.conversationKey = cleanup.conversationKey →
      worker.cleanup.threadId = cleanup.threadId → worker.cleanup.lifecycleGeneration = cleanup.lifecycleGeneration →
      (worker.cleanup.lifecycleRevision < cleanup.lifecycleRevision ∨
        worker.cleanup = cleanup ∧ worker.stage ≠ .finishing) →
      revision < cleanup.lifecycleRevision ∨ revision = cleanup.lifecycleRevision ∧ stage ≠ .finishing) :
    Attended registrations (workers.insert n (worker.advance revision stage)) cleanup := by
  obtain ⟨m, other, hm, hlive, hregistered, hkey, hthread, hgeneration, hcome⟩ := h
  by_cases hsame : m = n
  · subst m
    rw [hn] at hm
    cases hm
    refine ⟨n, worker.advance revision stage, AList.lookup_insert workers, hstage, hregistered, hkey, hthread,
      hgeneration, ?_⟩
    rcases hdone hlive hkey hthread hgeneration hcome with hlt | ⟨heq, hnot⟩
    · exact .inl hlt
    · refine .inr ⟨?_, hnot⟩
      obtain ⟨cleanupKey, cleanupThread, cleanupGeneration, cleanupRevision⟩ := cleanup
      simp only [CleanupWorker.advance, hkey, hthread, hgeneration, heq]
  · refine ⟨m, other, ?_, hlive, hregistered, hkey, hthread, hgeneration, hcome⟩
    rw [lookup_insert_eq, if_neg hsame, hm]

section

variable (hd : Settled generation bindings states registrations workers requested processed)
  (hn : workers.lookup n = some worker)
include hd hn

theorem Settled.restage (hstage : stage ≠ .exited) (hnot : stage ≠ .finishing) :
    Settled generation bindings states registrations
      (workers.insert n (worker.advance worker.cleanup.lifecycleRevision stage)) requested processed where
  current := hd.current
  revision := hd.revision
  kept cleanup hmem hout := by
    refine (hd.kept cleanup hmem hout).imp_right fun hattended => hattended.advance hn hstage ?_
    intro _ _ _ _ hcome
    rcases hcome with hlt | ⟨rfl, _⟩
    · exact .inl hlt
    · exact .inr ⟨rfl, hnot⟩
  finishing hm := insert_cases hm (fun hfinishing _ => absurd hfinishing hnot) fun _ => hd.finishing

theorem Settled.settle :
    Settled generation bindings states registrations
      (workers.insert n (worker.advance worker.cleanup.lifecycleRevision .finishing)) requested
      (worker.cleanup :: processed) where
  current := hd.current
  revision := hd.revision
  kept cleanup hmem hout := by
    rcases hd.kept cleanup hmem hout with hprocessed | hattended
    · exact .inl (List.mem_cons_of_mem _ hprocessed)
    · by_cases hsame : worker.cleanup = cleanup
      · subst cleanup
        exact .inl List.mem_cons_self
      · refine .inr (hattended.advance hn noConfusion ?_)
        intro _ _ _ _ hcome
        rcases hcome with hlt | ⟨heq, _⟩
        · exact .inl hlt
        · exact absurd heq hsame
  finishing hm := insert_cases hm (fun _ _ => List.mem_cons_self)
    fun _ hm hfinishing hregistered => List.mem_cons_of_mem _ (hd.finishing hm hfinishing hregistered)

theorem Settled.iterate {found : TelegramTopicBindingState}
    (hfound : states.lookup worker.cleanup.conversationKey = some found) :
    Settled generation bindings states registrations
      (workers.insert n (worker.advance found.lifecycleRevision .waiting)) requested processed where
  current := hd.current
  revision := hd.revision
  kept cleanup hmem hout := by
    refine (hd.kept cleanup hmem hout).imp_right fun hattended =>
      hattended.advance hn noConfusion ?_
    intro _ hkey _ _ _
    obtain ⟨_, _, later, hlater, _, hrevision, _⟩ := hout
    rw [← hkey, hfound] at hlater
    cases hlater
    exact .inr ⟨hrevision, noConfusion⟩
  finishing hm := insert_cases hm nofun fun _ => hd.finishing

end

/-- The worker's registration, if it has one, is gone, and the others are left. -/
structure Released (registrations next : CleanupRegistrations) (worker : CleanupWorker) : Prop where
  left : ∀ {key registration}, next.lookup key = some registration →
    registrations.lookup key = some registration ∧
      (key = worker.cleanup.conversationKey → registration.token ≠ worker.token)
  kept : ∀ {other}, Registered registrations other → other.token ≠ worker.token → Registered next other

theorem Released.lost (h : ¬Registered registrations worker) : Released registrations registrations worker where
  left := by
    intro key registration hregistration
    refine ⟨hregistration, ?_⟩
    rintro rfl htoken
    exact h ⟨registration, hregistration, htoken⟩
  kept hregistered _ := hregistered

theorem Released.erase (h : registrations.lookup worker.cleanup.conversationKey = some registration)
    (htoken : registration.token = worker.token) :
    Released registrations (registrations.erase worker.cleanup.conversationKey) worker where
  left hfound := by
    obtain ⟨hne, hfound⟩ := of_lookup_erase hfound
    exact ⟨hfound, fun hkey => absurd hkey hne⟩
  kept := by
    rintro other ⟨found, hfound, hfoundToken⟩ hne
    refine ⟨found, ?_, hfoundToken⟩
    rw [lookup_erase_eq, if_neg]
    · exact hfound
    · intro hkey
      rw [hkey, h] at hfound
      cases hfound
      exact hne (hfoundToken.symm.trans htoken)

theorem of_exited {other : CleanupWorker}
    (hm : (workers.insert n { worker with stage := .exited }).lookup m = some other) (hlive : other.stage ≠ .exited) :
    m ≠ n ∧ workers.lookup m = some other := by
  rcases of_lookup_insert hm with ⟨_, rfl⟩ | hother
  · exact absurd rfl hlive
  · exact hother

section

variable (hs : Staffed generation registrations nextToken workers spawned)
  (hn : workers.lookup n = some worker)
include hs hn

theorem Staffed.token_ne {other : CleanupWorker} (hne : m ≠ n) (hm : workers.lookup m = some other) :
    other.token ≠ worker.token :=
  fun htoken => hne (hs.unique hm hn htoken)

variable (hnext : Released registrations next worker)
include hnext

theorem Staffed.exit :
    Staffed generation next nextToken (workers.insert n { worker with stage := .exited }) spawned where
  numbered hm := insert_cases hm (hs.numbered hn) fun _ => hs.numbered
  issued hm := insert_cases hm (hs.issued hn :) fun _ => hs.issued
  unique := by
    intro m k other another hm hk htoken
    rcases of_lookup_insert hm with ⟨hmn, rfl⟩ | ⟨hmn, hmBefore⟩ <;>
      rcases of_lookup_insert hk with ⟨hkn, rfl⟩ | ⟨hkn, hkBefore⟩
    · exact hmn.trans hkn.symm
    · exact absurd htoken.symm (hs.token_ne hn hkn hkBefore)
    · exact absurd htoken (hs.token_ne hn hmn hmBefore)
    · exact hs.unique hmBefore hkBefore htoken
  staffed := by
    intro key registration hregistration
    obtain ⟨hregistration, hother⟩ := hnext.left hregistration
    obtain ⟨m, found, hm, hlive, htoken, hkey, hrest⟩ := hs.staffed hregistration
    refine ⟨m, found, ?_, hlive, htoken, hkey, hrest⟩
    rw [lookup_insert_eq, if_neg]
    · exact hm
    · rintro rfl
      rw [hn] at hm
      cases hm
      exact hother hkey.symm htoken.symm
  current hm := insert_cases hm (hs.current hn :) fun _ => hs.current
  replaced := by
    intro m other hm hlive hlost
    obtain ⟨hne, hm⟩ := of_exited hm hlive
    exact hs.replaced hm hlive fun hregistered => hlost (hnext.kept hregistered (hs.token_ne hn hne hm))
  single := by
    intro m k other another hm hk hmLive hkLive
    exact hs.single (of_exited hm hmLive).2 (of_exited hk hkLive).2 hmLive hkLive

theorem Gated.exit (hg : Gated generation registrations workers gates requests calls) :
    Gated generation next (workers.insert n { worker with stage := .exited }) gates requests calls where
  numbered := hg.numbered
  held := hg.held
  topic := hg.topic
  current := hg.current
  registered hrequest hpassed hm hlive hkey hgeneration := by
    obtain ⟨hne, hm⟩ := of_exited hm hlive
    exact hnext.kept (hg.registered hrequest hpassed hm hlive hkey hgeneration) (hs.token_ne hn hne hm)

omit hs in
theorem Fitting.exit (hf : Fitting bindings states registrations workers none) :
    Fitting bindings states next (workers.insert n { worker with stage := .exited }) none where
  paired := hf.paired
  topic hregistration := hf.topic (hnext.left hregistration).1
  revision hregistration hfound := hf.revision (hnext.left hregistration).1 hfound
  thread := by
    intro key registration found m other hregistration hfound hm
    have hbefore := (hnext.left hregistration).1
    exact insert_cases hm (fun htoken => (hf.thread hbefore hfound hn htoken :)) fun _ => hf.thread hbefore hfound
  admitted h := nomatch h

theorem Settled.exit (hd : Settled generation bindings states registrations workers requested processed)
    (hidle : Registered registrations worker → ∀ cleanup,
      Outstanding generation bindings states cleanup →
      worker.cleanup.conversationKey = cleanup.conversationKey → worker.cleanup.threadId = cleanup.threadId →
      worker.cleanup.lifecycleGeneration = cleanup.lifecycleGeneration →
      ¬(worker.cleanup.lifecycleRevision < cleanup.lifecycleRevision ∨
        worker.cleanup = cleanup ∧ worker.stage ≠ .finishing)) :
    Settled generation bindings states next (workers.insert n { worker with stage := .exited }) requested
      processed where
  current := hd.current
  revision := hd.revision
  kept := by
    intro cleanup hmem hout
    rcases hd.kept cleanup hmem hout with hprocessed | ⟨m, other, hm, hlive, hregistered, hkey, hthread,
      hgeneration, hcome⟩
    · exact .inl hprocessed
    · by_cases hsame : m = n
      · subst m
        rw [hn] at hm
        cases hm
        exact absurd hcome (hidle hregistered cleanup hout hkey hthread hgeneration)
      · have hother := hnext.kept hregistered (hs.token_ne hn hsame hm)
        refine .inr ⟨m, other, ?_, hlive, hother, hkey, hthread, hgeneration, hcome⟩
        rw [lookup_insert_eq, if_neg hsame, hm]
  finishing := by
    intro m other hm hfinishing hregistered
    have hlive : other.stage ≠ .exited := by
      rw [hfinishing]
      exact noConfusion
    obtain ⟨_, hm⟩ := of_exited hm hlive
    obtain ⟨registration, hregistration, htoken⟩ := hregistered
    exact hd.finishing hm hfinishing ⟨registration, (hnext.left hregistration).1, htoken⟩

end

/-! The registrations. -/

theorem registered_spawn (hlt : worker.token < nextToken) :
    Registered (registrations.insert cleanup.conversationKey
        ⟨nextToken, cleanup.lifecycleGeneration, cleanup.lifecycleRevision⟩) worker ↔
      worker.cleanup.conversationKey ≠ cleanup.conversationKey ∧ Registered registrations worker := by
  constructor
  · rintro ⟨found, hfound, htoken⟩
    rcases of_lookup_insert hfound with ⟨_, rfl⟩ | ⟨hne, hfound⟩
    · exact absurd htoken hlt.ne'
    · exact ⟨hne, found, hfound, htoken⟩
  · rintro ⟨hne, found, hfound, htoken⟩
    exact ⟨found, (AList.lookup_insert_ne hne).trans hfound, htoken⟩

theorem Gated.quiet (hg : Gated generation registrations workers gates requests calls)
    (hn : requests.lookup n = some request) (hholds : request.stage.holdsGate = true) {other : CleanupRequest}
    (hm : (requests.insert n { request with stage := .ended }).lookup m = some other)
    (hpassed : other.stage.passedGeneration = true) :
    other.cleanup.conversationKey ≠ request.cleanup.conversationKey := by
  intro hkey
  rcases of_lookup_insert hm with ⟨_, rfl⟩ | ⟨hne, hm⟩
  · cases hpassed
  · exact hne (hg.alone hm hn (ScheduleStage.holdsGate_of_passed hpassed) hholds (congrArg gateAccount hkey))

section

variable (hs : Staffed generation registrations nextToken workers spawned)
include hs

theorem Staffed.of_spawned {other : CleanupWorker}
    (hm : (workers.insert spawned ⟨nextToken, cleanup, .waiting⟩).lookup m = some other) :
    m = spawned ∧ other = ⟨nextToken, cleanup, .waiting⟩ ∨
      m < spawned ∧ other.token < nextToken ∧ workers.lookup m = some other := by
  rcases of_lookup_insert hm with hnew | ⟨_, hm⟩
  · exact .inl hnew
  · exact .inr ⟨hs.numbered hm, hs.issued hm, hm⟩

theorem Staffed.spawn (hcurrent : cleanup.lifecycleGeneration ≤ generation)
    (hold : ∀ registration, registrations.lookup cleanup.conversationKey = some registration →
      registration.lifecycleGeneration < cleanup.lifecycleGeneration)
    (hmeets : ∀ {m worker}, workers.lookup m = some worker → worker.stage ≠ .exited →
      worker.cleanup.conversationKey = cleanup.conversationKey →
      worker.cleanup.lifecycleGeneration = cleanup.lifecycleGeneration → Registered registrations worker) :
    Staffed generation (registrations.insert cleanup.conversationKey
        ⟨nextToken, cleanup.lifecycleGeneration, cleanup.lifecycleRevision⟩) (nextToken + 1)
      (workers.insert spawned ⟨nextToken, cleanup, .waiting⟩) (spawned + 1) := by
  -- a registered worker of the conversation is of the older generation that the call replaces
  have holder : ∀ {m worker}, workers.lookup m = some worker → Registered registrations worker →
      worker.cleanup.conversationKey = cleanup.conversationKey →
      worker.cleanup.lifecycleGeneration < cleanup.lifecycleGeneration := by
    rintro m worker hm ⟨registration, hregistration, htoken⟩ hkey
    obtain ⟨_, _, hgeneration, _⟩ := hs.worker_of_token hregistration hm htoken.symm
    have hlt := hold registration (hkey ▸ hregistration)
    omega
  have hfresh : ∀ {m worker}, workers.lookup m = some worker → worker.stage ≠ .exited →
      worker.cleanup.conversationKey = cleanup.conversationKey →
      worker.cleanup.lifecycleGeneration ≠ cleanup.lifecycleGeneration := by
    intro m worker hm hlive hkey hgeneration
    have hlt := holder hm (hmeets hm hlive hkey hgeneration) hkey
    omega
  refine ⟨?_, ?_, ?_, ?_, ?_, ?_, ?_⟩
  · intro m other hm
    rcases hs.of_spawned hm with ⟨rfl, _⟩ | ⟨hlt, _⟩ <;> omega
  · intro m other hm
    rcases hs.of_spawned hm with ⟨_, rfl⟩ | ⟨_, hlt, _⟩
    · exact Nat.lt_succ_self nextToken
    · omega
  · intro m k other another hm hk htoken
    rcases hs.of_spawned hm with ⟨hmn, rfl⟩ | ⟨_, hmToken, hmBefore⟩ <;>
      rcases hs.of_spawned hk with ⟨hkn, rfl⟩ | ⟨_, hkToken, hkBefore⟩
    · exact hmn.trans hkn.symm
    · exact absurd htoken.symm hkToken.ne
    · exact absurd htoken hmToken.ne
    · exact hs.unique hmBefore hkBefore htoken
  · intro key registration hregistration
    rcases of_lookup_insert hregistration with ⟨rfl, rfl⟩ | ⟨_, hregistration⟩
    · exact ⟨spawned, _, AList.lookup_insert workers, noConfusion, rfl, rfl, rfl, le_rfl⟩
    · obtain ⟨m, other, hm, hrest⟩ := hs.staffed hregistration
      have hne : m ≠ spawned := (hs.numbered hm).ne
      exact ⟨m, other, (AList.lookup_insert_ne hne).trans hm, hrest⟩
  · intro m other hm
    rcases hs.of_spawned hm with ⟨_, rfl⟩ | ⟨_, _, hm⟩
    · exact hcurrent
    · exact hs.current hm
  · intro m other hm hlive hlost
    rcases hs.of_spawned hm with ⟨_, rfl⟩ | ⟨_, hlt, hm⟩
    · exact absurd ⟨_, AList.lookup_insert registrations, rfl⟩ hlost
    · by_cases hregistered : Registered registrations other
      · by_cases hkey : other.cleanup.conversationKey = cleanup.conversationKey
        · have holderLt := holder hm hregistered hkey
          omega
        · exact absurd ((registered_spawn hlt).mpr ⟨hkey, hregistered⟩) hlost
      · exact hs.replaced hm hlive hregistered
  · intro m k other another hm hk hmLive hkLive hkey hgeneration
    rcases hs.of_spawned hm with ⟨hmn, rfl⟩ | ⟨_, _, hmBefore⟩ <;>
      rcases hs.of_spawned hk with ⟨hkn, rfl⟩ | ⟨_, _, hkBefore⟩
    · exact hmn.trans hkn.symm
    · exact absurd hgeneration.symm (hfresh hkBefore hkLive hkey.symm)
    · exact absurd hgeneration (hfresh hmBefore hmLive hkey)
    · exact hs.single hmBefore hkBefore hmLive hkLive hkey hgeneration

theorem Gated.spawn (hg : Gated generation registrations workers gates requests calls)
    (hquiet : ∀ {m other}, requests.lookup m = some other → other.stage.passedGeneration = true →
      other.cleanup.conversationKey ≠ cleanup.conversationKey) :
    Gated generation (registrations.insert cleanup.conversationKey
        ⟨nextToken, cleanup.lifecycleGeneration, cleanup.lifecycleRevision⟩)
      (workers.insert spawned ⟨nextToken, cleanup, .waiting⟩) gates requests calls where
  numbered := hg.numbered
  held := hg.held
  topic := hg.topic
  current := hg.current
  registered := by
    intro m other w worker hm hpassed hw hlive hkey hgeneration
    have hne := hquiet hm hpassed
    rcases hs.of_spawned hw with ⟨_, rfl⟩ | ⟨_, hlt, hw⟩
    · exact absurd hkey.symm hne
    · have hregistered := hg.registered hm hpassed hw hlive hkey hgeneration
      exact (registered_spawn hlt).mpr ⟨hkey ▸ hne, hregistered⟩

theorem Fitting.spawn (hf : Fitting bindings states registrations workers binding)
    (htopic : isTelegramTopicKey cleanup.conversationKey = true)
    (hstate : ∀ found, states.lookup cleanup.conversationKey = some found →
      found.threadId = cleanup.threadId ∧ cleanup.lifecycleRevision ≤ found.lifecycleRevision)
    (hbind : ∀ operation, binding = some operation → operation.conversationKey = cleanup.conversationKey →
      operation.stage.Admitted False
        ((states.lookup operation.conversationKey).any cleanupPending = true)) :
    Fitting bindings states (registrations.insert cleanup.conversationKey
        ⟨nextToken, cleanup.lifecycleGeneration, cleanup.lifecycleRevision⟩)
      (workers.insert spawned ⟨nextToken, cleanup, .waiting⟩) binding where
  paired := hf.paired
  topic hm := insert_cases hm htopic fun _ => hf.topic
  revision hregistration := insert_cases hregistration (fun hfound => (hstate _ hfound).2) fun _ => hf.revision
  thread := by
    intro key registration found m other hregistration hfound hm htoken
    rcases of_lookup_insert hregistration with ⟨rfl, rfl⟩ | ⟨_, hregistration⟩ <;>
      rcases hs.of_spawned hm with ⟨_, rfl⟩ | ⟨_, hlt, hmBefore⟩
    · exact (hstate found hfound).1
    · exact absurd htoken hlt.ne
    · obtain ⟨k, another, hk, _, hanother, _⟩ := hs.staffed hregistration
      have hissued := hs.issued hk
      rw [hanother, ← htoken] at hissued
      exact absurd hissued (lt_irrefl nextToken)
    · exact hf.thread hregistration hfound hmBefore htoken
  admitted := by
    intro operation hoperation hoperationTopic
    by_cases hkey : operation.conversationKey = cleanup.conversationKey
    · exact (hbind operation hoperation hkey).congr False.elim
    · refine (hf.admitted hoperation hoperationTopic).congr ?_
      intro hfree
      exact (AList.lookup_insert_ne hkey).trans hfree

theorem Settled.spawn (hd : Settled generation bindings states registrations workers requested processed)
    (hcurrent : cleanup.lifecycleGeneration ≤ generation)
    (hold : ∀ registration, registrations.lookup cleanup.conversationKey = some registration →
      registration.lifecycleGeneration < cleanup.lifecycleGeneration)
    (hstate : ∀ found, states.lookup cleanup.conversationKey = some found →
      cleanup.lifecycleRevision ≤ found.lifecycleRevision) :
    Settled generation bindings states (registrations.insert cleanup.conversationKey
        ⟨nextToken, cleanup.lifecycleGeneration, cleanup.lifecycleRevision⟩)
      (workers.insert spawned ⟨nextToken, cleanup, .waiting⟩) (cleanup :: requested) processed where
  current other hmem := by
    rcases List.mem_cons.mp hmem with rfl | hmem
    · exact hcurrent
    · exact hd.current other hmem
  revision other hmem := by
    rcases List.mem_cons.mp hmem with rfl | hmem
    · exact hstate
    · exact hd.revision other hmem
  kept := by
    intro other hmem hout
    rcases List.mem_cons.mp hmem with rfl | hmem
    · exact .inr ⟨spawned, _, AList.lookup_insert workers, noConfusion,
        ⟨_, AList.lookup_insert registrations, rfl⟩, rfl, rfl, rfl, .inr ⟨rfl, noConfusion⟩⟩
    · refine (hd.kept other hmem hout).imp_right ?_
      rintro ⟨m, worker, hm, hlive, hregistered, hkey, hthread, hgeneration, hcome⟩
      have hne : m ≠ spawned := (hs.numbered hm).ne
      refine ⟨m, worker, (AList.lookup_insert_ne hne).trans hm, hlive, ?_, hkey, hthread, hgeneration, hcome⟩
      refine (registered_spawn (hs.issued hm)).mpr ⟨?_, hregistered⟩
      -- the worker that is replaced is of an older generation than the cleanups that are outstanding
      intro hsame
      obtain ⟨registration, hregistration, htoken⟩ := hregistered
      obtain ⟨_, _, hworker, _⟩ := hs.worker_of_token hregistration hm htoken.symm
      have hlt := hold registration (hsame ▸ hregistration)
      have hgenerationOut := hout.1
      omega
  finishing := by
    intro m other hm hfinishing hregistered
    rcases hs.of_spawned hm with ⟨_, rfl⟩ | ⟨_, hlt, hm⟩
    · cases hfinishing
    · exact hd.finishing hm hfinishing ((registered_spawn hlt).mp hregistered).2

theorem Settled.ask (hd : Settled generation bindings states registrations workers requested processed)
    (hf : Fitting bindings states registrations workers binding) (hcurrent : cleanup.lifecycleGeneration ≤ generation)
    (hregistration : registrations.lookup cleanup.conversationKey = some registration)
    (hreject : cleanup.lifecycleGeneration < registration.lifecycleGeneration ∨
      cleanup.lifecycleGeneration = registration.lifecycleGeneration ∧
        cleanup.lifecycleRevision ≤ registration.lifecycleRevision)
    (hstate : ∀ found, states.lookup cleanup.conversationKey = some found →
      cleanup.lifecycleRevision ≤ found.lifecycleRevision) :
    Settled generation bindings states registrations workers (cleanup :: requested) processed where
  current other hmem := by
    rcases List.mem_cons.mp hmem with rfl | hmem
    · exact hcurrent
    · exact hd.current other hmem
  revision other hmem := by
    rcases List.mem_cons.mp hmem with rfl | hmem
    · exact hstate
    · exact hd.revision other hmem
  kept := by
    intro other hmem hout
    rcases List.mem_cons.mp hmem with rfl | hmem
    · obtain ⟨hgenerationOut, hbound, found, hfound, _, hrevision, _⟩ := hout
      have hle := hs.registration_le hregistration
      have hfoundLe := hf.revision hregistration hfound
      obtain ⟨m, worker, hm, hlive, htoken, hkey, hworkerGeneration, hworkerLe⟩ := hs.staffed hregistration
      have hthread := hf.thread hregistration hfound hm htoken
      have hfoundThread : found.threadId = other.threadId := by
        have hpaired := hf.paired other.conversationKey
        rw [hbound, hfound] at hpaired
        exact (Option.some.inj hpaired).symm
      have hregistered : Registered registrations worker := ⟨registration, hkey ▸ hregistration, htoken.symm⟩
      have hsameGeneration : worker.cleanup.lifecycleGeneration = other.lifecycleGeneration := by omega
      have hsameThread : worker.cleanup.threadId = other.threadId := hthread.symm.trans hfoundThread
      by_cases hlt : worker.cleanup.lifecycleRevision < other.lifecycleRevision
      · exact .inr ⟨m, worker, hm, hlive, hregistered, hkey, hsameThread, hsameGeneration, .inl hlt⟩
      · have hsameRevision : worker.cleanup.lifecycleRevision = other.lifecycleRevision := by omega
        have hsame : worker.cleanup = other := by
          obtain ⟨otherKey, otherThread, otherGeneration, otherRevision⟩ := other
          obtain ⟨token, ⟨workerKey, workerThread, workerGeneration, workerRevision⟩, stage⟩ := worker
          simp only at hkey hsameThread hsameGeneration hsameRevision
          simp only [hkey, hsameThread, hsameGeneration, hsameRevision]
        by_cases hfinishing : worker.stage = .finishing
        · have hprocessed := hd.finishing hm hfinishing hregistered
          rw [hsame] at hprocessed
          exact .inl hprocessed
        · exact .inr ⟨m, worker, hm, hlive, hregistered, hkey, hsameThread, hsameGeneration, .inr ⟨hsame, hfinishing⟩⟩
    · exact hd.kept other hmem hout
  finishing := hd.finishing

end

end MochiPort

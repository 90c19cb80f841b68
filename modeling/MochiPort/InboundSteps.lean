import MochiPort.InboundSound

namespace MochiPort

namespace InboundSystem

inductive DispatcherMove (s : InboundSystem) : InboundSystem → Prop
  | arrive (conversationKey : String) (hd : s.dispatcher = .idle) :
      DispatcherMove s { s with dispatcher := .ready 0 ⟨conversationKey, s.arrived⟩, arrived := s.arrived + 1 }
  | refuse {attempt : Nat} {message : Inbound} {worker : TelegramInboundWorker} {task : InboundTask}
      {result : SendResult} (hd : s.dispatcher = .ready attempt message)
      (hworker : s.workers.lookup message.conversationKey = some worker)
      (hn : s.tasks.lookup worker.channel = some task) (hresult : result ≠ .ok)
      (hclosed : result = .closed → task.stage = .ended) :
      DispatcherMove s { s with dispatcher := .placed attempt message worker false result }
  | accept {attempt : Nat} {message : Inbound} {worker : TelegramInboundWorker} {task : InboundTask}
      (hd : s.dispatcher = .ready attempt message)
      (hworker : s.workers.lookup message.conversationKey = some worker)
      (hn : s.tasks.lookup worker.channel = some task) (live : task.stage ≠ .ended) :
      DispatcherMove s
        { s.setTask worker.channel { task with queue := task.queue ++ [message] } with
          accepted := s.accepted ++ [message]
          dispatcher := .placed attempt message worker false .ok }
  | hire {attempt : Nat} {message : Inbound} {worker : TelegramInboundWorker}
      (hd : s.dispatcher = .ready attempt message) (hworker : s.workers.lookup message.conversationKey = none)
      (hchannel : worker.channel = s.channels) :
      DispatcherMove s
        { (s.register message.conversationKey worker).setTask worker.channel
            ⟨message.conversationKey, worker.id, .unspawned, [message]⟩ with
          accepted := s.accepted ++ [message]
          dispatcher := .placed attempt message worker true .ok }
  | spawn {attempt : Nat} {message : Inbound} {worker : TelegramInboundWorker} {task : InboundTask}
      {result : SendResult} (hd : s.dispatcher = .placed attempt message worker true result)
      (hn : s.tasks.lookup worker.channel = some task) :
      DispatcherMove s { s.setStage worker.channel task .receiving with
        dispatcher := afterSend attempt message worker result }
  | pass {attempt : Nat} {message : Inbound} {worker : TelegramInboundWorker} {created : Bool}
      {result : SendResult} (hd : s.dispatcher = .placed attempt message worker created result)
      (hcreated : created = true → s.tasks.lookup worker.channel = none) :
      DispatcherMove s { s with dispatcher := afterSend attempt message worker result }
  | removeClosed {attempt : Nat} {message : Inbound} {worker : TelegramInboundWorker}
      (hd : s.dispatcher = .closed attempt message worker) :
      DispatcherMove s (s.removeClosed attempt message worker)

variable {s t : InboundSystem} {n : Nat} {task : InboundTask} {message : Inbound}

theorem offer_cases (attempt : Nat) (message : Inbound) (worker : TelegramInboundWorker) (created : Bool)
    (hn : s.tasks.lookup worker.channel = some task) :
    (∃ result, result ≠ .ok ∧ (result = .closed → task.stage = .ended) ∧
        (result = .full → telegramInboundQueueCapacity ≤ task.queue.length) ∧
        s.offer attempt message worker created =
          { s with dispatcher := .placed attempt message worker created result }) ∨
      task.stage ≠ .ended ∧
        s.offer attempt message worker created =
          { s.setTask worker.channel { task with queue := task.queue ++ [message] } with
            accepted := s.accepted ++ [message]
            dispatcher := .placed attempt message worker created .ok } := by
  by_cases hended : task.stage = .ended
  · have hsend : task.trySend = .closed := if_pos hended
    left
    refine ⟨.closed, by simp, fun _ => hended, by simp, ?_⟩
    simp only [offer, hn, hsend]
  · by_cases hfull : telegramInboundQueueCapacity ≤ task.queue.length
    · have hsend : task.trySend = .full := by
        simp only [InboundTask.trySend, if_neg hended, if_pos hfull]
      left
      refine ⟨.full, by simp, by simp, fun _ => hfull, ?_⟩
      simp only [offer, hn, hsend]
    · have hsend : task.trySend = .ok := by
        simp only [InboundTask.trySend, if_neg hended, if_neg hfull]
      right
      refine ⟨hended, ?_⟩
      simp only [offer, hn, hsend]

theorem dispatcherMove_dispatch (hs : s.Staffed) {attempt : Nat} (hd : s.dispatcher = .ready attempt message) :
    DispatcherMove s (s.dispatch attempt message) := by
  cases hworker : s.workers.lookup message.conversationKey with
  | some worker =>
    obtain ⟨task, hn, _⟩ := hs.registered hworker
    have hdispatch : s.dispatch attempt message = s.offer attempt message worker false := by
      simp only [dispatch, hworker]
    rw [hdispatch]
    rcases offer_cases attempt message worker false hn with ⟨result, hresult, hclosed, _, heq⟩ | ⟨live, heq⟩
    · rw [heq]
      exact .refuse hd hworker hn hresult hclosed
    · rw [heq]
      exact .accept hd hworker hn live
  | none =>
    have hdispatch : s.dispatch attempt message =
        (s.register message.conversationKey s.nextWorker).offer attempt message s.nextWorker true := by
      simp only [dispatch, hworker]
    have hn : (s.register message.conversationKey s.nextWorker).tasks.lookup s.nextWorker.channel =
        some ⟨message.conversationKey, s.nextWorker.id, .unspawned, []⟩ :=
      AList.lookup_insert s.tasks
    rw [hdispatch]
    -- the channel of a new worker is open and empty
    rcases offer_cases attempt message s.nextWorker true hn with ⟨result, hresult, hclosed, hfull, _⟩ | ⟨_, heq⟩
    · cases result with
      | ok => exact absurd rfl hresult
      | full => exact absurd (hfull rfl) (by simp [telegramInboundQueueCapacity])
      | closed => exact absurd (hclosed rfl) (by simp)
    · rw [heq]
      exact .hire hd hworker rfl

theorem taskAt_eq_some {stage : WorkerStage} (h : s.taskAt n stage = some task) :
    s.tasks.lookup n = some task ∧ task.stage = stage := by
  have hfilter := Option.filter_eq_some_iff.mp h
  exact ⟨hfilter.1, of_decide_eq_true hfilter.2⟩

theorem handlingTask_eq_some (h : s.handlingTask n = some task) :
    s.tasks.lookup n = some task ∧ ∃ message, task.stage = .handling message := by
  obtain ⟨hn, hstage⟩ := Option.filter_eq_some_iff.mp h
  refine ⟨hn, ?_⟩
  cases heq : task.stage with
  | handling message => exact ⟨message, rfl⟩
  | _ => simp [heq] at hstage

theorem checkIdle_cases (hs : s.Staffed) {a : InboundStep} (hn : s.tasks.lookup n = some task)
    (hstage : task.stage = .timedOut) : TaskMove s a (s.checkIdle n task) := by
  have hspawned : task.stage ≠ .unspawned := by simp [hstage]
  have hlive : task.stage ≠ .ended := by simp [hstage]
  simp only [checkIdle, hs.isRegistered hn hlive, if_true]
  cases hqueue : task.queue with
  | nil => exact .leave hn hspawned hlive hqueue
  | cons message rest => exact .take hn hspawned hlive hqueue

theorem move_of_step (hs : s.Staffed) {a : InboundStep} (h : s.step a = some t) :
    DispatcherMove s t ∨ TaskMove s a t := by
  cases a with
  | arrive conversationKey =>
    left
    simp only [step] at h
    split at h
    next hd =>
      cases h
      exact .arrive conversationKey hd
    next => cases h
  | dispatch =>
    left
    simp only [step] at h
    split at h
    next hd =>
      cases h
      exact dispatcherMove_dispatch hs hd
    next => cases h
  | spawn =>
    left
    simp only [step] at h
    split at h
    next attempt message worker created result hd =>
      cases h
      cases created with
      | false => exact .pass hd (by simp)
      | true =>
        simp only [if_true, spawnTask]
        cases hn : s.tasks.lookup worker.channel with
        | none => exact .pass hd fun _ => hn
        | some task => exact .spawn hd hn
    next => cases h
  | removeClosed =>
    left
    simp only [step] at h
    split at h
    next hd =>
      cases h
      exact .removeClosed hd
    next => cases h
  | receive n =>
    right
    simp only [step] at h
    split at h
    next task htask =>
      obtain ⟨hn, hstage⟩ := taskAt_eq_some htask
      split at h
      next hqueue =>
        cases h
        refine .take hn ?_ ?_ hqueue <;> simp [hstage]
      next => cases h
    next => cases h
  | disconnect n =>
    simp only [step, Option.map_eq_some_iff, Option.filter_eq_some_iff] at h
    obtain ⟨task, ⟨htask, hsender⟩, _⟩ := h
    obtain ⟨hn, hstage⟩ := taskAt_eq_some htask
    have := hs.hasSender hn (by simp [hstage])
    simp [this] at hsender
  | idleTimeout n =>
    right
    simp only [step, Option.map_eq_some_iff] at h
    obtain ⟨task, htask, rfl⟩ := h
    obtain ⟨hn, hstage⟩ := taskAt_eq_some htask
    refine .stage hn ?_ ?_ (.inl rfl) <;> simp [hstage]
  | checkIdle n =>
    right
    simp only [step, Option.map_eq_some_iff] at h
    obtain ⟨task, htask, rfl⟩ := h
    obtain ⟨hn, hstage⟩ := taskAt_eq_some htask
    exact checkIdle_cases hs hn hstage
  | handled n =>
    right
    simp only [step, Option.map_eq_some_iff] at h
    obtain ⟨task, htask, rfl⟩ := h
    obtain ⟨hn, message, hstage⟩ := handlingTask_eq_some htask
    refine .stage hn ?_ ?_ (.inr rfl) <;> simp [hstage]
  | close n =>
    simp only [step, Option.map_eq_some_iff] at h
    obtain ⟨task, htask, _⟩ := h
    obtain ⟨hn, hstage⟩ := taskAt_eq_some htask
    exact absurd hstage (hs.connected hn)
  | crash n =>
    right
    simp only [step, Option.map_eq_some_iff] at h
    obtain ⟨task, htask, rfl⟩ := h
    obtain ⟨hn, message, hstage⟩ := handlingTask_eq_some htask
    refine .crash hn ?_ ?_ id <;> simp [hstage]

theorem unspawned_afterSend (attempt : Nat) (message : Inbound) (worker : TelegramInboundWorker)
    (result : SendResult) : (afterSend attempt message worker result).unspawned = none := by
  cases result <;> rfl

theorem refused_afterSend (attempt : Nat) (message : Inbound) (worker : TelegramInboundWorker) (created : Bool)
    (result : SendResult) :
    (afterSend attempt message worker result).refused =
      (InboundDispatcher.placed attempt message worker created result).refused := by
  cases result <;> rfl

theorem removeClosed_eq (ha : s.Attended) {attempt : Nat} {worker : TelegramInboundWorker}
    (hd : s.dispatcher = .closed attempt message worker) :
    s.removeClosed attempt message worker =
      { s.unregister message.conversationKey with
        dispatcher := if attempt = 0 then .ready 1 message else .idle } := by
  have hrefused : s.dispatcher.refused = some (message, worker) := by rw [hd]; rfl
  obtain ⟨hworker, _⟩ := ha.refused hrefused
  have hregistered : s.isRegistered message.conversationKey worker.id = true := by
    simp [isRegistered, hworker]
  simp only [removeClosed, hregistered, if_true]

theorem Staffed.dispatch (hs : s.Staffed) (ha : s.Attended) (h : DispatcherMove s t) : t.Staffed := by
  cases h with
  | arrive | refuse | pass => exact hs.congr rfl rfl rfl
  | @accept attempt message worker task hd hworker hn live =>
    obtain ⟨found, hfound, hkey, _⟩ := hs.registered hworker
    rw [hn] at hfound
    injection hfound with hfound
    subst found
    have hset : (s.setTask worker.channel { task with queue := task.queue ++ [message] }).Staffed := by
      refine hs.setTask _ hn rfl rfl ?_ ?_ ?_ ?_
      · intro _
        exact live
      · intro hended
        exact absurd hended live
      · have hconnected := hs.connected hn
        exact hconnected
      · intro m hm
        rcases List.mem_append.mp hm with hm | hm
        · exact hs.keyed hn m hm
        · rw [List.mem_singleton.mp hm, hkey]
    exact hset.congr rfl rfl rfl
  | @hire attempt message worker hd hworker hchannel =>
    have hreg : (s.register message.conversationKey worker).Staffed := hs.register hworker hchannel
    have hn : (s.register message.conversationKey worker).tasks.lookup worker.channel =
        some ⟨message.conversationKey, worker.id, .unspawned, []⟩ :=
      AList.lookup_insert s.tasks
    have hset : ((s.register message.conversationKey worker).setTask worker.channel
        ⟨message.conversationKey, worker.id, .unspawned, [message]⟩).Staffed := by
      refine hreg.setTask _ hn rfl rfl ?_ ?_ ?_ ?_
      · intro _
        simp
      · intro hended
        cases hended
      · simp
      · intro m hm
        rw [List.mem_singleton.mp hm]
    exact hset.congr rfl rfl rfl
  | @spawn attempt message worker task result hd hn =>
    have hstage : task.stage = .unspawned := by
      apply (ha.unspawned hn).mpr
      rw [hd]
      rfl
    have hset : (s.setStage worker.channel task .receiving).Staffed := by
      refine hs.setTask _ hn rfl rfl ?_ ?_ ?_ ?_
      · intro _
        simp [hstage]
      · intro hended
        cases hended
      · simp
      · intro m hm
        exact hs.keyed hn m hm
    exact hset.congr rfl rfl rfl
  | @removeClosed attempt message worker hd =>
    have hrefused : s.dispatcher.refused = some (message, worker) := by rw [hd]; rfl
    obtain ⟨hworker, ended, hended, hstage⟩ := ha.refused hrefused
    have hleft : (s.unregister message.conversationKey).Staffed := by
      apply hs.unregister
      intro other hother found hfound
      rw [hworker] at hother
      injection hother with hother
      subst other
      rw [hended] at hfound
      injection hfound with hfound
      subst found
      exact hstage
    rw [removeClosed_eq ha hd]
    exact hleft.congr rfl rfl rfl

theorem Attended.dispatch (ha : s.Attended) (h : DispatcherMove s t) : t.Attended := by
  cases h with
  | arrive conversationKey hd =>
    constructor
    · intro n task hn
      have hold := ha.unspawned hn
      rw [hd] at hold
      exact hold
    · intro message worker hrefused
      cases hrefused
  | @refuse attempt message worker task result hd hworker hn hresult hclosed =>
    constructor
    · intro m found hfound
      have hold := ha.unspawned hfound
      rw [hd] at hold
      exact hold
    · intro other otherWorker hrefused
      cases result with
      | ok | full => cases hrefused
      | closed =>
        injection hrefused with hrefused
        injection hrefused with hother hworkerEq
        subst other
        subst otherWorker
        exact ⟨hworker, task, hn, hclosed rfl⟩
  | @accept attempt message worker task hd hworker hn live =>
    constructor
    · intro m found hfound
      have hold : ∀ {m found}, s.tasks.lookup m = some found → found.stage ≠ .unspawned := by
        intro m found hfound hstage
        have h := (ha.unspawned hfound).mp hstage
        rw [hd] at h
        cases h
      have hnew : found.stage ≠ .unspawned := by
        have hlookup := (lookup_setTask s worker.channel m _).symm.trans hfound
        split at hlookup
        next =>
          injection hlookup with hlookup
          subst found
          have hspawned := hold hn
          exact hspawned
        next => exact hold hlookup
      exact ⟨fun h => absurd h hnew, fun h => by cases h⟩
    · intro other otherWorker hrefused
      cases hrefused
  | @hire attempt message worker hd hworker hchannel =>
    constructor
    · intro m found hfound
      have hlookup := (lookup_setTask (s.register message.conversationKey worker) worker.channel m _).symm.trans hfound
      split at hlookup
      next heq =>
        injection hlookup with hlookup
        subst found
        subst m
        exact ⟨fun _ => rfl, fun _ => rfl⟩
      next hne =>
        have hold : s.tasks.lookup m = some found := (AList.lookup_insert_ne hne).symm.trans hlookup
        have hstage : found.stage ≠ .unspawned := by
          intro hstage
          have h := (ha.unspawned hold).mp hstage
          rw [hd] at h
          cases h
        refine ⟨fun h => absurd h hstage, fun h => ?_⟩
        injection h with h
        exact absurd h.symm hne
    · intro other otherWorker hrefused
      cases hrefused
  | @spawn attempt message worker task result hd hn =>
    have hunspawned := unspawned_afterSend attempt message worker result
    constructor
    · intro m found hfound
      have hnew : found.stage ≠ .unspawned := by
        have hlookup := (lookup_setTask s worker.channel m _).symm.trans hfound
        split at hlookup
        next =>
          injection hlookup with hlookup
          subst found
          simp
        next hne =>
          intro hstage
          have h := (ha.unspawned hlookup).mp hstage
          rw [hd] at h
          injection h with h
          exact hne h.symm
      exact ⟨fun h => absurd h hnew, fun h => by rw [hunspawned] at h; cases h⟩
    · intro other otherWorker hrefused
      rw [refused_afterSend attempt message worker true result, ← hd] at hrefused
      obtain ⟨hother, ended, hended, hstage⟩ := ha.refused hrefused
      refine ⟨hother, ?_⟩
      have hne : otherWorker.channel ≠ worker.channel := by
        intro heq
        rw [heq, hn] at hended
        injection hended with hended
        subst ended
        have h : task.stage = .unspawned := by
          apply (ha.unspawned hn).mpr
          rw [hd]
          rfl
        rw [h] at hstage
        cases hstage
      exact ⟨ended, (lookup_setTask s worker.channel _ _).trans ((if_neg hne).trans hended), hstage⟩
  | @pass attempt message worker created result hd hcreated =>
    have hunspawned := unspawned_afterSend attempt message worker result
    constructor
    · intro m found hfound
      have hnew : found.stage ≠ .unspawned := by
        intro hstage
        have h := (ha.unspawned hfound).mp hstage
        rw [hd] at h
        cases created with
        | false => cases h
        | true =>
          injection h with h
          subst m
          rw [hcreated rfl] at hfound
          cases hfound
      exact ⟨fun h => absurd h hnew, fun h => by rw [hunspawned] at h; cases h⟩
    · intro other otherWorker hrefused
      rw [refused_afterSend attempt message worker created result, ← hd] at hrefused
      exact ha.refused hrefused
  | @removeClosed attempt message worker hd =>
    rw [removeClosed_eq ha hd]
    constructor
    · intro m found hfound
      have hold := ha.unspawned hfound
      rw [hd] at hold
      refine hold.trans ?_
      split <;> exact Iff.rfl
    · intro other otherWorker hrefused
      split at hrefused <;> cases hrefused

end InboundSystem

end MochiPort

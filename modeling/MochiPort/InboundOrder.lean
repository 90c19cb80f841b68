import MochiPort.InboundSteps

namespace MochiPort

open InboundDispatcher List Runs

namespace InboundSystem

variable {s t : InboundSystem} {n : Nat} {task : InboundTask} {message : Inbound}
  {a : InboundStep}

/-- The dispatcher accepts messages in the order of their arrival. -/
structure Numbered (s : InboundSystem) : Prop where
  increasing : s.accepted.Pairwise fun m m' => m.number < m'.number
  known : ∀ m ∈ s.accepted, m.number < s.arrived
  newest : ∀ message, s.dispatcher.pending = some message →
    message.number < s.arrived ∧ ∀ m ∈ s.accepted, m.number < message.number

/-- The message that a worker handles is the last that left the queue of its conversation. -/
def Current (s : InboundSystem) : Prop :=
  ∀ n task message, s.tasks.lookup n = some task → task.stage = .handling message →
    ∃ before, s.view.settled task.conversationKey = before ++ [(message, .taken)]

structure Sound (s : InboundSystem) : Prop where
  staffed : s.Staffed
  attended : s.Attended
  numbered : s.Numbered
  current : s.Current
  accounted : s.view.Accounted

theorem start_sound : start.Sound where
  staffed := by
    constructor <;> intro _ _ h <;> cases h
  attended := by
    constructor <;> intro _ _ h <;> cases h
  numbered := by
    constructor
    · exact List.Pairwise.nil
    · intro m hm
      cases hm
    · intro message hmessage
      cases hmessage
  current := by
    intro n task message h
    cases h
  accounted := fun _ => rfl

namespace Numbered

theorem keep (hn : s.Numbered) (haccepted : t.accepted = s.accepted) (harrived : t.arrived = s.arrived)
    (hpending : ∀ message, t.dispatcher.pending = some message → s.dispatcher.pending = some message) :
    t.Numbered := by
  constructor
  · rw [haccepted]
    exact hn.increasing
  · rw [haccepted, harrived]
    exact hn.known
  · intro message hmessage
    rw [haccepted, harrived]
    exact hn.newest message (hpending message hmessage)

theorem accept (hn : s.Numbered) (hpending : s.dispatcher.pending = some message)
    (haccepted : t.accepted = s.accepted ++ [message]) (harrived : t.arrived = s.arrived)
    (hnone : t.dispatcher.pending = none) : t.Numbered := by
  obtain ⟨hnumber, hnewest⟩ := hn.newest message hpending
  constructor
  · rw [haccepted]
    apply pairwise_append.mpr
    refine ⟨hn.increasing, by simp, ?_⟩
    intro m hm m' hm'
    rw [mem_singleton.mp hm']
    exact hnewest m hm
  · intro m hm
    rw [haccepted] at hm
    rw [harrived]
    rcases mem_append.mp hm with hm | hm
    · exact hn.known m hm
    · rw [mem_singleton.mp hm]
      exact hnumber
  · intro other hother
    rw [hnone] at hother
    cases hother

theorem dispatch (hn : s.Numbered) (ha : s.Attended) (h : DispatcherMove s t) : t.Numbered := by
  cases h with
  | arrive conversationKey hd =>
    constructor
    · exact hn.increasing
    · intro m hm
      have hknown := hn.known m hm
      exact Nat.lt_succ_of_lt hknown
    · intro message hmessage
      injection hmessage with hmessage
      subst message
      exact ⟨Nat.lt_succ_self s.arrived, hn.known⟩
  | @refuse attempt message worker task result hd hworker hlookup hresult hclosed
  | @spawn attempt message worker task result hd hlookup | @pass attempt message worker created result hd hcreated =>
    refine hn.keep rfl rfl ?_
    intro other hother
    rw [hd]
    cases result with
    | ok | full => cases hother
    | closed => exact hother
  | @accept attempt message worker task hd | @hire attempt message worker hd =>
    refine hn.accept ?_ rfl rfl rfl
    rw [hd]
    rfl
  | @removeClosed attempt message worker hd =>
    rw [removeClosed_eq ha hd]
    refine hn.keep rfl rfl ?_
    intro other hother
    rw [hd]
    split at hother
    · exact hother
    · cases hother

theorem move (hn : s.Numbered) (h : TaskMove s a t) : t.Numbered := by
  cases h with
  | stage | take | leave | crash => exact hn.keep rfl rfl fun _ h => h

end Numbered

namespace Current

theorem keep (hc : s.Current)
    (hold : ∀ n task message, t.tasks.lookup n = some task → task.stage = .handling message →
      t.view.settled task.conversationKey = s.view.settled task.conversationKey ∧
        ∃ old, s.tasks.lookup n = some old ∧ old.stage = .handling message ∧
          old.conversationKey = task.conversationKey) : t.Current := by
  intro n task message hn hstage
  obtain ⟨hsettled, old, holdTask, holdStage, hkey⟩ := hold n task message hn hstage
  rw [hsettled, ← hkey]
  exact hc n old message holdTask holdStage

theorem dispatch (hc : s.Current) (h : DispatcherMove s t) : t.Current := by
  cases h with
  | arrive | refuse | pass => exact hc
  | @accept attempt message worker task hd hworker hlookup live =>
    apply hc.keep
    intro m found handled hfound hstage
    refine ⟨rfl, ?_⟩
    have hnew := (lookup_setTask s worker.channel m _).symm.trans hfound
    split at hnew
    next heq =>
      injection hnew with hnew
      subst found
      subst m
      exact ⟨task, hlookup, hstage, rfl⟩
    next => exact ⟨found, hnew, hstage, rfl⟩
  | @hire attempt message worker hd hworker hchannel =>
    apply hc.keep
    intro m found handled hfound hstage
    refine ⟨rfl, found, ?_, hstage, rfl⟩
    have hnew := (lookup_setTask (s.register message.conversationKey worker) worker.channel m _).symm.trans hfound
    split at hnew
    next =>
      injection hnew with hnew
      subst found
      cases hstage
    next hne => exact (AList.lookup_insert_ne hne).symm.trans hnew
  | @spawn attempt message worker task result hd hlookup =>
    apply hc.keep
    intro m found handled hfound hstage
    refine ⟨rfl, found, ?_, hstage, rfl⟩
    have hnew := (lookup_setTask s worker.channel m _).symm.trans hfound
    split at hnew
    next =>
      injection hnew with hnew
      subst found
      cases hstage
    next => exact hnew
  | @removeClosed attempt message worker hd =>
    simp only [removeClosed]
    split <;> exact hc

theorem move (hc : s.Current) (hs : s.Staffed) (h : TaskMove s a t) : t.Current := by
  cases h with
  | @stage n task stage hn spawned live hstage =>
    apply hc.keep
    intro m found handled hfound hhandling
    refine ⟨rfl, found, ?_, hhandling, rfl⟩
    have hnew := (lookup_setTask s n m _).symm.trans hfound
    split at hnew
    next =>
      injection hnew with hnew
      subst found
      rcases hstage with rfl | rfl <;> cases hhandling
    next => exact hnew
  | @take n task message rest hn spawned live hqueue =>
    have hkey : message.conversationKey = task.conversationKey := by
      apply hs.keyed hn
      rw [hqueue]
      exact mem_cons_self
    have hsettled : (s.takeUp n task message rest).view.settled =
        Function.update s.view.settled task.conversationKey
          (s.view.settled task.conversationKey ++ [(message, .taken)]) := by
      apply Mailboxes.filter_append_of_key fun entry : Inbound × Fate => entry.1.conversationKey
      intro entry hentry
      rw [mem_singleton.mp hentry]
      exact hkey
    intro m found handled hfound hhandling
    have hnew := (lookup_setTask s n m _).symm.trans hfound
    rw [hsettled]
    split at hnew
    next =>
      injection hnew with hnew
      subst found
      injection hhandling with hhandling
      subst handled
      exact ⟨_, Function.update_self ..⟩
    next hne =>
      have hother : found.conversationKey ≠ task.conversationKey := by
        intro heq
        exact hne (hs.alone hnew hn (by simp [hhandling]) live heq)
      rw [Function.update_of_ne hother]
      exact hc m found handled hnew hhandling
  | @leave n task hn spawned live hqueue =>
    apply hc.keep
    intro m found handled hfound hhandling
    have hsettled : ((s.unregister task.conversationKey).endTask n task).view.settled = s.view.settled := by
      simp [view, endTask, setTask, unregister, hqueue]
    refine ⟨congrFun hsettled _, found, ?_, hhandling, rfl⟩
    have hnew := (lookup_setTask s n m _).symm.trans hfound
    split at hnew
    next =>
      injection hnew with hnew
      subst found
      cases hhandling
    next => exact hnew
  | @crash n task hn spawned live crashed =>
    have hsettled : (s.endTask n task).view.settled =
        Function.update s.view.settled task.conversationKey
          (s.view.settled task.conversationKey ++ task.queue.map fun message => (message, .lost)) := by
      apply Mailboxes.filter_append_of_key fun entry : Inbound × Fate => entry.1.conversationKey
      intro entry hentry
      obtain ⟨message, hmessage, rfl⟩ := mem_map.mp hentry
      exact hs.keyed hn message hmessage
    apply hc.keep
    intro m found handled hfound hhandling
    have hnew := (lookup_setTask s n m _).symm.trans hfound
    rw [hsettled]
    split at hnew
    next =>
      injection hnew with hnew
      subst found
      cases hhandling
    next hne =>
      have hother : found.conversationKey ≠ task.conversationKey := by
        intro heq
        exact hne (hs.alone hnew hn (by simp [hhandling]) live heq)
      rw [Function.update_of_ne hother]
      exact ⟨rfl, found, hnew, hhandling, rfl⟩

end Current

section

variable (hs : s.Staffed)
include hs

section

variable (hn : s.tasks.lookup n = some task)
include hn

theorem waiting_of_live (live : task.stage ≠ .ended) : s.waiting task.conversationKey = task.queue := by
  simp [waiting, hs.live hn live, hn]

theorem waiting_setTask (live : task.stage ≠ .ended) (next : InboundTask) :
    (s.setTask n next).waiting = Function.update s.waiting task.conversationKey next.queue := by
  funext key
  by_cases hkey : key = task.conversationKey
  · subst hkey
    have hnew := (lookup_setTask s n n next).trans (if_pos rfl)
    have hworker : (s.setTask n next).workers.lookup task.conversationKey = some ⟨task.id, n⟩ :=
      hs.live hn live
    simp [waiting, hworker, hnew]
  · rw [Function.update_of_ne hkey]
    cases hworker : s.workers.lookup key with
    | none =>
      have hnone : (s.setTask n next).workers.lookup key = none := hworker
      simp only [waiting, hworker, hnone]
    | some worker =>
      obtain ⟨found, hfound, hfoundKey, _⟩ := hs.registered hworker
      have hne : worker.channel ≠ n := by
        intro heq
        rw [heq, hn] at hfound
        injection hfound with hfound
        subst found
        exact hkey hfoundKey.symm
      have hsome : (s.setTask n next).workers.lookup key = some worker := hworker
      simp only [waiting, hworker, hsome, lookup_setTask, if_neg hne]

theorem waiting_setTask_same (live : task.stage ≠ .ended)
    (next : InboundTask) (hqueue : next.queue = task.queue) : (s.setTask n next).waiting = s.waiting := by
  rw [waiting_setTask hs hn live, hqueue, ← waiting_of_live hs hn live]
  exact Function.update_eq_self ..

end

omit hs in
theorem waiting_unregister {key : String} (hempty : s.waiting key = []) : (s.unregister key).waiting = s.waiting := by
  funext other
  by_cases hkey : other = key
  · subst hkey
    rw [hempty]
    simp [waiting, unregister]
  · simp only [waiting, unregister, Table.lookup_erase_eq, if_neg hkey]

theorem waiting_register {key : String} {worker : TelegramInboundWorker}
    (hkey : s.workers.lookup key = none) (hchannel : worker.channel = s.channels) :
    (s.register key worker).waiting = s.waiting := by
  funext other
  by_cases hother : other = key
  · subst hother
    simp [waiting, register, hkey]
  · simp only [waiting, register, Table.lookup_insert_eq, if_neg hother]
    cases hworker : s.workers.lookup other with
    | none => rfl
    | some found =>
      obtain ⟨_, hfound, _⟩ := hs.registered hworker
      have hbound := hs.bounded hfound
      have hne : found.channel ≠ worker.channel := by omega
      simp only [if_neg hne]

theorem view_accept (hn : s.tasks.lookup n = some task) (live : task.stage ≠ .ended)
    (hkey : task.conversationKey = message.conversationKey) {accepted : InboundSystem}
    (hwaiting : accepted.waiting = (s.setTask n { task with queue := task.queue ++ [message] }).waiting)
    (haccepted : accepted.accepted = s.accepted ++ [message]) (hsettled : accepted.settled = s.settled) :
    Mailboxes.Step s.view accepted.view := by
  have hlog : (fun key => (s.accepted ++ [message]).filter fun m => m.conversationKey = key) =
      Function.update s.view.accepted message.conversationKey
        (s.view.accepted message.conversationKey ++ [message]) := by
    apply Mailboxes.filter_append_of_key Inbound.conversationKey
    intro m hm
    rw [mem_singleton.mp hm]
  have hview : accepted.view = s.view.post message.conversationKey message := by
    apply Mailboxes.ext
    · simp only [view, Mailboxes.post, hwaiting, waiting_setTask hs hn live]
      rw [← hkey, waiting_of_live hs hn live]
    · simp only [view, haccepted]
      exact hlog
    · simp only [view, Mailboxes.post, hsettled]
  rw [hview]
  exact .post s.view message.conversationKey message

theorem view_dispatch (ha : s.Attended) (h : DispatcherMove s t) : Mailboxes.Step s.view t.view := by
  cases h with
  | arrive | refuse | pass => exact .same s.view
  | @accept attempt message worker task hd hworker hn live =>
    obtain ⟨found, hfound, hkey, _⟩ := hs.registered hworker
    rw [hn] at hfound
    injection hfound with hfound
    subst found
    refine view_accept hs hn live hkey ?_ ?_ ?_ <;> rfl
  | @hire attempt message worker hd hworker hchannel =>
    have hreg : (s.register message.conversationKey worker).Staffed := hs.register hworker hchannel
    have hn : (s.register message.conversationKey worker).tasks.lookup worker.channel =
        some ⟨message.conversationKey, worker.id, .unspawned, []⟩ :=
      AList.lookup_insert s.tasks
    have hview : (s.register message.conversationKey worker).view = s.view := by
      apply Mailboxes.ext
      · exact waiting_register hs hworker hchannel
      · rfl
      · rfl
    rw [← hview]
    refine view_accept hreg hn (by simp) rfl ?_ ?_ ?_ <;> rfl
  | @spawn attempt message worker task result hd hn =>
    have hstage : task.stage = .unspawned := by
      apply (ha.unspawned hn).mpr
      rw [hd]
      rfl
    have hview : (s.setStage worker.channel task .receiving).view = s.view := by
      apply Mailboxes.ext
      · exact waiting_setTask_same hs hn (by simp [hstage]) { task with stage := .receiving } rfl
      · rfl
      · rfl
    have hsame : Mailboxes.Step s.view (s.setStage worker.channel task .receiving).view := by
      rw [hview]
      exact .same s.view
    exact hsame
  | @removeClosed attempt message worker hd =>
    have hrefused : s.dispatcher.refused = some (message, worker) := by rw [hd]; rfl
    obtain ⟨hworker, ended, hended, hstage⟩ := ha.refused hrefused
    have hempty : s.waiting message.conversationKey = [] := by
      simp [waiting, hworker, hended, hs.spent hended hstage]
    have hview : (s.unregister message.conversationKey).view = s.view := by
      apply Mailboxes.ext
      · exact waiting_unregister hempty
      · rfl
      · rfl
    have hsame : Mailboxes.Step s.view (s.unregister message.conversationKey).view := by
      rw [hview]
      exact .same s.view
    rw [removeClosed_eq ha hd]
    exact hsame

theorem view_move (h : TaskMove s a t) : Mailboxes.Step s.view t.view := by
  cases h with
  | @stage n task stage hn spawned live hstage =>
    have hview : (s.setStage n task stage).view = s.view := by
      apply Mailboxes.ext
      · exact waiting_setTask_same hs hn live { task with stage := stage } rfl
      · rfl
      · rfl
    rw [hview]
    exact .same s.view
  | @take n task message rest hn spawned live hqueue =>
    have hwaiting : s.view.waiting task.conversationKey = message :: rest :=
      (waiting_of_live hs hn live).trans hqueue
    have hview : (s.takeUp n task message rest).view = s.view.take task.conversationKey .taken := by
      apply Mailboxes.ext
      · simp only [Mailboxes.take, hwaiting]
        exact waiting_setTask hs hn live { task with stage := .handling message, queue := rest }
      · rfl
      · simp only [Mailboxes.take, hwaiting]
        apply Mailboxes.filter_append_of_key fun entry : Inbound × Fate => entry.1.conversationKey
        intro entry hentry
        rw [mem_singleton.mp hentry]
        apply hs.keyed hn
        rw [hqueue]
        exact mem_cons_self
    rw [hview]
    exact .take s.view task.conversationKey .taken
  | @leave n task hn spawned live hqueue =>
    have hset : (s.setTask n { task with stage := .ended, queue := [] }).waiting = s.waiting :=
      waiting_setTask_same hs hn live { task with stage := .ended, queue := [] } hqueue.symm
    have hempty : (s.setTask n { task with stage := .ended, queue := [] }).waiting task.conversationKey = [] := by
      rw [hset, waiting_of_live hs hn live, hqueue]
    have hview : ((s.unregister task.conversationKey).endTask n task).view = s.view := by
      apply Mailboxes.ext
      · exact (waiting_unregister hempty).trans hset
      · rfl
      · simp [view, endTask, setTask, unregister, hqueue]
    rw [hview]
    exact .same s.view
  | @crash n task hn spawned live crashed =>
    have hwaiting : s.view.waiting task.conversationKey = task.queue := waiting_of_live hs hn live
    have hview : (s.endTask n task).view = s.view.discard task.conversationKey .lost := by
      apply Mailboxes.ext
      · exact waiting_setTask hs hn live { task with stage := .ended, queue := [] }
      · rfl
      · simp only [Mailboxes.discard, hwaiting]
        apply Mailboxes.filter_append_of_key fun entry : Inbound × Fate => entry.1.conversationKey
        intro entry hentry
        obtain ⟨message, hmessage, rfl⟩ := mem_map.mp hentry
        exact hs.keyed hn message hmessage
    rw [hview]
    exact .discard s.view task.conversationKey .lost

omit hs in
theorem step_sound (hs : s.Sound) (h : s.step a = some t) : t.Sound := by
  rcases move_of_step hs.staffed h with hmove | hmove
  · exact ⟨hs.staffed.dispatch hs.attended hmove, hs.attended.dispatch hmove,
      hs.numbered.dispatch hs.attended hmove, hs.current.dispatch hmove,
      hs.accounted.step (view_dispatch hs.staffed hs.attended hmove)⟩
  · exact ⟨hs.staffed.move hmove, hs.attended.move hs.staffed hmove, hs.numbered.move hmove,
      hs.current.move hs.staffed hmove, hs.accounted.step (view_move hs.staffed hmove)⟩

omit hs in
theorem run_sound {steps : List InboundStep} (hs : s.Sound) (h : run step s steps = some t) : t.Sound :=
  run_invariant Sound (fun _ _ _ hs h => step_sound hs h) hs h

theorem settled_step (ha : s.Attended) (h : s.step a = some t) (hordinary : a.Ordinary) :
    ∃ added, t.settled = s.settled ++ added ∧ ∀ entry ∈ added, entry.2 = .taken := by
  have hsame : t.settled = s.settled → ∃ added, t.settled = s.settled ++ added ∧ ∀ entry ∈ added, entry.2 = .taken := by
    intro heq
    exact ⟨[], heq.trans (append_nil _).symm, by simp⟩
  rcases move_of_step hs h with hmove | hmove
  · apply hsame
    cases hmove with
    | removeClosed hd =>
      rw [removeClosed_eq ha hd]
      rfl
    | _ => rfl
  · cases hmove with
    | stage => exact hsame rfl
    | @take n task message rest hn spawned live hqueue => exact ⟨[(message, .taken)], rfl, by simp⟩
    | leave hn spawned live hqueue =>
      apply hsame
      simp [endTask, setTask, unregister, hqueue]
    | crash hn spawned live crashed => exact absurd hordinary crashed

end

theorem spawn_of_unspawned (ha : s.Attended) (hn : s.tasks.lookup n = some task) (hstage : task.stage = .unspawned) :
    ∃ u, s.step .spawn = some u ∧ u.tasks.lookup n = some { task with stage := .receiving } ∧
      u.settled = s.settled := by
  have hd := (ha.unspawned hn).mp hstage
  match hdispatcher : s.dispatcher with
  | .placed attempt message worker true result =>
    rw [hdispatcher] at hd
    injection hd with hchannel
    subst n
    refine ⟨{ s.setStage worker.channel task .receiving with
      dispatcher := afterSend attempt message worker result }, ?_, ?_, rfl⟩
    · simp only [step, hdispatcher, if_true, spawnTask, hn]
    · exact (lookup_setTask s worker.channel worker.channel _).trans (if_pos rfl)
  | .placed attempt message worker false result => simp [hdispatcher, unspawned] at hd
  | .idle => simp [hdispatcher, unspawned] at hd
  | .ready attempt message => simp [hdispatcher, unspawned] at hd
  | .closed attempt message worker => simp [hdispatcher, unspawned] at hd

theorem receive_eq {rest : List Inbound} (hn : s.tasks.lookup n = some task) (hstage : task.stage = .receiving)
    (hqueue : task.queue = message :: rest) : s.step (.receive n) = some (s.takeUp n task message rest) := by
  have htask : s.taskAt n .receiving = some task := by
    apply Option.filter_eq_some_iff.mpr
    exact ⟨hn, by simp [hstage]⟩
  simp only [step, htask, hqueue]

theorem takes_next (hs : s.Sound) {rest : List Inbound} (hn : s.tasks.lookup n = some task)
    (hqueue : task.queue = message :: rest) :
    ∃ steps t, (∀ a ∈ steps, a.Ordinary) ∧ run step s steps = some t ∧
      t.tasks.lookup n = some { task with stage := .handling message, queue := rest } ∧
      t.settled = s.settled ++ [(message, .taken)] := by
  have hlookup : ∀ (s : InboundSystem) (task : InboundTask),
      (s.takeUp n task message rest).tasks.lookup n =
        some { task with stage := .handling message, queue := rest } := by
    intro s task
    exact (lookup_setTask s n n _).trans (if_pos rfl)
  -- a task that comes to wait at its channel takes the message in the step after
  have hthen : ∀ a u, a.Ordinary → s.step a = some u →
      u.tasks.lookup n = some { task with stage := .receiving } → u.settled = s.settled →
      ∃ steps t, (∀ a ∈ steps, a.Ordinary) ∧ run step s steps = some t ∧
        t.tasks.lookup n = some { task with stage := .handling message, queue := rest } ∧
        t.settled = s.settled ++ [(message, .taken)] := by
    intro a u ha hu hreceiving hsettled
    have hreceive : u.step (.receive n) =
        some (u.takeUp n { task with stage := .receiving } message rest) := receive_eq hreceiving rfl hqueue
    refine ⟨[a, .receive n], u.takeUp n { task with stage := .receiving } message rest, ?_, ?_, hlookup u _, ?_⟩
    · intro b hb
      rcases mem_cons.mp hb with rfl | hb
      · exact ha
      · rw [mem_singleton.mp hb]
        trivial
    · simp [hu, hreceive]
    · rw [← hsettled]
      rfl
  cases hstage : task.stage with
  | unspawned =>
    obtain ⟨u, hu, hreceiving, hsettled⟩ := spawn_of_unspawned hs.attended hn hstage
    exact hthen .spawn u trivial hu hreceiving hsettled
  | receiving =>
    have hreceive := receive_eq hn hstage hqueue
    refine ⟨[.receive n], s.takeUp n task message rest, ?_, ?_, hlookup s task, rfl⟩
    · intro b hb
      rw [mem_singleton.mp hb]
      trivial
    · simp [hreceive]
  | timedOut =>
    have htask : s.taskAt n .timedOut = some task := by
      apply Option.filter_eq_some_iff.mpr
      exact ⟨hn, by simp [hstage]⟩
    have hcheck : s.step (.checkIdle n) = some (s.takeUp n task message rest) := by
      have hregistered := hs.staffed.isRegistered hn (by simp [hstage])
      simp only [step, htask, Option.map_some, checkIdle, hregistered, if_true, hqueue]
    refine ⟨[.checkIdle n], s.takeUp n task message rest, ?_, ?_, hlookup s task, rfl⟩
    · intro b hb
      rw [mem_singleton.mp hb]
      trivial
    · simp [hcheck]
  | handling handled =>
    have htask : s.handlingTask n = some task := by
      apply Option.filter_eq_some_iff.mpr
      exact ⟨hn, by simp [hstage]⟩
    have hhandled : s.step (.handled n) = some (s.setStage n task .receiving) := by
      simp only [step, htask, Option.map_some]
    exact hthen (.handled n) _ trivial hhandled ((lookup_setTask s n n _).trans (if_pos rfl)) rfl
  | closing => exact absurd hstage (hs.staffed.connected hn)
  | ended =>
    rw [hs.staffed.spent hn hstage] at hqueue
    cases hqueue

theorem takes_after (hs : s.Sound) {ahead behind : List Inbound} (hn : s.tasks.lookup n = some task)
    (hqueue : task.queue = ahead ++ message :: behind) :
    ∃ steps t, (∀ a ∈ steps, a.Ordinary) ∧ run step s steps = some t ∧ (message, .taken) ∈ t.settled := by
  induction ahead generalizing s task with
  | nil =>
    obtain ⟨steps, t, hordinary, hrun, _, hsettled⟩ := takes_next hs hn hqueue
    refine ⟨steps, t, hordinary, hrun, ?_⟩
    rw [hsettled]
    simp
  | cons first ahead ih =>
    obtain ⟨steps, u, hordinary, hrun, hnext, _⟩ := takes_next hs hn hqueue
    obtain ⟨later, t, hlaterOrdinary, hlater, hmem⟩ := ih (run_sound hs hrun) hnext rfl
    refine ⟨steps ++ later, t, ?_, run_append_eq_some.mpr ⟨u, hrun, hlater⟩, hmem⟩
    intro a ha
    rcases mem_append.mp ha with ha | ha
    · exact hordinary a ha
    · exact hlaterOrdinary a ha

/-- What holds of the messages and the workers at every moment. -/
structure Orderly (s : InboundSystem) : Prop where
  /-- Each accepted message of a conversation has left the queue once or waits in it, in order. -/
  accounted : ∀ key, s.view.accepted key = (s.view.settled key).map Prod.fst ++ s.waiting key
  increasing : ∀ key, (s.view.accepted key).Pairwise fun m m' => m.number < m'.number
  alone : ∀ n m task other message message', s.tasks.lookup n = some task → s.tasks.lookup m = some other →
    task.conversationKey = other.conversationKey → task.stage = .handling message →
    other.stage = .handling message' → n = m
  /-- The message that is handled is the last that left the queue. -/
  current : s.Current
  /-- Only a worker that dies while it handles a message loses what waits behind it. -/
  kept : ∀ a t, a.Ordinary → s.step a = some t →
    ∃ added, t.settled = s.settled ++ added ∧ ∀ entry ∈ added, entry.2 = .taken
  handled : ∀ key, ∀ message ∈ s.waiting key, ∃ steps t, (∀ a ∈ steps, a.Ordinary) ∧
    run step s steps = some t ∧ (message, .taken) ∈ t.settled

theorem Sound.orderly (hs : s.Sound) : s.Orderly where
  accounted := hs.accounted
  increasing := fun _ => hs.numbered.increasing.filter _
  alone := by
    intro n m task other message message' hn hm hkey hstage hotherStage
    exact hs.staffed.alone hn hm (by simp [hstage]) (by simp [hotherStage]) hkey
  current := hs.current
  kept := fun _ _ hordinary h => settled_step hs.staffed hs.attended h hordinary
  handled := by
    intro key message hmessage
    cases hworker : s.workers.lookup key with
    | none => simp [waiting, hworker] at hmessage
    | some worker =>
      obtain ⟨task, hn, _, _⟩ := hs.staffed.registered hworker
      have hmem : message ∈ task.queue := by simpa [waiting, hworker, hn] using hmessage
      obtain ⟨ahead, behind, hqueue⟩ := append_of_mem hmem
      exact takes_after hs hn hqueue

/-- In every run each conversation's messages are handled once, one after the other and in the order of
their arrival, and a worker that stops for idleness loses none. -/
theorem messages_handled_in_order {steps : List InboundStep} (h : run step start steps = some s) :
    s.Orderly ∧ ((∀ a ∈ steps, a.Ordinary) → ∀ entry ∈ s.settled, entry.2 = .taken) := by
  refine ⟨(run_sound start_sound h).orderly, ?_⟩
  intro hordinary
  have hmeets : Runs.Meets step (fun _ a => a.Ordinary) start steps :=
    meets_of_forall fun a ha _ => hordinary a ha
  have hinv : s.Sound ∧ ∀ entry ∈ s.settled, entry.2 = .taken := by
    refine run_invariant_of_meets (fun s => s.Sound ∧ ∀ entry ∈ s.settled, entry.2 = .taken) ?_ ?_ hmeets h
    · rintro s a t ⟨hs, htaken⟩ ha hstep
      refine ⟨step_sound hs hstep, ?_⟩
      obtain ⟨added, hsettled, hadded⟩ := settled_step hs.staffed hs.attended hstep ha
      rw [hsettled]
      intro entry hentry
      rcases mem_append.mp hentry with hentry | hentry
      · exact htaken entry hentry
      · exact hadded entry hentry
    · exact ⟨start_sound, by simp [start]⟩
  exact hinv.2

/-- A worker's idle timer fires while the dispatcher gives it a message. -/
def idleRace : List InboundStep :=
  [.arrive "chat", .dispatch, .spawn, .receive 0, .handled 0, .idleTimeout 0, .arrive "chat", .dispatch, .spawn,
    .checkIdle 0, .handled 0, .idleTimeout 0, .checkIdle 0]

theorem messages_handled_in_order_idle_race :
    ∃ s, run step start idleRace = some s ∧ (s.settled.map fun entry => entry.1.number) = [0, 1] ∧
      s.Orderly ∧ ∀ entry ∈ s.settled, entry.2 = .taken := by
  have hrun : (run step start idleRace).map (fun s => s.settled.map fun entry => entry.1.number) =
      some [0, 1] := by decide +kernel
  obtain ⟨s, hs, hnumbers⟩ := Option.map_eq_some_iff.mp hrun
  obtain ⟨horderly, htaken⟩ := messages_handled_in_order hs
  exact ⟨s, hs, hnumbers, horderly, htaken (by decide +kernel)⟩

end InboundSystem

end MochiPort

import MochiPort.InboundWorkers

namespace MochiPort

open Table

namespace InboundDispatcher

/-- The channel whose task the dispatcher has yet to spawn. -/
def unspawned : InboundDispatcher → Option Nat
  | .placed _ _ worker true _ => some worker.channel
  | _ => none

/-- The message that a closed channel gave back, with the worker of that channel. -/
def refused : InboundDispatcher → Option (Inbound × TelegramInboundWorker)
  | .placed _ message worker _ .closed => some (message, worker)
  | .closed _ message worker => some (message, worker)
  | _ => none

/-- The message that the dispatcher has yet to place. -/
def pending : InboundDispatcher → Option Inbound
  | .ready _ message => some message
  | dispatcher => dispatcher.refused.map Prod.fst

end InboundDispatcher

namespace InboundSystem

inductive TaskMove (s : InboundSystem) (a : InboundStep) : InboundSystem → Prop
  | stage {n : Nat} {task : InboundTask} {stage : WorkerStage} (hn : s.tasks.lookup n = some task)
      (spawned : task.stage ≠ .unspawned) (live : task.stage ≠ .ended)
      (hstage : stage = .timedOut ∨ stage = .receiving) :
      TaskMove s a (s.setStage n task stage)
  | take {n : Nat} {task : InboundTask} {message : Inbound} {rest : List Inbound}
      (hn : s.tasks.lookup n = some task) (spawned : task.stage ≠ .unspawned) (live : task.stage ≠ .ended)
      (hqueue : task.queue = message :: rest) :
      TaskMove s a (s.takeUp n task message rest)
  | leave {n : Nat} {task : InboundTask} (hn : s.tasks.lookup n = some task)
      (spawned : task.stage ≠ .unspawned) (live : task.stage ≠ .ended) (hqueue : task.queue = []) :
      TaskMove s a ((s.unregister task.conversationKey).endTask n task)
  | crash {n : Nat} {task : InboundTask} (hn : s.tasks.lookup n = some task)
      (spawned : task.stage ≠ .unspawned) (live : task.stage ≠ .ended) (crashed : ¬a.Ordinary) :
      TaskMove s a (s.endTask n task)

/-- The table and the tasks agree: a registered worker has a task, and a task that runs is registered. -/
structure Staffed (s : InboundSystem) : Prop where
  registered : ∀ {key worker}, s.workers.lookup key = some worker →
    ∃ task, s.tasks.lookup worker.channel = some task ∧ task.conversationKey = key ∧ task.id = worker.id
  live : ∀ {n task}, s.tasks.lookup n = some task → task.stage ≠ .ended →
    s.workers.lookup task.conversationKey = some ⟨task.id, n⟩
  bounded : ∀ {n task}, s.tasks.lookup n = some task → n < s.channels
  spent : ∀ {n task}, s.tasks.lookup n = some task → task.stage = .ended → task.queue = []
  connected : ∀ {n task}, s.tasks.lookup n = some task → task.stage ≠ .closing
  keyed : ∀ {n task}, s.tasks.lookup n = some task →
    ∀ message ∈ task.queue, message.conversationKey = task.conversationKey

structure Attended (s : InboundSystem) : Prop where
  unspawned : ∀ {n task}, s.tasks.lookup n = some task →
    (task.stage = .unspawned ↔ s.dispatcher.unspawned = some n)
  refused : ∀ {message worker}, s.dispatcher.refused = some (message, worker) →
    s.workers.lookup message.conversationKey = some worker ∧
      ∃ task, s.tasks.lookup worker.channel = some task ∧ task.stage = .ended

variable {s t : InboundSystem} {n : Nat} {task : InboundTask}
  {a : InboundStep}

theorem lookup_setTask (s : InboundSystem) (n m : Nat) (task : InboundTask) :
    (s.setTask n task).tasks.lookup m = if m = n then some task else s.tasks.lookup m := by
  exact lookup_insert_eq s.tasks n m task

namespace Staffed

section

variable (hs : s.Staffed)
include hs

theorem congr (hworkers : t.workers = s.workers) (htasks : t.tasks = s.tasks)
    (hchannels : t.channels = s.channels) : t.Staffed := by
  constructor
  · rw [hworkers, htasks]
    exact hs.registered
  · rw [hworkers, htasks]
    exact hs.live
  · rw [hchannels, htasks]
    exact hs.bounded
  · rw [htasks]
    exact hs.spent
  · rw [htasks]
    exact hs.connected
  · rw [htasks]
    exact hs.keyed

section

variable (hn : s.tasks.lookup n = some task)
include hn

theorem alone {m : Nat} {other : InboundTask} (hm : s.tasks.lookup m = some other) (live : task.stage ≠ .ended) (otherLive : other.stage ≠ .ended)
    (hkey : task.conversationKey = other.conversationKey) : n = m := by
  have hworker := hs.live hn live
  have hother := hs.live hm otherLive
  rw [hkey, hother] at hworker
  injection hworker with heq
  injection heq with _ hchannel
  exact hchannel.symm

theorem isRegistered (live : task.stage ≠ .ended) : s.isRegistered task.conversationKey task.id = true := by
  simp [InboundSystem.isRegistered, hs.live hn live]

theorem hasSender (live : task.stage ≠ .ended) : s.hasSender n = true := by
  have hfound : (s.workers.findKey? fun worker => worker.channel = n).isSome = true := by
    apply findKey?_isSome.mpr
    exact ⟨_, _, hs.live hn live, by simp⟩
  simp [InboundSystem.hasSender, hfound]

omit hn in
theorem setTask (next : InboundTask) (hn : s.tasks.lookup n = some task)
    (hkey : next.conversationKey = task.conversationKey) (hid : next.id = task.id)
    (hlive : next.stage ≠ .ended → task.stage ≠ .ended) (hspent : next.stage = .ended → next.queue = [])
    (hconnected : next.stage ≠ .closing)
    (hkeyed : ∀ message ∈ next.queue, message.conversationKey = task.conversationKey) :
    (s.setTask n next).Staffed := by
  constructor
  · intro key worker hworker
    obtain ⟨found, hfound, hfoundKey, hfoundId⟩ := hs.registered hworker
    rw [lookup_setTask]
    split
    next heq =>
      rw [heq, hn] at hfound
      injection hfound with hfound
      subst found
      exact ⟨next, rfl, hkey.trans hfoundKey, hid.trans hfoundId⟩
    next => exact ⟨found, hfound, hfoundKey, hfoundId⟩
  · intro m found hfound hfoundLive
    rw [lookup_setTask] at hfound
    split at hfound
    next heq =>
      injection hfound with hfound
      subst found
      subst m
      have hworker := hs.live hn (hlive hfoundLive)
      rw [hkey, hid]
      exact hworker
    next => exact hs.live hfound hfoundLive
  · intro m found hfound
    rw [lookup_setTask] at hfound
    split at hfound
    next heq =>
      subst m
      exact hs.bounded hn
    next => exact hs.bounded hfound
  · intro m found hfound
    rw [lookup_setTask] at hfound
    split at hfound
    next heq =>
      injection hfound with hfound
      subst found
      exact hspent
    next => exact hs.spent hfound
  · intro m found hfound
    rw [lookup_setTask] at hfound
    split at hfound
    next heq =>
      injection hfound with hfound
      subst found
      exact hconnected
    next => exact hs.connected hfound
  · intro m found hfound
    rw [lookup_setTask] at hfound
    split at hfound
    next heq =>
      injection hfound with hfound
      subst found
      rw [hkey]
      exact hkeyed
    next => exact hs.keyed hfound

omit hn in
theorem unregister {key : String} (hended : ∀ worker, s.workers.lookup key = some worker →
      ∀ task, s.tasks.lookup worker.channel = some task → task.stage = .ended) : (s.unregister key).Staffed := by
  constructor
  · intro other worker hworker
    simp only [InboundSystem.unregister, lookup_erase_eq] at hworker
    split at hworker
    · cases hworker
    · exact hs.registered hworker
  · intro m found hfound hlive
    have hworker := hs.live hfound hlive
    have hne : found.conversationKey ≠ key := by
      intro heq
      rw [heq] at hworker
      exact hlive (hended _ hworker found hfound)
    simp only [InboundSystem.unregister, lookup_erase_eq, if_neg hne]
    exact hworker
  · exact hs.bounded
  · exact hs.spent
  · exact hs.connected
  · exact hs.keyed

theorem endTask : (s.endTask n task).Staffed := by
  have hset : (s.setTask n { task with stage := .ended, queue := [] }).Staffed := by
    refine hs.setTask _ hn rfl rfl ?_ ?_ ?_ ?_
    · intro h
      exact absurd rfl h
    · intro _
      rfl
    · simp
    · simp
  exact hset.congr rfl rfl rfl

end

theorem move (h : TaskMove s a t) : t.Staffed := by
  cases h with
  | stage hn spawned live hstage =>
    refine hs.setTask _ hn rfl rfl ?_ ?_ ?_ ?_
    · intro _
      exact live
    · intro heq
      rcases hstage with rfl | rfl <;> cases heq
    · rcases hstage with rfl | rfl <;> simp
    · intro m hm
      exact hs.keyed hn m hm
  | @take n task message rest hn spawned live hqueue =>
    have hset : (s.setTask n { task with stage := .handling message, queue := rest }).Staffed := by
      refine hs.setTask _ hn rfl rfl ?_ ?_ ?_ ?_
      · intro _
        exact live
      · intro heq
        cases heq
      · simp
      · intro m hm
        apply hs.keyed hn
        rw [hqueue]
        exact List.mem_cons_of_mem message hm
    exact hset.congr rfl rfl rfl
  | @leave n task hn spawned live hqueue =>
    have hend : (s.endTask n task).Staffed := hs.endTask hn
    have hleft : ((s.endTask n task).unregister task.conversationKey).Staffed := by
      apply hend.unregister
      intro worker hworker found hfound
      have hown := hs.live hn live
      have heq : worker = ⟨task.id, n⟩ := Option.some.inj (hworker.symm.trans hown)
      subst worker
      have hnew : (s.endTask n task).tasks.lookup n = some { task with stage := .ended, queue := [] } := by
        exact (lookup_setTask s n n _).trans (if_pos rfl)
      rw [hnew] at hfound
      injection hfound with hfound
      subst found
      rfl
    exact hleft.congr rfl rfl rfl
  | crash hn spawned live crashed => exact hs.endTask hn

theorem register {key : String} {worker : TelegramInboundWorker}
    (hkey : s.workers.lookup key = none) (hchannel : worker.channel = s.channels) :
    (s.register key worker).Staffed := by
  have hfresh : ∀ {m found}, s.tasks.lookup m = some found → m ≠ worker.channel := by
    intro m found hfound heq
    have := hs.bounded hfound
    omega
  constructor
  · intro other found hfound
    simp only [InboundSystem.register, lookup_insert_eq] at hfound ⊢
    split at hfound
    next heq =>
      injection hfound with hfound
      subst found
      exact ⟨_, if_pos rfl, heq.symm, rfl⟩
    next =>
      obtain ⟨task, htask, htaskKey, hid⟩ := hs.registered hfound
      rw [if_neg (hfresh htask)]
      exact ⟨task, htask, htaskKey, hid⟩
  · intro m found hfound hlive
    simp only [InboundSystem.register, lookup_insert_eq] at hfound ⊢
    split at hfound
    next heq =>
      injection hfound with hfound
      subst found
      subst m
      exact if_pos rfl
    next =>
      have hworker := hs.live hfound hlive
      rw [if_neg]
      · exact hworker
      · intro heq
        rw [heq, hkey] at hworker
        cases hworker
  · intro m found hfound
    simp only [InboundSystem.register, lookup_insert_eq] at hfound ⊢
    split at hfound
    next => omega
    next =>
      have := hs.bounded hfound
      omega
  · intro m found hfound hended
    simp only [InboundSystem.register, lookup_insert_eq] at hfound
    split at hfound
    next =>
      injection hfound with hfound
      subst found
      rfl
    next => exact hs.spent hfound hended
  · intro m found hfound
    simp only [InboundSystem.register, lookup_insert_eq] at hfound
    split at hfound
    next =>
      injection hfound with hfound
      subst found
      simp
    next => exact hs.connected hfound
  · intro m found hfound
    simp only [InboundSystem.register, lookup_insert_eq] at hfound
    split at hfound
    next =>
      injection hfound with hfound
      subst found
      simp
    next => exact hs.keyed hfound

end

end Staffed

namespace Attended

theorem setTask (ha : s.Attended) (next : InboundTask) (hn : s.tasks.lookup n = some task)
    (spawned : task.stage ≠ .unspawned) (live : task.stage ≠ .ended) (hnext : next.stage ≠ .unspawned) :
    (s.setTask n next).Attended := by
  constructor
  · intro m found hfound
    rw [lookup_setTask] at hfound
    split at hfound
    next heq =>
      injection hfound with hfound
      subst found
      subst m
      have hold := ha.unspawned hn
      exact ⟨fun h => absurd h hnext, fun h => absurd (hold.mpr h) spawned⟩
    next => exact ha.unspawned hfound
  · intro message worker hrefused
    obtain ⟨hworker, ended, hended, hstage⟩ := ha.refused hrefused
    refine ⟨hworker, ended, ?_, hstage⟩
    rw [lookup_setTask, if_neg]
    · exact hended
    · intro heq
      rw [heq, hn] at hended
      injection hended with hended
      subst ended
      exact live hstage

theorem move (ha : s.Attended) (hs : s.Staffed) (h : TaskMove s a t) : t.Attended := by
  cases h with
  | stage hn spawned live hstage =>
    apply ha.setTask _ hn spawned live
    rcases hstage with rfl | rfl <;> simp
  | @take n task message rest hn spawned live hqueue =>
    have hset := ha.setTask { task with stage := .handling message, queue := rest } hn spawned live (by simp)
    exact ⟨hset.unspawned, hset.refused⟩
  | @leave n task hn spawned live hqueue =>
    have hset := ha.setTask { task with stage := .ended, queue := [] } hn spawned live (by simp)
    refine ⟨hset.unspawned, ?_⟩
    intro message worker hrefused
    obtain ⟨hworker, hended⟩ := hset.refused hrefused
    refine ⟨?_, hended⟩
    -- the worker that leaves runs, so it is not the one whose channel was found closed
    have hne : message.conversationKey ≠ task.conversationKey := by
      intro heq
      obtain ⟨_, ended, hended, hstage⟩ := ha.refused hrefused
      have hown := hs.live hn live
      rw [← heq] at hown
      have hchannel : worker = ⟨task.id, n⟩ := Option.some.inj (hworker.symm.trans hown)
      subst worker
      rw [hn] at hended
      injection hended with hended
      subst ended
      exact live hstage
    exact (lookup_erase_eq s.workers _ _).trans ((if_neg hne).trans hworker)
  | @crash n task hn spawned live crashed =>
    have hset := ha.setTask { task with stage := .ended, queue := [] } hn spawned live (by simp)
    exact ⟨hset.unspawned, hset.refused⟩

end Attended

end InboundSystem

end MochiPort

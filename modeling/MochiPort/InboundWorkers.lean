import MochiPort.Mailboxes
import MochiPort.Runs
import MochiPort.TelegramProgress

namespace MochiPort

def telegramInboundQueueCapacity : Nat := 32

/-- A Telegram message, known by its place in the order of arrival. -/
structure Inbound where
  conversationKey : String
  number : Nat
  deriving DecidableEq

/-- A registered worker: its id and the sender's end of its channel. -/
structure TelegramInboundWorker where
  id : Nat
  channel : Nat
  deriving DecidableEq

inductive SendResult where
  | ok
  | full
  | closed
  deriving DecidableEq

/-- Where the task of a worker is. A task that has ended has dropped the receiver of its channel. -/
inductive WorkerStage where
  | unspawned
  | receiving
  | timedOut
  | handling (message : Inbound)
  | closing
  | ended
  deriving DecidableEq

/-- The task of a worker with the receiver's end of its channel. -/
structure InboundTask where
  conversationKey : String
  id : Nat
  stage : WorkerStage
  queue : List Inbound
  deriving DecidableEq

inductive InboundDispatcher where
  | idle
  | ready (attempt : Nat) (message : Inbound)
  | placed (attempt : Nat) (message : Inbound) (worker : TelegramInboundWorker) (created : Bool) (result : SendResult)
  | closed (attempt : Nat) (message : Inbound) (worker : TelegramInboundWorker)
  deriving DecidableEq

inductive Fate where
  | taken
  | lost
  deriving DecidableEq

/-- The dispatcher, the table of workers and their tasks, each under the number of its channel. The last
three fields record, for the statements only, the order of arrival, what the dispatcher accepted and what
left the queues, oldest first. -/
structure InboundSystem where
  workers : Table String TelegramInboundWorker
  tasks : Table Nat InboundTask
  dispatcher : InboundDispatcher
  nextInboundWorkerId : Nat
  channels : Nat
  arrived : Nat
  accepted : List Inbound
  settled : List (Inbound × Fate)

inductive InboundStep where
  | arrive (conversationKey : String)
  | dispatch
  | spawn
  | removeClosed
  | receive (n : Nat)
  | disconnect (n : Nat)
  | idleTimeout (n : Nat)
  | checkIdle (n : Nat)
  | handled (n : Nat)
  | close (n : Nat)
  | crash (n : Nat)
  deriving DecidableEq

namespace InboundStep

/-- Every step but the crash of a worker in the middle of a message. -/
def Ordinary : InboundStep → Prop
  | .crash _ => False
  | _ => True

instance (a : InboundStep) : Decidable a.Ordinary :=
  match a with
  | .crash _ => .isFalse id
  | .arrive _ | .dispatch | .spawn | .removeClosed | .receive _ | .disconnect _ | .idleTimeout _ | .checkIdle _
  | .handled _ | .close _ => .isTrue trivial

end InboundStep

/-- `try_send`: a dropped receiver shows before a full queue does. -/
def InboundTask.trySend (task : InboundTask) : SendResult :=
  if task.stage = .ended then .closed
  else if telegramInboundQueueCapacity ≤ task.queue.length then .full
  else .ok

namespace InboundSystem

def start : InboundSystem := ⟨∅, ∅, .idle, 0, 0, 0, [], []⟩

def setTask (s : InboundSystem) (n : Nat) (task : InboundTask) : InboundSystem :=
  { s with tasks := s.tasks.insert n task }

def setStage (s : InboundSystem) (n : Nat) (task : InboundTask) (stage : WorkerStage) : InboundSystem :=
  s.setTask n { task with stage := stage }

def unregister (s : InboundSystem) (conversationKey : String) : InboundSystem :=
  { s with workers := s.workers.erase conversationKey }

def isRegistered (s : InboundSystem) (conversationKey : String) (id : Nat) : Bool :=
  (s.workers.lookup conversationKey).any fun worker => worker.id = id

def takeUp (s : InboundSystem) (n : Nat) (task : InboundTask) (message : Inbound) (rest : List Inbound) :
    InboundSystem :=
  { s.setTask n { task with stage := .handling message, queue := rest } with
    settled := s.settled ++ [(message, .taken)] }

/-- A task that ends drops its receiver, and what waits in the channel is lost. -/
def endTask (s : InboundSystem) (n : Nat) (task : InboundTask) : InboundSystem :=
  { s.setTask n { task with stage := .ended, queue := [] } with
    settled := s.settled ++ task.queue.map fun message => (message, .lost) }

def offer (s : InboundSystem) (attempt : Nat) (message : Inbound) (worker : TelegramInboundWorker)
    (created : Bool) : InboundSystem :=
  match s.tasks.lookup worker.channel with
  | none => { s with dispatcher := .placed attempt message worker created .closed }
  | some task =>
    match task.trySend with
    | .ok =>
      { s.setTask worker.channel { task with queue := task.queue ++ [message] } with
        accepted := s.accepted ++ [message]
        dispatcher := .placed attempt message worker created .ok }
    | result => { s with dispatcher := .placed attempt message worker created result }

/-- A new worker, whose task the dispatcher spawns when it has released the table. -/
def register (s : InboundSystem) (conversationKey : String) (worker : TelegramInboundWorker) : InboundSystem :=
  { s with
    workers := s.workers.insert conversationKey worker
    tasks := s.tasks.insert worker.channel ⟨conversationKey, worker.id, .unspawned, []⟩
    nextInboundWorkerId := worker.id
    channels := s.channels + 1 }

def nextWorker (s : InboundSystem) : TelegramInboundWorker :=
  ⟨max (saturatingAdd s.nextInboundWorkerId 1) 1, s.channels⟩

/-- The dispatcher finds or makes the worker of the conversation and sends it the message. -/
def dispatch (s : InboundSystem) (attempt : Nat) (message : Inbound) : InboundSystem :=
  match s.workers.lookup message.conversationKey with
  | some worker => s.offer attempt message worker false
  | none => (s.register message.conversationKey s.nextWorker).offer attempt message s.nextWorker true

def spawnTask (s : InboundSystem) (channel : Nat) : InboundSystem :=
  match s.tasks.lookup channel with
  | none => s
  | some task => s.setStage channel task .receiving

def afterSend (attempt : Nat) (message : Inbound) (worker : TelegramInboundWorker) : SendResult → InboundDispatcher
  | .ok => .idle
  | .full => .idle
  | .closed => .closed attempt message worker

def removeClosed (s : InboundSystem) (attempt : Nat) (message : Inbound) (worker : TelegramInboundWorker) :
    InboundSystem :=
  let s := if s.isRegistered message.conversationKey worker.id then s.unregister message.conversationKey else s
  { s with dispatcher := if attempt = 0 then .ready 1 message else .idle }

/-- Whether a sender of the channel is left, in the table or in the dispatcher's hands. -/
def hasSender (s : InboundSystem) (channel : Nat) : Bool :=
  (s.workers.findKey? fun worker => worker.channel = channel).isSome ||
    match s.dispatcher with
    | .placed _ _ worker _ _ => worker.channel = channel
    | .closed _ _ worker => worker.channel = channel
    | _ => false

/-- What a worker does under the lock of the table when its idle timer has fired. -/
def checkIdle (s : InboundSystem) (n : Nat) (task : InboundTask) : InboundSystem :=
  if s.isRegistered task.conversationKey task.id then
    match task.queue with
    | message :: rest => s.takeUp n task message rest
    | [] => (s.unregister task.conversationKey).endTask n task
  else s.endTask n task

def closeTask (s : InboundSystem) (n : Nat) (task : InboundTask) : InboundSystem :=
  if s.isRegistered task.conversationKey task.id then (s.unregister task.conversationKey).endTask n task
  else s.endTask n task

/-- The task of a step, where it is in a stage that allows the step. -/
def taskAt (s : InboundSystem) (n : Nat) (stage : WorkerStage) : Option InboundTask :=
  (s.tasks.lookup n).filter fun task => task.stage = stage

def handlingTask (s : InboundSystem) (n : Nat) : Option InboundTask :=
  (s.tasks.lookup n).filter fun task =>
    match task.stage with
    | .handling _ => true
    | _ => false

def step (s : InboundSystem) : InboundStep → Option InboundSystem
  | .arrive conversationKey =>
    match s.dispatcher with
    | .idle => some { s with dispatcher := .ready 0 ⟨conversationKey, s.arrived⟩, arrived := s.arrived + 1 }
    | _ => none
  | .dispatch =>
    match s.dispatcher with
    | .ready attempt message => some (s.dispatch attempt message)
    | _ => none
  | .spawn =>
    match s.dispatcher with
    | .placed attempt message worker created result =>
      some { if created then s.spawnTask worker.channel else s with
        dispatcher := afterSend attempt message worker result }
    | _ => none
  | .removeClosed =>
    match s.dispatcher with
    | .closed attempt message worker => some (s.removeClosed attempt message worker)
    | _ => none
  | .receive n =>
    match s.taskAt n .receiving with
    | some task =>
      match task.queue with
      | message :: rest => some (s.takeUp n task message rest)
      | [] => none
    | none => none
  | .disconnect n => ((s.taskAt n .receiving).filter fun task => task.queue = [] && !s.hasSender n).map fun task =>
      s.setStage n task .closing
  | .idleTimeout n => (s.taskAt n .receiving).map fun task => s.setStage n task .timedOut
  | .checkIdle n => (s.taskAt n .timedOut).map (s.checkIdle n)
  | .handled n => (s.handlingTask n).map fun task => s.setStage n task .receiving
  | .close n => (s.taskAt n .closing).map (s.closeTask n)
  | .crash n => (s.handlingTask n).map (s.endTask n)

/-- What waits in the channel of the conversation's worker. -/
def waiting (s : InboundSystem) (conversationKey : String) : List Inbound :=
  match s.workers.lookup conversationKey with
  | none => []
  | some worker => ((s.tasks.lookup worker.channel).map (·.queue)).getD []

def view (s : InboundSystem) : Mailboxes String Inbound Fate where
  waiting := s.waiting
  accepted := fun key => s.accepted.filter fun message => message.conversationKey = key
  settled := fun key => s.settled.filter fun entry => entry.1.conversationKey = key

end InboundSystem

end MochiPort

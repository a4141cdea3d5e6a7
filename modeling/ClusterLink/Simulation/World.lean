import ClusterLink.Controller.Dispatch
import ClusterLink.Queue.Wakeup

/-! The world in which the tasks of a controller run: the store and the registries, the queue, a
clock that stands still while anybody can go on, and the tasks with what they wait for. `attempt`
answers a request or says that it has to wait; everything else here only asks it. -/

namespace ClusterLink

/-- A task: its work, and the round that it starts again with when the work is done. -/
structure Task where
  id : TaskId
  /-- The name under which its ending is reported. -/
  label : Option String
  work : Round
  round : Round

/-- A request that waits, made by the task `task` as the `since`th that had to. -/
structure Waiting where
  task : TaskId
  request : Request
  since : Nat
  /-- The place of its deadline in the same count; a deadline keeps the place at which it was first
  waited for. -/
  deadlineSince : Nat

/-- The world. -/
structure World where
  settings : ControllerSettings
  cluster : Cluster
  queue : WorkQueue
  wakeup : Wakeup
  /-- How many reconciles have started. -/
  reconciles : Nat
  /-- How long a call of an operation takes to get through, in milliseconds. -/
  latency : Operation → Nat
  /-- The error that the next listing meets. -/
  listFault : Option StoreError
  /-- Milliseconds from the start. -/
  clock : Nat
  /-- What the store notes as the time of a deletion. -/
  wallClock : Instant
  /-- The readers of the event log with their places. -/
  readers : List (ReaderId × Nat)
  tasks : List Task
  /-- The tasks that can go on, in order. -/
  ready : List TaskId
  waiting : List Waiting
  /-- The deadlines waited for, with their places in the count of waits. -/
  alarms : List (TaskId × Nat × Nat)
  /-- How many requests have had to wait. -/
  waits : Nat
  /-- The next number for a task or a reader. -/
  nextId : Nat
  /-- The main tasks that were told to stop. -/
  stopping : List TaskId
  /-- The main task that was started last. -/
  mainTask : Option TaskId
  /-- The labels and endings of tasks that have ended. -/
  finished : List (String × Ending)

namespace World

/-- The number under which the one who drives the world makes requests. -/
def driver : TaskId := 0

def new (settings : ControllerSettings) (eventCapacity : Nat) (wallClock : Instant) : World where
  settings := settings
  cluster := .new eventCapacity
  queue := .new
  wakeup := .new
  reconciles := 0
  latency _ := 0
  listFault := none
  clock := 0
  wallClock := wallClock
  readers := []
  tasks := []
  ready := []
  waiting := []
  alarms := []
  waits := 0
  nextId := 1
  stopping := []
  mainTask := none
  finished := []

/-- Starts a task that does rounds of work; it gets its turn after those that can go on already. -/
def spawn (w : World) (label : Option String) (round : Round) : TaskId × World :=
  (w.nextId, { w with
    tasks := w.tasks ++ [⟨w.nextId, label, round, round⟩]
    ready := w.ready ++ [w.nextId]
    nextId := w.nextId + 1 })

def subscribe (w : World) : ReaderId × World :=
  (w.nextId, { w with
    readers := w.readers ++ [(w.nextId, w.cluster.store.log.size)]
    nextId := w.nextId + 1 })

/-- Moves a reader of the event log. -/
def setReader (w : World) (reader : ReaderId) (place : Nat) : World :=
  { w with readers := w.readers.map fun r => if r.1 = reader then (reader, place) else r }

/-- All that a reader of the event log has not got yet; it has it all afterwards. -/
def drainReader (w : World) (reader : ReaderId) : List Received × World :=
  match w.readers.lookup reader with
  | some place =>
    (w.cluster.store.log.pending place, w.setReader reader w.cluster.store.log.size)
  | none => ([], w)

def cancel (w : World) (id : TaskId) : World :=
  { w with
    tasks := w.tasks.filter (·.id != id)
    ready := w.ready.filter (· != id)
    waiting := w.waiting.filter (·.task != id)
    wakeup := w.wakeup.leave id }

/-- Answers a request of a task; nothing if it has to wait. -/
def attempt (id : TaskId) : (r : Request) → World → Option (r.Answer × World)
  | .call call, w =>
    let (answer, cluster) := w.cluster.answer call
    some (answer, { w with cluster })
  | .list, w =>
    match w.listFault with
    | some e => some (.error e, { w with listFault := none })
    | none => some (.ok w.cluster.store.associations.values, w)
  | .countReconcile, w => some ((), { w with reconciles := w.reconciles + 1 })
  | .now, w => some (w.clock, w)
  | .reachable op, w => some (w.clock + w.latency op, w)
  | .waitUntil time deadline, w =>
    if time ≤ w.clock then some (true, w)
    else if deadline.any (· ≤ w.clock) then some (false, w)
    else none
  | .enable, w => some ((), { w with wakeup := w.wakeup.enable id })
  | .take, w =>
    let (taken, queue) := w.queue.take
    some (taken, { w with queue })
  | .sleep, w =>
    if w.wakeup.isReady id then some ((), { w with wakeup := w.wakeup.resume id }) else none
  | .leave, w => some ((), { w with wakeup := w.wakeup.leave id })
  | .offer key, w =>
    let (queued, queue) := w.queue.offer key
    some (queued, { w with queue })
  | .notifyOne, w => some ((), { w with wakeup := w.wakeup.notifyOne })
  | .finish key, w =>
    let (queued, queue) := w.queue.finish key
    some (queued, { w with queue })
  | .countFailure key, w =>
    let (failures, queue) := w.queue.countFailure key
    some (failures, { w with queue })
  | .forget key, w => some ((), { w with queue := w.queue.forget key })
  | .shutDown, w => some ((), { w with queue := w.queue.shutDown })
  | .notifyAll, w => some ((), { w with wakeup := w.wakeup.notifyAll })
  | .watchersOf kind key, w => some (w.cluster.watches.watchersOf kind key, w)
  | .subscribe, w => some w.subscribe
  | .receive reader, w =>
    match w.readers.lookup reader with
    | none => none
    | some place =>
      (w.cluster.store.log.next? place).map fun (received, place) =>
        (received, w.setReader reader place)
  | .addLater key delay, w =>
    let time := if delay.nanos = 0 then none else some (w.clock + delay.ceilMillis)
    some ((), (w.spawn none (Controller.addAt time key)).2)
  | .startReader reader, w => some (w.spawn none (Controller.reader reader))
  | .startWorker, w => some (w.spawn none (Controller.worker w.settings))
  | .stopped, w => if w.stopping.contains id then some ((), w) else none
  | .cancel task, w => some ((), w.cancel task)
  | .join task, w => if w.tasks.any (·.id == task) then none else some ((), w)

/-- Whether a request could be answered now. -/
def canAnswer (w : World) (id : TaskId) (r : Request) : Bool := (w.attempt id r).isSome

/-! ## One step of a task -/

def setWork (w : World) (id : TaskId) (work : Round) : World :=
  { w with tasks := w.tasks.map fun t => if t.id = id then { t with work } else t }

def finish (w : World) (t : Task) (ending : Ending) : World :=
  { w with
    tasks := w.tasks.filter (·.id != t.id)
    finished :=
      match t.label with
      | some label => w.finished ++ [(label, ending)]
      | none => w.finished }

/-- One step of a task: an answer to its request, the next round, or its end. Nothing if the task
has to wait or does not exist. -/
def step? (w : World) (id : TaskId) : Option World :=
  match w.tasks.find? (·.id == id) with
  | none => none
  | some t =>
    match t.work with
    | .done none => some (w.setWork id t.round)
    | .done (some ending) => some (w.finish t ending)
    | .ask r next =>
      (w.attempt id r).map fun (answer, w) => w.setWork id (next answer)

end World

end ClusterLink

import ClusterLink.Cluster.Call
import ClusterLink.Queue.Basic
import ClusterLink.Time.Duration

/-! What the tasks of the controller ask of their surroundings: the calls of reconciling, the
sections of the work queue and its waking, the event log, time, and one another. Some requests have
to wait for their answer; each is one step. -/

namespace ClusterLink

/-- A task, a reader of the event log, by number. -/
abbrev TaskId := Nat

abbrev ReaderId := Nat

/-- A request of a task. Times are in milliseconds from the start. -/
inductive Request where
  /-- A call, at once. -/
  | call (call : Call)
  /-- All associations, in the order of their keys. -/
  | list
  /-- Counts the start of a reconcile. -/
  | countReconcile
  /-- The time. -/
  | now
  /-- The time at which a call of an operation that starts now gets through. -/
  | reachable (op : Operation)
  /-- Waits until a time, but not past a deadline; the answer is whether the time has come. -/
  | waitUntil (time : Nat) (deadline : Option Nat)
  /-- Announces that the task will wait for a key. -/
  | enable
  /-- Asks for a key. -/
  | take
  /-- Waits to be woken. -/
  | sleep
  /-- Takes the announcement back. -/
  | leave
  | offer (key : Key)
  | notifyOne
  | finish (key : Key)
  | countFailure (key : Key)
  | forget (key : Key)
  | shutDown
  | notifyAll
  /-- The keys that a change concerns. -/
  | watchersOf (kind : Kind) (key : Key)
  /-- Starts to read the event log. -/
  | subscribe
  /-- Waits for the next event. -/
  | receive (reader : ReaderId)
  /-- Starts a task that adds a key after a delay. -/
  | addLater (key : Key) (delay : Duration)
  /-- Starts the task that turns events into keys. -/
  | startReader (reader : ReaderId)
  /-- Starts a worker. -/
  | startWorker
  /-- Waits for the order to stop. -/
  | stopped
  /-- Ends a task at once. -/
  | cancel (task : TaskId)
  /-- Waits for a task to end. -/
  | join (task : TaskId)

namespace Request

abbrev Answer : Request → Type
  | .call c => c.Answer
  | .list => Except StoreError (List Association)
  | .now | .reachable _ => Nat
  | .waitUntil .. => Bool
  | .take => Taken
  | .offer _ | .finish _ => Bool
  | .countFailure _ => UInt32
  | .watchersOf .. => List Key
  | .subscribe => ReaderId
  | .receive _ => Received
  | .startReader _ | .startWorker => TaskId
  | .countReconcile | .enable | .sleep | .leave | .notifyOne | .forget _ | .shutDown | .notifyAll
  | .addLater .. | .stopped | .cancel _ | .join _ => Unit

end Request

/-- A stretch of work of a task. -/
abbrev Work (α : Type) := Program Request.Answer α

def request (r : Request) : Work r.Answer := Program.request r

/-- Waits until a call of an operation gets through; the answer is whether it did by the
deadline. -/
def reach (op : Operation) (deadline : Option Nat) : Work Bool := do
  let time ← request (.reachable op)
  request (.waitUntil time deadline)

/-- A program of calls as the work of a task: a call waits until it gets through, and nothing is
left of the program once the deadline passes while it waits. -/
def Calls.within (deadline : Option Nat) : Calls α → Work (Option α)
  | .done a => .done (some a)
  | .ask call next =>
    let go : Work (Option α) := .ask (.call call) fun answer => within deadline (next answer)
    match call.operation? with
    | none => go
    | some op => (reach op deadline).bind fun reached => if reached then go else .done none

end ClusterLink

import ClusterLink.Controller.Request
import ClusterLink.Reconcile.Basic
import ClusterLink.Settings.Basic

/-! The controller: a reader turns events into keys and puts them into the work queue, workers take
keys out, reconcile them and schedule what is to happen next, and the main task starts and stops
them all. A task that goes on for ever is a round of finite work, done again and again. -/

namespace ClusterLink

/-- With what a task ends. -/
inductive Ending where
  /-- The key that was waited for. -/
  | key (key : Key)
  /-- The queue was closed. -/
  | shutDown
  /-- Whether a key was processed. -/
  | processed (more : Bool)
  /-- The controller was told to stop, and did. -/
  | stopped
  | failed (error : ControllerError)
  /-- Nothing that anybody waits for. -/
  | quiet
  deriving DecidableEq

/-- A round of work: its ending, or nothing if another round follows. -/
abbrev Round := Work (Option Ending)

namespace Controller

/-! ## The queue -/

/-- Adds a key to the queue, and wakes one who waits for a key. -/
def add (key : Key) : Work Unit := do
  if ← request (.offer key) then request .notifyOne else return ()

/-- Adds a key after a delay that grows with every failure of the key. -/
def addRateLimited (settings : ControllerSettings) (key : Key) : Work Unit := do
  let failures ← request (.countFailure key)
  request (.addLater key (settings.backoff.delay failures))

/-- Gives a key back; if it came in meanwhile it is queued again. -/
def finish (key : Key) : Work Unit := do
  if ← request (.finish key) then request .notifyOne else return ()

/-- Closes the queue, and wakes all who wait for a key. -/
def shutDown : Work Unit := do
  request .shutDown
  request .notifyAll

/-- Tries to get a key. After a wait the answer is `empty`, and one has to try again. -/
def tryGet : Work Taken := do
  request .enable
  match ← request .take with
  | .empty =>
    request .sleep
    return .empty
  | taken =>
    request .leave
    return taken

/-- The task that adds a key at a time; with no time, at once. -/
def addAt (time : Option Nat) (key : Key) : Round := do
  match time with
  | some time =>
    let _ ← request (.waitUntil time none)
    add key
    return some .quiet
  | none =>
    add key
    return some .quiet

/-! ## Workers -/

/-- Reconciles a key, and drops the work when the deadline passes. -/
def reconcileWithDeadline (settings : ControllerSettings) (key : Key) : Work Outcome := do
  let now ← request .now
  request .countReconcile
  match ← (reconcile key).within (some (now + settings.timeout.ceilMillis)) with
  | some outcome => return outcome
  | none => return .failed .done (.timeout settings.timeout)

/-- Schedules the next look at a key: after an error with growing delays, and otherwise as was
decided, with the failures forgotten. -/
def schedule (settings : ControllerSettings) (key : Key) (outcome : Outcome) : Work Unit :=
  match outcome.error with
  | some _ => addRateLimited settings key
  | none => do
    request (.forget key)
    match outcome.decision with
    | ⟨_, some delay⟩ => request (.addLater key delay)
    | ⟨true, none⟩ => addRateLimited settings key
    | ⟨false, none⟩ => return ()

/-- What a worker does with a key. -/
def process (settings : ControllerSettings) (key : Key) : Work Unit := do
  let outcome ← reconcileWithDeadline settings key
  schedule settings key outcome
  finish key

/-- One try to get a key and process it: whether that was done, and nothing after a wait. -/
def processNext (settings : ControllerSettings) : Work (Option Bool) := do
  match ← tryGet with
  | .shutDown => return some false
  | .empty => return none
  | .key key =>
    process settings key
    return some true

/-- A worker: it processes keys until the queue is closed. -/
def worker (settings : ControllerSettings) : Round := do
  match ← processNext settings with
  | some false => return some .quiet
  | _ => return none

def processOnce (settings : ControllerSettings) : Round := do
  match ← processNext settings with
  | some more => return some (.processed more)
  | none => return none

/-- The task that waits for one key. -/
def getOnce : Round := do
  match ← tryGet with
  | .shutDown => return some .shutDown
  | .key key => return some (.key key)
  | .empty => return none

/-! ## Events -/

/-- Adds keys in order. -/
def addAll : List Key → Work Unit
  | [] => .done ()
  | key :: keys => (add key).bind fun () => addAll keys

/-- Adds the key of every stored association. -/
def enqueueAll : Work (Except StoreError Unit) := do
  match ← request .list with
  | .error e => return .error e
  | .ok associations =>
    addAll (associations.map Association.key)
    return .ok ()

/-- Adds the keys that a change concerns: an association itself, and those who watch a cluster or a
Kibana instance. A change of a secret concerns nobody. -/
def handleEvent (e : Event) : Work Unit :=
  match e.kind with
  | .association => add e.key
  | .elasticsearch | .kibana => do
    let keys ← request (.watchersOf e.kind e.key)
    addAll keys
  | .secret => .done ()

/-- The reader of events. One who fell behind adds all associations; that this can fail is passed
over. -/
def reader (id : ReaderId) : Round := do
  match ← request (.receive id) with
  | .event e =>
    handleEvent e
    return none
  | .lagged _ =>
    let _ ← enqueueAll
    return none

/-! ## The main task -/

def startWorkers : Nat → Work (List TaskId)
  | 0 => .done []
  | n + 1 =>
    (request .startWorker).bind fun id => (startWorkers n).bind fun ids => .done (id :: ids)

def joinAll : List TaskId → Work Unit
  | [] => .done ()
  | id :: ids => (request (.join id)).bind fun () => joinAll ids

/-- Runs until told to stop. Reading the log starts before the associations are listed, so no change
falls between. -/
def run (settings : ControllerSettings) : Round := do
  let id ← request .subscribe
  match ← enqueueAll with
  | .error e => return some (.failed (.storage e))
  | .ok () =>
    let readerTask ← request (.startReader id)
    let workers ← startWorkers (max settings.maxConcurrentReconciles.toNat 1)
    request .stopped
    request (.cancel readerTask)
    shutDown
    joinAll workers
    return some .stopped

end Controller

end ClusterLink

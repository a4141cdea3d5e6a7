import ClusterLink.Resource.Object
import ClusterLink.Seed
import ClusterLink.Simulation.Schedule

/-! What the driver of a world can do in it: act on the store from outside, call it as a client, use
the registries, the queue and the controller by hand, start tasks, and let time pass. Each action
answers at once, before the tasks that it lets go on get their turn; `settle` gives it to them. -/

namespace ClusterLink.World

/-- Changes the store, and lets those go on who waited for it. -/
def onStore (w : World) (f : Store → α × Store) : α × World :=
  let (answer, store) := f w.cluster.store
  (answer, { w with cluster := { w.cluster with store } }.wake)

def call (w : World) (c : Call) : c.Answer × World :=
  let (answer, cluster) := w.cluster.answer c
  (answer, { w with cluster }.wake)

/-! ## Actors from outside -/

def apply (w : World) : Object → Object × World
  | .association a => w.onStore fun s => let (a, s) := s.applyAssociation a; (.association a, s)
  | .elasticsearch es =>
    w.onStore fun s => let (es, s) := s.applyElasticsearch es; (.elasticsearch es, s)
  | .kibana kb => w.onStore fun s => let (kb, s) := s.applyKibana kb; (.kibana kb, s)
  | .secret secret =>
    w.onStore fun s => let (secret, s) := s.applySecret secret; (.secret secret, s)

/-- Asks for the deletion of an association. -/
def deleteAssociation (w : World) (key : Key) : Except StoreError Unit × World :=
  w.onStore fun s => s.deleteAssociation w.wallClock key

def delete (w : World) (kind : Kind) (key : Key) : Except StoreError Bool × World :=
  match kind with
  | .association =>
    let (r, w) := w.deleteAssociation key
    (r.map fun () => true, w)
  | .elasticsearch => w.onStore fun s => let (b, s) := s.deleteElasticsearch key; (.ok b, s)
  | .kibana => w.onStore fun s => let (b, s) := s.deleteKibana key; (.ok b, s)
  | .secret => w.onStore fun s => let (b, s) := s.deleteSecret key; (.ok b, s)

/-- Puts the objects of a document into the store. -/
def seed (w : World) (d : SeedDocument) : World := (w.onStore fun s => ((), d.apply s)).2

/-- Makes the next call of an operation fail. -/
def setFault (w : World) (op : Operation) (error : StoreError) : World :=
  (w.onStore fun s => ((), s.setFault op error)).2

/-- Sets how long calls of an operation take to get through. -/
def setLatency (w : World) (op : Operation) (millis : Nat) : World :=
  { w with latency := fun o => if o = op then millis else w.latency o }

def setListFault (w : World) (error : StoreError) : World := { w with listFault := some error }

/-! ## Clients -/

/-- Performs calls as the driver, which wait until they get through. -/
def performCalls (w : World) (p : Calls α) : Option α × World :=
  let (result, w) := perform (p.within none) w
  (result.join, w)

def get (w : World) (kind : Kind) (key : Key) : Option (Except StoreError Object) × World :=
  match kind with
  | .association =>
    w.performCalls ((Program.request (Q := Call) (.getAssociation key)).bind fun r =>
      .done (r.map .association))
  | .elasticsearch =>
    w.performCalls ((Program.request (Q := Call) (.getElasticsearch key)).bind fun r =>
      .done (r.map .elasticsearch))
  | .kibana =>
    w.performCalls ((Program.request (Q := Call) (.getKibana key)).bind fun r =>
      .done (r.map .kibana))
  | .secret =>
    w.performCalls ((Program.request (Q := Call) (.getSecret key)).bind fun r =>
      .done (r.map .secret))

def updateAssociation (w : World) (a : Association) :
    Option (Except StoreError Association) × World :=
  w.performCalls (Program.request (Q := Call) (.updateAssociation a))

def updateAssociationStatus (w : World) (a : Association) :
    Option (Except StoreError Association) × World :=
  w.performCalls (Program.request (Q := Call) (.updateAssociationStatus a))

def updateKibana (w : World) (kb : Kibana) : Option (Except StoreError Kibana) × World :=
  w.performCalls (Program.request (Q := Call) (.updateKibana kb))

def list (w : World) : Option (Except StoreError (List Association)) × World :=
  perform (request .list) w

/-! ## Reconciling by hand -/

/-- A finalizer whose cleanup does nothing, or fails for a reason. -/
def namedFinalizer (name : String) (failure : Option String) : Finalizer where
  name := name
  cleanup :=
    match failure with
    | some reason => .done (.error (.execution name reason))
    | none => .done (.ok ())

/-- Brings finalizers up to date on an association at hand. -/
def finalize (w : World) (a : Association) (finalizers : List Finalizer) :
    Option Finalizer.Report × World :=
  w.performCalls (Finalizer.handle a finalizers)

/-- Brings finalizers up to date on the association under a key. -/
def finalizeStored (w : World) (key : Key) (finalizers : List Finalizer) :
    Option (Except StoreError Finalizer.Report) × World :=
  w.performCalls ((Program.request (Q := Call) (.getAssociation key)).bind fun
    | .error e => .done (.error e)
    | .ok a => (Finalizer.handle a finalizers).bind fun report => .done (.ok report))

/-- Runs the cleanup of an association's own finalizer; the answer is its name. -/
def runWatchFinalizer (w : World) (key : Key) : String × World :=
  let f := Reconcile.watchFinalizer key
  (f.name, { w with cluster := (f.cleanup.alone w.cluster).2 }.wake)

def reconcile (w : World) (key : Key) : Option Outcome × World :=
  let (result, w) := perform
    ((request .countReconcile).bind fun () => (ClusterLink.reconcile key).within none) w
  (result.join, w)

/-- Reconciles a key with the deadline of the settings. -/
def reconcileWithDeadline (w : World) (key : Key) : Option Outcome × World :=
  perform (Controller.reconcileWithDeadline w.settings key) w

/-! ## The queue -/

/-- Adds a key; the answer is the number of keys then queued. -/
def addKey (w : World) (key : Key) : Nat × World :=
  let (_, w) := perform (Controller.add key) w
  (w.queue.size, w)

/-- Gives a key back; the answer is the number of keys then queued. -/
def finishKey (w : World) (key : Key) : Nat × World :=
  let (_, w) := perform (Controller.finish key) w
  (w.queue.size, w)

def addKeyAfter (w : World) (key : Key) (millis : Nat) : World :=
  (perform (request (.addLater key (.ofMillis millis))) w).2

/-- Adds a key after its backoff; the answer is the number of its failures then. -/
def addKeyRateLimited (w : World) (key : Key) : UInt32 × World :=
  let (_, w) := perform (Controller.addRateLimited w.settings key) w
  (w.queue.failureCount key, w)

def forgetKey (w : World) (key : Key) : World := (perform (request (.forget key)) w).2

def shutDownQueue (w : World) : World := (perform Controller.shutDown w).2

/-- Tries to get a key without waiting. A permit that is left over lets one more try follow. -/
def pollKey (w : World) : Taken × World :=
  match tryWith patience Controller.tryGet w with
  | (some .empty, w) =>
    let (taken, w) := tryWith patience Controller.tryGet w
    (taken.getD .empty, w)
  | (taken, w) => (taken.getD .empty, w)

/-! ## The controller -/

/-- Handles an event; the answer is the number of keys then queued. -/
def handleEvent (w : World) (e : Event) : Nat × World :=
  let (_, w) := perform (Controller.handleEvent e) w
  (w.queue.size, w)

/-- Adds all associations; the answer is the number of keys then queued. -/
def enqueueAll (w : World) : Option (Except StoreError Nat) × World :=
  let (r, w) := perform Controller.enqueueAll w
  (r.map fun r => r.map fun () => w.queue.size, w)

/-- Hands what a reader of the log has not got yet to the controller. -/
def pump (w : World) (reader : ReaderId) : List Received × World :=
  let (received, w) := w.drainReader reader
  let w := received.foldl (fun w r =>
    match r with
    | .event e => (w.handleEvent e).2
    | .lagged _ => w) w
  (received, w)

/-- Processes the next key, unless the queue is open and holds none. -/
def processNext (w : World) : Option Bool × World :=
  if w.queue.queue.isEmpty && !w.queue.shuttingDown then (none, w)
  else
    let (r, w) := perform (Controller.processNext w.settings) w
    (r.join, w)

/-! ## Tasks -/

def spawnGet (w : World) (label : String) : World := (w.spawn (some label) Controller.getOnce).2

def spawnProcess (w : World) (label : String) : World :=
  (w.spawn (some label) (Controller.processOnce w.settings)).2

/-- Starts the main task of the controller. -/
def spawnController (w : World) (label : String) : World :=
  let (id, w) := w.spawn (some label) (Controller.run w.settings)
  { w with mainTask := some id }

def stop (w : World) : World :=
  match w.mainTask with
  | some id => { w with stopping := id :: w.stopping }.wake
  | none => w

/-- The endings since the last time, in the order of their labels, which are thereby taken. -/
def takeFinished (w : World) : List (String × Ending) × World :=
  (w.finished.mergeSort fun a b => a.1 ≤ b.1, { w with finished := [] })

/-- The labels of the tasks that still run, in order. -/
def running (w : World) : List String :=
  (w.tasks.filterMap Task.label).mergeSort fun a b => a ≤ b

end ClusterLink.World

import ClusterLink.Simulation.World

/-! Letting the tasks of a world run. Tasks that can go on take turns in the order in which they
came to be able to; each goes on until it has to wait. Time moves only when none can, to the next
moment that somebody waits for; those who wait for the same moment go on in the order in which they
began to wait for it. -/

namespace ClusterLink.World

/-- An upper bound for the steps between two requests of the driver. -/
def patience : Nat := 1000000

/-- The place of a waiting request among those that become answerable at the same time. -/
def Waiting.rank (clock : Nat) (p : Waiting) : Nat :=
  match p.request with
  | .waitUntil time deadline =>
    if time ≤ clock then
      if deadline.any (· ≤ clock) then min p.since p.deadlineSince else p.since
    else p.deadlineSince
  | _ => p.since

/-- Lets those go on whose request can be answered. -/
def wake (w : World) : World :=
  let (able, waiting) := w.waiting.partition fun p => w.canAnswer p.task p.request
  if able.isEmpty then w
  else
    let order := able.mergeSort fun a b => Waiting.rank w.clock a ≤ Waiting.rank w.clock b
    { w with waiting, ready := w.ready ++ order.map Waiting.task }

/-- Makes a request wait. -/
def await (w : World) (id : TaskId) (r : Request) : World :=
  let place := w.waits
  match r with
  | .waitUntil _ (some deadline) =>
    match w.alarms.find? fun a => a.1 = id ∧ a.2.1 = deadline with
    | some alarm =>
      { w with waiting := w.waiting ++ [⟨id, r, place, alarm.2.2⟩], waits := place + 1 }
    | none =>
      { w with
        waiting := w.waiting ++ [⟨id, r, place, place + 1⟩]
        alarms := w.alarms ++ [(id, deadline, place + 1)]
        waits := place + 2 }
  | _ => { w with waiting := w.waiting ++ [⟨id, r, place, place⟩], waits := place + 1 }

/-- Makes a task wait for the answer to its request. -/
def awaitTask (w : World) (id : TaskId) : World :=
  match w.tasks.find? (·.id == id) with
  | some t =>
    match t.work with
    | .ask r _ => w.await id r
    | .done _ => w
  | none => w

/-- Lets tasks run until none can go on or it is the driver's turn. -/
def runReady : Nat → World → World
  | 0, w => w
  | fuel + 1, w =>
    match w.ready with
    | [] => w
    | id :: rest =>
      if id = driver then w
      else
        match w.step? id with
        | some w => runReady fuel w.wake
        | none => runReady fuel ({ w with ready := rest }.awaitTask id)

/-- Lets tasks run until none can go on. -/
def settle (w : World) : World := runReady patience w

/-- The next moment that somebody waits for. -/
def nextMoment? (w : World) : Option Nat :=
  (w.waiting.filterMap fun p =>
    match p.request with
    | .waitUntil time (some deadline) => some (min time deadline)
    | .waitUntil time none => some time
    | _ => none).min?

/-- Moves the clock to a moment. -/
def moveTo (w : World) (moment : Nat) : World := { w with clock := max w.clock moment }.wake

/-- Lets time pass up to a moment, and the tasks run meanwhile. -/
def passUntil : Nat → Nat → World → World
  | 0, _, w => w
  | fuel + 1, target, w =>
    let w := w.settle
    match w.nextMoment? with
    | some moment =>
      if moment ≤ target then passUntil fuel target (w.moveTo moment) else w.moveTo target
    | none => w.moveTo target

def advance (w : World) (millis : Nat) : World := passUntil patience (w.clock + millis) w

/-- Waits until the driver's request can be answered: the tasks run, and time passes. -/
def awaitTurn : Nat → World → World
  | 0, w => w
  | fuel + 1, w =>
    let w := w.settle
    match w.ready with
    | id :: rest => if id = driver then { w with ready := rest } else w
    | [] =>
      match w.nextMoment? with
      | some moment => awaitTurn fuel (w.moveTo moment)
      | none => w

/-- Does work as the driver. The work goes on at once; while it waits, the tasks run and time
passes. Nothing if it waits for ever. -/
def performWith : Nat → Work α → World → Option α × World
  | 0, _, w => (none, w)
  | _ + 1, .done a, w => (some a, w)
  | fuel + 1, .ask r next, w =>
    match w.attempt driver r with
    | some (answer, w) => performWith fuel (next answer) w.wake
    | none =>
      let w := awaitTurn patience (w.await driver r)
      match w.attempt driver r with
      | some (answer, w) => performWith fuel (next answer) w.wake
      | none => (none, w)

/-- Does work as the driver. -/
def perform (work : Work α) (w : World) : Option α × World := performWith patience work w

/-- Does work as the driver as far as it goes without waiting, and drops the rest. -/
def tryWith : Nat → Work α → World → Option α × World
  | 0, _, w => (none, w)
  | _ + 1, .done a, w => (some a, w)
  | fuel + 1, .ask r next, w =>
    match w.attempt driver r with
    | some (answer, w) => tryWith fuel (next answer) w.wake
    | none => (none, { w with wakeup := w.wakeup.leave driver })

end ClusterLink.World

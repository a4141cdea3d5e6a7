import ClusterLink.Key
import ClusterLink.Resource.Kind

/-! The log of changes and those who read it. The log keeps every event; a reader may go back over
the last `capacity` of them only. One who has fallen further behind learns how many it missed and
goes on with the oldest event in reach. -/

namespace ClusterLink

/-- What happened to an object. -/
inductive Action where
  /-- It was created or changed. -/
  | applied
  /-- It was removed. -/
  | deleted
  deriving DecidableEq, Repr

/-- A change of one object. -/
structure Event where
  kind : Kind
  key : Key
  action : Action
  deriving DecidableEq, Repr

/-- All events so far, and how many of the last ones a reader may still read. -/
structure EventLog where
  capacity : Nat
  events : Array Event
  deriving DecidableEq

/-- What a reader of the log gets. -/
inductive Received where
  | event (e : Event)
  /-- So many events were out of reach. -/
  | lagged (missed : Nat)
  deriving DecidableEq

namespace EventLog

/-- The empty log for a wanted capacity, which is made a power of two. -/
def new (wanted : Nat) : EventLog := ⟨(max wanted 1).nextPowerOfTwo, #[]⟩

def append (log : EventLog) (e : Event) : EventLog := { log with events := log.events.push e }

/-- The place of a reader who starts now. -/
def size (log : EventLog) : Nat := log.events.size

/-- What a reader at `place` gets next, and its place afterwards; nothing if it has seen all. -/
def next? (log : EventLog) (place : Nat) : Option (Received × Nat) :=
  if log.size - place > log.capacity then
    let oldest := log.size - log.capacity
    some (.lagged (oldest - place), oldest)
  else
    (log.events[place]?).map fun e => (.event e, place + 1)

/-- All that a reader at `place` has still to get. -/
def pending (log : EventLog) (place : Nat) : List Received :=
  if log.size - place > log.capacity then
    let oldest := log.size - log.capacity
    .lagged (oldest - place) :: (log.events.toList.drop oldest).map .event
  else
    (log.events.toList.drop place).map .event

end EventLog

end ClusterLink

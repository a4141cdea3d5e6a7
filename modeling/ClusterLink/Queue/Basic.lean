import ClusterLink.Key

/-! The work queue. A key waits in it at most once, and is handed to one worker at a time: a key
that comes in while a worker holds it is marked, and queued when the worker is done with it. Each
operation here is one section under the queue's lock; waking those who wait for a key is apart. -/

namespace ClusterLink

/-- The state of the work queue. -/
structure WorkQueue where
  /-- The keys to hand out, the next one first. -/
  queue : List Key
  /-- The keys that came in and were not handed out since. -/
  dirty : List Key
  /-- The keys that workers hold. -/
  processing : List Key
  /-- How often each key failed in a row. -/
  failures : Dict Key UInt32
  shuttingDown : Bool
  deriving DecidableEq

/-- What one who asks for a key is told. -/
inductive Taken where
  | shutDown
  | key (key : Key)
  /-- There is none; wait. -/
  | empty
  deriving DecidableEq

namespace WorkQueue

def new : WorkQueue := ⟨[], [], [], ∅, false⟩

/-- A list with a key that is in it once at the most. -/
def mark (key : Key) (keys : List Key) : List Key :=
  if keys.contains key then keys else key :: keys

/-- A list without a key. -/
def unmark (key : Key) (keys : List Key) : List Key := keys.filter (· != key)

/-- Takes a key in; the answer is whether it was queued. -/
def offer (q : WorkQueue) (key : Key) : Bool × WorkQueue :=
  if q.shuttingDown || q.dirty.contains key then (false, q)
  else
    let q := { q with dirty := mark key q.dirty }
    if q.processing.contains key then (false, q)
    else (true, { q with queue := q.queue ++ [key] })

/-- Hands the next key out. -/
def take (q : WorkQueue) : Taken × WorkQueue :=
  if q.shuttingDown then (.shutDown, q)
  else
    match q.queue with
    | [] => (.empty, q)
    | key :: rest =>
      (.key key, { q with
        queue := rest
        dirty := unmark key q.dirty
        processing := mark key q.processing })

/-- Takes a key back from its worker; the answer is whether it was queued again. -/
def finish (q : WorkQueue) (key : Key) : Bool × WorkQueue :=
  let q := { q with processing := unmark key q.processing }
  if q.dirty.contains key && !q.shuttingDown then
    (true, { q with queue := q.queue ++ [key] })
  else (false, q)

/-- How often a key failed in a row. -/
def failureCount (q : WorkQueue) (key : Key) : UInt32 := (q.failures.find? key).getD 0

/-- Counts a failure; the answer is the count before it. The count ends at the greatest number of 32
bits. -/
def countFailure (q : WorkQueue) (key : Key) : UInt32 × WorkQueue :=
  let n := q.failureCount key
  let next := if n.toNat = UInt32.size - 1 then n else n + 1
  (n, { q with failures := q.failures.insert key next })

def forget (q : WorkQueue) (key : Key) : WorkQueue := { q with failures := q.failures.erase key }

/-- Closes the queue for good. -/
def shutDown (q : WorkQueue) : WorkQueue := { q with shuttingDown := true }

/-- The number of keys to hand out. -/
def size (q : WorkQueue) : Nat := q.queue.length

end WorkQueue

end ClusterLink

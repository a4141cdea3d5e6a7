/-! Waking those who wait. Waking one wakes whoever has waited longest; if nobody waits, a permit is
kept for the next who would. Waking all leaves no permit. One who was woken alone and goes without
having slept passes the waking on. -/

namespace ClusterLink

/-- Who waits and who may go on. A waiter is known by a number. -/
structure Wakeup where
  /-- A waking that met nobody. -/
  permit : Bool
  /-- Those who wait, the longest first. -/
  waiting : List Nat
  /-- Those who were woken alone. -/
  woken : List Nat
  /-- Those who took the permit or were woken with all others. -/
  released : List Nat
  deriving DecidableEq

namespace Wakeup

/-- Nobody waits and no permit is kept. -/
def new : Wakeup := ⟨false, [], [], []⟩

/-- Announces a waiter: it takes the permit if there is one, and waits otherwise. -/
def enable (w : Wakeup) (waiter : Nat) : Wakeup :=
  if w.permit then { w with permit := false, released := w.released ++ [waiter] }
  else { w with waiting := w.waiting ++ [waiter] }

/-- Wakes the one who has waited longest, or keeps a permit. -/
def notifyOne (w : Wakeup) : Wakeup :=
  match w.waiting with
  | [] => { w with permit := true }
  | waiter :: rest => { w with waiting := rest, woken := w.woken ++ [waiter] }

def notifyAll (w : Wakeup) : Wakeup :=
  { w with waiting := [], released := w.released ++ w.waiting }

/-- Whether a waiter may go on. -/
def isReady (w : Wakeup) (waiter : Nat) : Bool :=
  w.woken.contains waiter || w.released.contains waiter

/-- Takes a waiter off all lists. -/
def remove (w : Wakeup) (waiter : Nat) : Wakeup :=
  { w with
    waiting := w.waiting.filter (· != waiter)
    woken := w.woken.filter (· != waiter)
    released := w.released.filter (· != waiter) }

/-- Lets a waiter go on that is ready. -/
def resume (w : Wakeup) (waiter : Nat) : Wakeup := w.remove waiter

/-- Lets a waiter go that did not sleep; a waking meant for it goes to the next. -/
def leave (w : Wakeup) (waiter : Nat) : Wakeup :=
  let passOn := w.woken.contains waiter
  let w := w.remove waiter
  if passOn then w.notifyOne else w

end Wakeup

end ClusterLink

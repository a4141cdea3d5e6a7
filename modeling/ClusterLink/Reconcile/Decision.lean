import ClusterLink.Resource.Association
import ClusterLink.Time.Duration

/-! When a key is to be looked at again. All intervals between two looks, errors apart, are set
here. -/

namespace ClusterLink

/-- What is to happen with a key after it was reconciled. -/
structure Decision where
  requeue : Bool
  after : Option Duration
  deriving DecidableEq

namespace Decision

/-- How long an association waits for something that is missing. -/
def interval : Duration := .ofSeconds 10

/-- How long a paused association waits. -/
def pauseInterval : Duration := .ofSeconds 20

/-- Nothing, until something changes. -/
def done : Decision := ⟨false, none⟩

def afterDelay (delay : Duration) : Decision := ⟨true, some delay⟩

def retry : Decision := afterDelay interval

def paused : Decision := afterDelay pauseInterval

/-- Whether nothing is to happen. -/
def isDone (d : Decision) : Bool := !d.requeue && d.after.isNone

/-- Only a pending association is looked at again unasked. -/
def ofStatus : Status → Decision
  | .pending => retry
  | .established | .failed | .unknown => done

end Decision

end ClusterLink

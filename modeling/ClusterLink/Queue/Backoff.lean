import ClusterLink.Time.Duration

/-! Delays that double with every failure, from a base up to a greatest delay. -/

namespace ClusterLink

/-- The first delay and the greatest one. -/
structure Backoff where
  base : Duration
  max : Duration
  deriving DecidableEq

namespace Backoff

/-- Five milliseconds, doubling up to a thousand seconds. -/
def default : Backoff := ⟨.ofMillis 5, .ofSeconds 1000⟩

/-- How many times the base a delay is after so many failures: a power of two that fits 32 bits, and
the greatest number of 32 bits beyond. -/
def factor (failures : UInt32) : Nat :=
  if failures.toNat < 32 then 1 <<< failures.toNat else UInt32.size - 1

/-- The delay after so many failures. -/
def delay (b : Backoff) (failures : UInt32) : Duration :=
  (b.base.mul (factor failures)).min b.max

end Backoff

end ClusterLink

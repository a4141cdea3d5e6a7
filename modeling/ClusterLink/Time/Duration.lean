import ClusterLink.Text.Digits

/-! Lengths of time in whole nanoseconds, up to 2^64 seconds. Products that pass the limit stay
just below it. The text of a duration uses the largest unit in which it is at least one. -/

namespace ClusterLink

/-- The first number of nanoseconds that is too many. -/
def Duration.limit : Nat := UInt64.size * 1000000000

/-- A length of time. -/
structure Duration where
  nanos : Nat
  nanos_lt : nanos < Duration.limit := by decide
  deriving DecidableEq

namespace Duration

/-- The duration of so many nanoseconds, or the greatest one. -/
def ofNanos (n : Nat) : Duration :=
  ⟨min n (limit - 1), Nat.lt_of_le_of_lt (Nat.min_le_right ..) (by decide)⟩

def ofSeconds (n : Nat) : Duration := ofNanos (n * 1000000000)

def ofMillis (n : Nat) : Duration := ofNanos (n * 1000000)

instance : Inhabited Duration := ⟨ofNanos 0⟩

def seconds (d : Duration) : Nat := d.nanos / 1000000000

/-- Nanoseconds beyond the whole seconds. -/
def subsecond (d : Duration) : Nat := d.nanos % 1000000000

/-- Whole milliseconds, the last one begun counted in. -/
def ceilMillis (d : Duration) : Nat := (d.nanos + 999999) / 1000000

def mul (d : Duration) (factor : Nat) : Duration := ofNanos (d.nanos * factor)

def min (a b : Duration) : Duration := if a.nanos ≤ b.nanos then a else b

/-- A number of units with `places` decimals, zeros at the end left out. -/
def decimal (whole rest places : Nat) : String :=
  let decimals := Text.trimZeros (Text.padded places rest).toList
  if decimals.isEmpty then toString whole
  else toString whole ++ "." ++ String.ofList decimals

/-- The text of a duration, as in `1.5s` and `20ms`. -/
def text (d : Duration) : String :=
  if 1000000000 ≤ d.nanos then decimal d.seconds d.subsecond 9 ++ "s"
  else if 1000000 ≤ d.nanos then decimal (d.nanos / 1000000) (d.nanos % 1000000) 6 ++ "ms"
  else if 1000 ≤ d.nanos then decimal (d.nanos / 1000) (d.nanos % 1000) 3 ++ "µs"
  else toString d.nanos ++ "ns"

@[simp] theorem nanos_ofNanos (n : Nat) : (ofNanos n).nanos = Min.min n (limit - 1) := rfl

end Duration

end ClusterLink

import ClusterLink.Number.Binary64
import ClusterLink.Text.Digits

/-! Numbers read from text: whole ones within a range, and those of double precision, either nearest
to the decimal or by way of 64 bits. -/

namespace ClusterLink.Number

/-- The number that a text of digits names; there is at least one. -/
def digits? (cs : List Char) : Option Nat :=
  if cs.isEmpty || !cs.all Char.isDigit then none else some (Text.valueOf cs)

def sign (cs : List Char) : Bool × List Char :=
  match cs with
  | '-' :: rest => (true, rest)
  | '+' :: rest => (false, rest)
  | _ => (false, cs)

/-- A whole number of 64 bits with a sign. -/
def int64? (cs : List Char) : Option Int := do
  let (negative, rest) := sign cs
  let n ← digits? rest
  let i : Int := if negative then -n else n
  if Int64.minValue.toInt ≤ i ∧ i ≤ Int64.maxValue.toInt then some i else none

/-- A natural number of 64 bits; a plus may stand in front. -/
def uint64? (cs : List Char) : Option UInt64 := do
  let n ← digits? (match cs with | '+' :: rest => rest | _ => cs)
  if n < UInt64.size then some (UInt64.ofNat n) else none

/-- A decimal: its digits without the point, and the power of ten that goes with them. -/
structure Decimal where
  negative : Bool
  digits : Nat
  exponent : Int
  deriving DecidableEq, Repr

/-- The exponent at the end of a decimal, if there is one. -/
def exponent? (cs : List Char) : Option Int :=
  match cs with
  | [] => some 0
  | c :: rest =>
    if c = 'e' ∨ c = 'E' then
      let (negative, rest) := sign rest
      (digits? rest).map fun n => if negative then -(n : Int) else n
    else none

/-- The decimal that a text names: digits with at most one point among them, and an exponent. -/
def decimal? (cs : List Char) : Option Decimal := do
  let (negative, rest) := sign cs
  let whole := rest.takeWhile Char.isDigit
  let rest := rest.drop whole.length
  let (decimals, rest) :=
    match rest with
    | '.' :: rest => (rest.takeWhile Char.isDigit, rest.dropWhile Char.isDigit)
    | _ => ([], rest)
  if whole.isEmpty && decimals.isEmpty then none
  else
    let e ← exponent? rest
    some ⟨negative, Text.valueOf (whole ++ decimals), e - decimals.length⟩

/-- The number of double precision that a text names: the one nearest to a decimal, or a word. -/
def binary64? (cs : List Char) : Option Binary64 :=
  let (negative, rest) := sign cs
  let word := String.ofList (rest.map Char.toLower)
  if word = "inf" ∨ word = "infinity" then some (.infinite negative)
  else if word = "nan" then some .nan
  else (decimal? cs).map fun d => .ofDecimal d.negative d.digits d.exponent

/-! ## By way of 64 bits -/

/-- The first digits, as many as fit 64 bits, and the rest. -/
def headDigits (n : Nat) : List Char → Nat × List Char
  | [] => (n, [])
  | c :: cs =>
    let next := n * 10 + (c.toNat - '0'.toNat)
    if next < UInt64.size then headDigits next cs else (n, c :: cs)

/-- A number times a power of ten, where both are taken at double precision; a power below the least
is applied in steps. Nothing if the product is out of range. -/
def scale (x : Binary64) (exponent : Int) : Nat → Option Binary64
  | 0 => some x
  | fuel + 1 =>
    if 308 < exponent then if x.isZero then some x else none
    else if 0 ≤ exponent then
      match Binary64.ofDecimal false 1 exponent with
      | .finite _ m e =>
        let (num, den) := Binary64.ratio m e
        match (x.timesNat num).overNat den with
        | .infinite _ => none
        | y => some y
      | _ => none
    else if -308 ≤ exponent then
      match Binary64.ofDecimal false 1 (-exponent) with
      | .finite _ m e =>
        let (num, den) := Binary64.ratio m e
        some ((x.timesNat den).overNat num)
      | _ => none
    else if x.isZero then some x
    else
      match Binary64.ofDecimal false 1 308 with
      | .finite _ m e =>
        let (num, den) := Binary64.ratio m e
        scale ((x.timesNat den).overNat num) (exponent + 308) fuel
      | _ => none

/-- The number of double precision that a decimal names by way of 64 bits: of the digits as many
count as fit, and their number is scaled by the power of ten that is left. -/
def viaWord? (cs : List Char) : Option Binary64 := do
  let (negative, rest) := sign cs
  let whole := rest.takeWhile Char.isDigit
  let rest := rest.drop whole.length
  let (decimals, rest) :=
    match rest with
    | '.' :: rest => (rest.takeWhile Char.isDigit, rest.dropWhile Char.isDigit)
    | _ => ([], rest)
  let (n, dropped) := headDigits 0 whole
  let (n, left) := headDigits n decimals
  let shift : Int := dropped.length - (decimals.length - left.length : Nat)
  let e ← exponent? rest
  match ← scale (.ofRatio negative n 1) (shift + e) 8 with
  | .finite _ m x => some (.finite negative m x)
  | y => some y

end ClusterLink.Number

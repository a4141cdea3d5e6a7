import ClusterLink.Number.Binary64
import ClusterLink.Text.Digits

/-! The shortest decimal text of a number of double precision: of the decimals that read back as the
number, those with the fewest digits, and of these the nearest, the greater one in a tie. It is
written out without exponent, and without a point when it is whole. -/

namespace ClusterLink.Binary64

/-- The numbers that read back as `mantissa * 2 ^ exponent` lie between these two quarters of a unit
in the last place: one half unit to both sides, and half of that below a power of two. The ends are
included for an even mantissa. -/
def reach (mantissa : Nat) (exponent : Int) : Nat × Nat :=
  if mantissa = 1 <<< 52 ∧ leastExponent < exponent then (4 * mantissa - 1, 4 * mantissa + 2)
  else (4 * mantissa - 2, 4 * mantissa + 2)

/-- Whether `digits * 10 ^ scale` reads back as `mantissa * 2 ^ exponent`. -/
def readsBack (mantissa : Nat) (exponent : Int) (digits : Nat) (scale : Int) : Bool :=
  let (low, high) := reach mantissa exponent
  let up (a : Nat) : Nat := a * (if 0 ≤ exponent then 1 <<< exponent.toNat else 1)
    * (if scale < 0 then Nat.pow 10 (-scale).toNat else 1)
  let value := 4 * digits * (if exponent < 0 then 1 <<< (-exponent).toNat else 1)
    * (if 0 ≤ scale then Nat.pow 10 scale.toNat else 1)
  if mantissa % 2 = 0 then up low ≤ value && value ≤ up high
  else up low < value && value < up high

/-- The place of the first decimal digit of a positive quotient: the greatest power of ten that is
not above it. The search goes down from a place that is too high. -/
def leadingPlace (num den : Nat) : Nat → Int → Int
  | 0, place => place
  | fuel + 1, place =>
    let fits :=
      if 0 ≤ place then den * Nat.pow 10 place.toNat ≤ num
      else den ≤ num * Nat.pow 10 (-place).toNat
    if fits then place else leadingPlace num den fuel (place - 1)

/-- The shortest decimal with `count` digits or more, as digits and a power of ten. -/
def shortestFrom (mantissa : Nat) (exponent place : Int) (m : Nat) : Nat → Nat → Nat × Int
  | 0, _ => (m, 0)
  | fuel + 1, count =>
    let (num, den) := ratio m exponent
    let scale := place - count + 1
    let (n, d) :=
      if 0 ≤ scale then (num, den * Nat.pow 10 scale.toNat)
      else (num * Nat.pow 10 (-scale).toNat, den)
    let below := n / d
    let above := below + 1
    let lowHit := readsBack m exponent below scale
    let highHit := readsBack m exponent above scale
    if lowHit && highHit then
      if 2 * (n % d) < d then (below, scale) else (above, scale)
    else if lowHit then (below, scale)
    else if highHit then (above, scale)
    else shortestFrom mantissa exponent place m fuel (count + 1)

/-- The shortest decimal of a positive number. -/
def shortest (m : Nat) (exponent : Int) : Nat × Int :=
  let (num, den) := ratio m exponent
  let start : Int := ((Nat.log2 num : Int) - Nat.log2 den) / 3 + 2
  shortestFrom m exponent (leadingPlace num den 1500 start) m 20 1

/-- A decimal written out. -/
def positional (digits : Nat) (scale : Int) : String :=
  let ds := Nat.toDigits 10 digits
  if 0 ≤ scale then String.ofList (ds ++ List.replicate scale.toNat '0')
  else
    let places := (-scale).toNat
    let padded := List.replicate (places + 1 - ds.length) '0' ++ ds
    let whole := padded.take (padded.length - places)
    let decimals := Text.trimZeros (padded.drop (padded.length - places))
    String.ofList (if decimals.isEmpty then whole else whole ++ '.' :: decimals)

def text : Binary64 → String
  | .nan => "NaN"
  | .infinite negative => if negative then "-inf" else "inf"
  | .finite negative m e =>
    let unsigned :=
      if m = 0 then "0"
      else
        let (digits, scale) := shortest m e
        positional digits scale
    if negative then "-" ++ unsigned else unsigned

end ClusterLink.Binary64

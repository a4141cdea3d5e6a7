import ClusterLink.Number.Reading
import ClusterLink.Time.Instant
import ClusterLink.Toml.Basic
import ClusterLink.Toml.Quoted

/-! Values in TOML that hold no others: texts, numbers, truth values, dates and times of day. -/

namespace ClusterLink.Toml.Grammar

/-! ## Numbers -/

/-- Digits of a class; a line may stand between two of them. -/
def digits (p : Char → Bool) : Scan (List Char) := do
  return (← Scan.charIn p) :: (← Scan.many (Scan.charIn p <|> do Scan.char '_'; Scan.charIn p))

/-- A sign, if there is one; whether it is a minus. -/
def minus : Scan Bool := do
  return (← Scan.optional (Scan.charIn fun c => c == '+' || c == '-')) == some '-'

/-- The whole part of a number in decimal digits, without needless zeros. -/
def wholePart : Scan (List Char) :=
  (do Scan.char '0'; return ['0']) <|> digits Char.isDigit

/-- The power of ten at the end of a number. -/
def power : Scan Int := do
  let _ ← Scan.charIn fun c => c == 'e' || c == 'E'
  let negative ← minus
  let n := Text.valueOf (← digits Char.isDigit)
  return if negative then -n else n

/-- A number with decimals, a power of ten or both. One too large for any number is refused. -/
def decimalFloat : Scan Binary64 := do
  let negative ← minus
  let whole ← wholePart
  let decimals ← Scan.optional do Scan.char '.'; digits Char.isDigit
  let exponent ← Scan.optional power
  if decimals.isNone && exponent.isNone then failure
  else
    let decimals := decimals.getD []
    let value := Binary64.ofDecimal negative (Text.valueOf (whole ++ decimals))
      (exponent.getD 0 - decimals.length)
    if value == .infinite false then failure else return value

/-- The words for what is no finite number. -/
def wordFloat : Scan Binary64 := do
  let negative ← minus
  (do Scan.word ['i', 'n', 'f']; return .infinite negative) <|>
    (do Scan.word ['n', 'a', 'n']; return .nan)

/-- A number of 64 bits with a sign. -/
def bounded (value : Int) : Scan Int :=
  if Int64.minValue.toInt ≤ value ∧ value ≤ Int64.maxValue.toInt then return value else failure

def decimalInteger : Scan Int := do
  let negative ← minus
  let n := Text.valueOf (← wholePart)
  bounded (if negative then -n else n)

/-- A whole number in digits of another base, after a zero and the letter of the base. -/
def basedInteger (letter : Char) (base : Nat) (p : Char → Bool) : Scan Int := do
  Scan.word ['0', letter]
  bounded ((← digits p).foldl (fun n c => n * base + hexValue c) 0 : Nat)

def integer : Scan Int :=
  basedInteger 'x' 16 isHexDigit <|>
    basedInteger 'o' 8 (fun c => '0' ≤ c && c ≤ '7') <|>
    basedInteger 'b' 2 (fun c => c == '0' || c == '1') <|>
    decimalInteger

/-! ## Dates and times -/

/-- A number of so many digits, in a range. -/
def field (count least most : Nat) : Scan Nat := do
  let n := Text.valueOf (← Scan.charsIn Char.isDigit count)
  if least ≤ n ∧ n ≤ most then return n else failure

/-- A date of the calendar. -/
def date : Scan String := do
  let year ← field 4 0 9999
  Scan.char '-'
  let month ← field 2 1 12
  Scan.char '-'
  let day ← field 2 1 (daysIn year month)
  return Text.padded 4 year ++ "-" ++ Text.padded 2 month ++ "-" ++ Text.padded 2 day

/-- A time of day; of the decimals of its second nine count, and those that are zeros at the end are
left out. -/
def timeOfDay : Scan String := do
  let hour ← field 2 0 23
  Scan.char ':'
  let minute ← field 2 0 59
  Scan.char ':'
  let second ← field 2 0 60
  let decimals ← Scan.optional do Scan.char '.'; Scan.someChars Char.isDigit
  let decimals := Text.trimZeros ((decimals.getD []).take 9)
  return Text.padded 2 hour ++ ":" ++ Text.padded 2 minute ++ ":" ++ Text.padded 2 second ++
    (if decimals.isEmpty then "" else "." ++ String.ofList decimals)

def offset : Scan String :=
  (do let _ ← Scan.charIn fun c => c == 'Z' || c == 'z'; return "Z") <|> do
    let sign ← Scan.charIn fun c => c == '+' || c == '-'
    let hours ← field 2 0 23
    Scan.char ':'
    let minutes ← field 2 0 59
    let sign := if hours = 0 ∧ minutes = 0 then '+' else sign
    return String.ofList [sign] ++ Text.padded 2 hours ++ ":" ++ Text.padded 2 minutes

/-- A time of day after a date, with the offset if there is one. -/
def timeAfterDate : Scan String := do
  let _ ← Scan.charIn fun c => c == 'T' || c == 't' || c == ' '
  let time ← timeOfDay
  return "T" ++ time ++ (← Scan.optional offset).getD ""

/-- A date, a time of day, or both. -/
def moment : Scan String :=
  (do return (← date) ++ (← Scan.optional timeAfterDate).getD "") <|> timeOfDay

/-- A value that holds no others. -/
def scalar : Scan Toml :=
  (return .text (← quoted)) <|>
    (return .moment (← moment)) <|>
    (return .float (← decimalFloat <|> wordFloat)) <|>
    (return .integer (← integer)) <|>
    (do Scan.word ['t', 'r', 'u', 'e']; return .bool true) <|>
    (do Scan.word ['f', 'a', 'l', 's', 'e']; return .bool false)

end ClusterLink.Toml.Grammar

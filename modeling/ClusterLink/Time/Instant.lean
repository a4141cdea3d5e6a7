import ClusterLink.Text.Digits
import ClusterLink.Text.Space

/-! Instants as dates and times of day in UTC, with nanoseconds and room for a leap second. Their
text is that of RFC 3339; `read?` also takes the usual looser spellings: one-digit months, blanks
between the parts, a blank for the `T`, any number of decimals, and an offset from UTC. -/

namespace ClusterLink

/-- Whether a year has a 29th of February. -/
def isLeapYear (year : Int) : Bool := year % 4 == 0 && (year % 100 != 0 || year % 400 == 0)

/-- The number of days of a month. -/
def daysIn (year : Int) (month : Nat) : Nat :=
  if month = 2 then if isLeapYear year then 29 else 28
  else if month = 4 ∨ month = 6 ∨ month = 9 ∨ month = 11 then 30
  else 31

/-- An instant: date and time of day in UTC. The second 60 is a leap second. -/
structure Instant where
  year : Int
  month : Nat
  day : Nat
  hour : Nat
  minute : Nat
  second : Nat
  nano : Nat
  valid : (-262143 ≤ year ∧ year ≤ 262142) ∧ (1 ≤ month ∧ month ≤ 12) ∧
    (1 ≤ day ∧ day ≤ daysIn year month) ∧ hour < 24 ∧ minute < 60 ∧ second ≤ 60 ∧
    nano < 1000000000
  deriving DecidableEq

namespace Instant

/-- The first moment of the year 1970. -/
def epoch : Instant := ⟨1970, 1, 1, 0, 0, 0, 0, by decide⟩

instance : Inhabited Instant := ⟨epoch⟩

/-- The instant with the given date and time, if the calendar has it. -/
def of? (year : Int) (month day hour minute second nano : Nat) : Option Instant :=
  if h : (-262143 ≤ year ∧ year ≤ 262142) ∧ (1 ≤ month ∧ month ≤ 12) ∧
      (1 ≤ day ∧ day ≤ daysIn year month) ∧ hour < 24 ∧ minute < 60 ∧ second ≤ 60 ∧
      nano < 1000000000 then
    some ⟨year, month, day, hour, minute, second, nano, h⟩
  else none

def dayBefore (year : Int) (month day : Nat) : Int × Nat × Nat :=
  if 1 < day then (year, month, day - 1)
  else if 1 < month then (year, month - 1, daysIn year (month - 1))
  else (year - 1, 12, 31)

def dayAfter (year : Int) (month day : Nat) : Int × Nat × Nat :=
  if day < daysIn year month then (year, month, day + 1)
  else if month < 12 then (year, month + 1, 1)
  else (year + 1, 1, 1)

/-- The instant at which clocks so many minutes ahead of UTC, by less than a day, show what `t`
shows in UTC. -/
def aheadBy? (t : Instant) (minutes : Int) : Option Instant :=
  let m := (t.hour * 60 + t.minute : Int) - minutes
  let (year, month, day) :=
    if m < 0 then dayBefore t.year t.month t.day
    else if 1440 ≤ m then dayAfter t.year t.month t.day
    else (t.year, t.month, t.day)
  let m := (m % 1440).toNat
  of? year month day (m / 60) (m % 60) t.second t.nano

/-! ## Writing -/

/-- Four digits for the years 0 to 9999; a sign and at least four digits for all others. -/
def yearText (year : Int) : String :=
  if 0 ≤ year ∧ year ≤ 9999 then Text.padded 4 year.toNat
  else (if year < 0 then "-" else "+") ++ Text.padded 4 year.natAbs

/-- The decimals of a second: none, three, six or nine, whatever is exact. -/
def decimals (nano : Nat) : String :=
  if nano = 0 then ""
  else if nano % 1000000 = 0 then "." ++ Text.padded 3 (nano / 1000000)
  else if nano % 1000 = 0 then "." ++ Text.padded 6 (nano / 1000)
  else "." ++ Text.padded 9 nano

/-- The text of an instant, as in `2024-01-01T00:00:00.500Z`. -/
def text (t : Instant) : String :=
  yearText t.year ++ "-" ++ Text.padded 2 t.month ++ "-" ++ Text.padded 2 t.day ++ "T" ++
    Text.padded 2 t.hour ++ ":" ++ Text.padded 2 t.minute ++ ":" ++ Text.padded 2 t.second ++
    decimals t.nano ++ "Z"

/-! ## Reading -/

/-- One of the given characters, with the rest. -/
def oneOf? (allowed : List Char) : List Char → Option (List Char)
  | [] => none
  | c :: cs => if allowed.contains c then some cs else none

/-- A year: up to four digits, or a sign and any number of them; white space may precede. -/
def year? (cs : List Char) : Option (Int × List Char) :=
  match Text.skipSpace cs with
  | '-' :: rest => (Text.natural? rest.length rest).map fun (n, rest) => (-(n : Int), rest)
  | '+' :: rest => (Text.natural? rest.length rest).map fun (n, rest) => ((n : Int), rest)
  | rest => (Text.natural? 4 rest).map fun (n, rest) => ((n : Int), rest)

/-- A field of at most two digits; white space may precede. -/
def field? (cs : List Char) : Option (Nat × List Char) :=
  Text.natural? 2 (Text.skipSpace cs)

/-- A separator; white space may precede. -/
def separator? (c : Char) (cs : List Char) : Option (List Char) :=
  oneOf? [c] (Text.skipSpace cs)

/-- The decimals of a second, if a point follows; those after the ninth are dropped. -/
def nano? : List Char → Option (Nat × List Char)
  | '.' :: cs =>
    let digits := cs.takeWhile Char.isDigit
    if digits.isEmpty then none
    else
      let nine := (digits ++ List.replicate 9 '0').take 9
      some (Text.valueOf nine, cs.drop digits.length)
  | cs => some (0, cs)

/-- Two digits of which the first is at most `most`. -/
def twoDigits? (most : Char) : List Char → Option (Nat × List Char)
  | a :: b :: rest =>
    if a.isDigit ∧ a ≤ most ∧ b.isDigit then some (Text.valueOf [a, b], rest) else none
  | _ => none

/-- An offset in minutes: `Z`, `UTC`, or a sign with hours and minutes. -/
def offset? (cs : List Char) : Option (Int × List Char) :=
  match cs with
  | [] => none
  | c :: rest =>
    if c = 'Z' ∨ c = 'z' then some (0, rest)
    else if (cs.take 3).map Char.toUpper = ['U', 'T', 'C'] then some (0, cs.drop 3)
    else if c = '+' ∨ c = '-' ∨ c = '\u2212' then do
      let (hours, rest) ← twoDigits? '9' rest
      let (minutes, rest) ←
        twoDigits? '5' (rest.dropWhile fun c => c == ':' || Text.isSpace c)
      let total := hours * 60 + minutes
      if total < 1440 then some (if c = '+' then (total : Int) else -(total : Int), rest) else none
    else none

def read? (s : String) : Option Instant := do
  let (year, cs) ← year? s.toList
  let (month, cs) ← field? (← separator? '-' cs)
  let (day, cs) ← field? (← separator? '-' cs)
  let (hour, cs) ← field? (← oneOf? ['T', 't', ' '] cs)
  let (minute, cs) ← field? (← separator? ':' cs)
  let (second, cs) ← field? (← separator? ':' cs)
  let (nano, cs) ← nano? cs
  let (minutes, cs) ← offset? (Text.skipSpace cs)
  if (Text.skipSpace cs).isEmpty then
    (← of? year month day hour minute second nano).aheadBy? minutes
  else none

end Instant

end ClusterLink

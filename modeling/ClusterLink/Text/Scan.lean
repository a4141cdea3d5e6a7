/-! Scanners: they read the front of a text and leave the rest, or fail. A scanner that fails takes
nothing, so another may be tried in its place. -/

namespace ClusterLink

abbrev Scan := StateT (List Char) Option

namespace Scan

def charIn (p : Char → Bool) : Scan Char
  | [] => none
  | c :: rest => if p c then some (c, rest) else none

def char (c : Char) : Scan Unit := do let _ ← charIn (· == c)

def word (w : List Char) : Scan Unit := fun cs =>
  if w.isPrefixOf cs then some ((), cs.drop w.length) else none

/-- All characters of a class up to the first other one. -/
def chars (p : Char → Bool) : Scan (List Char) := fun cs => some (cs.takeWhile p, cs.dropWhile p)

/-- All characters of a class up to the first other one; there is at least one. -/
def someChars (p : Char → Bool) : Scan (List Char) := do
  let found ← chars p
  if found.isEmpty then failure else return found

/-- So many characters of a class. -/
def charsIn (p : Char → Bool) : Nat → Scan (List Char)
  | 0 => return []
  | count + 1 => return (← charIn p) :: (← charsIn p count)

/-- What a scanner reads, if it does not fail. -/
def optional (p : Scan α) : Scan (Option α) := fun cs =>
  match p cs with
  | some (a, rest) => some (some a, rest)
  | none => some (none, cs)

/-- A scanner applied until it fails, at most so many times. -/
def upTo (p : Scan α) : Nat → Scan (List α)
  | 0 => return []
  | count + 1 => fun cs =>
    match p cs with
    | none => some ([], cs)
    | some (a, rest) => (upTo p count rest).map fun (found, rest) => (a :: found, rest)

/-- A scanner applied until it fails. One that succeeds takes a character at least, so there are no
more results than characters. -/
def many (p : Scan α) : Scan (List α) := fun cs => upTo p cs.length cs

/-- What a scanner reads, again and again, with a separator in between. -/
def separated (p : Scan α) (separator : Scan Unit) : Scan (List α) := do
  return (← p) :: (← many do separator; p)

def finish : Scan Unit
  | [] => some ((), [])
  | _ => none

/-- What a scanner reads from a whole text. -/
def all? (p : Scan α) (cs : List Char) : Option α :=
  match p cs with
  | some (a, []) => some a
  | _ => none

end Scan

end ClusterLink

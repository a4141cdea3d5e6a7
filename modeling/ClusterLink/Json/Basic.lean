/-! JSON values as they stand in a text: numbers keep their literal, objects keep their members in
order and with repetitions. Which literals and which repetitions are good is for the reader of a
particular kind of value to say. -/

namespace ClusterLink

/-- A JSON value. A text has no content when an escape in it names half of a surrogate pair: such a
text may be passed over, but not read. -/
inductive Json where
  | null
  | bool (value : Bool)
  | number (literal : String)
  | text (content : Option String)
  | array (items : List Json)
  | object (members : List (Option String × Json))
  deriving Inhabited, Repr

namespace Json

def str (content : String) : Json := .text (some content)

def nat (n : Nat) : Json := .number (toString n)

/-- An object without repetitions, of named members. -/
def record (members : List (String × Json)) : Json :=
  .object (members.map fun m => (some m.1, m.2))

/-- The member that is there, or none. -/
def member? (name : String) (encode : α → Json) : Option α → List (String × Json)
  | none => []
  | some a => [(name, encode a)]

/-- The last member of an object under a name. -/
def get? (name : String) : Json → Option Json
  | .object members => (members.reverse.find? fun m => m.1 == some name).map Prod.snd
  | _ => none

def str? : Json → Option String
  | .text content => content
  | _ => none

def bool? : Json → Option Bool
  | .bool value => some value
  | _ => none

def items? : Json → Option (List Json)
  | .array items => some items
  | _ => none

/-- The value of a digit, `none` for any other character. -/
def digit? (c : Char) : Option Nat :=
  if '0' ≤ c ∧ c ≤ '9' then some (c.toNat - '0'.toNat) else none

/-- The number that a list of digits names. -/
def digits? (cs : List Char) : Option Nat :=
  cs.foldlM (fun n c => (digit? c).map (n * 10 + ·)) 0

/-- A number written without sign, fraction and exponent. -/
def nat? : Json → Option Nat
  | .number literal => if literal.isEmpty then none else digits? literal.toList
  | _ => none

end Json

end ClusterLink

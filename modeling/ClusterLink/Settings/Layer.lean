import ClusterLink.Number.Shortest
import ClusterLink.Number.Reading

/-! Values of settings before they are given their types, and the laying of one over another. A
table laid over a table changes only what it names; any other value takes the place of what was
there. Keys are the same whatever the case of their letters. -/

namespace ClusterLink

/-- The value of a setting, or of a group of settings. -/
inductive Setting where
  | absent
  | bool (value : Bool)
  | integer (value : Int)
  | float (value : Binary64)
  | text (value : String)
  | array (items : List Setting)
  | table (entries : List (String × Setting))
  deriving Inhabited, Repr

namespace Setting

/-- The letter that stands for a character in a key. -/
def foldChar (c : Char) : Char := if c = '\u212A' then 'k' else c.toLower

def foldKey (key : String) : String := String.ofList (key.toList.map foldChar)

/-- The entries of a table; a value of any other kind has none. -/
def entries : Setting → List (String × Setting)
  | .table entries => entries
  | _ => []

/-- The items of an array; a value of any other kind has none. -/
def items : Setting → List Setting
  | .array items => items
  | _ => []

def get? (s : Setting) (key : String) : Option Setting := s.entries.lookup key

/-- Puts a value under a key, in place of what was there. -/
def setEntry (key : String) (value : Setting) : List (String × Setting) → List (String × Setting)
  | [] => [(key, value)]
  | entry :: rest =>
    if entry.1 = key then (key, value) :: rest else entry :: setEntry key value rest

/-- The table with a value put under a key. What is no table becomes one. -/
def set (s : Setting) (key : String) (value : Setting) : Setting :=
  .table (setEntry key value s.entries)

/-- The place that an index names in an array of some size; a negative one counts from the end. -/
def position (index : Int) (size : Nat) : Nat :=
  if 0 ≤ index then index.toNat else size - index.natAbs

/-- The array with the item at an index changed. What is no array becomes one, and it grows until
the index is in it. -/
def modifyItem (s : Setting) (index : Int) (change : Setting → Setting) : Setting :=
  let items := s.items
  let place := position index items.length
  let items := items ++ List.replicate (place + 1 - items.length) .absent
  .array (items.modify place change)

mutual

/-- Lays a value over the one under a key. -/
def put (key : String) : Setting → Setting → Setting
  | .table entries, root => root.set key (putAll entries ((root.get? key).getD (.table [])))
  | value, root => root.set key value

/-- Lays entries over a value, one after the other. -/
def putAll : List (String × Setting) → Setting → Setting
  | [], root => root
  | (key, value) :: rest, root => putAll rest (put (foldKey key) value root)

end

/-- A step down from a value. -/
inductive Step where
  | entry (key : String)
  | item (index : Int)
  deriving DecidableEq, Repr

/-- Lays a value over the one that a path leads to. Whatever stands in the way becomes a table or an
array, as the path needs it. -/
def putAt : List Step → Setting → Setting → Setting
  | [], value, _ => value
  | [.entry key], value, root => put key value root
  | .entry key :: rest, value, root =>
    root.set key (putAt rest value ((root.get? key).getD .absent))
  | .item index :: rest, value, root => root.modifyItem index (putAt rest value)

/-! ## Paths -/

/-- The characters of a name in a path. -/
def isNameChar (c : Char) : Bool := c.isAlphanum || c == ' ' || c == '_' || c == '-'

def isBlank (c : Char) : Bool := c == ' ' || c == '\t'

/-- The index at the front of a text, up to its closing bracket. -/
def index? (cs : List Char) : Option (Int × List Char) :=
  let cs := cs.dropWhile isBlank
  let (negative, cs) :=
    match cs with
    | '-' :: rest => (true, rest)
    | _ => (false, cs)
  let digits := cs.takeWhile Char.isDigit
  let value : Int := if negative then -Text.valueOf digits else Text.valueOf digits
  match (cs.drop digits.length).dropWhile isBlank with
  | ']' :: rest =>
    if digits.isEmpty || value < Int64.minValue.toInt || Int64.maxValue.toInt < value then none
    else some (value, rest)
  | _ => none

/-- The steps of a path after its first name: a point and a name, or an index in brackets. Every
step takes characters, so as many as there are suffice for the count. -/
def steps? : Nat → List Char → Option (List Step)
  | _, [] => some []
  | 0, _ => none
  | count + 1, '.' :: cs =>
    let name := cs.takeWhile isNameChar
    if name.isEmpty then none
    else (steps? count (cs.drop name.length)).map (.entry (String.ofList name) :: ·)
  | count + 1, '[' :: cs =>
    (index? cs).bind fun (index, cs) => (steps? count cs).map (.item index :: ·)
  | _, _ => none

/-- The path that a key names. A key that is no path names a single entry. -/
def path (key : String) : List Step :=
  let cs := key.toList
  let name := cs.takeWhile isNameChar
  let steps := if name.isEmpty then none else steps? cs.length (cs.drop name.length)
  match steps with
  | some steps => .entry (String.ofList name) :: steps
  | none => [.entry key]

/-- Lays a value over the one that a key leads to. -/
def assign (root : Setting) (key : String) (value : Setting) : Setting :=
  putAt (path (foldKey key)) value root

/-! ## Values of a type -/

/-- What a word stands for where a truth value is wanted, in any case. -/
def wordMeaning? (word : String) : Option Bool :=
  let word := String.ofList (word.toList.map Char.toLower)
  if word = "true" ∨ word = "on" ∨ word = "yes" then some true
  else if word = "false" ∨ word = "off" ∨ word = "no" then some false
  else none

/-- A natural number of 64 bits. Truth values and their words count as one and zero, and numbers
with decimals are rounded. -/
def uint64? : Setting → Option UInt64
  | .bool value => some (if value then 1 else 0)
  | .integer value => if 0 ≤ value ∧ value < UInt64.size then some (.ofNat value.toNat) else none
  | .float value => some value.toUInt64
  | .text value =>
    match wordMeaning? value with
    | some true => some 1
    | some false => some 0
    | none => Number.uint64? value.toList
  | _ => none

/-- A truth value: also a number, true unless it is zero, or a word. -/
def bool? : Setting → Option Bool
  | .bool value => some value
  | .integer value => some (value != 0)
  | .float value => some (!value.isZero)
  | .text "1" => some true
  | .text "0" => some false
  | .text value => wordMeaning? value
  | _ => none

/-- A text: also the text of a truth value or number. -/
def text? : Setting → Option String
  | .bool value => some (if value then "true" else "false")
  | .integer value => some (toString value)
  | .float value => some value.text
  | .text value => some value
  | _ => none

/-- The fields of a group: the entries of a table, or the items of an array in the order of the
names. -/
def fields? (names : List String) : Setting → Option (List (String × Setting))
  | .table entries => some entries
  | .array items => some (names.zip items)
  | _ => none

/-- A field that stands for `default` when it is not there. -/
def withDefault (fields : List (String × Setting)) (name : String) (default : α)
    (read : Setting → Option α) : Option α :=
  match fields.lookup name with
  | none => some default
  | some value => read value

end Setting

end ClusterLink

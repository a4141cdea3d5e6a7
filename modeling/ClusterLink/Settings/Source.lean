import ClusterLink.Json.Reader
import ClusterLink.Settings.Layer
import ClusterLink.Toml.Reader

/-! Where settings come from: files of JSON, of TOML and of the kinds whose readers are given, and
variables of the environment. A source is a list of assignments, each of a value to a key that is a
path. -/

namespace ClusterLink

/-- A key with the value that goes there. -/
abbrev Assignment := String × Setting

namespace Setting

/-- The entries of which no later one has the same key. -/
def lastEntries : List (String × α) → List (String × α)
  | [] => []
  | entry :: rest =>
    if rest.any (·.1 == entry.1) then lastEntries rest else entry :: lastEntries rest

/-! ## JSON -/

/-- How deep arrays and objects of a JSON file may lie in one another. -/
def deepestJson : Nat := 127

/-- A number of a JSON file: a whole one of 64 bits with a sign, and any other at double precision.
A zero with a minus counts among the others. -/
def ofLiteral? (literal : String) : Option Setting :=
  match Number.int64? literal.toList with
  | some n =>
    if n = 0 ∧ literal.toList.head? = some '-' then some (.float (.zero true))
    else some (.integer n)
  | none => (Number.viaWord? literal.toList).map .float

mutual

/-- The setting that a JSON value gives, where arrays and objects lie in it at most so deep. -/
def ofJson? (depth : Nat) : Json → Option Setting
  | .null => some .absent
  | .bool value => some (.bool value)
  | .number literal => ofLiteral? literal
  | .text content => content.map .text
  | .array items => if depth = 0 then none else (ofItems? (depth - 1) items).map .array
  | .object members =>
    if depth = 0 then none
    else (ofMembers? (depth - 1) members).map fun entries => .table (lastEntries entries)

/-- The settings that the items of an array give. -/
def ofItems? (depth : Nat) : List Json → Option (List Setting)
  | [] => some []
  | item :: rest => do return (← ofJson? depth item) :: (← ofItems? depth rest)

/-- The entries that the members of an object give. -/
def ofMembers? (depth : Nat) : List (Option String × Json) → Option (List (String × Setting))
  | [] => some []
  | (key, value) :: rest => do
    return (← key, ← ofJson? depth value) :: (← ofMembers? depth rest)

end

/-- The assignments of a JSON file, which is an object. -/
def ofJsonText? (content : String) : Option (List Assignment) := do
  match ← ofJson? deepestJson (← Json.read? content) with
  | .table entries => some entries
  | _ => none

/-! ## TOML -/

mutual

/-- The setting that a TOML value gives; a date or time is a text. -/
def ofToml : Toml → Setting
  | .text content => .text content
  | .integer value => .integer value
  | .float value => .float value
  | .bool value => .bool value
  | .moment content => .text content
  | .array items => .array (ofTomlItems items)
  | .table members => .table (ofTomlMembers members)

/-- The settings that the items of an array give. -/
def ofTomlItems : List Toml → List Setting
  | [] => []
  | item :: rest => ofToml item :: ofTomlItems rest

/-- The entries that the members of a table give. -/
def ofTomlMembers : List (String × Toml) → List (String × Setting)
  | [] => []
  | (key, value) :: rest => (key, ofToml value) :: ofTomlMembers rest

end

/-- The assignments of a TOML file. -/
def ofTomlText? (content : String) : Option (List Assignment) :=
  (Toml.read? content).map ofTomlMembers

/-! ## Files -/

/-- What follows the last point of a file's name, if characters stand before that point. -/
def extension? (fileName : String) : Option String :=
  let name := (fileName.toList.reverse.takeWhile (· != '/')).reverse
  let last := (name.reverse.takeWhile (· != '.')).reverse
  if last.length + 1 < name.length then some (String.ofList last) else none

/-- A kind of file that is read by a reader of its own. -/
inductive FileKind where
  | yaml
  | ini
  | ron
  | json5
  deriving DecidableEq

/-- The kind that an extension stands for. -/
def FileKind.ofExtension? : String → Option FileKind
  | "yaml" | "yml" => some .yaml
  | "ini" => some .ini
  | "ron" => some .ron
  | "json5" => some .json5
  | _ => none

/-- The readers of the kinds besides JSON and TOML: what a text assigns, if it can be read. -/
abbrev Readers := FileKind → String → Option (List Assignment)

/-- A text without the mark of byte order that may stand in front. -/
def withoutMark (content : String) : String :=
  match content.toList with
  | '\uFEFF' :: rest => String.ofList rest
  | _ => content

/-- The assignments of a file, whose kind its name tells. A file of no registered kind has none. -/
def ofFile? (readers : Readers) (fileName content : String) : Option (List Assignment) :=
  match extension? fileName with
  | some "json" => ofJsonText? (withoutMark content)
  | some "toml" => ofTomlText? (withoutMark content)
  | some extension =>
    match FileKind.ofExtension? extension with
    | some kind => readers kind (withoutMark content)
    | none => some []
  | none => some []

/-! ## The environment -/

/-- What the names of variables with settings begin with. -/
def marker : String := "assoc__"

/-- The value of a variable: a truth value, a whole number, a number, or else a text. -/
def ofVariable (value : String) : Setting :=
  let small := String.ofList (value.toList.map Char.toLower)
  if small = "true" then .bool true
  else if small = "false" then .bool false
  else
    match Number.int64? value.toList with
    | some n => .integer n
    | none =>
      match Number.binary64? value.toList with
      | some x => .float x
      | none => .text value

/-- Points for every two underscores in a row, from the left. -/
def pointed : List Char → List Char
  | '_' :: '_' :: rest => '.' :: pointed rest
  | c :: rest => c :: pointed rest
  | [] => []

/-- The assignment of a variable, if its name begins with the marker, whatever the case. What
follows the marker is the key, with two underscores for a point. -/
def ofEnvironment? (entry : String × String) : Option Assignment :=
  let name := (foldKey entry.1).toList
  if marker.toList.isPrefixOf name then
    some (String.ofList (pointed (name.drop marker.length)), ofVariable entry.2)
  else none

end Setting

end ClusterLink

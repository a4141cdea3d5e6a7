import ClusterLink.Number.Binary64

/-! TOML documents. A document grows line by line from an empty table; what a line may still add to
depends on how the tables that its key leads to came to be. -/

namespace ClusterLink

/-- A TOML value. -/
inductive Toml where
  | text (content : String)
  | integer (value : Int)
  | float (value : Binary64)
  | bool (value : Bool)
  /-- A date, a time of day, or both. -/
  | moment (text : String)
  | array (items : List Toml)
  | table (members : List (String × Toml))
  deriving Inhabited

namespace Toml

/-- How a table came to be. -/
inductive Origin where
  /-- By a header of its own, or as the document. -/
  | header
  /-- On the way to the table of a header. -/
  | implied
  /-- On the way to the value of a dotted key. -/
  | dotted
  deriving DecidableEq

/-- What stands under a key of a document that is still growing. -/
inductive Node where
  /-- A value, complete with all that is in it. -/
  | closed (value : Toml)
  | table (origin : Origin) (members : List (String × Node))
  /-- An array of tables, of which the last is still growing; those before it stand last first. -/
  | tables (done : List Toml) (last : List (String × Node))

/-- The table of what stands under its keys. -/
abbrev Members := List (String × Node)

mutual

/-- What a node is when nothing more is added. -/
def Node.close : Node → Toml
  | .closed value => value
  | .table _ members => .table (closeMembers members)
  | .tables done last => .array (done.reverse ++ [.table (closeMembers last)])

/-- The members of a table to which nothing more is added. -/
def closeMembers : Members → List (String × Toml)
  | [] => []
  | (key, node) :: rest => (key, node.close) :: closeMembers rest

end

/-- A table with the node under a key replaced. -/
def replace (members : Members) (key : String) (node : Node) : Members :=
  members.map fun m => if m.1 = key then (key, node) else m

/-- Changes the table that a path leads to, where the path stands in a dotted key or in a header.
Tables on the way that are missing are made. In an array of tables the path goes on in the last one.
A dotted key does not lead into the table of a header. -/
def atPath? (dotted : Bool) (change : Origin → Members → Option Members) :
    Origin → List String → Members → Option Members
  | origin, [], members => change origin members
  | _, key :: path, members =>
    match members.lookup key with
    | none =>
      let origin := if dotted then .dotted else .implied
      (atPath? dotted change origin path []).map fun inner =>
        members ++ [(key, .table origin inner)]
    | some (.closed _) => none
    | some (.table origin inner) =>
      if dotted && origin == .header then none
      else (atPath? dotted change origin path inner).map fun inner =>
        replace members key (.table origin inner)
    | some (.tables done last) =>
      (atPath? dotted change .header path last).map fun last =>
        replace members key (.tables done last)

/-- Puts a value under a new key. The key's path, if it has one, has to end in a table that dotted
keys made. -/
def assign? (path : List String) (key : String) (value : Toml) (members : Members) :
    Option Members :=
  atPath? true
    (fun origin inner =>
      if (inner.lookup key).isSome || (origin == .dotted) == path.isEmpty then none
      else some (inner ++ [(key, .closed value)]))
    .header path members

/-- Opens a table by its header. One that other headers have implied may be opened later, but only
once. -/
def openTable? (path : List String) (key : String) (members : Members) : Option Members :=
  atPath? false
    (fun _ inner =>
      match inner.lookup key with
      | none => some (inner ++ [(key, .table .header [])])
      | some (.table .implied members) => some (replace inner key (.table .header members))
      | some _ => none)
    .header path members

/-- Opens the next table of an array of tables. -/
def openNext? (path : List String) (key : String) (members : Members) : Option Members :=
  atPath? false
    (fun _ inner =>
      match inner.lookup key with
      | none => some (inner ++ [(key, .tables [] [])])
      | some (.tables done last) =>
        some (replace inner key (.tables (.table (closeMembers last) :: done) []))
      | some _ => none)
    .header path members

/-- What a line of a document says. -/
inductive Line where
  | blank
  | header (path : List String) (key : String)
  | nextHeader (path : List String) (key : String)
  | value (path : List String) (key : String) (value : Toml)

/-- A document of which some lines have been read: all that is there, and the header that lines
with values stand under. -/
structure Document where
  members : Members := []
  current : List String := []

def Document.add? (d : Document) : Line → Option Document
  | .blank => some d
  | .header path key => (openTable? path key d.members).map (⟨·, path ++ [key]⟩)
  | .nextHeader path key => (openNext? path key d.members).map (⟨·, path ++ [key]⟩)
  | .value path key value =>
    (atPath? false (fun _ inner => assign? path key value inner) .header d.current d.members).map
      (⟨·, d.current⟩)

/-- The table that lines amount to. -/
def ofLines? (lines : List Line) : Option (List (String × Toml)) :=
  (lines.foldlM Document.add? {}).map fun d => closeMembers d.members

/-- The table that the pairs of an inline table amount to; nothing can be added to it later. -/
def ofPairs? (pairs : List (List String × String × Toml)) : Option Toml :=
  (pairs.foldlM (fun members (path, key, value) => assign? path key value members) []).map
    fun members => .table (closeMembers members)

end Toml

end ClusterLink

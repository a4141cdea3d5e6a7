import ClusterLink.Dict
import ClusterLink.Json.Basic

/-! Records, maps and choices read from JSON. A record is an object of its fields, each at most
once and unknown ones passed over, or an array of its fields in order, of which the last may be
left out. A map is an object in which the last of equal keys counts. A choice is its name, or an
object with the name as the only key and `null` under it. -/

namespace ClusterLink.Json

/-- The fields of a record that are present. -/
def fields? (names : List String) : Json → Option (List (String × Json))
  | .object members => do
    let named ← members.mapM fun m => m.1.map (·, m.2)
    let known := named.filter fun m => names.contains m.1
    if (known.map Prod.fst).Nodup then some known else none
  | .array items => if items.length ≤ names.length then some (names.zip items) else none
  | _ => none

/-- A field that has to be there. -/
def required (fields : List (String × Json)) (name : String) (read : Json → Option α) :
    Option α :=
  (fields.lookup name).bind read

/-- A field that stands for `default` when it is not there. -/
def withDefault (fields : List (String × Json)) (name : String) (default : α)
    (read : Json → Option α) : Option α :=
  match fields.lookup name with
  | none => some default
  | some value => read value

/-- A field that may be left out or `null`. -/
def optional (fields : List (String × Json)) (name : String) (read : Json → Option α) :
    Option (Option α) :=
  match fields.lookup name with
  | none => some none
  | some .null => some none
  | some value => (read value).map some

/-- The items of an array, each read. -/
def list? (read : Json → Option α) : Json → Option (List α)
  | .array items => items.mapM read
  | _ => none

/-- The members of an object, each read; the last under a key counts. -/
def dict? (read : Json → Option α) : Json → Option (Dict String α)
  | .object members => do
    let entries ← members.mapM fun m => do return (← m.1, ← read m.2)
    return Dict.ofList entries
  | _ => none

/-- The object of a map's entries, in the order of their keys. -/
def ofDict (encode : α → Json) (d : Dict String α) : Json :=
  record (d.entries.map fun e => (e.1, encode e.2))

/-- The name of a choice without content. -/
def choice? : Json → Option String
  | .text content => content
  | .object [(name, .null)] => name
  | _ => none

def natBelow? (bound : Nat) (v : Json) : Option Nat :=
  v.nat?.bind fun n => if n < bound then some n else none

def uint64? (v : Json) : Option UInt64 := (natBelow? UInt64.size v).map UInt64.ofNat

def uint32? (v : Json) : Option UInt32 := (natBelow? UInt32.size v).map UInt32.ofNat

def uint8? (v : Json) : Option UInt8 := (natBelow? UInt8.size v).map UInt8.ofNat

end ClusterLink.Json

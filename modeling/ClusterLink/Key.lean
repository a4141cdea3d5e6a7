import ClusterLink.Json.Fields
import ClusterLink.Text.Outline

/-! Keys: a namespace and a name, which together identify an object of one kind. A key is shown as
`namespace/name`, and `parse` reads that form back. -/

namespace ClusterLink

/-- The namespace and the name of an object. -/
structure Key where
  space : String
  name : String
  deriving DecidableEq, Repr, Inhabited

namespace Key

/-- Keys are ordered by namespace and then by name. -/
instance : Ord Key := ⟨compareLex (compareOn Key.space) (compareOn Key.name)⟩

instance : Std.TransOrd Key :=
  inferInstanceAs (Std.TransCmp (compareLex (compareOn Key.space) (compareOn Key.name)))

instance : Std.LawfulEqOrd Key where
  compare_self {a} := by
    show compareLex (compareOn Key.space) (compareOn Key.name) a a = .eq
    exact Std.ReflCmp.compare_self
  eq_of_compare {a b} h := by
    have h := compareLex_eq_eq.1 h
    have hs : a.space = b.space := Std.LawfulEqOrd.eq_of_compare h.1
    have hn : a.name = b.name := Std.LawfulEqOrd.eq_of_compare h.2
    cases a; cases b; cases hs; cases hn; rfl

/-- Whether neither part is empty. -/
def isComplete (k : Key) : Bool := !k.space.isEmpty && !k.name.isEmpty

/-- The form in which a key is shown. -/
def text (k : Key) : String := k.space ++ "/" ++ k.name

/-- A text that is no key. -/
structure Malformed where
  text : String
  deriving DecidableEq, Repr

/-- The message about a text that is no key. -/
def Malformed.message (e : Malformed) : String :=
  "invalid resource key " ++ Text.quoted e.text ++ ": expected namespace/name"

/-- Reads a key: two parts that are not empty, with one slash between them. -/
def parse (text : String) : Except Malformed Key :=
  let cs := text.toList
  let space := cs.takeWhile (· != '/')
  match cs.dropWhile (· != '/') with
  | _ :: name =>
    if space.isEmpty || name.isEmpty || name.contains '/' then .error ⟨text⟩
    else .ok ⟨String.ofList space, String.ofList name⟩
  | [] => .error ⟨text⟩

/-- Keys in increasing order, each once. -/
def sortUnique (keys : List Key) : List Key :=
  (Dict.ofList (keys.map (·, ()))).keys

def json (k : Key) : Json :=
  .record [("namespace", .str k.space), ("name", .str k.name)]

def ofJson? (v : Json) : Option Key := do
  let fields ← v.fields? ["namespace", "name"]
  return ⟨← Json.required fields "namespace" Json.str?, ← Json.required fields "name" Json.str?⟩

def outline (k : Key) : Outline :=
  .record "NamespacedName" [("namespace", .text k.space), ("name", .text k.name)]

end Key

end ClusterLink

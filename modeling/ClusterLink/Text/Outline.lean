import ClusterLink.Text.Quoted

/-! One-line outlines of nested values, as they stand in messages for a person: records with their
field names, lists, maps and optional values, with texts quoted. -/

namespace ClusterLink

/-- The shape of a value's outline. -/
inductive Outline where
  /-- A word that stands as it is. -/
  | word (text : String)
  /-- A named record with its fields in order. -/
  | record (name : String) (fields : List (String × Outline))
  | list (items : List Outline)
  | map (entries : List (Outline × Outline))
  /-- A value that is there, where it might not be. -/
  | present (value : Outline)

namespace Outline

def text (t : String) : Outline := .word (Text.quoted t)

def optional (shape : α → Outline) : Option α → Outline
  | none => .word "None"
  | some a => .present (shape a)

mutual

def render : Outline → String
  | .word text => text
  | .record name [] => name
  | .record name fields => name ++ " \x7b " ++ renderFields fields ++ " \x7d"
  | .list items => "[" ++ renderItems items ++ "]"
  | .map entries => "\x7b" ++ renderEntries entries ++ "\x7d"
  | .present value => "Some(" ++ render value ++ ")"

/-- The fields of a record, with commas between them. -/
def renderFields : List (String × Outline) → String
  | [] => ""
  | [(name, value)] => name ++ ": " ++ render value
  | (name, value) :: fields => name ++ ": " ++ render value ++ ", " ++ renderFields fields

/-- The items of a list, with commas between them. -/
def renderItems : List Outline → String
  | [] => ""
  | [item] => render item
  | item :: items => render item ++ ", " ++ renderItems items

/-- The entries of a map, with commas between them. -/
def renderEntries : List (Outline × Outline) → String
  | [] => ""
  | [(key, value)] => render key ++ ": " ++ render value
  | (key, value) :: entries =>
    render key ++ ": " ++ render value ++ ", " ++ renderEntries entries

end

end Outline

end ClusterLink

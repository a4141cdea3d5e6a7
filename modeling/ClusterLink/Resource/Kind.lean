import ClusterLink.Json.Fields

/-! The kinds of objects that the store holds. -/

namespace ClusterLink

/-- A kind of object. -/
inductive Kind where
  | association
  | elasticsearch
  | kibana
  | secret
  deriving DecidableEq, Repr, Inhabited

namespace Kind

def text : Kind → String
  | .association => "association"
  | .elasticsearch => "elasticsearch"
  | .kibana => "kibana"
  | .secret => "secret"

def ofText? : String → Option Kind
  | "association" => some .association
  | "elasticsearch" => some .elasticsearch
  | "kibana" => some .kibana
  | "secret" => some .secret
  | _ => none

def json (k : Kind) : Json := .str k.text

def ofJson? (v : Json) : Option Kind := v.choice?.bind ofText?

end Kind

end ClusterLink

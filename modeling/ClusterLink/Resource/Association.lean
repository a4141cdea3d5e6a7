import ClusterLink.Resource.Basic

/-! Associations: an object that names an Elasticsearch cluster and a Kibana instance and asks for
the instance to be configured for the cluster. -/

namespace ClusterLink

/-- How far an association has come. -/
inductive Status where
  /-- Not yet looked at. -/
  | unknown
  /-- Waiting for something to be created or written. -/
  | pending
  | established
  | failed
  deriving DecidableEq, Repr, Inhabited

namespace Status

/-- The name of a status; that of an unknown one is empty. -/
def text : Status → String
  | .unknown => ""
  | .pending => "Pending"
  | .established => "Established"
  | .failed => "Failed"

def ofText? : String → Option Status
  | "" => some .unknown
  | "Pending" => some .pending
  | "Established" => some .established
  | "Failed" => some .failed
  | _ => none

def json (s : Status) : Json := .str s.text

def ofJson? (v : Json) : Option Status := v.choice?.bind ofText?

def outline : Status → Outline
  | .unknown => .word "Unknown"
  | .pending => .word "Pending"
  | .established => .word "Established"
  | .failed => .word "Failed"

end Status

/-- What an association asks for. -/
structure AssociationSpec where
  elasticsearch : Key
  kibana : Key
  deriving DecidableEq, Inhabited

namespace AssociationSpec

def json (s : AssociationSpec) : Json :=
  .record [("elasticsearch_ref", s.elasticsearch.json), ("kibana_ref", s.kibana.json)]

def ofJson? (v : Json) : Option AssociationSpec := do
  let fields ← v.fields? ["elasticsearch_ref", "kibana_ref"]
  return ⟨← Json.required fields "elasticsearch_ref" Key.ofJson?,
    ← Json.required fields "kibana_ref" Key.ofJson?⟩

def outline (s : AssociationSpec) : Outline :=
  .record "AssociationSpec"
    [("elasticsearch_ref", s.elasticsearch.outline), ("kibana_ref", s.kibana.outline)]

end AssociationSpec

/-- An association. -/
structure Association where
  metadata : Metadata
  spec : AssociationSpec
  status : Status
  deriving DecidableEq, Inhabited

namespace Association

/-- Replacing an association from outside keeps its finalizers and its status. -/
instance : Resource Association where
  kind := .association
  metadata := Association.metadata
  withMetadata a m := { a with metadata := m }
  retain incoming stored :=
    { incoming with
      metadata := incoming.metadata.keepFinalizers stored.metadata
      status := stored.status }

def key (a : Association) : Key := a.metadata.key

def json (a : Association) : Json :=
  .record [("meta", a.metadata.json), ("spec", a.spec.json), ("status", a.status.json)]

def ofJson? (v : Json) : Option Association := do
  let fields ← v.fields? ["meta", "spec", "status"]
  return {
    metadata := ← Json.required fields "meta" Metadata.ofJson?
    spec := ← Json.required fields "spec" AssociationSpec.ofJson?
    status := ← Json.withDefault fields "status" .unknown Status.ofJson? }

def outline (a : Association) : Outline :=
  .record "Association"
    [("meta", a.metadata.outline), ("spec", a.spec.outline), ("status", a.status.outline)]

end Association

end ClusterLink

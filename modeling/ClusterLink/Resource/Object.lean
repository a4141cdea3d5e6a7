import ClusterLink.Resource.Association
import ClusterLink.Resource.Elasticsearch
import ClusterLink.Resource.Kibana
import ClusterLink.Resource.Secret

/-! Objects of any kind. -/

namespace ClusterLink

/-- An object of some kind. -/
inductive Object where
  | association (a : Association)
  | elasticsearch (es : Elasticsearch)
  | kibana (kb : Kibana)
  | secret (s : Secret)
  deriving DecidableEq

namespace Object

def kind : Object → Kind
  | .association _ => .association
  | .elasticsearch _ => .elasticsearch
  | .kibana _ => .kibana
  | .secret _ => .secret

def metadata : Object → Metadata
  | .association a => a.metadata
  | .elasticsearch es => es.metadata
  | .kibana kb => kb.metadata
  | .secret s => s.metadata

def json : Object → Json
  | .association a => a.json
  | .elasticsearch es => es.json
  | .kibana kb => kb.json
  | .secret s => s.json

/-- The object of a kind with a JSON form. -/
def ofJson? (kind : Kind) (v : Json) : Option Object :=
  match kind with
  | .association => (Association.ofJson? v).map .association
  | .elasticsearch => (Elasticsearch.ofJson? v).map .elasticsearch
  | .kibana => (Kibana.ofJson? v).map .kibana
  | .secret => (Secret.ofJson? v).map .secret

end Object

end ClusterLink

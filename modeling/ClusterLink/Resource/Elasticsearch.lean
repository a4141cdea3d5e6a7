import ClusterLink.Resource.Basic

/-! Elasticsearch clusters, and the names of what stands around a cluster: the secret of its
internal users, the secret of its certificate authority, its public service and its address. -/

namespace ClusterLink

/-- What is asked of a cluster. -/
structure ElasticsearchSpec where
  version : String
  nodeCount : UInt32
  deriving DecidableEq, Inhabited

namespace ElasticsearchSpec

def json (s : ElasticsearchSpec) : Json :=
  .record [("version", .str s.version), ("node_count", .nat s.nodeCount.toNat)]

def ofJson? (v : Json) : Option ElasticsearchSpec := do
  let fields ← v.fields? ["version", "node_count"]
  return ⟨← Json.withDefault fields "version" "" Json.str?,
    ← Json.withDefault fields "node_count" 0 Json.uint32?⟩

def outline (s : ElasticsearchSpec) : Outline :=
  .record "ElasticsearchSpec"
    [("version", .text s.version), ("node_count", .word (toString s.nodeCount.toNat))]

end ElasticsearchSpec

/-- A cluster. -/
structure Elasticsearch where
  metadata : Metadata
  spec : ElasticsearchSpec
  deriving DecidableEq, Inhabited

namespace Elasticsearch

instance : Resource Elasticsearch where
  kind := .elasticsearch
  metadata := Elasticsearch.metadata
  withMetadata r m := { r with metadata := m }
  retain incoming stored :=
    { incoming with metadata := incoming.metadata.keepFinalizers stored.metadata }

def key (es : Elasticsearch) : Key := es.metadata.key

/-! ## Derived names -/

/-- The user in whose name Kibana speaks to a cluster. -/
def kibanaUser : String := "elastic-internal-kibana"

/-- The port of a cluster's service. -/
def httpPort : Nat := 9200

/-- The name of the secret with the passwords of a cluster's internal users. -/
def usersSecretName (cluster : String) : String := cluster ++ "-elastic-internal-users"

/-- The name of a cluster's public service. -/
def serviceName (cluster : String) : String := cluster ++ "-es-public"

/-- The secret with the passwords of the internal users. -/
def usersSecret (es : Elasticsearch) : Key := ⟨es.key.space, usersSecretName es.key.name⟩

/-- The secret with the certificate of the cluster's authority. -/
def caSecret (es : Elasticsearch) : Key := es.key

/-- The address at which the cluster is reached. -/
def url (es : Elasticsearch) : String :=
  "https://" ++ serviceName es.key.name ++ "." ++ es.key.space ++ ".svc.cluster.local:" ++
    toString httpPort

/-! ## Forms -/

def json (es : Elasticsearch) : Json :=
  .record [("meta", es.metadata.json), ("spec", es.spec.json)]

def ofJson? (v : Json) : Option Elasticsearch := do
  let fields ← v.fields? ["meta", "spec"]
  return ⟨← Json.required fields "meta" Metadata.ofJson?,
    ← Json.withDefault fields "spec" default ElasticsearchSpec.ofJson?⟩

def outline (es : Elasticsearch) : Outline :=
  .record "Elasticsearch" [("meta", es.metadata.outline), ("spec", es.spec.outline)]

end Elasticsearch

end ClusterLink

import ClusterLink.Resource.Basic

/-! Kibana instances, and the backend configuration that ties one to an Elasticsearch cluster. The
outline of a configuration never shows its password. -/

namespace ClusterLink

/-- A user name with its password. -/
structure InlineAuth where
  username : String
  password : String
  deriving DecidableEq, Inhabited

namespace InlineAuth

def json (a : InlineAuth) : Json :=
  .record [("username", .str a.username), ("password", .str a.password)]

def ofJson? (v : Json) : Option InlineAuth := do
  let fields ← v.fields? ["username", "password"]
  return ⟨← Json.required fields "username" Json.str?,
    ← Json.required fields "password" Json.str?⟩

def outline (a : InlineAuth) : Outline :=
  .record "ElasticsearchInlineAuth"
    [("username", .text a.username), ("password", .text "<redacted>")]

end InlineAuth

/-- How Kibana reaches its cluster: an address, credentials, and the secret with the certificate of
the cluster's authority. -/
structure Backend where
  url : String
  inline : Option InlineAuth
  caCertSecret : Option String
  deriving DecidableEq

namespace Backend

/-- The configuration in which nothing is set. -/
def empty : Backend := ⟨"", none, none⟩

instance : Inhabited Backend := ⟨empty⟩

/-- Whether nothing is set. -/
def isEmpty (b : Backend) : Bool := b == empty

def authJson (inline : Option InlineAuth) : Json :=
  .record (Json.member? "inline" InlineAuth.json inline)

def authOfJson? (v : Json) : Option (Option InlineAuth) := do
  let fields ← v.fields? ["inline"]
  Json.optional fields "inline" InlineAuth.ofJson?

def json (b : Backend) : Json :=
  .record <|
    [("url", .str b.url), ("auth", authJson b.inline)] ++
    Json.member? "ca_cert_secret" .str b.caCertSecret

def ofJson? (v : Json) : Option Backend := do
  let fields ← v.fields? ["url", "auth", "ca_cert_secret"]
  return {
    url := ← Json.withDefault fields "url" "" Json.str?
    inline := ← Json.withDefault fields "auth" none authOfJson?
    caCertSecret := ← Json.optional fields "ca_cert_secret" Json.str? }

def outline (b : Backend) : Outline :=
  .record "BackendElasticsearch" [
    ("url", .text b.url),
    ("auth", .record "ElasticsearchAuth" [("inline", .optional InlineAuth.outline b.inline)]),
    ("ca_cert_secret", .optional .text b.caCertSecret)]

end Backend

/-- What is asked of an instance. -/
structure KibanaSpec where
  version : String
  nodeCount : UInt32
  backend : Backend
  deriving DecidableEq, Inhabited

namespace KibanaSpec

def json (s : KibanaSpec) : Json :=
  .record [("version", .str s.version), ("node_count", .nat s.nodeCount.toNat),
    ("elasticsearch", s.backend.json)]

def ofJson? (v : Json) : Option KibanaSpec := do
  let fields ← v.fields? ["version", "node_count", "elasticsearch"]
  return {
    version := ← Json.withDefault fields "version" "" Json.str?
    nodeCount := ← Json.withDefault fields "node_count" 0 Json.uint32?
    backend := ← Json.withDefault fields "elasticsearch" .empty Backend.ofJson? }

def outline (s : KibanaSpec) : Outline :=
  .record "KibanaSpec" [("version", .text s.version),
    ("node_count", .word (toString s.nodeCount.toNat)), ("elasticsearch", s.backend.outline)]

end KibanaSpec

/-- An instance. -/
structure Kibana where
  metadata : Metadata
  spec : KibanaSpec
  deriving DecidableEq, Inhabited

namespace Kibana

instance : Resource Kibana where
  kind := .kibana
  metadata := Kibana.metadata
  withMetadata r m := { r with metadata := m }
  retain incoming stored :=
    { incoming with metadata := incoming.metadata.keepFinalizers stored.metadata }

def key (kb : Kibana) : Key := kb.metadata.key

def withBackend (kb : Kibana) (backend : Backend) : Kibana :=
  { kb with spec := { kb.spec with backend } }

def json (kb : Kibana) : Json :=
  .record [("meta", kb.metadata.json), ("spec", kb.spec.json)]

def ofJson? (v : Json) : Option Kibana := do
  let fields ← v.fields? ["meta", "spec"]
  return ⟨← Json.required fields "meta" Metadata.ofJson?,
    ← Json.withDefault fields "spec" default KibanaSpec.ofJson?⟩

def outline (kb : Kibana) : Outline :=
  .record "Kibana" [("meta", kb.metadata.outline), ("spec", kb.spec.outline)]

end Kibana

end ClusterLink

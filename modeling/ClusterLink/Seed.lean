import ClusterLink.Json.Reader
import ClusterLink.Reconcile.Error
import ClusterLink.Store.Basic

/-! Seed documents: objects to put into a store at the start, written as JSON. Secrets are given as
text there. -/

namespace ClusterLink

/-- A secret given as text. -/
structure SeedSecret where
  key : Key
  stringData : Dict String String
  deriving DecidableEq

namespace SeedSecret

/-- The secret with the octets of each text. -/
def secret (s : SeedSecret) : Secret where
  metadata := .new s.key
  data := s.stringData.entries.foldl (fun d e => d.insert e.1 (Utf8.encode e.2)) ∅

def ofJson? (v : Json) : Option SeedSecret := do
  let fields ← v.fields? ["namespace", "name", "string_data"]
  return {
    key := ⟨← Json.required fields "namespace" Json.str?,
      ← Json.required fields "name" Json.str?⟩
    stringData := ← Json.withDefault fields "string_data" ∅ (Json.dict? Json.str?) }

def outline (s : SeedSecret) : Outline :=
  .record "SeedSecret" [("namespace", .text s.key.space), ("name", .text s.key.name),
    ("string_data", .map (s.stringData.entries.map fun e => (.text e.1, .text e.2)))]

end SeedSecret

/-- A seed document. -/
structure SeedDocument where
  elasticsearch : List Elasticsearch
  kibana : List Kibana
  secrets : List SeedSecret
  associations : List Association
  deriving DecidableEq

namespace SeedDocument

def ofJson? (v : Json) : Option SeedDocument := do
  let fields ← v.fields? ["elasticsearch", "kibana", "secrets", "associations"]
  return {
    elasticsearch :=
      ← Json.withDefault fields "elasticsearch" [] (Json.list? Elasticsearch.ofJson?)
    kibana := ← Json.withDefault fields "kibana" [] (Json.list? Kibana.ofJson?)
    secrets := ← Json.withDefault fields "secrets" [] (Json.list? SeedSecret.ofJson?)
    associations :=
      ← Json.withDefault fields "associations" [] (Json.list? Association.ofJson?) }

def parse (text : String) : Except ControllerError SeedDocument :=
  match (Json.read? text).bind ofJson? with
  | some d => .ok d
  | none => .error (.seed "the text is no seed document")

/-- The document that a file of the given octets holds. -/
def parseFile (octets : List UInt8) : Except ControllerError SeedDocument :=
  match Utf8.decode? octets with
  | some text => parse text
  | none => .error (.io "the file is no text")

/-- Puts every object into a store, associations last. -/
def apply (d : SeedDocument) (s : Store) : Store :=
  let s := d.elasticsearch.foldl (fun s es => (s.applyElasticsearch es).2) s
  let s := d.kibana.foldl (fun s kb => (s.applyKibana kb).2) s
  let s := d.secrets.foldl (fun s secret => (s.applySecret secret.secret).2) s
  d.associations.foldl (fun s a => (s.applyAssociation a).2) s

def outline (d : SeedDocument) : Outline :=
  .record "SeedDocument" [
    ("elasticsearch", .list (d.elasticsearch.map Elasticsearch.outline)),
    ("kibana", .list (d.kibana.map Kibana.outline)),
    ("secrets", .list (d.secrets.map SeedSecret.outline)),
    ("associations", .list (d.associations.map Association.outline))]

end SeedDocument

end ClusterLink

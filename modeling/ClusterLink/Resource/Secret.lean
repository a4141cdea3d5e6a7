import ClusterLink.Resource.Basic
import ClusterLink.Text.Utf8

/-! Secrets: named entries of octets. The outline of a secret shows the names alone. -/

namespace ClusterLink

/-- A secret. -/
structure Secret where
  metadata : Metadata
  data : Dict String (List UInt8)
  deriving DecidableEq, Inhabited

namespace Secret

instance : Resource Secret where
  kind := .secret
  metadata := Secret.metadata
  withMetadata r m := { r with metadata := m }
  retain incoming stored :=
    { incoming with metadata := incoming.metadata.keepFinalizers stored.metadata }

def key (s : Secret) : Key := s.metadata.key

/-- The text of an entry; octets that form no character read as U+FFFD. -/
def text? (s : Secret) (entry : String) : Option String :=
  (s.data.find? entry).map Utf8.decodeLossy

def json (s : Secret) : Json :=
  .record [("meta", s.metadata.json),
    ("data", .ofDict (fun octets => .array (octets.map fun b => .nat b.toNat)) s.data)]

def ofJson? (v : Json) : Option Secret := do
  let fields ← v.fields? ["meta", "data"]
  return ⟨← Json.required fields "meta" Metadata.ofJson?,
    ← Json.withDefault fields "data" ∅ (Json.dict? (Json.list? Json.uint8?))⟩

def outline (s : Secret) : Outline :=
  .record "Secret" [("meta", s.metadata.outline), ("keys", .list (s.data.keys.map .text))]

end Secret

end ClusterLink

import ClusterLink.Key
import ClusterLink.Resource.Kind
import ClusterLink.Time.Instant
import ClusterLink.Uid

/-! What every object carries beside its content: its key, its incarnation and version, the
annotations that people set, the finalizers that hold its removal back, and the tombstone that a
deletion leaves while finalizers remain. -/

namespace ClusterLink

/-- The metadata of an object. -/
structure Metadata where
  key : Key
  /-- The incarnation: an object that is removed and created again has another. -/
  uid : Option Uid
  /-- Grows with every write to one incarnation; zero on an object that was never stored. -/
  version : UInt64
  annotations : Dict String String
  finalizers : List String
  /-- When deletion was asked for. -/
  tombstone : Option Instant
  deriving DecidableEq

namespace Metadata

/-- The metadata of an object that was never stored. -/
def new (key : Key) : Metadata := ⟨key, none, 0, ∅, [], none⟩

instance : Inhabited Metadata := ⟨new default⟩

/-- The annotation that suspends an association while it is `true` in any case. -/
def pauseAnnotation : String := "common.k8s.elastic.co/pause"

/-- Equality of ASCII letters in any case and of all other characters. -/
def sameIgnoringCase (a b : String) : Bool := a.toLower == b.toLower

def isPaused (m : Metadata) : Bool :=
  match m.annotations.find? pauseAnnotation with
  | some value => sameIgnoringCase value "true"
  | none => false

def isBeingDeleted (m : Metadata) : Bool := m.tombstone.isSome

def hasFinalizer (m : Metadata) (name : String) : Bool := m.finalizers.contains name

/-- The metadata with a finalizer, put last if it is new. -/
def addFinalizer (m : Metadata) (name : String) : Metadata :=
  if m.hasFinalizer name then m else { m with finalizers := m.finalizers ++ [name] }

def removeFinalizer (m : Metadata) (name : String) : Metadata :=
  { m with finalizers := m.finalizers.filter (· != name) }

/-- The metadata of an object that replaces a stored one, with the stored finalizers. -/
def keepFinalizers (incoming stored : Metadata) : Metadata :=
  { incoming with finalizers := stored.finalizers }

def annotate (m : Metadata) (name value : String) : Metadata :=
  { m with annotations := m.annotations.insert name value }

/-! ## Forms -/

def json (m : Metadata) : Json :=
  .record <|
    [("namespace", .str m.key.space), ("name", .str m.key.name)] ++
    Json.member? "uid" (fun u : Uid => .str u.text) m.uid ++
    [("resource_version", .nat m.version.toNat)] ++
    (if m.annotations.isEmpty then [] else [("annotations", .ofDict .str m.annotations)]) ++
    (if m.finalizers.isEmpty then []
      else [("finalizers", .array (m.finalizers.map .str))]) ++
    Json.member? "deletion_timestamp" (fun t : Instant => .str t.text) m.tombstone

def fieldNames : List String :=
  ["namespace", "name", "uid", "resource_version", "annotations", "finalizers",
    "deletion_timestamp"]

def ofJson? (v : Json) : Option Metadata := do
  let fields ← v.fields? fieldNames
  return {
    key := ⟨← Json.required fields "namespace" Json.str?,
      ← Json.required fields "name" Json.str?⟩
    uid := ← Json.optional fields "uid" fun v => v.str?.bind Uid.read?
    version := ← Json.withDefault fields "resource_version" 0 Json.uint64?
    annotations := ← Json.withDefault fields "annotations" ∅ (Json.dict? Json.str?)
    finalizers := ← Json.withDefault fields "finalizers" [] (Json.list? Json.str?)
    tombstone := ← Json.optional fields "deletion_timestamp" fun v => v.str?.bind Instant.read? }

def outline (m : Metadata) : Outline :=
  .record "ObjectMeta" [
    ("namespace", .text m.key.space),
    ("name", .text m.key.name),
    ("uid", .optional (fun u => .word u.text) m.uid),
    ("resource_version", .word (toString m.version.toNat)),
    ("annotations", .map (m.annotations.entries.map fun e => (.text e.1, .text e.2))),
    ("finalizers", .list (m.finalizers.map .text)),
    ("deletion_timestamp", .optional (fun t => .word t.text) m.tombstone)]

end Metadata

end ClusterLink

import ClusterLink.Resource.Metadata

/-! What the store asks of a kind of object: its metadata, and which fields of a stored object
outlive its replacement from outside. -/

namespace ClusterLink

/-- A type of objects that the store can hold. -/
class Resource (R : Type) where
  kind : Kind
  metadata : R → Metadata
  /-- The object with other metadata. -/
  withMetadata : R → Metadata → R
  /-- `retain incoming stored` is the incoming object with the fields of the stored one that only
  the controller writes. -/
  retain : R → R → R

namespace Resource

variable {R : Type} [Resource R]

def key (r : R) : Key := (metadata r).key

end Resource

end ClusterLink

import ClusterLink.Resource.Basic
import ClusterLink.Store.Error
import ClusterLink.Store.EventLog

/-! One kind of object in the store. Replacing an object from outside keeps its identity, its
tombstone and the fields that belong to the controller. A write of a client is refused when it is
based on another version than the stored one, and removes the object when it leaves a tombstone
without finalizers. -/

namespace ClusterLink

/-- The objects of one kind by key. -/
abbrev Table (R : Type) := Dict Key R

namespace Table

variable {R : Type} [Resource R]

def get (t : Table R) (key : Key) : Except StoreError R :=
  match t.find? key with
  | some r => .ok r
  | none => .error (.notFound (Resource.kind R) key)

/-- An object as it is stored under a key for the first time. -/
def created (fresh : Uid) (incoming : R) : R :=
  Resource.withMetadata incoming
    { Resource.metadata incoming with uid := some fresh, version := 1 }

/-- An object as it is stored in the place of another. -/
def replaced (incoming stored : R) : R :=
  let kept := Resource.retain incoming stored
  let old := Resource.metadata stored
  let new := Resource.metadata kept
  Resource.withMetadata kept
    { new with
      uid := old.uid
      version := old.version + 1
      tombstone := new.tombstone.or old.tombstone }

/-- Creates or replaces an object from outside; the answer is the object as stored. -/
def apply (t : Table R) (fresh : Uid) (incoming : R) : R × Table R :=
  let key := Resource.key incoming
  let stored :=
    match t.find? key with
    | some old => replaced incoming old
    | none => created fresh incoming
  (stored, t.insert key stored)

/-- A client's write: `merge` takes what the write changes into the stored object. The answer is the
object after the write and whether that write removed it. -/
def update (t : Table R) (merge : R → R → R) (incoming : R) :
    Except StoreError (R × Action × Table R) :=
  let key := Resource.key incoming
  match t.find? key with
  | none => .error (.notFound (Resource.kind R) key)
  | some stored =>
    let current := (Resource.metadata stored).version
    let expected := (Resource.metadata incoming).version
    if expected ≠ 0 ∧ expected ≠ current then
      .error (.conflict (Resource.kind R) key current expected)
    else
      let merged := merge stored incoming
      let updated :=
        Resource.withMetadata merged { Resource.metadata merged with version := current + 1 }
      let m := Resource.metadata updated
      if m.isBeingDeleted ∧ m.finalizers = [] then
        .ok (updated, .deleted, t.erase key)
      else
        .ok (updated, .applied, t.insert key updated)

end Table

end ClusterLink

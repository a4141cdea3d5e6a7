import ClusterLink.Cluster.Call
import ClusterLink.Reconcile.Error

/-! Finalizers: named cleanups that run before an association goes. While the association is live
their names are put on it, so that a deletion leaves a tombstone. Once the tombstone is there, each
cleanup whose name is still on the association runs, its name is taken off, and the shorter list is
written; the store removes the record with the last name. A cleanup runs again if that write
fails. -/

namespace ClusterLink

/-- A named cleanup. -/
structure Finalizer where
  name : String
  cleanup : Calls (Except FinalizerError Unit)

namespace Finalizer

/-- The outline of a finalizer shows its name alone. -/
def outline (name : String) : Outline := .record "Finalizer" [("name", .text name)]

/-- What came of bringing finalizers up to date. -/
structure Report where
  /-- The association as the caller has it afterwards. -/
  association : Association
  /-- The names whose cleanup ran, in order. -/
  executed : List String
  error : Option FinalizerError
  deriving DecidableEq

/-- Writes the list of finalizers, and takes the stored association in its place. -/
def write (a : Association) (executed : List String) : Calls Report := do
  match ← Program.request (Q := Call) (.updateAssociation a) with
  | .ok stored => return ⟨stored, executed, none⟩
  | .error e => return ⟨a, executed, some (.store e)⟩

def addAll (names : List String) (a : Association) : Association :=
  { a with metadata := names.foldl Metadata.addFinalizer a.metadata }

/-- Puts the names on a live association, and writes it if one of them is new. -/
def register (a : Association) (finalizers : List Finalizer) : Calls Report :=
  let named := addAll (finalizers.map name) a
  if named.metadata.finalizers = a.metadata.finalizers then return ⟨a, [], none⟩
  else write named []

/-- Runs the cleanups whose names are on an association, and stops at the first that fails. -/
def runCleanups (a : Association) (executed : List String) : List Finalizer → Calls Report
  | [] => if executed.isEmpty then return ⟨a, executed, none⟩ else write a executed
  | f :: rest =>
    if a.metadata.hasFinalizer f.name then
      f.cleanup.bind fun
        | .error e => return ⟨a, executed ++ [f.name], some e⟩
        | .ok () =>
          runCleanups { a with metadata := a.metadata.removeFinalizer f.name }
            (executed ++ [f.name]) rest
    else runCleanups a executed rest

/-- Brings the finalizers of an association up to date. -/
def handle (a : Association) (finalizers : List Finalizer) : Calls Report :=
  if a.metadata.isBeingDeleted then runCleanups a [] finalizers else register a finalizers

end Finalizer

end ClusterLink

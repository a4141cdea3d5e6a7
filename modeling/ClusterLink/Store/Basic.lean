import ClusterLink.Resource.Association
import ClusterLink.Resource.Elasticsearch
import ClusterLink.Resource.Kibana
import ClusterLink.Resource.Secret
import ClusterLink.Store.Table

/-! The store: the four tables, the log of changes, the faults that wait for a call, and counts of
the successful writes of clients. Actors from outside apply and delete objects; clients read them
and write associations and Kibana instances. Each operation is one step. -/

namespace ClusterLink

/-- The client operations that can be made to fail. -/
inductive Operation where
  | getAssociation
  | updateAssociation
  | updateAssociationStatus
  | getElasticsearch
  | getKibana
  | updateKibana
  | getSecret
  deriving DecidableEq, Repr

/-- How many writes of clients have succeeded. -/
structure WriteCounts where
  associationUpdates : Nat
  statusUpdates : Nat
  kibanaUpdates : Nat
  deriving DecidableEq, Repr

/-- The store. -/
structure Store where
  associations : Table Association
  elasticsearches : Table Elasticsearch
  kibanas : Table Kibana
  secrets : Table Secret
  log : EventLog
  /-- The error that the next call of an operation meets. -/
  fault? : Operation → Option StoreError
  writes : WriteCounts
  /-- How many identifiers have been given out. -/
  issued : Nat

namespace Store

/-- The empty store, whose readers may fall behind by the given number of events. -/
def new (eventCapacity : Nat) : Store where
  associations := ∅
  elasticsearches := ∅
  kibanas := ∅
  secrets := ∅
  log := .new eventCapacity
  fault? _ := none
  writes := ⟨0, 0, 0⟩
  issued := 0

def emit (s : Store) (kind : Kind) (key : Key) (action : Action) : Store :=
  { s with log := s.log.append ⟨kind, key, action⟩ }

/-- Makes the next call of an operation fail. -/
def setFault (s : Store) (op : Operation) (error : StoreError) : Store :=
  { s with fault? := fun o => if o = op then some error else s.fault? o }

/-- The store without a fault for an operation. -/
def clearFault (s : Store) (op : Operation) : Store :=
  { s with fault? := fun o => if o = op then none else s.fault? o }

/-- Runs a call unless a fault waits for it; the fault is used up. -/
def unlessFault (s : Store) (op : Operation) (run : Store → Except StoreError α × Store) :
    Except StoreError α × Store :=
  match s.fault? op with
  | some error => (.error error, s.clearFault op)
  | none => run s

/-! ## Actors from outside -/

def applyAssociation (s : Store) (a : Association) : Association × Store :=
  let (stored, table) := s.associations.apply (.generated s.issued) a
  (stored, { s with associations := table, issued := s.issued + 1 }.emit
    .association stored.key .applied)

def applyElasticsearch (s : Store) (es : Elasticsearch) : Elasticsearch × Store :=
  let (stored, table) := s.elasticsearches.apply (.generated s.issued) es
  (stored, { s with elasticsearches := table, issued := s.issued + 1 }.emit
    .elasticsearch stored.key .applied)

def applyKibana (s : Store) (kb : Kibana) : Kibana × Store :=
  let (stored, table) := s.kibanas.apply (.generated s.issued) kb
  (stored, { s with kibanas := table, issued := s.issued + 1 }.emit .kibana stored.key .applied)

def applySecret (s : Store) (secret : Secret) : Secret × Store :=
  let (stored, table) := s.secrets.apply (.generated s.issued) secret
  (stored, { s with secrets := table, issued := s.issued + 1 }.emit .secret stored.key .applied)

/-- Asks for the deletion of an association: it goes at once if it has no finalizers, and otherwise
gets a tombstone, which a later request leaves as it is. -/
def deleteAssociation (s : Store) (now : Instant) (key : Key) : Except StoreError Unit × Store :=
  match s.associations.find? key with
  | none => (.error (.notFound .association key), s)
  | some stored =>
    let m := stored.metadata
    if m.finalizers = [] then
      (.ok (), { s with associations := s.associations.erase key }.emit .association key .deleted)
    else if m.isBeingDeleted then
      (.ok (), s.emit .association key .applied)
    else
      let marked :=
        { stored with metadata := { m with tombstone := some now, version := m.version + 1 } }
      (.ok (), { s with associations := s.associations.insert key marked }.emit
        .association key .applied)

/-- Removes a cluster; the answer is whether there was one. -/
def deleteElasticsearch (s : Store) (key : Key) : Bool × Store :=
  if s.elasticsearches.contains key then
    (true, { s with elasticsearches := s.elasticsearches.erase key }.emit
      .elasticsearch key .deleted)
  else (false, s)

/-- Removes an instance; the answer is whether there was one. -/
def deleteKibana (s : Store) (key : Key) : Bool × Store :=
  if s.kibanas.contains key then
    (true, { s with kibanas := s.kibanas.erase key }.emit .kibana key .deleted)
  else (false, s)

/-- Removes a secret; the answer is whether there was one. -/
def deleteSecret (s : Store) (key : Key) : Bool × Store :=
  if s.secrets.contains key then
    (true, { s with secrets := s.secrets.erase key }.emit .secret key .deleted)
  else (false, s)

/-! ## Clients -/

/-- The metadata that a client's write leaves: it may change annotations and finalizers. -/
def mergeMetadata (stored incoming : Metadata) : Metadata :=
  { stored with annotations := incoming.annotations, finalizers := incoming.finalizers }

def getAssociation (s : Store) (key : Key) : Except StoreError Association × Store :=
  s.unlessFault .getAssociation fun s => (s.associations.get key, s)

def getElasticsearch (s : Store) (key : Key) : Except StoreError Elasticsearch × Store :=
  s.unlessFault .getElasticsearch fun s => (s.elasticsearches.get key, s)

def getKibana (s : Store) (key : Key) : Except StoreError Kibana × Store :=
  s.unlessFault .getKibana fun s => (s.kibanas.get key, s)

def getSecret (s : Store) (key : Key) : Except StoreError Secret × Store :=
  s.unlessFault .getSecret fun s => (s.secrets.get key, s)

/-- Writes annotations, finalizers and spec of an association; its status stays. -/
def updateAssociation (s : Store) (a : Association) : Except StoreError Association × Store :=
  s.unlessFault .updateAssociation fun s =>
    let merge (stored incoming : Association) : Association :=
      { stored with
        metadata := mergeMetadata stored.metadata incoming.metadata
        spec := incoming.spec }
    match s.associations.update merge a with
    | .error e => (.error e, s)
    | .ok (updated, action, table) =>
      let writes := { s.writes with associationUpdates := s.writes.associationUpdates + 1 }
      (.ok updated, { s with associations := table, writes }.emit .association updated.key action)

/-- Writes the status of an association and nothing else of it. -/
def updateAssociationStatus (s : Store) (a : Association) :
    Except StoreError Association × Store :=
  s.unlessFault .updateAssociationStatus fun s =>
    let merge (stored incoming : Association) : Association :=
      { stored with status := incoming.status }
    match s.associations.update merge a with
    | .error e => (.error e, s)
    | .ok (updated, action, table) =>
      let writes := { s.writes with statusUpdates := s.writes.statusUpdates + 1 }
      (.ok updated, { s with associations := table, writes }.emit .association updated.key action)

/-- Writes annotations, finalizers and spec of a Kibana instance. -/
def updateKibana (s : Store) (kb : Kibana) : Except StoreError Kibana × Store :=
  s.unlessFault .updateKibana fun s =>
    let merge (stored incoming : Kibana) : Kibana :=
      { stored with
        metadata := mergeMetadata stored.metadata incoming.metadata
        spec := incoming.spec }
    match s.kibanas.update merge kb with
    | .error e => (.error e, s)
    | .ok (updated, action, table) =>
      let writes := { s.writes with kibanaUpdates := s.writes.kibanaUpdates + 1 }
      (.ok updated, { s with kibanas := table, writes }.emit .kibana updated.key action)

end Store

end ClusterLink

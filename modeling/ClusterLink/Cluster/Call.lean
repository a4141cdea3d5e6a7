import ClusterLink.Program
import ClusterLink.Store.Basic
import ClusterLink.Watch.Registry

/-! What reconciling asks of its surroundings: the client operations of the store, and writes to the
registries of watches. Each call is one step on the store and the registries. -/

namespace ClusterLink

/-- A call of the store or of a registry. -/
inductive Call where
  | getAssociation (key : Key)
  | updateAssociation (a : Association)
  | updateAssociationStatus (a : Association)
  | getElasticsearch (key : Key)
  | getKibana (key : Key)
  | updateKibana (kb : Kibana)
  | getSecret (key : Key)
  | addWatch (side : Side) (watch : Watch)
  | removeWatch (side : Side) (name : String)

namespace Call

abbrev Answer : Call → Type
  | .getAssociation _ | .updateAssociation _ | .updateAssociationStatus _ =>
    Except StoreError Association
  | .getElasticsearch _ => Except StoreError Elasticsearch
  | .getKibana _ | .updateKibana _ => Except StoreError Kibana
  | .getSecret _ => Except StoreError Secret
  | .addWatch .. => Except WatchError Unit
  | .removeWatch .. => Bool

/-- The store operation of a call; the registries have none. -/
def operation? : Call → Option Operation
  | .getAssociation _ => some .getAssociation
  | .updateAssociation _ => some .updateAssociation
  | .updateAssociationStatus _ => some .updateAssociationStatus
  | .getElasticsearch _ => some .getElasticsearch
  | .getKibana _ => some .getKibana
  | .updateKibana _ => some .updateKibana
  | .getSecret _ => some .getSecret
  | .addWatch .. | .removeWatch .. => none

end Call

/-- The store together with the registries. -/
structure Cluster where
  store : Store
  watches : Watches

namespace Cluster

def new (eventCapacity : Nat) : Cluster := ⟨.new eventCapacity, .empty⟩

/-- Carries a result of the store over. -/
def withStore (c : Cluster) (r : α × Store) : α × Cluster := (r.1, { c with store := r.2 })

def answer : (call : Call) → Cluster → call.Answer × Cluster
  | .getAssociation key, c => c.withStore (c.store.getAssociation key)
  | .updateAssociation a, c => c.withStore (c.store.updateAssociation a)
  | .updateAssociationStatus a, c => c.withStore (c.store.updateAssociationStatus a)
  | .getElasticsearch key, c => c.withStore (c.store.getElasticsearch key)
  | .getKibana key, c => c.withStore (c.store.getKibana key)
  | .updateKibana kb, c => c.withStore (c.store.updateKibana kb)
  | .getSecret key, c => c.withStore (c.store.getSecret key)
  | .addWatch side watch, c =>
    match (c.watches.get side).add watch with
    | .error e => (.error e, c)
    | .ok registry => (.ok (), { c with watches := c.watches.set side registry })
  | .removeWatch side name, c =>
    let (removed, registry) := (c.watches.get side).remove name
    (removed, { c with watches := c.watches.set side registry })

end Cluster

/-- A program that calls the store and the registries. -/
abbrev Calls (α : Type) := Program Call.Answer α

/-- Runs a program of calls with nothing in between. -/
def Calls.alone (p : Calls α) (c : Cluster) : α × Cluster := p.run Cluster.answer c

end ClusterLink

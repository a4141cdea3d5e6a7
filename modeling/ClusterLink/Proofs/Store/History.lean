import ClusterLink.Proofs.Store.Reachable

/-! Histories of the store: the commands of all who work on it, one after the other. A place is a
kind and a key, and `Store.find?` what stands there. -/

namespace ClusterLink

def WriteCounts.total (w : WriteCounts) : Nat :=
  w.associationUpdates + w.statusUpdates + w.kibanaUpdates

namespace Store

/-- What somebody asks of the store. -/
inductive Command where
  | edit (e : Edit)
  | read (kind : Kind) (key : Key)
  | updateAssociation (a : Association)
  | updateAssociationStatus (a : Association)
  | updateKibana (kb : Kibana)
  /-- The next call of an operation is to fail. -/
  | setFault (op : Operation) (error : StoreError)

namespace Command

/-- The operation whose fault a command meets. -/
def operation? : Command → Option Operation
  | .read .association _ => some .getAssociation
  | .read .elasticsearch _ => some .getElasticsearch
  | .read .kibana _ => some .getKibana
  | .read .secret _ => some .getSecret
  | .updateAssociation _ => some .updateAssociation
  | .updateAssociationStatus _ => some .updateAssociationStatus
  | .updateKibana _ => some .updateKibana
  | .edit _ | .setFault .. => none

/-- The object that a client's write carries. -/
def update? : Command → Option Object
  | .updateAssociation a | .updateAssociationStatus a => some (.association a)
  | .updateKibana kb => some (.kibana kb)
  | .edit _ | .read .. | .setFault .. => none

/-- The object that a command is to store, from outside or for a client. -/
def object? : Command → Option Object
  | .edit (.apply o) => some o
  | cmd => cmd.update?

end Command

/-- The answer to a call, without what was read or written. -/
def answered {α : Type} (r : Except StoreError α × Store) : Except StoreError Bool × Store :=
  (r.1.map fun _ => true, r.2)

/-- Carries a command out; the answer is an error, or whether there was anything to delete. -/
def perform (s : Store) : Command → Except StoreError Bool × Store
  | .edit (.apply o) => (.ok true, s.edit (.apply o))
  | .edit (.delete .association now key) => answered (s.deleteAssociation now key)
  | .edit (.delete .elasticsearch _ key) => (s.deleteElasticsearch key).map .ok id
  | .edit (.delete .kibana _ key) => (s.deleteKibana key).map .ok id
  | .edit (.delete .secret _ key) => (s.deleteSecret key).map .ok id
  | .read .association key => answered (s.getAssociation key)
  | .read .elasticsearch key => answered (s.getElasticsearch key)
  | .read .kibana key => answered (s.getKibana key)
  | .read .secret key => answered (s.getSecret key)
  | .updateAssociation a => answered (s.updateAssociation a)
  | .updateAssociationStatus a => answered (s.updateAssociationStatus a)
  | .updateKibana kb => answered (s.updateKibana kb)
  | .setFault op error => (.ok true, s.setFault op error)

/-- The store after some commands. -/
def after (s : Store) (l : List Command) : Store := l.foldl (fun s cmd => (s.perform cmd).2) s

@[simp] theorem after_nil (s : Store) : s.after [] = s := rfl

@[simp] theorem after_cons (s : Store) (cmd : Command) (l : List Command) :
    s.after (cmd :: l) = (s.perform cmd).2.after l := rfl

theorem after_append (s : Store) (l l' : List Command) : s.after (l ++ l') = (s.after l).after l' :=
  List.foldl_append

/-- What stands under a key in the table of a kind. -/
def find? (s : Store) : Kind → Key → Option Object
  | .association, key => (s.associations.find? key).map .association
  | .elasticsearch, key => (s.elasticsearches.find? key).map .elasticsearch
  | .kibana, key => (s.kibanas.find? key).map .kibana
  | .secret, key => (s.secrets.find? key).map .secret

theorem kind_of_find? {s : Store} {kind : Kind} {key : Key} {o : Object}
    (h : s.find? kind key = some o) : o.kind = kind := by
  cases kind <;> obtain ⟨r, -, rfl⟩ := Option.map_eq_some_iff.1 h <;> rfl

theorem Keyed.key_of_find? {s : Store} (h : s.Keyed) {kind : Kind} {key : Key} {o : Object}
    (ho : s.find? kind key = some o) : o.metadata.key = key := by
  cases kind with
  | association =>
    obtain ⟨a, ha, rfl⟩ := Option.map_eq_some_iff.1 ho
    exact h.associations ha
  | elasticsearch =>
    obtain ⟨es, hes, rfl⟩ := Option.map_eq_some_iff.1 ho
    exact h.elasticsearches hes
  | kibana =>
    obtain ⟨kb, hkb, rfl⟩ := Option.map_eq_some_iff.1 ho
    exact h.kibanas hkb
  | secret =>
    obtain ⟨secret, hsecret, rfl⟩ := Option.map_eq_some_iff.1 ho
    exact h.secrets hsecret

theorem find?_withFaults (s : Store) (f) : (s.withFaults f).find? = s.find? := by
  funext kind
  cases kind <;> rfl

theorem find?_clearFault (s : Store) (op : Operation) : (s.clearFault op).find? = s.find? :=
  s.find?_withFaults _

theorem find?_emit (s : Store) (kind : Kind) (key : Key) (action : Action) :
    (s.emit kind key action).find? = s.find? := by
  funext k
  cases k <;> rfl

/-- A command is to store an object in a place, and does so. -/
def Writes (s : Store) (cmd : Command) (kind : Kind) (key : Key) : Prop :=
  (s.perform cmd).1 = .ok true ∧ ∃ o, cmd.object? = some o ∧ o.kind = kind ∧ o.metadata.key = key

/-- How many objects were applied, and how many writes of clients went through. -/
def writeCount (s : Store) : Nat := s.issued + s.writes.total

theorem issued_le_writeCount (s : Store) : s.issued ≤ s.writeCount := Nat.le_add_right ..

variable {s s' : Store}

theorem perform_edit (s : Store) (e : Edit) : (s.perform (.edit e)).2 = s.edit e := by
  cases e with
  | apply => rfl
  | delete kind => cases kind <;> rfl

theorem perform_called (s : Store) {cmd : Command} (h : ∀ e, cmd ≠ .edit e) :
    s.Called (s.perform cmd).2 := by
  cases cmd with
  | edit e => exact absurd rfl (h e)
  | read kind key =>
    cases kind with
    | association => exact Cluster.answer_called ⟨s, .empty⟩ (.getAssociation key)
    | elasticsearch => exact Cluster.answer_called ⟨s, .empty⟩ (.getElasticsearch key)
    | kibana => exact Cluster.answer_called ⟨s, .empty⟩ (.getKibana key)
    | secret => exact Cluster.answer_called ⟨s, .empty⟩ (.getSecret key)
  | updateAssociation a => exact Cluster.answer_called ⟨s, .empty⟩ (.updateAssociation a)
  | updateAssociationStatus a =>
    exact Cluster.answer_called ⟨s, .empty⟩ (.updateAssociationStatus a)
  | updateKibana kb => exact Cluster.answer_called ⟨s, .empty⟩ (.updateKibana kb)
  | setFault => exact .same _

theorem Keyed.perform (h : s.Keyed) (cmd : Command) : (s.perform cmd).2.Keyed := by
  cases cmd with
  | edit e => exact s.perform_edit e ▸ h.edit e
  | read | updateAssociation | updateAssociationStatus | updateKibana | setFault =>
    exact h.called (s.perform_called fun e he => nomatch he)

theorem Keyed.after (h : s.Keyed) (l : List Command) : (s.after l).Keyed := by
  induction l generalizing s with
  | nil => exact h
  | cons cmd l ih => exact ih (h.perform cmd)

end Store

end ClusterLink

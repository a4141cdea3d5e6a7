import Mathlib.Algebra.Group.Defs
import ClusterLink.Proofs.Reconcile.Again

/-! Places: the single things that calls of a reconcile read and write. A call leaves every place
but its own as it was (`entry_answer_of_ne`), and on two clusters that agree on its place it gets
one answer and leaves one entry (`Agree.answer`). Clusters and secrets are only read. -/

namespace ClusterLink

/-- What one call reads or writes. -/
inductive Place where
  | association (key : Key)
  | kibana (key : Key)
  | watch (side : Side) (name : String)
  deriving DecidableEq

abbrev Place.Content : Place → Type
  | .association _ => Association
  | .kibana _ => Kibana
  | .watch .. => Watch

/-- What stands at a place. -/
def Cluster.entry (c : Cluster) : (p : Place) → Option p.Content
  | .association key => c.store.associations.find? key
  | .kibana key => c.store.kibanas.find? key
  | .watch side name => (c.watches.get side).find? name

namespace Call

/-- The place of a call; those that read a cluster or a secret have none. -/
def place? : Call → Option Place
  | .getAssociation key => some (.association key)
  | .updateAssociation a | .updateAssociationStatus a => some (.association a.key)
  | .getKibana key => some (.kibana key)
  | .updateKibana kb => some (.kibana kb.key)
  | .addWatch side w => some (.watch side w.name)
  | .removeWatch side name => some (.watch side name)
  | .getElasticsearch _ | .getSecret _ => none

/-- How many writes of each kind a call is, by its answer. -/
def gain : (q : Call) → q.Answer → WriteCounts
  | .updateAssociation _, .ok _ => ⟨1, 0, 0⟩
  | .updateAssociationStatus _, .ok _ => ⟨0, 1, 0⟩
  | .updateKibana _, .ok _ => ⟨0, 0, 1⟩
  | _, _ => ⟨0, 0, 0⟩

end Call

instance : Add WriteCounts where
  add x y := ⟨x.associationUpdates + y.associationUpdates, x.statusUpdates + y.statusUpdates,
    x.kibanaUpdates + y.kibanaUpdates⟩

instance : Zero WriteCounts := ⟨⟨0, 0, 0⟩⟩

attribute [ext] WriteCounts

instance : AddCommMonoid WriteCounts where
  add_assoc _ _ _ := WriteCounts.ext (Nat.add_assoc ..) (Nat.add_assoc ..) (Nat.add_assoc ..)
  zero_add _ := WriteCounts.ext (Nat.zero_add _) (Nat.zero_add _) (Nat.zero_add _)
  add_zero _ := WriteCounts.ext (Nat.add_zero _) (Nat.add_zero _) (Nat.add_zero _)
  add_comm _ _ := WriteCounts.ext (Nat.add_comm ..) (Nat.add_comm ..) (Nat.add_comm ..)
  nsmul := nsmulRec

theorem WriteCounts.add_left_cancel {x y z : WriteCounts} (h : x + y = x + z) : y = z :=
  WriteCounts.ext (Nat.add_left_cancel (congrArg associationUpdates h))
    (Nat.add_left_cancel (congrArg statusUpdates h))
    (Nat.add_left_cancel (congrArg kibanaUpdates h))

namespace Cluster

variable {c c' : Cluster} {q : Call} {p : Place}

theorem writes_answer (c : Cluster) (q : Call) :
    (c.answer q).2.store.writes = c.store.writes + q.gain (c.answer q).1 := by
  cases q with
  | addWatch side w =>
    simp only [answer]
    split <;> rfl
  | removeWatch => rfl
  | getAssociation | getElasticsearch | getKibana | getSecret =>
    simp only [answer, withStore, Store.getAssociation, Store.getElasticsearch, Store.getKibana,
      Store.getSecret, Store.unlessFault]
    split <;> rfl
  | updateAssociation | updateAssociationStatus | updateKibana =>
    simp only [answer, withStore, Store.updateAssociation, Store.updateAssociationStatus,
      Store.updateKibana, Store.unlessFault]
    split
    · rfl
    · split <;> rfl

theorem Calm.updateAssociation (h : c.Calm) (a : Association) :
    c.answer (.updateAssociation a) =
      match Table.attempt a a.rewritten (c.store.associations.find? a.key) with
      | .error e => (.error e, c)
      | .ok r => (.ok r, c.putAssociation a.key r (c.store.writes + ⟨1, 0, 0⟩)) := by
  have hkey : Resource.key a = a.key := rfl
  simp only [Cluster.answer, withStore, Store.updateAssociation, Store.unlessFault, h _]
  rw [Table.update_eq (w := a.rewritten) fun _ => rfl, hkey]
  cases Table.attempt a a.rewritten (c.store.associations.find? a.key) <;> rfl

theorem Calm.updateAssociationStatus (h : c.Calm) (a : Association) :
    c.answer (.updateAssociationStatus a) =
      match Table.attempt a a.restated (c.store.associations.find? a.key) with
      | .error e => (.error e, c)
      | .ok r => (.ok r, c.putAssociation a.key r (c.store.writes + ⟨0, 1, 0⟩)) := by
  have hkey : Resource.key a = a.key := rfl
  simp only [Cluster.answer, withStore, Store.updateAssociationStatus, Store.unlessFault, h _]
  rw [Table.update_eq (w := a.restated) fun _ => rfl, hkey]
  cases Table.attempt a a.restated (c.store.associations.find? a.key) <;> rfl

theorem Calm.updateKibana (h : c.Calm) (kb : Kibana) :
    c.answer (.updateKibana kb) =
      match Table.attempt kb kb.rewritten (c.store.kibanas.find? kb.key) with
      | .error e => (.error e, c)
      | .ok r => (.ok r, c.putKibana kb.key r (c.store.writes + ⟨0, 0, 1⟩)) := by
  have hkey : Resource.key kb = kb.key := rfl
  simp only [Cluster.answer, withStore, Store.updateKibana, Store.unlessFault, h _]
  rw [Table.update_eq (w := kb.rewritten) fun _ => rfl, hkey]
  cases Table.attempt kb kb.rewritten (c.store.kibanas.find? kb.key) <;> rfl

/-! ## Writes in the version that is stored -/

theorem Calm.updateAssociation_of_stored (h : c.Calm) {a stored : Association}
    (ha : c.store.associations.find? a.key = some stored)
    (hv : a.metadata.version = stored.metadata.version) :
    c.answer (.updateAssociation a) = (.ok (a.rewritten stored),
      c.putAssociation a.key (a.rewritten stored) (c.store.writes + ⟨1, 0, 0⟩)) := by
  rw [h.updateAssociation, ha, Table.attempt_of_version hv]

theorem Calm.updateAssociationStatus_of_stored (h : c.Calm) {a stored : Association}
    (ha : c.store.associations.find? a.key = some stored)
    (hv : a.metadata.version = stored.metadata.version) :
    c.answer (.updateAssociationStatus a) = (.ok (a.restated stored),
      c.putAssociation a.key (a.restated stored) (c.store.writes + ⟨0, 1, 0⟩)) := by
  rw [h.updateAssociationStatus, ha, Table.attempt_of_version hv]

theorem Calm.updateKibana_of_stored (h : c.Calm) {kb stored : Kibana}
    (hk : c.store.kibanas.find? kb.key = some stored)
    (hv : kb.metadata.version = stored.metadata.version) :
    c.answer (.updateKibana kb) = (.ok (kb.rewritten stored),
      c.putKibana kb.key (kb.rewritten stored) (c.store.writes + ⟨0, 0, 1⟩)) := by
  rw [h.updateKibana, hk, Table.attempt_of_version hv]

theorem answer_addWatch_of_complete (c : Cluster) (side : Side) {w : Watch}
    (h : w.isComplete) : c.answer (.addWatch side w) =
      (.ok (), c.setRegistry side ((c.watches.get side).insert w.name w)) := by
  simp only [answer, Registry.add_of_complete h]
  rfl

/-! ## A call and its place -/

theorem entry_putAssociation_of_ne (c : Cluster) {key : Key} (h : .association key ≠ p)
    (a : Association) (writes : WriteCounts) :
    (c.putAssociation key a writes).entry p = c.entry p := by
  cases p with
  | association k =>
    refine Table.find?_put_of_ne ?_ a
    rintro rfl
    exact h rfl
  | kibana k => rfl
  | watch side name => rfl

theorem entry_putKibana_of_ne (c : Cluster) {key : Key} (h : .kibana key ≠ p) (kb : Kibana)
    (writes : WriteCounts) : (c.putKibana key kb writes).entry p = c.entry p := by
  cases p with
  | association k => rfl
  | kibana k =>
    refine Table.find?_put_of_ne ?_ kb
    rintro rfl
    exact h rfl
  | watch side name => rfl

theorem entry_setRegistry (c : Cluster) {side : Side} {r : Registry}
    (h : ∀ name, .watch side name = p → r.find? name = (c.watches.get side).find? name) :
    (c.setRegistry side r).entry p = c.entry p := by
  cases p with
  | association k => rfl
  | kibana k => rfl
  | watch other name =>
    simp only [Cluster.entry, setRegistry]
    by_cases e : other = side
    · subst e
      rw [Watches.get_set_self]
      exact h name rfl
    · rw [Watches.get_set_of_ne _ e]

/-- A call leaves every place but its own as it was. -/
theorem entry_answer_of_ne (c : Cluster) (h : q.place? ≠ some p) :
    (c.answer q).2.entry p = c.entry p := by
  have hne : ∀ {p'}, q.place? = some p' → p' ≠ p := fun hp e => h (e ▸ hp)
  have hread : ∀ f, (c.withFaults f).entry p = c.entry p := by
    intro f
    cases p <;> rfl
  cases q with
  | getAssociation key =>
    rcases c.store.getAssociation_cases key with ⟨e, f, hr, -⟩ | ⟨a, -, -, hr⟩
    · simp only [answer, withStore, hr]
      exact hread f
    · simp only [answer, withStore, hr]
  | getElasticsearch key =>
    rcases c.store.getElasticsearch_cases key with ⟨e, f, hr, -⟩ | ⟨a, -, -, hr⟩
    · simp only [answer, withStore, hr]
      exact hread f
    · simp only [answer, withStore, hr]
  | getKibana key =>
    rcases c.store.getKibana_cases key with ⟨e, f, hr, -⟩ | ⟨a, -, -, hr⟩
    · simp only [answer, withStore, hr]
      exact hread f
    · simp only [answer, withStore, hr]
  | getSecret key =>
    rcases c.store.getSecret_cases key with ⟨e, f, hr, -⟩ | ⟨a, -, -, hr⟩
    · simp only [answer, withStore, hr]
      exact hread f
    · simp only [answer, withStore, hr]
  | updateAssociation a =>
    rcases c.store.updateAssociation_cases a with ⟨e, f, hr, -⟩ | ⟨stored, w, -, -, hr⟩
    · simp only [answer, withStore, hr]
      exact hread f
    · simp only [answer, withStore, hr]
      exact entry_putAssociation_of_ne c (hne rfl) _ w
  | updateAssociationStatus a =>
    rcases c.store.updateAssociationStatus_cases a with ⟨e, f, hr, -⟩ | ⟨stored, w, -, -, hr⟩
    · simp only [answer, withStore, hr]
      exact hread f
    · simp only [answer, withStore, hr]
      exact entry_putAssociation_of_ne c (hne rfl) _ w
  | updateKibana kb =>
    rcases c.store.updateKibana_cases kb with ⟨e, f, hr, -⟩ | ⟨stored, w, -, -, hr⟩
    · simp only [answer, withStore, hr]
      exact hread f
    · simp only [answer, withStore, hr]
      exact entry_putKibana_of_ne c (hne rfl) _ w
  | addWatch side w =>
    simp only [Cluster.answer]
    split
    next => rfl
    next r hr =>
      obtain rfl := (Registry.complete_of_add hr).2
      refine entry_setRegistry c fun name hp => Dict.find?_insert_of_ne _ _ ?_
      rintro rfl
      exact hne rfl hp
  | removeWatch side name =>
    refine entry_setRegistry c fun n hp => Dict.find?_erase_of_ne _ ?_
    rintro rfl
    exact hne rfl hp

/-- Two clusters without faults that look the same at some places, and in all that is only read. -/
structure Agree (P : Place → Prop) (c c' : Cluster) : Prop where
  calm : c.Calm
  calm' : c'.Calm
  elasticsearches : c.store.elasticsearches = c'.store.elasticsearches
  secrets : c.store.secrets = c'.store.secrets
  issued : c.store.issued = c'.store.issued
  entry : ∀ p, P p → c.entry p = c'.entry p

variable {P : Place → Prop}

theorem Agree.refl (h : c.Calm) : Agree P c c := ⟨h, h, rfl, rfl, rfl, fun _ _ => rfl⟩

theorem Agree.putAssociation (h : Agree P c c') (key : Key) (a : Association)
    (w w' : WriteCounts) : Agree P (c.putAssociation key a w) (c'.putAssociation key a w') := by
  refine ⟨h.calm, h.calm', h.elasticsearches, h.secrets, h.issued, fun p hp => ?_⟩
  cases p with
  | association k =>
    have hk := h.entry _ hp
    exact (Table.find?_put ..).trans ((if_congr Iff.rfl rfl hk).trans (Table.find?_put ..).symm)
  | kibana k => exact h.entry _ hp
  | watch side name => exact h.entry _ hp

theorem Agree.putKibana (h : Agree P c c') (key : Key) (kb : Kibana) (w w' : WriteCounts) :
    Agree P (c.putKibana key kb w) (c'.putKibana key kb w') := by
  refine ⟨h.calm, h.calm', h.elasticsearches, h.secrets, h.issued, fun p hp => ?_⟩
  cases p with
  | association k => exact h.entry _ hp
  | kibana k =>
    have hk := h.entry _ hp
    exact (Table.find?_put ..).trans ((if_congr Iff.rfl rfl hk).trans (Table.find?_put ..).symm)
  | watch side name => exact h.entry _ hp

theorem Agree.setRegistry (h : Agree P c c') {side : Side} {r r' : Registry}
    (hr : ∀ name, P (.watch side name) → r.find? name = r'.find? name) :
    Agree P (c.setRegistry side r) (c'.setRegistry side r') := by
  refine ⟨h.calm, h.calm', h.elasticsearches, h.secrets, h.issued, fun p hp => ?_⟩
  cases p with
  | association k => exact h.entry _ hp
  | kibana k => exact h.entry _ hp
  | watch other name =>
    simp only [Cluster.entry, Cluster.setRegistry]
    by_cases e : other = side
    · subst e
      rw [Watches.get_set_self, Watches.get_set_self]
      exact hr name hp
    · rw [Watches.get_set_of_ne _ e, Watches.get_set_of_ne _ e]
      exact h.entry _ hp

/-- A call that keeps to places at which two clusters agree gets one answer from both, and they
still agree. -/
theorem Agree.answer (h : Agree P c c') (hq : ∀ p, q.place? = some p → P p) :
    (c.answer q).1 = (c'.answer q).1 ∧ Agree P (c.answer q).2 (c'.answer q).2 := by
  cases q with
  | getAssociation key =>
    have he : c.store.associations.find? key = c'.store.associations.find? key :=
      h.entry _ (hq _ rfl)
    rw [h.calm.getAssociation, h.calm'.getAssociation]
    exact ⟨by simp only [Table.get, he], h⟩
  | getKibana key =>
    have he : c.store.kibanas.find? key = c'.store.kibanas.find? key := h.entry _ (hq _ rfl)
    rw [h.calm.getKibana, h.calm'.getKibana]
    exact ⟨by simp only [Table.get, he], h⟩
  | getElasticsearch key =>
    rw [h.calm.getElasticsearch, h.calm'.getElasticsearch, h.elasticsearches]
    exact ⟨rfl, h⟩
  | getSecret key =>
    rw [h.calm.getSecret, h.calm'.getSecret, h.secrets]
    exact ⟨rfl, h⟩
  | updateAssociation a =>
    have he : c.store.associations.find? a.key = c'.store.associations.find? a.key :=
      h.entry _ (hq _ rfl)
    rw [h.calm.updateAssociation, h.calm'.updateAssociation, he]
    split
    · exact ⟨rfl, h⟩
    · exact ⟨rfl, h.putAssociation ..⟩
  | updateAssociationStatus a =>
    have he : c.store.associations.find? a.key = c'.store.associations.find? a.key :=
      h.entry _ (hq _ rfl)
    rw [h.calm.updateAssociationStatus, h.calm'.updateAssociationStatus, he]
    split
    · exact ⟨rfl, h⟩
    · exact ⟨rfl, h.putAssociation ..⟩
  | updateKibana kb =>
    have he : c.store.kibanas.find? kb.key = c'.store.kibanas.find? kb.key := h.entry _ (hq _ rfl)
    rw [h.calm.updateKibana, h.calm'.updateKibana, he]
    split
    · exact ⟨rfl, h⟩
    · exact ⟨rfl, h.putKibana ..⟩
  | addWatch side w =>
    cases hr : (c.watches.get side).add w with
    | ok r =>
      obtain ⟨hw, rfl⟩ := Registry.complete_of_add hr
      simp only [Cluster.answer, Registry.add_of_complete hw]
      refine ⟨trivial, h.setRegistry fun name hn => ?_⟩
      simp only [Dict.find?_insert]
      exact if_congr Iff.rfl rfl (h.entry _ hn)
    | error e =>
      have hr' : (c'.watches.get side).add w = .error e := Registry.add_eq_error hr _
      simp only [Cluster.answer, hr, hr']
      exact ⟨trivial, h⟩
  | removeWatch side name =>
    have he : (c.watches.get side).find? name = (c'.watches.get side).find? name :=
      h.entry _ (hq _ rfl)
    refine ⟨congrArg Option.isSome he, h.setRegistry fun n hn => ?_⟩
    simp only [Dict.find?_erase]
    exact if_congr Iff.rfl rfl (h.entry _ hn)

/-- A call with another place leaves clusters in agreement. -/
theorem Agree.answer_right (h : Agree P c c') (hq : ∀ p, P p → q.place? ≠ some p) :
    Agree P c (c'.answer q).2 where
  calm := h.calm
  calm' := h.calm'.answer q
  elasticsearches := h.elasticsearches.trans (c'.answer_called q).elasticsearches.symm
  secrets := h.secrets.trans (c'.answer_called q).secrets.symm
  issued := h.issued.trans (c'.answer_called q).issued.symm
  entry p hp := (h.entry p hp).trans (c'.entry_answer_of_ne (hq p hp)).symm

/-- The cluster without the log of its store. -/
def unlogged (c : Cluster) : Cluster := { c with store := { c.store with log := .new 0 } }

/-- Clusters that agree everywhere and count as many writes differ in their logs at most. -/
theorem Agree.unlogged (h : Agree (fun _ => True) c c')
    (hw : c.store.writes = c'.store.writes) : c.unlogged = c'.unlogged := by
  have ha : c.store.associations = c'.store.associations :=
    Dict.ext_find? fun key => h.entry (.association key) trivial
  have hk : c.store.kibanas = c'.store.kibanas :=
    Dict.ext_find? fun key => h.entry (.kibana key) trivial
  have hside : ∀ side, c.watches.get side = c'.watches.get side := fun side =>
    Dict.ext_find? fun name => h.entry (.watch side name) trivial
  have hf : c.store.fault? = c'.store.fault? := funext fun op => (h.calm op).trans (h.calm' op).symm
  have hes := h.elasticsearches
  have hsec := h.secrets
  have hissued := h.issued
  have hew := hside .elasticsearch
  have hkw := hside .kibana
  obtain ⟨⟨_, _, _, _, _, _, _, _⟩, ⟨_, _⟩⟩ := c
  obtain ⟨⟨_, _, _, _, _, _, _, _⟩, ⟨_, _⟩⟩ := c'
  cases ha; cases hk; cases hf; cases hes; cases hsec; cases hissued; cases hew; cases hkw; cases hw
  rfl

end Cluster

end ClusterLink

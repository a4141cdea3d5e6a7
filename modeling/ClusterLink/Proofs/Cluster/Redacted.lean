import ClusterLink.Proofs.Cluster.Place

/-! A cluster without the octets of its secrets. `Cluster.redacted` keeps the names of the entries
of a secret, and leaves out passwords and versions of Kibana instances; all else stays. On two
orderly clusters that are redacted to the same, a call that is not about a Kibana instance comes to
the same but for the octets that it reads (`Orderly.answer_alike`). -/

namespace ClusterLink

/-- The configuration without its password. -/
def Backend.redacted (b : Backend) : Backend :=
  { b with inline := b.inline.map fun auth => { auth with password := "" } }

/-- The Kibana instance without its password and its version. -/
def Kibana.redacted (kb : Kibana) : Kibana :=
  kb.unversioned.withBackend kb.spec.backend.redacted

/-- What a secret is without its octets. -/
def Secret.redacted (s : Secret) : Metadata × List String := (s.metadata, s.data.keys)

/-- What a cluster is without the octets of its secrets. -/
structure Redacted where
  associations : Table Association
  elasticsearches : Table Elasticsearch
  kibanas : Key → Option Kibana
  secrets : Key → Option (Metadata × List String)
  watches : Watches

def Cluster.redacted (c : Cluster) : Redacted where
  associations := c.store.associations
  elasticsearches := c.store.elasticsearches
  kibanas key := (c.store.kibanas.find? key).map Kibana.redacted
  secrets key := (c.store.secrets.find? key).map Secret.redacted
  watches := c.watches

theorem Secret.isSome_text? {s s' : Secret} (h : s.redacted = s'.redacted) (entry : String) :
    (s.text? entry).isSome = (s'.text? entry).isSome := by
  have hkeys : s.data.keys = s'.data.keys := congrArg Prod.snd h
  have hmem : (s.data.find? entry).isSome ↔ (s'.data.find? entry).isSome := by
    rw [← Dict.mem_keys, ← Dict.mem_keys, hkeys]
  simpa [text?] using Bool.eq_iff_iff.2 hmem

theorem Table.map_get {R β : Type} [Resource R] (t : Table R) (key : Key) (f : R → β) :
    (t.get key).map f = ((t.find? key).map f).elim
      (.error (.notFound (Resource.kind R) key)) .ok := by
  unfold get
  cases t.find? key <;> rfl

namespace Cluster

/-- No fault waits, every object stands under its own key, and tombstones come from deletions
only. -/
structure Orderly (c : Cluster) : Prop where
  calm : c.Calm
  keyed : c.store.Keyed
  plain : c.store.Plain

variable {c c' : Cluster} {q : Call}

theorem Orderly.answer (h : c.Orderly) (q : Call) : (c.answer q).2.Orderly :=
  ⟨h.calm.answer q, h.keyed.called (c.answer_called q), h.plain.called (c.answer_called q)⟩

theorem Orderly.alone (h : c.Orderly) (p : Calls α) : (p.alone c).2.Orderly :=
  Calls.alone_keeps (fun h q => h.answer q) p h

theorem Orderly.calm_of_reachable (h : c.store.Reachable Edit.IsPlain) : c.calm.Orderly :=
  ⟨c.calm_calm, h.keyed.withFaults _, h.plain.withFaults _⟩

/-! ## Writes -/

theorem redacted_putAssociation (c : Cluster) (key : Key) (a : Association)
    (writes : WriteCounts) : (c.putAssociation key a writes).redacted =
      { c.redacted with associations := c.redacted.associations.put key a } := rfl

theorem redacted_setRegistry (c : Cluster) (side : Side) (r : Registry) :
    (c.setRegistry side r).redacted =
      { c.redacted with watches := c.redacted.watches.set side r } := rfl

theorem redacted_putKibana (c : Cluster) (key : Key) (kb : Kibana) (writes : WriteCounts) :
    (c.putKibana key kb writes).redacted =
      { c.redacted with
        kibanas := Function.update c.redacted.kibanas key
          (if kb.metadata.isGone then none else some kb.redacted) } := by
  have h := c.store.kibanas.map_find?_put key kb Kibana.redacted
  exact congrArg (fun f => { c.redacted with kibanas := f }) h

end Cluster

/-! ## Calls -/

/-- Two answers of a call that are the same but for the octets of a secret. -/
def Call.Alike : (q : Call) → q.Answer → q.Answer → Prop
  | .getSecret _, r, r' => r.map Secret.redacted = r'.map Secret.redacted
  | _, r, r' => r = r'

variable {c c' : Cluster} {q : Call}

/-- A call that is not about a Kibana instance is answered alike by clusters that are redacted to
the same, and leaves them so. -/
theorem Cluster.Orderly.answer_alike (h : c.Orderly) (h' : c'.Orderly)
    (heq : c.redacted = c'.redacted) (hq : ∀ key, q.place? ≠ some (.kibana key)) :
    q.Alike (c.answer q).1 (c'.answer q).1 ∧
      (c.answer q).2.redacted = (c'.answer q).2.redacted := by
  have hassociations : c.store.associations = c'.store.associations :=
    congrArg Redacted.associations heq
  have hwatches : c.watches = c'.watches := congrArg Redacted.watches heq
  cases q with
  | getAssociation key =>
    rw [h.calm.getAssociation, h'.calm.getAssociation, hassociations]
    exact ⟨rfl, heq⟩
  | getElasticsearch key =>
    rw [h.calm.getElasticsearch, h'.calm.getElasticsearch,
      show c.store.elasticsearches = _ from congrArg Redacted.elasticsearches heq]
    exact ⟨rfl, heq⟩
  | getSecret key =>
    have hsecret : (c.store.secrets.find? key).map Secret.redacted =
        (c'.store.secrets.find? key).map Secret.redacted :=
      congrFun (congrArg Redacted.secrets heq) key
    rw [h.calm.getSecret, h'.calm.getSecret]
    exact ⟨by simp only [Call.Alike, Table.map_get, hsecret], heq⟩
  | getKibana key => exact absurd rfl (hq key)
  | updateKibana kb => exact absurd rfl (hq kb.key)
  | updateAssociation a =>
    rw [h.calm.updateAssociation, h'.calm.updateAssociation, hassociations]
    split
    · exact ⟨rfl, heq⟩
    · exact ⟨rfl, by rw [Cluster.redacted_putAssociation, Cluster.redacted_putAssociation, heq]⟩
  | updateAssociationStatus a =>
    rw [h.calm.updateAssociationStatus, h'.calm.updateAssociationStatus, hassociations]
    split
    · exact ⟨rfl, heq⟩
    · exact ⟨rfl, by rw [Cluster.redacted_putAssociation, Cluster.redacted_putAssociation, heq]⟩
  | addWatch side w =>
    cases hr : (c.watches.get side).add w with
    | error e =>
      rw [Cluster.answer_addWatch_of_refused hr,
        Cluster.answer_addWatch_of_refused (Registry.add_eq_error hr _)]
      exact ⟨rfl, heq⟩
    | ok r =>
      have hw := (Registry.complete_of_add hr).1
      rw [c.answer_addWatch_of_complete side hw, c'.answer_addWatch_of_complete side hw, hwatches]
      exact ⟨rfl, by rw [Cluster.redacted_setRegistry, Cluster.redacted_setRegistry, heq]⟩
  | removeWatch side name =>
    refine ⟨congrArg (fun w : Watches => ((w.get side).remove name).1) hwatches, ?_⟩
    show (c.setRegistry side ((c.watches.get side).erase name)).redacted =
      (c'.setRegistry side ((c'.watches.get side).erase name)).redacted
    rw [Cluster.redacted_setRegistry, Cluster.redacted_setRegistry, heq, hwatches]

end ClusterLink

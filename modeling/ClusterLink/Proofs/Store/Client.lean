import ClusterLink.Proofs.Store.Table

/-! What each call of a client comes to: a read answers with what is stored, a write is refused or
puts the written object, and a call that meets a fault uses the fault up and does nothing else. -/

namespace ClusterLink

/-- The association that a client's write leaves of a stored one. -/
def Association.rewritten (incoming stored : Association) : Association where
  metadata := { Store.mergeMetadata stored.metadata incoming.metadata with
    version := stored.metadata.version + 1 }
  spec := incoming.spec
  status := stored.status

/-- The association that a client's write of a status leaves of a stored one. -/
def Association.restated (incoming stored : Association) : Association where
  metadata := { stored.metadata with version := stored.metadata.version + 1 }
  spec := stored.spec
  status := incoming.status

/-- The Kibana instance that a client's write leaves of a stored one. -/
def Kibana.rewritten (incoming stored : Kibana) : Kibana where
  metadata := { Store.mergeMetadata stored.metadata incoming.metadata with
    version := stored.metadata.version + 1 }
  spec := incoming.spec

theorem Table.Keyed.key_rewritten {t : Table Association} (h : t.Keyed) {a stored : Association}
    (ha : t.Accepts a stored) : (a.rewritten stored).key = a.key := by
  have hkey := h ha.1
  exact hkey

theorem Table.Keyed.key_restated {t : Table Association} (h : t.Keyed) {a stored : Association}
    (ha : t.Accepts a stored) : (a.restated stored).key = a.key := by
  have hkey := h ha.1
  exact hkey

theorem Table.Keyed.key_rewritten_kibana {t : Table Kibana} (h : t.Keyed) {kb stored : Kibana}
    (hk : t.Accepts kb stored) : (kb.rewritten stored).key = kb.key := by
  have hkey := h hk.1
  exact hkey

namespace Store

/-- The store with other faults. -/
def withFaults (s : Store) (fault? : Operation → Option StoreError) : Store := { s with fault? }

/-- The store after a write of an association. -/
def putAssociation (s : Store) (key : Key) (a : Association) (writes : WriteCounts) : Store :=
  { s with associations := s.associations.put key a, writes }.emit .association a.key
    (Table.actionOf a)

/-- The store after a write of a Kibana instance. -/
def putKibana (s : Store) (key : Key) (kb : Kibana) (writes : WriteCounts) : Store :=
  { s with kibanas := s.kibanas.put key kb, writes }.emit .kibana kb.key (Table.actionOf kb)

/-- Whether a read of an object fails with an error: one that was set, or that nothing is
there. -/
def ReadFails {R : Type} [Resource R] (s : Store) (op : Operation) (t : Table R) (key : Key)
    (e : StoreError) : Prop :=
  s.fault? op = some e ∨
    s.fault? op = none ∧ t.find? key = none ∧ e = .notFound (Resource.kind R) key

/-- Whether a write of an object fails with an error: one that was set, or that the store does not
accept the write. -/
def WriteFails {R : Type} [Resource R] (s : Store) (op : Operation) (t : Table R) (incoming : R)
    (e : StoreError) : Prop :=
  s.fault? op = some e ∨ s.fault? op = none ∧ ∀ stored, ¬t.Accepts incoming stored

section

variable (s : Store)

private theorem read_cases {R : Type} [Resource R] (op : Operation) (table : Store → Table R)
    (key : Key) :
    (∃ e f, s.unlessFault op (fun s => ((table s).get key, s)) = (.error e, s.withFaults f) ∧
      s.ReadFails op (table s) key e) ∨
    ∃ r, s.fault? op = none ∧ (table s).find? key = some r ∧
      s.unlessFault op (fun s => ((table s).get key, s)) = (.ok r, s) := by
  unfold unlessFault
  split
  next e h => exact .inl ⟨e, _, rfl, .inl h⟩
  next h =>
    unfold Table.get
    dsimp only
    split
    next r hr => exact .inr ⟨r, h, hr, rfl⟩
    next hr => exact .inl ⟨_, s.fault?, rfl, .inr ⟨h, hr, rfl⟩⟩

theorem getAssociation_cases (key : Key) :
    (∃ e f, s.getAssociation key = (.error e, s.withFaults f) ∧
      s.ReadFails .getAssociation s.associations key e) ∨
    ∃ a, s.fault? .getAssociation = none ∧ s.associations.find? key = some a ∧
      s.getAssociation key = (.ok a, s) :=
  s.read_cases .getAssociation Store.associations key

theorem getElasticsearch_cases (key : Key) :
    (∃ e f, s.getElasticsearch key = (.error e, s.withFaults f) ∧
      s.ReadFails .getElasticsearch s.elasticsearches key e) ∨
    ∃ es, s.fault? .getElasticsearch = none ∧ s.elasticsearches.find? key = some es ∧
      s.getElasticsearch key = (.ok es, s) :=
  s.read_cases .getElasticsearch Store.elasticsearches key

theorem getKibana_cases (key : Key) :
    (∃ e f, s.getKibana key = (.error e, s.withFaults f) ∧
      s.ReadFails .getKibana s.kibanas key e) ∨
    ∃ kb, s.fault? .getKibana = none ∧ s.kibanas.find? key = some kb ∧
      s.getKibana key = (.ok kb, s) :=
  s.read_cases .getKibana Store.kibanas key

theorem getSecret_cases (key : Key) :
    (∃ e f, s.getSecret key = (.error e, s.withFaults f) ∧
      s.ReadFails .getSecret s.secrets key e) ∨
    ∃ secret, s.fault? .getSecret = none ∧ s.secrets.find? key = some secret ∧
      s.getSecret key = (.ok secret, s) :=
  s.read_cases .getSecret Store.secrets key

theorem updateAssociation_cases (a : Association) :
    (∃ e f, s.updateAssociation a = (.error e, s.withFaults f) ∧
      s.WriteFails .updateAssociation s.associations a e) ∨
    ∃ stored writes, s.fault? .updateAssociation = none ∧ s.associations.Accepts a stored ∧
      s.updateAssociation a =
        (.ok (a.rewritten stored), s.putAssociation a.key (a.rewritten stored) writes) := by
  unfold updateAssociation unlessFault
  split
  next e h => exact .inl ⟨e, _, rfl, .inl h⟩
  next h =>
    dsimp only
    rcases s.associations.update_cases _ a with ⟨e, he, hno⟩ | ⟨stored, hs, hu⟩
    · exact .inl ⟨e, s.fault?, by rw [he]; rfl, .inr ⟨h, hno⟩⟩
    · exact .inr ⟨stored, _, h, hs, by rw [hu]; rfl⟩

theorem updateAssociation_of_accepts {a stored : Association}
    (hf : s.fault? .updateAssociation = none) (ha : s.associations.Accepts a stored) :
    (s.updateAssociation a).1 = .ok (a.rewritten stored) := by
  rcases s.updateAssociation_cases a with ⟨e, f, -, he | ⟨-, hno⟩⟩ | ⟨b, w, -, hb, h⟩
  · exact nomatch hf.symm.trans he
  · exact absurd ha (hno stored)
  · obtain rfl : stored = b := Option.some.inj (ha.1.symm.trans hb.1)
    rw [h]

theorem updateAssociationStatus_cases (a : Association) :
    (∃ e f, s.updateAssociationStatus a = (.error e, s.withFaults f) ∧
      s.WriteFails .updateAssociationStatus s.associations a e) ∨
    ∃ stored writes, s.fault? .updateAssociationStatus = none ∧ s.associations.Accepts a stored ∧
      s.updateAssociationStatus a =
        (.ok (a.restated stored), s.putAssociation a.key (a.restated stored) writes) := by
  unfold updateAssociationStatus unlessFault
  split
  next e h => exact .inl ⟨e, _, rfl, .inl h⟩
  next h =>
    dsimp only
    rcases s.associations.update_cases _ a with ⟨e, he, hno⟩ | ⟨stored, hs, hu⟩
    · exact .inl ⟨e, s.fault?, by rw [he]; rfl, .inr ⟨h, hno⟩⟩
    · exact .inr ⟨stored, _, h, hs, by rw [hu]; rfl⟩

theorem updateKibana_cases (kb : Kibana) :
    (∃ e f, s.updateKibana kb = (.error e, s.withFaults f) ∧
      s.WriteFails .updateKibana s.kibanas kb e) ∨
    ∃ stored writes, s.fault? .updateKibana = none ∧ s.kibanas.Accepts kb stored ∧
      s.updateKibana kb =
        (.ok (kb.rewritten stored), s.putKibana kb.key (kb.rewritten stored) writes)
    := by
  unfold updateKibana unlessFault
  split
  next e h => exact .inl ⟨e, _, rfl, .inl h⟩
  next h =>
    dsimp only
    rcases s.kibanas.update_cases _ kb with ⟨e, he, hno⟩ | ⟨stored, hs, hu⟩
    · exact .inl ⟨e, s.fault?, by rw [he]; rfl, .inr ⟨h, hno⟩⟩
    · exact .inr ⟨stored, _, h, hs, by rw [hu]; rfl⟩

end

end Store

end ClusterLink

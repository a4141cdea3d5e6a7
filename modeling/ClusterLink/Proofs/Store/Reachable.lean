import ClusterLink.Cluster.Call
import ClusterLink.Proofs.Store.Edit

/-! What a call of a client can do to the store, and the stores that edits, calls and faults lead
to. In such a store every object stands under its own key; if no edit brings a tombstone of its
own, an association with a tombstone has a finalizer, and no Kibana instance has a tombstone. -/

namespace ClusterLink

namespace Store

/-- What one call does to the store. -/
inductive Called (s : Store) : Store → Prop where
  | same (f) : Called s (s.withFaults f)
  | association {a stored} (h : s.associations.Accepts a stored) (writes) :
    Called s (s.putAssociation a.key (a.rewritten stored) writes)
  | status {a stored} (h : s.associations.Accepts a stored) (writes) :
    Called s (s.putAssociation a.key (a.restated stored) writes)
  | kibana {kb stored} (h : s.kibanas.Accepts kb stored) (writes) :
    Called s (s.putKibana kb.key (kb.rewritten stored) writes)

end Store

theorem Cluster.answer_called (c : Cluster) (q : Call) : c.store.Called (c.answer q).2.store := by
  cases q with
  | getAssociation key =>
    simp only [answer, withStore]
    rcases c.store.getAssociation_cases key with ⟨_, f, h, _⟩ | ⟨_, _, _, h⟩ <;> rw [h]
    · exact .same f
    · exact .same _
  | getElasticsearch key =>
    simp only [answer, withStore]
    rcases c.store.getElasticsearch_cases key with ⟨_, f, h, _⟩ | ⟨_, _, _, h⟩ <;> rw [h]
    · exact .same f
    · exact .same _
  | getKibana key =>
    simp only [answer, withStore]
    rcases c.store.getKibana_cases key with ⟨_, f, h, _⟩ | ⟨_, _, _, h⟩ <;> rw [h]
    · exact .same f
    · exact .same _
  | getSecret key =>
    simp only [answer, withStore]
    rcases c.store.getSecret_cases key with ⟨_, f, h, _⟩ | ⟨_, _, _, h⟩ <;> rw [h]
    · exact .same f
    · exact .same _
  | updateAssociation a =>
    simp only [answer, withStore]
    rcases c.store.updateAssociation_cases a with ⟨_, f, h, _⟩ | ⟨_, w, _, ha, h⟩ <;> rw [h]
    · exact .same f
    · exact .association ha w
  | updateAssociationStatus a =>
    simp only [answer, withStore]
    rcases c.store.updateAssociationStatus_cases a with ⟨_, f, h, _⟩ | ⟨_, w, _, ha, h⟩ <;> rw [h]
    · exact .same f
    · exact .status ha w
  | updateKibana kb =>
    simp only [answer, withStore]
    rcases c.store.updateKibana_cases kb with ⟨_, f, h, _⟩ | ⟨_, w, _, hk, h⟩ <;> rw [h]
    · exact .same f
    · exact .kibana hk w
  | addWatch side watch =>
    simp only [answer]
    split <;> exact .same _
  | removeWatch side name => exact .same _

/-- No call sets a fault. -/
theorem Cluster.fault?_answer (c : Cluster) (q : Call) {op : Operation} {e : StoreError}
    (h : (c.answer q).2.store.fault? op = some e) : c.store.fault? op = some e := by
  have cleared : ∀ {o}, (c.store.clearFault o).fault? op = some e →
      c.store.fault? op = some e := by
    intro o h
    simp only [Store.clearFault] at h
    split at h
    · cases h
    · exact h
  cases q with
  | addWatch side watch =>
    simp only [answer] at h
    split at h <;> exact h
  | removeWatch side name => exact h
  | getAssociation | getElasticsearch | getKibana | getSecret =>
    simp only [answer, withStore, Store.getAssociation, Store.getElasticsearch, Store.getKibana,
      Store.getSecret, Store.unlessFault] at h
    split at h
    · exact cleared h
    · exact h
  | updateAssociation | updateAssociationStatus | updateKibana =>
    simp only [answer, withStore, Store.updateAssociation, Store.updateAssociationStatus,
      Store.updateKibana, Store.unlessFault] at h
    split at h
    · exact cleared h
    · split at h <;> exact h

namespace Store

theorem Called.elasticsearches {s s' : Store} (h : s.Called s') :
    s'.elasticsearches = s.elasticsearches := by
  cases h <;> rfl

theorem Called.secrets {s s' : Store} (h : s.Called s') : s'.secrets = s.secrets := by
  cases h <;> rfl

theorem Called.issued {s s' : Store} (h : s.Called s') : s'.issued = s.issued := by
  cases h <;> rfl

/-- No call creates an association. -/
theorem Called.stored {s s' : Store} (h : s.Called s') {key : Key} {a : Association}
    (ha : s'.associations.find? key = some a) : ∃ b, s.associations.find? key = some b := by
  have put : ∀ {place b new}, s.associations.find? place = some b →
      (s.associations.put place new).find? key = some a →
      ∃ b, s.associations.find? key = some b := by
    intro place b new hb hput
    by_cases hk : key = place
    · exact ⟨b, hk ▸ hb⟩
    · exact ⟨a, Table.find?_put_of_ne hk new ▸ hput⟩
  cases h with
  | same => exact ⟨a, ha⟩
  | association h => exact put h.1 ha
  | status h => exact put h.1 ha
  | kibana => exact ⟨a, ha⟩

/-- The stores that calls, faults and the allowed edits lead to. -/
inductive Reachable (Allowed : Edit → Prop) : Store → Prop where
  | new (n : Nat) : Reachable Allowed (new n)
  | edit {s e} (h : Reachable Allowed s) (he : Allowed e) : Reachable Allowed (s.edit e)
  | call {c : Cluster} (h : Reachable Allowed c.store) (q : Call) :
    Reachable Allowed (c.answer q).2.store
  | faults {s} (h : Reachable Allowed s) (f) : Reachable Allowed (s.withFaults f)

variable {s s' : Store} {Allowed : Edit → Prop}

theorem Keyed.called (h : s.Keyed) (hc : s.Called s') : s'.Keyed := by
  cases hc with
  | same f => exact h.withFaults f
  | association ha w => exact h.putAssociation (h.associations.key_rewritten ha) w
  | status ha w => exact h.putAssociation (h.associations.key_restated ha) w
  | kibana hk w => exact h.putKibana (h.kibanas.key_rewritten_kibana hk) w

theorem Reachable.keyed (h : s.Reachable Allowed) : s.Keyed := by
  induction h with
  | new n => exact .new n
  | edit _ _ ih => exact ih.edit _
  | call _ q ih => exact ih.called (Cluster.answer_called _ q)
  | faults _ f ih => exact ih.withFaults f

theorem Reachable.edits (h : s.Reachable Allowed) {edits : List Edit}
    (he : ∀ e ∈ edits, Allowed e) : (edits.foldl Store.edit s).Reachable Allowed := by
  induction edits generalizing s with
  | nil => exact h
  | cons e edits ih =>
    exact ih (h.edit (he e List.mem_cons_self)) fun e' h' => he e' (List.mem_cons_of_mem _ h')

/-! ## Stores without tombstones from outside -/

/-- Tombstones come from deletions only. -/
structure Plain (s : Store) : Prop where
  associations : ∀ ⦃key a⦄, s.associations.find? key = some a → ¬a.metadata.isGone
  kibanas : ∀ ⦃key kb⦄, s.kibanas.find? key = some kb → kb.metadata.tombstone = none

theorem Plain.new (n : Nat) : (new n).Plain :=
  ⟨fun _ _ h => (nomatch h), fun _ _ h => (nomatch h)⟩

theorem Plain.withFaults (h : s.Plain) (f) : (s.withFaults f).Plain := ⟨h.associations, h.kibanas⟩

theorem Plain.putAssociation (h : s.Plain) (key : Key) (a : Association) (writes : WriteCounts) :
    (s.putAssociation key a writes).Plain := by
  refine ⟨fun x b hx => ?_, h.kibanas⟩
  rw [Store.putAssociation, emit, Table.find?_put] at hx
  split at hx
  next =>
    split at hx
    next => cases hx
    next hg =>
      cases hx
      exact hg
  next => exact h.associations hx

theorem Plain.putKibana (h : s.Plain) (key : Key) {kb : Kibana}
    (hk : kb.metadata.tombstone = none) (writes : WriteCounts) :
    (s.putKibana key kb writes).Plain := by
  refine ⟨h.associations, fun x b hx => ?_⟩
  rw [Store.putKibana, emit, Table.find?_put] at hx
  split at hx
  next =>
    split at hx
    next => cases hx
    next =>
      cases hx
      exact hk
  next => exact h.kibanas hx

theorem Plain.edit (h : s.Plain) {e : Edit} (he : e.IsPlain) : (s.edit e).Plain := by
  refine ⟨fun key a ha => ?_, fun key kb hk => ?_⟩
  · have hed := (s.edit_editedAt e key).association
    rw [ha] at hed
    generalize hold : s.associations.find? key = old at hed
    cases hed with
    | same => exact h.associations hold
    | created hs =>
      subst hs
      simp only [Edit.IsPlain, Object.metadata] at he
      simp [Metadata.isGone, Metadata.isBeingDeleted, Table.created, Resource.metadata,
        Resource.withMetadata, he]
    | @replaced incoming stored hs =>
      subst hs
      simp only [Edit.IsPlain, Object.metadata] at he
      have hlive := h.associations hold
      simpa [Metadata.isGone, Metadata.isBeingDeleted, Metadata.keepFinalizers, Table.replaced,
        Resource.metadata, Resource.withMetadata, Resource.retain, he] using hlive
    | doomed hf => exact fun hg => hf hg.2
  · have hed := (s.edit_editedAt e key).kibana
    rw [hk] at hed
    generalize hold : s.kibanas.find? key = old at hed
    cases hed with
    | same => exact h.kibanas hold
    | created hs =>
      subst hs
      exact he
    | @replaced incoming stored hs =>
      subst hs
      simp only [Edit.IsPlain, Object.metadata] at he
      simp [Metadata.keepFinalizers, Table.replaced, Resource.metadata, Resource.withMetadata,
        Resource.retain, he, h.kibanas hold]

theorem Plain.called (h : s.Plain) (hc : s.Called s') : s'.Plain := by
  cases hc with
  | same f => exact h.withFaults f
  | association => exact h.putAssociation ..
  | status => exact h.putAssociation ..
  | @kibana kb stored hk w =>
    have hlive := h.kibanas hk.1
    exact h.putKibana _ (show (kb.rewritten stored).metadata.tombstone = none from hlive) w

theorem Reachable.plain (h : s.Reachable Edit.IsPlain) : s.Plain := by
  induction h with
  | new n => exact .new n
  | edit _ he ih => exact ih.edit he
  | call _ q ih => exact ih.called (Cluster.answer_called _ q)
  | faults _ f ih => exact ih.withFaults f

end Store

end ClusterLink

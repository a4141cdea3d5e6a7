import ClusterLink.Proofs.Cluster.Traffic
import ClusterLink.Proofs.Store.Incarnation

/-! What a reconcile writes over. A write takes spec, annotations and finalizers from a copy that
was read earlier, and is accepted if the version of the copy is that of the stored object. While the
object is the one that was read, this keeps all that belongs to others. But the version of an object
that was removed and created again starts over, and the identifier is not compared: the write of an
old copy then replaces what others have put into the new object. -/

namespace ClusterLink

open Reconcile

/-- What an association carries that is not the controller's: all but its status and the finalizer
of its watches. -/
def Association.foreign (a : Association) : AssociationSpec × Dict String String × List String :=
  (a.spec, a.metadata.annotations, a.metadata.finalizers.filter (· != watchFinalizerName))

/-- What a Kibana instance carries that is not the controller's: all but its backend
configuration. -/
def Kibana.foreign (kb : Kibana) : Dict String String × List String × String × UInt32 :=
  (kb.metadata.annotations, kb.metadata.finalizers, kb.spec.version, kb.spec.nodeCount)

@[simp] theorem foreign_marked (a : Association) : (marked a).foreign = a.foreign := by
  unfold marked Metadata.addFinalizer
  split
  · rfl
  · simp [Association.foreign]

@[simp] theorem foreign_unmarked (a : Association) : (unmarked a).foreign = a.foreign := by
  simp [unmarked, Association.foreign, Metadata.removeFinalizer, List.filter_filter]

namespace Cluster

/-- A write that succeeds leaves what is not the controller's as it is stored. -/
def Respects (c : Cluster) : Call → Prop
  | .updateAssociation a => ∀ stored new, c.store.associations.find? a.key = some stored →
      (c.answer (.updateAssociation a)).1 = .ok new → new.foreign = stored.foreign
  | .updateAssociationStatus a => ∀ stored new, c.store.associations.find? a.key = some stored →
      (c.answer (.updateAssociationStatus a)).1 = .ok new → new.foreign = stored.foreign
  | .updateKibana kb => ∀ stored new, c.store.kibanas.find? kb.key = some stored →
      (c.answer (.updateKibana kb)).1 = .ok new → new.foreign = stored.foreign
  | _ => True

/-- A write succeeds although it meets another object than the one that was read, and one in which
others have put something else. -/
def Clobbers (c : Cluster) : Call → Prop
  | .updateAssociation a => ∃ stored new, c.store.associations.find? a.key = some stored ∧
      (c.answer (.updateAssociation a)).1 = .ok new ∧
      stored.metadata.uid ≠ a.metadata.uid ∧ stored.foreign ≠ a.foreign
  | .updateKibana kb => ∃ stored new, c.store.kibanas.find? kb.key = some stored ∧
      (c.answer (.updateKibana kb)).1 = .ok new ∧
      stored.metadata.uid ≠ kb.metadata.uid ∧ stored.foreign ≠ kb.foreign
  | _ => False

variable {c c' : Cluster}

theorem updateAssociation_ok {a new : Association}
    (h : (c.answer (.updateAssociation a)).1 = .ok new) :
    ∃ stored, c.store.associations.Accepts a stored ∧ new = a.rewritten stored := by
  simp only [answer, withStore] at h
  rcases c.store.updateAssociation_cases a with ⟨e, f, he, -⟩ | ⟨stored, w, -, ha, hu⟩
  · rw [he] at h
    cases h
  · rw [hu] at h
    cases h
    exact ⟨stored, ha, rfl⟩

theorem updateAssociationStatus_ok {a new : Association}
    (h : (c.answer (.updateAssociationStatus a)).1 = .ok new) :
    ∃ stored, c.store.associations.Accepts a stored ∧ new = a.restated stored := by
  simp only [answer, withStore] at h
  rcases c.store.updateAssociationStatus_cases a with ⟨e, f, he, -⟩ | ⟨stored, w, -, ha, hu⟩
  · rw [he] at h
    cases h
  · rw [hu] at h
    cases h
    exact ⟨stored, ha, rfl⟩

theorem updateKibana_ok {kb new : Kibana} (h : (c.answer (.updateKibana kb)).1 = .ok new) :
    ∃ stored, c.store.kibanas.Accepts kb stored ∧ new = kb.rewritten stored := by
  simp only [answer, withStore] at h
  rcases c.store.updateKibana_cases kb with ⟨e, f, he, -⟩ | ⟨stored, w, -, hk, hu⟩
  · rw [he] at h
    cases h
  · rw [hu] at h
    cases h
    exact ⟨stored, hk, rfl⟩

end Cluster

/-! ## The copies that a reconcile holds -/

namespace Reconcile.Stage

/-- The copy from which a reconcile will write was read from the store. -/
def Copied : Stage → Cluster → Prop
  | .register a, c | .unwatchKibana _ a, c | .unwatchElasticsearch _ a, c | .release a, c =>
    c.store.Copied Association.foreign (c.store.associations.find? a.key) a
  | .configure _ kb, c => c.store.Copied Kibana.foreign (c.store.kibanas.find? kb.key) kb
  | _, _ => True

variable {s s' : Stage} {c c' : Cluster}

theorem Copied.advances (h : s.Copied c) (hn : c.store.Numbered)
    (ha : c.store.Advances c'.store) (hb : c'.store.log.size < 2 ^ 64) : s.Copied c' := by
  cases s with
  | register a | unwatchKibana _ a | unwatchElasticsearch _ a | release a =>
    exact Store.Copied.advance h (ha.associations a.key) ha.issued hn.issued hb
      fun _ hx => hn.associations hx
  | configure _ kb =>
    exact Store.Copied.advance h (ha.kibanas kb.key) ha.issued hn.issued hb
      fun _ hx => hn.kibanas hx
  | _ => trivial

theorem copied_opened (hn : c.store.Numbered) {key : Key} {a : Association}
    (ha : c.store.associations.find? key = some a) (hkey : a.key = key) :
    (opened key a).Copied c := by
  have h : c.store.Copied Association.foreign (c.store.associations.find? a.key) a := by
    rw [hkey, ha]
    exact (hn.associations ha).copied rfl rfl
  unfold opened
  repeat' split
  all_goals first | exact h | trivial

theorem copied_finalized (a : Association) : (finalized a).Copied c := by
  unfold finalized
  split <;> trivial

theorem copied_reported (a : Association) (new : Status) (error : Option ReconcileError) :
    (reported a new error).Copied c := by
  unfold reported
  split <;> trivial

theorem Step.copied (h : Step s c s' c') (hs : s.Copied c) (hk : c.store.Keyed)
    (hn : c.store.Numbered) : s'.Copied c' := by
  cases h with
  | fetch _ ha => exact copied_opened hn ha (hk.associations ha)
  | unwatchKibana | unwatchElasticsearch => exact hs
  | register | release => exact copied_finalized _
  | @readKibana _ a expected kb _ h =>
    have hkey : kb.key = a.spec.kibana := hk.kibanas h
    show c.store.Copied Kibana.foreign (c.store.kibanas.find? kb.key) (kb.withBackend expected)
    rw [hkey, h]
    exact (hn.kibanas h).copied rfl rfl
  | watchElasticsearchFails | watchKibanaFails | readElasticsearchMisses | readElasticsearchFails
  | readUsersMisses | readUsersFails | readCaFails | readKibanaSame | readKibanaFails | configure
  | configureFails => exact copied_reported ..
  | _ => trivial

end Reconcile.Stage

namespace Traffic

/-- Objects stand under their keys, and while versions do not wrap around they are numbered. -/
def Sound (c : Cluster) : Prop :=
  c.store.Keyed ∧ (c.store.log.size < 2 ^ 64 → c.store.Numbered)

theorem copy_invariant :
    Invariant Sound fun _ s c => c.store.log.size < 2 ^ 64 → s.Copied c where
  edit := by
    intro c h e
    have ha := c.store.edit_advances e
    refine ⟨⟨h.1.edit e, fun hb => ?_⟩, fun hs hb => ?_⟩
    · exact (h.2 (Nat.lt_of_le_of_lt ha.size hb)).advances ha hb
    · have hb' := Nat.lt_of_le_of_lt ha.size hb
      exact (hs hb').advances (h.2 hb') ha hb
  fault := by
    intro c h f
    have ha := (Store.Called.same (s := c.store) f).advances
    refine ⟨⟨h.1.withFaults f, fun hb => (h.2 hb).advances ha hb⟩, fun hs hb => ?_⟩
    exact (hs hb).advances (h.2 hb) ha hb
  start _ _ _ := trivial
  step := by
    intro c c' k s s' h hs hstep
    have hcall := hstep.called
    have ha := hcall.advances
    refine ⟨⟨h.1.called hcall, fun hb => ?_⟩, fun hb => ?_, fun _ hr hb => ?_⟩
    all_goals have hb' := Nat.lt_of_le_of_lt ha.size hb
    · exact (h.2 hb').advances ha hb
    · exact hstep.copied (hs hb') h.1 (h.2 hb')
    · exact (hr hb').advances (h.2 hb') ha hb

/-- A write that stores what its copy carries writes over what it finds just if it meets another
object than the one that was read. -/
theorem respects_iff_of_copied {R β : Type} [Resource R] [DecidableEq β] {s : Store} {t : Table R}
    {owned : R → β} {copy : R} {result : Except StoreError R}
    (h : s.Copied owned (t.find? (Resource.key copy)) copy)
    (hok : ∀ {new}, result = .ok new →
      ∃ stored, t.Accepts copy stored ∧ owned new = owned copy) :
    (∀ stored new, t.find? (Resource.key copy) = some stored → result = .ok new →
        owned new = owned stored) ↔
      ¬∃ stored new, t.find? (Resource.key copy) = some stored ∧ result = .ok new ∧
        (Resource.metadata stored).uid ≠ (Resource.metadata copy).uid ∧
        owned stored ≠ owned copy := by
  constructor
  · rintro hr ⟨stored, new, hs, hnew, -, hne⟩
    obtain ⟨_, -, e⟩ := hok hnew
    exact hne ((hr stored new hs hnew).symm.trans e)
  · intro hc stored new hs hnew
    obtain ⟨b, hb, e⟩ := hok hnew
    obtain rfl : stored = b := Option.some.inj (hs.symm.trans hb.1)
    by_cases hu : (Resource.metadata stored).uid = (Resource.metadata copy).uid
    · exact e.trans (Store.Copied.owned_eq h hb hu).symm
    · refine Decidable.byContradiction fun hne => hc ⟨stored, new, hs, hnew, hu, fun h => ?_⟩
      exact hne (e.trans h.symm)

theorem respects_iff_updateAssociation {c : Cluster} {a : Association}
    (h : c.store.Copied Association.foreign (c.store.associations.find? a.key) a) :
    c.Respects (.updateAssociation a) ↔ ¬c.Clobbers (.updateAssociation a) :=
  respects_iff_of_copied h fun hnew =>
    have ⟨stored, ha, e⟩ := Cluster.updateAssociation_ok hnew
    ⟨stored, ha, e ▸ rfl⟩

theorem respects_iff_updateKibana {c : Cluster} {kb : Kibana}
    (h : c.store.Copied Kibana.foreign (c.store.kibanas.find? kb.key) kb) :
    c.Respects (.updateKibana kb) ↔ ¬c.Clobbers (.updateKibana kb) :=
  respects_iff_of_copied h fun hnew =>
    have ⟨stored, hk, e⟩ := Cluster.updateKibana_ok hnew
    ⟨stored, hk, e ▸ rfl⟩

theorem respects_updateAssociationStatus (c : Cluster) (a : Association) :
    c.Respects (.updateAssociationStatus a) := by
  intro stored new hs hok
  obtain ⟨b, hb, rfl⟩ := Cluster.updateAssociationStatus_ok hok
  obtain rfl : stored = b := Option.some.inj (hs.symm.trans hb.1)
  rfl

/-- A write of a reconcile leaves what is not the controller's as it is stored, unless the object
was removed and created again since it was read, with something else in it, in a version that is
just that of the copy. -/
theorem respects_iff_not_clobbers {Allowed : Edit → Prop} {store : Store} {watches : Watches}
    {t : Traffic} (hs : store.Reachable Allowed) (hr : Run (quiet ⟨store, watches⟩) t)
    (hb : t.cluster.store.log.size < 2 ^ 64) {key : Key} {q : Call}
    {next : q.Answer → Calls Outcome} (hf : t.flight key = some (.ask q next)) :
    t.cluster.Respects q ↔ ¬t.cluster.Clobbers q := by
  have sat := copy_invariant.run (.quiet ⟨hs.keyed, hs.numbered⟩) hr
  obtain ⟨s, hp, hcopy⟩ := sat.2 key _ hf
  obtain ⟨next, hv, -⟩ := Stage.view_of_program_eq_ask hp.symm
  have hcopy := hcopy hb
  cases s with
  | register a =>
    cases hv
    refine respects_iff_updateAssociation ?_
    rw [key_marked]
    refine Store.Copied.congr hcopy ?_ ?_ (foreign_marked a)
    all_goals
      simp only [Resource.metadata, marked, Metadata.addFinalizer]
      split <;> rfl
  | release a =>
    cases hv
    exact respects_iff_updateAssociation (Store.Copied.congr hcopy rfl rfl (foreign_unmarked a))
  | configure a kb =>
    cases hv
    exact respects_iff_updateKibana hcopy
  | storeStatus a new error =>
    cases hv
    exact iff_of_true (respects_updateAssociationStatus _ _) id
  | ended o => cases hv
  | _ =>
    cases hv
    exact iff_of_true trivial id

/-- The first write of a reconcile, while nobody else does anything. -/
theorem respects_first_write :
    let a : Association := ⟨.new ⟨"ns", "a"⟩, ⟨⟨"ns", "es"⟩, ⟨"ns", "kb"⟩⟩, .unknown⟩
    let t₀ : Traffic := ⟨(Cluster.new 4).edit (.apply (.association a)), fun _ => none⟩
    let t := (t₀.setFlight a.key (some (reconcile a.key))).turns a.key 1
    let copy := marked (Table.created (.generated 0) a)
    ∃ next, t.flight a.key = some (.ask (.updateAssociation copy) next) ∧
      t.cluster.Respects (.updateAssociation copy) := by
  intro a t₀ t copy
  have hr : Run (quiet ⟨.new 4, .empty⟩) t :=
    .trans (.tail (.single (.edit (.apply (.association a)))) (.start rfl)) (run_turns ..)
  have hs : (Store.new 4).Reachable Edit.IsPlain := .new 4
  have hf : ∃ next, t.flight a.key = some (.ask (.updateAssociation copy) next) := by
    simp only [copy, t, t₀, a]
    exact ⟨_, rfl⟩
  obtain ⟨next, hf⟩ := hf
  refine ⟨next, hf, (respects_iff_not_clobbers hs hr (by decide) hf).2 ?_⟩
  rintro ⟨stored, new, hst, -, hu, -⟩
  have h : t.cluster.store.associations.find? copy.key = some (Table.created (.generated 0) a) := by
    decide
  cases hst.symm.trans h
  exact hu (by decide)

/-- An association is removed and created again while a reconcile holds a copy of it; the reconcile
then writes the finalizer, and with it the old spec and the old annotations. -/
theorem recreated_overwritten :
    let old : Association := ⟨.new ⟨"ns", "a"⟩, ⟨⟨"ns", "es1"⟩, ⟨"ns", "kb1"⟩⟩, .unknown⟩
    let new : Association := ⟨(Metadata.new ⟨"ns", "a"⟩).annotate "owner" "team-b",
      ⟨⟨"ns", "es2"⟩, ⟨"ns", "kb2"⟩⟩, .unknown⟩
    let copy := marked (Table.created (.generated 0) old)
    let t₀ : Traffic := ⟨(Cluster.new 4).edit (.apply (.association old)), fun _ => none⟩
    let t₁ := (t₀.setFlight old.key (some (reconcile old.key))).turns old.key 1
    let t : Traffic := { t₁ with
      cluster := (t₁.cluster.edit (.delete .association .epoch old.key)).edit
        (.apply (.association new)) }
    Run (quiet (Cluster.new 4)) t ∧
      (t.cluster.store.associations.find? old.key).map Association.foreign = some new.foreign ∧
      ((t.turn old.key).cluster.store.associations.find? old.key).map Association.foreign =
        some old.foreign ∧
      ∃ next, t.flight old.key = some (.ask (.updateAssociation copy) next) ∧
        ¬t.cluster.Respects (.updateAssociation copy) := by
  intro old new copy t₀ t₁ t
  have h₁ : Run (quiet (Cluster.new 4)) t₁ :=
    .trans (.tail (.single (.edit (.apply (.association old)))) (.start rfl)) (run_turns ..)
  have hf : ∃ next, t.flight old.key = some (.ask (.updateAssociation copy) next) := by
    simp only [copy, t, t₁, t₀, old]
    exact ⟨_, rfl⟩
  obtain ⟨next, hf⟩ := hf
  refine ⟨.tail (.tail h₁ (.edit _)) (.edit _), by decide, by decide, next, hf, fun h => ?_⟩
  have hst : t.cluster.store.associations.find? copy.key =
      some (Table.created (.generated 1) new) := by decide
  have hok := t.cluster.store.updateAssociation_of_accepts (by decide)
    ⟨hst, .inr (by decide)⟩
  exact absurd (h _ _ hst hok) (by decide)

end Traffic

end ClusterLink

import ClusterLink.Proofs.Store.Client
import ClusterLink.Resource.Object

/-! Edits: what actors from outside do to the store. `Store.edit_editedAt` says what an edit can do
to what stands under one key. -/

namespace ClusterLink

/-- An act of an actor from outside. -/
inductive Edit where
  | apply (o : Object)
  | delete (kind : Kind) (now : Instant) (key : Key)

namespace Edit

/-- Whether an edit brings no tombstone of its own. -/
def IsPlain : Edit → Prop
  | .apply o => o.metadata.tombstone = none
  | .delete .. => True

instance : (e : Edit) → Decidable e.IsPlain
  | .apply o => inferInstanceAs (Decidable (o.metadata.tombstone = none))
  | .delete .. => .isTrue trivial

/-- The kind of object that an edit is about. -/
def kind : Edit → Kind
  | .apply o => o.kind
  | .delete kind _ _ => kind

/-- A cluster, the passwords of its users and the certificate of its authority. -/
def provider (name : String) : List Edit :=
  [.apply (.elasticsearch ⟨.new ⟨"ns", name⟩, ⟨"8.0", 1⟩⟩),
    .apply (.secret ⟨.new ⟨"ns", Elasticsearch.usersSecretName name⟩,
      .ofList [(Elasticsearch.kibanaUser, [112])]⟩),
    .apply (.secret ⟨.new ⟨"ns", name⟩, ∅⟩)]

end Edit

namespace Store

/-- Carries an edit out. -/
def edit (s : Store) : Edit → Store
  | .apply (.association a) => (s.applyAssociation a).2
  | .apply (.elasticsearch es) => (s.applyElasticsearch es).2
  | .apply (.kibana kb) => (s.applyKibana kb).2
  | .apply (.secret secret) => (s.applySecret secret).2
  | .delete .association now key => (s.deleteAssociation now key).2
  | .delete .elasticsearch _ key => (s.deleteElasticsearch key).2
  | .delete .kibana _ key => (s.deleteKibana key).2
  | .delete .secret _ key => (s.deleteSecret key).2

end Store

/-- What an edit that may apply the objects of `Source` can do to what stands under one key, where
an object that is new gets the identifier `fresh`. -/
inductive Edited {R : Type} [Resource R] (fresh : Uid) (Source : R → Prop) (key : Key) :
    Option R → Option R → Prop where
  | same {r} : Edited fresh Source key r r
  | created {incoming} (hs : Source incoming) (h : Resource.key incoming = key) :
    Edited fresh Source key none (some (Table.created fresh incoming))
  | replaced {incoming stored} (hs : Source incoming) (h : Resource.key incoming = key) :
    Edited fresh Source key (some stored) (some (Table.replaced incoming stored))
  | removed {stored} : Edited fresh Source key (some stored) none

/-- What an edit can do to the association under one key. -/
inductive Association.Edited (fresh : Uid) (Source : Association → Prop) (key : Key) :
    Option Association → Option Association → Prop where
  | same {r} : Edited fresh Source key r r
  | created {incoming : Association} (hs : Source incoming) (h : incoming.key = key) :
    Edited fresh Source key none (some (Table.created fresh incoming))
  | replaced {incoming stored : Association} (hs : Source incoming) (h : incoming.key = key) :
    Edited fresh Source key (some stored) (some (Table.replaced incoming stored))
  | removed {stored : Association} (h : stored.metadata.finalizers = []) :
    Edited fresh Source key (some stored) none
  | doomed {stored : Association} {now} (h : stored.metadata.finalizers ≠ [])
      (hlive : ¬stored.metadata.isBeingDeleted) :
      Edited fresh Source key (some stored) (some { stored with metadata :=
        { stored.metadata with tombstone := some now, version := stored.metadata.version + 1 } })

section

variable {R : Type} [Resource R] {fresh : Uid} {Source : R → Prop}

theorem Table.apply_edited (t : Table R) {incoming : R} (hs : Source incoming) (key : Key) :
    Edited fresh Source key (t.find? key) ((t.apply fresh incoming).2.find? key) := by
  rw [find?_apply]
  split
  next h =>
    subst h
    unfold apply
    dsimp only
    split
    next old h => rw [h]; exact .replaced hs rfl
    next h => rw [h]; exact .created hs rfl
  next => exact .same

theorem Table.erase_edited (t : Table R) (place key : Key) :
    Edited fresh Source key (t.find? key) ((t.erase place).find? key) := by
  by_cases h : key = place
  · subst h
    rw [Dict.find?_erase_self]
    cases t.find? key with
    | none => exact .same
    | some r => exact .removed
  · rw [Dict.find?_erase_of_ne _ h]
    exact .same

end

theorem Edited.toAssociation {fresh : Uid} {Source : Association → Prop} {key : Key}
    {r r' : Option Association} (h : ClusterLink.Edited fresh Source key r r')
    (hr : r' = none → r = none) : Association.Edited fresh Source key r r' := by
  cases h with
  | same => exact .same
  | created hs h => exact .created hs h
  | replaced hs h => exact .replaced hs h
  | removed => exact nomatch hr rfl

namespace Store

/-- What an edit can do to all that stands under one key. -/
structure EditedAt (e : Edit) (s s' : Store) (key : Key) : Prop where
  association : Association.Edited (.generated s.issued) (fun a => e = .apply (.association a)) key
    (s.associations.find? key) (s'.associations.find? key)
  elasticsearch : Edited (.generated s.issued) (fun es => e = .apply (.elasticsearch es)) key
    (s.elasticsearches.find? key) (s'.elasticsearches.find? key)
  kibana : Edited (.generated s.issued) (fun kb => e = .apply (.kibana kb)) key
    (s.kibanas.find? key) (s'.kibanas.find? key)
  secret : Edited (.generated s.issued) (fun secret => e = .apply (.secret secret)) key
    (s.secrets.find? key) (s'.secrets.find? key)

variable (s : Store)

theorem EditedAt.refl (e : Edit) (key : Key) : EditedAt e s s key := ⟨.same, .same, .same, .same⟩

theorem deleteAssociation_editedAt (e : Edit) (now : Instant) (place key : Key) :
    EditedAt e s (s.deleteAssociation now place).2 key := by
  unfold deleteAssociation
  split
  next => exact .refl s e key
  next stored h =>
    dsimp only
    by_cases hk : key = place
    · subst hk
      split
      next hf =>
        refine ⟨?_, .same, .same, .same⟩
        simp only [emit, h, Dict.find?_erase_self]
        exact .removed hf
      next hf =>
        split
        next => exact ⟨.same, .same, .same, .same⟩
        next hlive =>
          refine ⟨?_, .same, .same, .same⟩
          simp only [emit, h, Dict.find?_insert_self]
          exact .doomed hf hlive
    · split
      · refine ⟨?_, .same, .same, .same⟩
        simp only [emit, Dict.find?_erase_of_ne _ hk]
        exact .same
      · split
        · exact ⟨.same, .same, .same, .same⟩
        · refine ⟨?_, .same, .same, .same⟩
          simp only [emit, Dict.find?_insert_of_ne _ _ hk]
          exact .same

theorem edit_editedAt (e : Edit) (key : Key) : EditedAt e s (s.edit e) key := by
  cases e with
  | apply o =>
    cases o with
    | association a =>
      refine ⟨(s.associations.apply_edited (by rfl) key).toAssociation fun hn => ?_,
        .same, .same, .same⟩
      rw [Table.find?_apply] at hn
      split at hn
      · cases hn
      · exact hn
    | elasticsearch es => exact ⟨.same, s.elasticsearches.apply_edited (by rfl) key, .same, .same⟩
    | kibana kb => exact ⟨.same, .same, s.kibanas.apply_edited (by rfl) key, .same⟩
    | secret secret => exact ⟨.same, .same, .same, s.secrets.apply_edited (by rfl) key⟩
  | delete kind now place =>
    cases kind with
    | association => exact s.deleteAssociation_editedAt _ now place key
    | elasticsearch =>
      simp only [edit, deleteElasticsearch]
      split
      · exact ⟨.same, s.elasticsearches.erase_edited place key, .same, .same⟩
      · exact .refl s _ key
    | kibana =>
      simp only [edit, deleteKibana]
      split
      · exact ⟨.same, .same, s.kibanas.erase_edited place key, .same⟩
      · exact .refl s _ key
    | secret =>
      simp only [edit, deleteSecret]
      split
      · exact ⟨.same, .same, .same, s.secrets.erase_edited place key⟩
      · exact .refl s _ key

end Store

theorem Store.find?_deleteAssociation_of_ne (s : Store) (now : Instant) {place key : Key}
    (h : key ≠ place) :
    (s.deleteAssociation now place).2.associations.find? key = s.associations.find? key := by
  unfold deleteAssociation
  split
  · rfl
  · dsimp only
    split
    · exact Dict.find?_erase_of_ne _ h
    · split
      · rfl
      · exact Dict.find?_insert_of_ne _ _ h

theorem Store.edit_secrets (s : Store) {e : Edit} (h : e.kind ≠ .secret) :
    (s.edit e).secrets = s.secrets := by
  cases e with
  | apply o =>
    cases o with
    | secret => exact absurd rfl h
    | association | elasticsearch | kibana => rfl
  | delete kind now key =>
    cases kind with
    | secret => exact absurd rfl h
    | association | elasticsearch | kibana =>
      simp only [edit, deleteAssociation, deleteElasticsearch, deleteKibana]
      repeat' split
      all_goals rfl

theorem Store.edit_fault? (s : Store) (e : Edit) : (s.edit e).fault? = s.fault? := by
  cases e with
  | apply o => cases o <;> rfl
  | delete kind now key =>
    cases kind <;>
      simp only [edit, deleteAssociation, deleteElasticsearch, deleteKibana, deleteSecret]
    all_goals repeat' split
    all_goals rfl

/-! ## Every object under its own key -/

theorem Edited.keyed {R : Type} [Resource R] [LawfulResource R] {fresh : Uid} {Source : R → Prop}
    {key : Key} {r r' : Option R} (h : Edited fresh Source key r r')
    (hr : ∀ x, r = some x → Resource.key x = key) :
    ∀ x, r' = some x → Resource.key x = key := by
  intro x hx
  cases h with
  | same => exact hr x hx
  | created _ h => cases hx; exact (Table.key_created ..).trans h
  | replaced _ h => cases hx; exact (Table.key_replaced ..).trans h
  | removed => cases hx

theorem Association.Edited.keyed {fresh : Uid} {Source : Association → Prop} {key : Key}
    {r r' : Option Association} (h : Association.Edited fresh Source key r r')
    (hr : ∀ a, r = some a → a.key = key) :
    ∀ a, r' = some a → a.key = key := by
  intro a ha
  cases h with
  | same => exact hr a ha
  | created _ h => cases ha; exact h
  | replaced _ h => cases ha; exact h
  | removed => cases ha
  | @doomed stored => cases ha; exact hr stored rfl

namespace Store

/-- Every object of the store stands under its own key. -/
structure Keyed (s : Store) : Prop where
  associations : s.associations.Keyed
  elasticsearches : s.elasticsearches.Keyed
  kibanas : s.kibanas.Keyed
  secrets : s.secrets.Keyed

theorem Keyed.new (n : Nat) : (new n).Keyed := ⟨.empty, .empty, .empty, .empty⟩

variable {s : Store}

theorem Keyed.edit (h : s.Keyed) (e : Edit) : (s.edit e).Keyed where
  associations key a := (s.edit_editedAt e key).association.keyed (fun _ h' => h.associations h') a
  elasticsearches key es :=
    (s.edit_editedAt e key).elasticsearch.keyed (fun _ h' => h.elasticsearches h') es
  kibanas key kb := (s.edit_editedAt e key).kibana.keyed (fun _ h' => h.kibanas h') kb
  secrets key secret := (s.edit_editedAt e key).secret.keyed (fun _ h' => h.secrets h') secret

theorem Keyed.withFaults (h : s.Keyed) (f : Operation → Option StoreError) :
    (s.withFaults f).Keyed := ⟨h.associations, h.elasticsearches, h.kibanas, h.secrets⟩

theorem Keyed.putAssociation (h : s.Keyed) {key : Key} {a : Association} (ha : a.key = key)
    (writes : WriteCounts) : (s.putAssociation key a writes).Keyed :=
  ⟨h.associations.put ha, h.elasticsearches, h.kibanas, h.secrets⟩

theorem Keyed.putKibana (h : s.Keyed) {key : Key} {kb : Kibana} (hk : kb.key = key)
    (writes : WriteCounts) : (s.putKibana key kb writes).Keyed :=
  ⟨h.associations, h.elasticsearches, h.kibanas.put hk, h.secrets⟩

end Store

end ClusterLink

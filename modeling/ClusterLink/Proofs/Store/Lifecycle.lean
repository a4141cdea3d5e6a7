import ClusterLink.Proofs.Store.History

/-! The life of an association in a store, as long as nobody applies an object with a tombstone of
its own. A deletion that is asked for waits for the finalizers; what is applied or deleted from
outside does not touch them, nor the status; and the association goes when it is deleted without
finalizers or when a client takes the last one away. -/

namespace ClusterLink.Store

/-- Whether a command brings no tombstone of its own. -/
def Command.IsPlain : Command → Prop
  | .edit e => e.IsPlain
  | _ => True

/-- Whether a command is to remove an association as it is stored. -/
inductive Removes (s : Store) (a : Association) : Command → Prop where
  /-- Its deletion is asked for, and it has no finalizers. -/
  | deleted {now} (h : a.metadata.finalizers = []) :
    Removes s a (.edit (.delete .association now a.key))
  /-- A client's write goes through that leaves it a tombstone and no finalizers. -/
  | released {w : Association} (hkey : w.key = a.key) (hdoomed : a.metadata.isBeingDeleted)
    (hfree : w.metadata.finalizers = []) (hok : (s.perform (.updateAssociation w)).1 = .ok true) :
    Removes s a (.updateAssociation w)

/-- What holds of the associations of a store, now and later. -/
structure Lifecycle (s : Store) : Prop where
  /-- A tombstone stays with finalizers only. -/
  held : ∀ ⦃key a⦄, s.associations.find? key = some a → a.metadata.isBeingDeleted →
    a.metadata.finalizers ≠ []
  /-- A tombstone stays until the association is removed. -/
  doomed : ∀ ⦃key a⦄, s.associations.find? key = some a → a.metadata.isBeingDeleted →
    ∀ l : List Command, (∀ cmd ∈ l, cmd.IsPlain) →
    (∃ l', l' <+: l ∧ (s.after l').associations.find? key = none) ∨
      ∃ b, (s.after l).associations.find? key = some b ∧
        b.metadata.tombstone = a.metadata.tombstone
  /-- It goes by a command that is to remove it, and by no other. -/
  removed : ∀ ⦃key a⦄, s.associations.find? key = some a → ∀ cmd,
    (s.perform cmd).2.associations.find? key = none ↔ s.Removes a cmd
  /-- Edits keep what belongs to the controller. -/
  kept : ∀ ⦃key a⦄, s.associations.find? key = some a → ∀ e b,
    (s.edit e).associations.find? key = some b →
    b.metadata.finalizers = a.metadata.finalizers ∧ b.status = a.status

variable {s : Store} {key : Key} {a : Association}

theorem Plain.perform (h : s.Plain) {cmd : Command} (hc : cmd.IsPlain) :
    (s.perform cmd).2.Plain := by
  cases cmd with
  | edit e => exact s.perform_edit e ▸ h.edit hc
  | read | updateAssociation | updateAssociationStatus | updateKibana | setFault =>
    exact h.called (s.perform_called fun e he => nomatch he)

theorem Plain.after (h : s.Plain) {l : List Command} (hl : ∀ cmd ∈ l, cmd.IsPlain) :
    (s.after l).Plain := by
  induction l generalizing s with
  | nil => exact h
  | cons cmd l ih =>
    obtain ⟨hc, hl⟩ := List.forall_mem_cons.1 hl
    exact ih (h.perform hc) hl

/-! ## One command -/

/-- What a command can make of a stored association. -/
inductive Outcome (s : Store) (a : Association) : Command → Option Association → Prop where
  | same {cmd} : Outcome s a cmd (some a)
  | replaced {incoming} :
    Outcome s a (.edit (.apply (.association incoming))) (some (Table.replaced incoming a))
  | doomed {now} (hlive : ¬a.metadata.isBeingDeleted) :
    Outcome s a (.edit (.delete .association now a.key)) (some { a with metadata :=
      { a.metadata with tombstone := some now, version := a.metadata.version + 1 } })
  | rewritten {w : Association} : Outcome s a (.updateAssociation w) (some (w.rewritten a))
  | restated {w : Association} : Outcome s a (.updateAssociationStatus w) (some (w.restated a))
  | removed {cmd} (h : s.Removes a cmd) : Outcome s a cmd none

theorem Outcome.of_eq {cmd : Command} {r : Option Association}
    (h : s.associations.find? key = some a) (hr : r = s.associations.find? key) :
    Outcome s a cmd r := by
  rw [hr, h]
  exact .same

theorem outcome_apply (h : s.associations.find? key = some a) (o : Object) :
    Outcome s a (.edit (.apply o)) ((s.edit (.apply o)).associations.find? key) := by
  cases o with
  | association incoming =>
    have hfind := s.associations.find?_apply (.generated s.issued) incoming key
    by_cases hk : key = incoming.key
    · have hnew : (s.associations.apply (.generated s.issued) incoming).1 =
          Table.replaced incoming a := by
        subst hk
        simp only [Table.apply]
        rw [show s.associations.find? (Resource.key incoming) = some a from h]
      rw [if_pos (show key = Resource.key incoming from hk), hnew] at hfind
      exact hfind ▸ .replaced
    · rw [if_neg (show key ≠ Resource.key incoming from hk)] at hfind
      exact .of_eq h hfind
  | elasticsearch | kibana | secret => exact .of_eq h rfl

theorem outcome_delete (h : s.associations.find? key = some a) (hkey : a.key = key) (now : Instant)
    (place : Key) : Outcome s a (.edit (.delete .association now place))
      ((s.deleteAssociation now place).2.associations.find? key) := by
  by_cases hk : key = place
  · subst hk
    unfold deleteAssociation
    rw [h]
    subst hkey
    dsimp only
    split
    next hfree =>
      simp only [emit, Dict.find?_erase_self]
      exact .removed (.deleted hfree)
    next =>
      split
      next => exact .of_eq h rfl
      next hlive =>
        simp only [emit, Dict.find?_insert_self]
        exact .doomed hlive
  · exact .of_eq h (s.find?_deleteAssociation_of_ne now hk)

theorem outcome_edit (h : s.associations.find? key = some a) (hkey : a.key = key) (e : Edit) :
    Outcome s a (.edit e) ((s.edit e).associations.find? key) := by
  cases e with
  | apply o => exact outcome_apply h o
  | delete kind now place =>
    cases kind with
    | association => exact outcome_delete h hkey now place
    | elasticsearch =>
      simp only [edit, deleteElasticsearch]
      split <;> exact .of_eq h rfl
    | kibana =>
      simp only [edit, deleteKibana]
      split <;> exact .of_eq h rfl
    | secret =>
      simp only [edit, deleteSecret]
      split <;> exact .of_eq h rfl

theorem outcome_updateAssociation (h : s.associations.find? key = some a) (hkey : a.key = key)
    (w : Association) :
    Outcome s a (.updateAssociation w)
      ((s.perform (.updateAssociation w)).2.associations.find? key) := by
  have hp : s.perform (.updateAssociation w) = answered (s.updateAssociation w) := rfl
  rcases s.updateAssociation_cases w with ⟨e, f, hu, -⟩ | ⟨stored, writes, -, hw, hu⟩
  · rw [hp, hu]
    exact .of_eq h rfl
  · have hok : (s.perform (.updateAssociation w)).1 = .ok true := by rw [hp, hu]; rfl
    have hput : (s.perform (.updateAssociation w)).2.associations =
        s.associations.put w.key (w.rewritten stored) := by rw [hp, hu]; rfl
    by_cases hk : key = w.key
    · subst hk
      obtain rfl : stored = a := Option.some.inj (hw.1.symm.trans h)
      rw [hput, Table.find?_put, if_pos rfl]
      split
      next hg => exact .removed (.released hkey.symm hg.1 hg.2 hok)
      next => exact .rewritten
    · exact .of_eq h (hput ▸ Table.find?_put_of_ne hk _)

theorem outcome_updateAssociationStatus (h : s.associations.find? key = some a)
    (hg : ¬a.metadata.isGone) (w : Association) : Outcome s a (.updateAssociationStatus w)
      ((s.perform (.updateAssociationStatus w)).2.associations.find? key) := by
  have hp : s.perform (.updateAssociationStatus w) = answered (s.updateAssociationStatus w) := rfl
  rcases s.updateAssociationStatus_cases w with ⟨e, f, hu, -⟩ | ⟨stored, writes, -, hw, hu⟩
  · rw [hp, hu]
    exact .of_eq h rfl
  · have hput : (s.perform (.updateAssociationStatus w)).2.associations =
        s.associations.put w.key (w.restated stored) := by rw [hp, hu]; rfl
    by_cases hk : key = w.key
    · subst hk
      obtain rfl : stored = a := Option.some.inj (hw.1.symm.trans h)
      rw [hput, Table.find?_put, if_pos rfl,
        if_neg (show ¬(Resource.metadata (w.restated stored)).isGone from hg)]
      exact .restated
    · exact .of_eq h (hput ▸ Table.find?_put_of_ne hk _)

/-- Reads leave associations alone. -/
theorem associations_read (s : Store) (kind : Kind) (place : Key) :
    (s.perform (.read kind place)).2.associations = s.associations := by
  cases kind with
  | association =>
    rcases s.getAssociation_cases place with ⟨_, f, h, -⟩ | ⟨_, -, -, h⟩ <;>
      simp only [Store.perform, answered, h, withFaults]
  | elasticsearch =>
    rcases s.getElasticsearch_cases place with ⟨_, f, h, -⟩ | ⟨_, -, -, h⟩ <;>
      simp only [Store.perform, answered, h, withFaults]
  | kibana =>
    rcases s.getKibana_cases place with ⟨_, f, h, -⟩ | ⟨_, -, -, h⟩ <;>
      simp only [Store.perform, answered, h, withFaults]
  | secret =>
    rcases s.getSecret_cases place with ⟨_, f, h, -⟩ | ⟨_, -, -, h⟩ <;>
      simp only [Store.perform, answered, h, withFaults]

theorem associations_updateKibana (s : Store) (kb : Kibana) :
    (s.perform (.updateKibana kb)).2.associations = s.associations := by
  rcases s.updateKibana_cases kb with ⟨_, f, h, -⟩ | ⟨_, writes, -, -, h⟩ <;>
    simp only [Store.perform, answered, h, withFaults, putKibana, emit]

theorem outcome (h : s.associations.find? key = some a) (hkey : a.key = key)
    (hg : ¬a.metadata.isGone) (cmd : Command) :
    Outcome s a cmd ((s.perform cmd).2.associations.find? key) := by
  cases cmd with
  | edit e => exact s.perform_edit e ▸ outcome_edit h hkey e
  | read kind place => exact .of_eq h (by rw [associations_read])
  | updateAssociation w => exact outcome_updateAssociation h hkey w
  | updateAssociationStatus w => exact outcome_updateAssociationStatus h hg w
  | updateKibana kb => exact .of_eq h (by rw [associations_updateKibana])
  | setFault => exact .of_eq h rfl

/-! ## What comes of it -/

theorem Outcome.removes {cmd : Command} (h : Outcome s a cmd none) : s.Removes a cmd := by
  cases h with
  | removed h => exact h

theorem Removes.find?_eq_none {cmd : Command} (h : s.Removes a cmd)
    (ha : s.associations.find? a.key = some a) :
    (s.perform cmd).2.associations.find? a.key = none := by
  cases h with
  | @deleted now hfree =>
    show (s.deleteAssociation now a.key).2.associations.find? a.key = none
    unfold deleteAssociation
    rw [ha]
    dsimp only
    rw [if_pos hfree]
    exact Dict.find?_erase_self ..
  | @released w hkey hdoomed hfree hok =>
    have hp : s.perform (.updateAssociation w) = answered (s.updateAssociation w) := rfl
    rcases s.updateAssociation_cases w with ⟨e, f, hu, -⟩ | ⟨stored, writes, -, hw, hu⟩
    · rw [hp, hu] at hok
      cases hok
    · have hst : s.associations.find? w.key = some stored := hw.1
      rw [hkey, ha] at hst
      obtain rfl := Option.some.inj hst
      have hgone : (Resource.metadata (w.rewritten a)).isGone := ⟨hdoomed, hfree⟩
      rw [hp, hu]
      show (s.associations.put w.key (w.rewritten a)).find? a.key = none
      rw [Table.find?_put, if_pos hkey.symm, if_pos hgone]

/-- No command that is plain touches the tombstone of an association that stays. -/
theorem Outcome.tombstone {cmd : Command} {b : Association} (h : Outcome s a cmd (some b))
    (hc : cmd.IsPlain) (hd : a.metadata.isBeingDeleted) :
    b.metadata.tombstone = a.metadata.tombstone := by
  cases h with
  | same => rfl
  | @replaced incoming =>
    have hnone : incoming.metadata.tombstone = none := hc
    simp [Table.replaced, Metadata.keepFinalizers, Resource.metadata, Resource.withMetadata,
      Resource.retain, hnone]
  | doomed hlive => exact absurd hd hlive
  | rewritten => rfl
  | restated => rfl

theorem Outcome.kept {e : Edit} {b : Association} (h : Outcome s a (.edit e) (some b)) :
    b.metadata.finalizers = a.metadata.finalizers ∧ b.status = a.status := by
  cases h with
  | same => exact ⟨rfl, rfl⟩
  | replaced => exact ⟨rfl, rfl⟩
  | doomed => exact ⟨rfl, rfl⟩

theorem doomed_or_removed (hk : s.Keyed) (hp : s.Plain) (h : s.associations.find? key = some a)
    (hd : a.metadata.isBeingDeleted) {l : List Command} (hl : ∀ cmd ∈ l, cmd.IsPlain) :
    (∃ l', l' <+: l ∧ (s.after l').associations.find? key = none) ∨
      ∃ b, (s.after l).associations.find? key = some b ∧
        b.metadata.tombstone = a.metadata.tombstone := by
  induction l generalizing s a with
  | nil => exact .inr ⟨a, h, rfl⟩
  | cons cmd l ih =>
    obtain ⟨hc, hl⟩ := List.forall_mem_cons.1 hl
    have ho := outcome h (hk.associations h) (hp.associations h) cmd
    cases hb : (s.perform cmd).2.associations.find? key with
    | none => exact .inl ⟨[cmd], by simp, hb⟩
    | some b =>
      rw [hb] at ho
      have ht := ho.tombstone hc hd
      have hdb : b.metadata.isBeingDeleted := by
        rw [Metadata.isBeingDeleted, ht]
        exact hd
      rcases ih (hk.perform cmd) (hp.perform hc) hb hdb hl with ⟨l', hl', hnone⟩ | ⟨b', hb', ht'⟩
      · exact .inl ⟨cmd :: l', List.cons_prefix_cons.2 ⟨rfl, hl'⟩, hnone⟩
      · exact .inr ⟨b', hb', ht'.trans ht⟩

/-- Whatever is done to a store that is empty at first, its associations live like that. -/
theorem lifecycle_of_plain (n : Nat) {l : List Command} (hl : ∀ cmd ∈ l, cmd.IsPlain) :
    ((new n).after l).Lifecycle := by
  have hk := (Keyed.new n).after l
  have hp := (Plain.new n).after hl
  constructor
  case held => exact fun key a h hd hfree => hp.associations h ⟨hd, hfree⟩
  case doomed => exact fun key a h hd more hmore => doomed_or_removed hk hp h hd hmore
  case removed =>
    intro key a h cmd
    have hkey : a.key = key := hk.associations h
    refine ⟨fun hnone => ?_, fun hr => ?_⟩
    · have ho := outcome h hkey (hp.associations h) cmd
      rw [hnone] at ho
      exact ho.removes
    · subst hkey
      exact hr.find?_eq_none h
  case kept =>
    intro key a h e b hb
    have ho := outcome_edit h (hk.associations h) e
    rw [hb] at ho
    exact ho.kept

/-- An association with a finalizer is deleted, and goes when a client takes the finalizer away. -/
theorem removed_of_released :
    let a : Association := ⟨.new ⟨"ns", "a"⟩, ⟨⟨"ns", "es"⟩, ⟨"ns", "kb"⟩⟩, .unknown⟩
    let held : Association := { a with metadata := a.metadata.addFinalizer "watch" }
    let l : List Command := [.edit (.apply (.association a)), .updateAssociation held,
      .edit (.delete .association default a.key)]
    (∀ cmd ∈ l, cmd.IsPlain) ∧ ((new 4).after l).Lifecycle ∧
      (((new 4).after l).perform (.updateAssociation a)).2.associations.find? a.key = none := by
  intro a held l
  have hl : ∀ cmd ∈ l, cmd.IsPlain := by simp [l, a, Command.IsPlain, Edit.IsPlain, Object.metadata,
    Metadata.new]
  have hlife := lifecycle_of_plain 4 hl
  have hstored : ((new 4).after l).associations.find? a.key = some { a with metadata :=
      { a.metadata with uid := some (.generated 0), version := 3, finalizers := ["watch"],
                        tombstone := some default } } := by decide
  have hok : (((new 4).after l).perform (.updateAssociation a)).1 = .ok true := by
    show Except.map _ (((new 4).after l).updateAssociation a).1 = .ok true
    rw [updateAssociation_of_accepts _ (by decide) ⟨hstored, .inl rfl⟩]
    rfl
  exact ⟨hl, hlife, (hlife.removed hstored _).2 (.released rfl rfl rfl hok)⟩

end ClusterLink.Store

import ClusterLink.Proofs.Store.History

/-! What one command comes to (`Store.Effect`). Either it leaves the tables and the log alone, and
then it is a read, sets a fault, or is refused, which at most uses up the fault that it met; or it
changes what stands in one place and logs one event about that; or it asks for a deletion once more,
which is logged only. -/

namespace ClusterLink.Store

variable {s s' : Store}

/-! ## What a command does to one place -/

/-- What a change makes of the object in one place. A version is raised by a write that is counted,
or by a tombstone, of which an object gets one. -/
inductive Revised (s s' : Store) : Option Object → Option Object → Prop where
  | created {o} (hissued : s.issued < s'.issued)
    (huid : o.metadata.uid = some (.generated s.issued)) (hversion : o.metadata.version = 1) :
    Revised s s' none (some o)
  | raised {o o'} (huid : o'.metadata.uid = o.metadata.uid)
    (hversion : o'.metadata.version = o.metadata.version + 1)
    (hcount : s.writeCount + o.metadata.isBeingDeleted.toNat + 1 ≤
      s'.writeCount + o'.metadata.isBeingDeleted.toNat) : Revised s s' (some o) (some o')
  | removed {o} : Revised s s' (some o) none

/-- The store after a change of what stands in one place, with the event about it. -/
structure Wrote (s : Store) (kind : Kind) (key : Key) (o : Option Object) (s' : Store) : Prop where
  found : s'.find? kind key = o
  others : ∀ k x, (k = kind → x ≠ key) → s'.find? k x = s.find? k x
  log : s'.log = s.log.append ⟨kind, key, if o.isSome then .applied else .deleted⟩
  issued : s.issued ≤ s'.issued
  writeCount : s.writeCount ≤ s'.writeCount
  revised : Revised s s' (s.find? kind key) o

/-- What a command comes to: the answer and the store after it. -/
inductive Effect (s : Store) (cmd : Command) : Except StoreError Bool → Store → Prop where
  /-- The call met a fault and used it up. -/
  | faulted {op e} (hop : cmd.operation? = some op) (he : s.fault? op = some e) :
    Effect s cmd (.error e) (s.clearFault op)
  | refused {e} : Effect s cmd (.error e) s
  /-- There was nothing to delete. -/
  | absent : Effect s cmd (.ok false) s
  | idle (f) (h : cmd.object? = none) : Effect s cmd (.ok true) (s.withFaults f)
  /-- An association was to be deleted already. -/
  | repeated {key a} (h : s.associations.find? key = some a) (hcmd : cmd.object? = none) :
    Effect s cmd (.ok true) (s.emit .association key .applied)
  | wrote {kind key o s'} (h : s.Wrote kind key o s')
    (hcmd : ∀ w, cmd.object? = some w → w.kind = kind ∧ w.metadata.key = key) :
    Effect s cmd (.ok true) s'

/-! ## The tables -/

/-- The objects of one kind, and where a store has them. -/
structure Shelf (R : Type) [Resource R] where
  object : R → Object
  table : Store → Table R
  /-- The store with another table of the kind. -/
  put : Store → Table R → Store
  kind_object : ∀ r, (object r).kind = Resource.kind R := by intros; rfl
  metadata_object : ∀ r, (object r).metadata = Resource.metadata r := by intros; rfl
  find?_kind : ∀ s key, s.find? (Resource.kind R) key = ((table s).find? key).map object := by
    intros; rfl
  table_put : ∀ s t, table (put s t) = t := by intros; rfl
  find?_put : ∀ s t k, k ≠ Resource.kind R → (put s t).find? k = s.find? k := by
    intro s t k hk
    cases k <;> first | rfl | exact absurd rfl hk
  log_put : ∀ s t, (put s t).log = s.log := by intros; rfl
  issued_put : ∀ s t, (put s t).issued = s.issued := by intros; rfl
  writes_put : ∀ s t, (put s t).writes = s.writes := by intros; rfl

namespace Shelf

def associations : Shelf Association where
  object := .association
  table := Store.associations
  put s t := { s with associations := t }

def elasticsearches : Shelf Elasticsearch where
  object := .elasticsearch
  table := Store.elasticsearches
  put s t := { s with elasticsearches := t }

def kibanas : Shelf Kibana where
  object := .kibana
  table := Store.kibanas
  put s t := { s with kibanas := t }

def secrets : Shelf Secret where
  object := .secret
  table := Store.secrets
  put s t := { s with secrets := t }

variable {R : Type} [Resource R] (sh : Shelf R) {place : Key} {t : Table R} {issued : Nat}
  {writes : WriteCounts} {action : Action}

/-- The store after a change of a table, with the event about it. -/
def next (s : Store) (t : Table R) (issued : Nat) (writes : WriteCounts) (place : Key)
    (action : Action) : Store :=
  (sh.put { s with issued, writes } t).emit (Resource.kind R) place action

theorem find?_next (x : Key) : (sh.next s t issued writes place action).find? (Resource.kind R) x =
    (t.find? x).map sh.object := by
  rw [next, find?_emit, sh.find?_kind, sh.table_put]

theorem find?_next_of_ne {k : Kind} (hk : k ≠ Resource.kind R) :
    (sh.next s t issued writes place action).find? k = s.find? k := by
  rw [next, find?_emit, sh.find?_put _ _ _ hk]
  cases k <;> rfl

theorem log_next : (sh.next s t issued writes place action).log =
    s.log.append ⟨Resource.kind R, place, action⟩ := by
  rw [next, emit, sh.log_put]

theorem issued_next : (sh.next s t issued writes place action).issued = issued :=
  sh.issued_put ..

theorem writeCount_next :
    (sh.next s t issued writes place action).writeCount = issued + writes.total := by
  have hi := sh.issued_put { s with issued, writes } t
  have hw := sh.writes_put { s with issued, writes } t
  simp only [next, writeCount, emit, hi, hw]

/-- A change of one entry of a table. -/
theorem wrote {r : Option R}
    (ht : ∀ x, t.find? x = if x = place then r else (sh.table s).find? x)
    (hissued : s.issued ≤ issued)
    (hcount : s.writeCount ≤ (sh.next s t issued writes place action).writeCount)
    (haction : action = if r.isSome then .applied else .deleted)
    (hrev : Revised s (sh.next s t issued writes place action)
      (((sh.table s).find? place).map sh.object) (r.map sh.object)) :
    s.Wrote (Resource.kind R) place (r.map sh.object) (sh.next s t issued writes place action) where
  found := by rw [sh.find?_next, ht, if_pos rfl]
  others k x hx := by
    by_cases hk : k = Resource.kind R
    · rw [hk, sh.find?_next, sh.find?_kind, ht, if_neg (hx hk)]
    · rw [sh.find?_next_of_ne hk]
  log := by rw [sh.log_next, haction, Option.isSome_map]
  issued := by rwa [sh.issued_next]
  writeCount := hcount
  revised := by rw [sh.find?_kind]; exact hrev

/-- A change of an object by a write that is counted, or by the tombstone. -/
structure Raises (s s' : Store) (stored new : R) : Prop where
  uid : (Resource.metadata new).uid = (Resource.metadata stored).uid
  version : (Resource.metadata new).version = (Resource.metadata stored).version + 1
  count : s.writeCount + (Resource.metadata stored).isBeingDeleted.toNat + 1 ≤
    s'.writeCount + (Resource.metadata new).isBeingDeleted.toNat

omit sh in
theorem Raises.replaced [LawfulResource R] {stored incoming : R}
    (hcount : s'.writeCount = s.writeCount + 1) :
    Raises s s' stored (Table.replaced incoming stored) where
  uid := by simp [Table.replaced]
  version := by simp [Table.replaced]
  count := by
    have hd : (Resource.metadata stored).isBeingDeleted.toNat ≤
        (Resource.metadata (Table.replaced incoming stored)).isBeingDeleted.toNat := by
      cases h : (Resource.metadata stored).tombstone <;>
        simp [Table.replaced, Metadata.isBeingDeleted, h]
    omega

theorem revised_of_raises {stored new : R} (h : Raises s s' stored new) :
    Revised s s' (some (sh.object stored)) (some (sh.object new)) := by
  obtain ⟨hu, hv, hc⟩ := h
  simp only [← sh.metadata_object] at hu hv hc
  exact .raised hu hv hc

theorem wrote_apply [LawfulResource R] (s : Store) (incoming : R) :
    let r := (sh.table s).apply (.generated s.issued) incoming
    s.Wrote (Resource.kind R) (Resource.key incoming) (some (sh.object r.1))
      (sh.next s r.2 (s.issued + 1) s.writes (Resource.key r.1) .applied) := by
  intro r
  rw [show Resource.key r.1 = Resource.key incoming from Table.key_apply ..]
  have hcount : (sh.next s r.2 (s.issued + 1) s.writes (Resource.key incoming)
      .applied).writeCount = s.writeCount + 1 := by
    rw [sh.writeCount_next, writeCount]
    omega
  have hissued : s.issued < (sh.next s r.2 (s.issued + 1) s.writes (Resource.key incoming)
      .applied).issued := by
    rw [sh.issued_next]
    exact Nat.lt_succ_self _
  refine sh.wrote (r := some r.1) (fun x => Table.find?_apply ..) (Nat.le_succ _) (by omega) rfl ?_
  cases h : (sh.table s).find? (Resource.key incoming) with
  | none =>
    have hnew : r.1 = Table.created (.generated s.issued) incoming := by simp [r, Table.apply, h]
    refine .created hissued ?_ ?_ <;> rw [hnew, sh.metadata_object] <;> simp [Table.created]
  | some old =>
    have hnew : r.1 = Table.replaced incoming old := by simp [r, Table.apply, h]
    rw [hnew]
    exact sh.revised_of_raises (.replaced hcount)

theorem wrote_erase {stored : R} (h : (sh.table s).find? place = some stored) :
    s.Wrote (Resource.kind R) place none
      (sh.next s ((sh.table s).erase place) s.issued s.writes place .deleted) := by
  refine sh.wrote (r := none) (fun x => ?_) (Nat.le_refl _) ?_ rfl ?_
  · rw [Dict.find?_erase]
    simp
  · rw [sh.writeCount_next]
    exact Nat.le_refl _
  · rw [h]
    exact .removed

/-- A client's write that goes through is counted; of the metadata it changes annotations,
finalizers and the version. -/
theorem wrote_update {incoming stored new : R} (hkeyed : (sh.table s).Keyed)
    (hs : (sh.table s).Accepts incoming stored)
    (hcount : writes.total = s.writes.total + 1)
    (hmerge : ∃ annotations finalizers, Resource.metadata new = { Resource.metadata stored with
      annotations, finalizers, version := (Resource.metadata stored).version + 1 }) :
    s.Wrote (Resource.kind R) (Resource.key incoming)
      ((if (Resource.metadata new).isGone then none else some new).map sh.object)
      (sh.next s ((sh.table s).put (Resource.key incoming) new) s.issued writes (Resource.key new)
        (Table.actionOf new)) := by
  obtain ⟨annotations, finalizers, hm⟩ := hmerge
  have hkey : Resource.key new = Resource.key incoming := by
    rw [← hkeyed hs.1]
    simp only [Resource.key, hm]
  rw [hkey]
  have hcount : (sh.next s ((sh.table s).put (Resource.key incoming) new) s.issued writes
      (Resource.key incoming) (Table.actionOf new)).writeCount = s.writeCount + 1 := by
    rw [sh.writeCount_next, writeCount]
    omega
  refine sh.wrote (fun x => Table.find?_put ..) (Nat.le_refl _) (by omega) ?_ ?_
  · unfold Table.actionOf
    split <;> rfl
  · rw [hs.1]
    split
    · exact .removed
    · refine sh.revised_of_raises ⟨by simp only [hm], by simp only [hm], ?_⟩
      simp only [Metadata.isBeingDeleted, hm]
      omega

end Shelf

/-! ## The commands -/

theorem unlessFault_cases {α : Type} (s : Store) (op : Operation)
    (run : Store → Except StoreError α × Store) :
    (∃ e, s.fault? op = some e ∧ s.unlessFault op run = (.error e, s.clearFault op)) ∨
      s.unlessFault op run = run s := by
  unfold unlessFault
  split
  next e h => exact .inl ⟨e, h, rfl⟩
  next => exact .inr rfl

namespace Shelf

variable {R : Type} [Resource R] (sh : Shelf R) {cmd : Command}

theorem effect_read (s : Store) (op : Operation) (key : Key) (hop : cmd.operation? = some op)
    (hcmd : cmd.object? = none) :
    let r := answered (s.unlessFault op fun s => ((sh.table s).get key, s))
    s.Effect cmd r.1 r.2 := by
  intro r
  rcases s.unlessFault_cases op fun s => ((sh.table s).get key, s) with ⟨e, he, h⟩ | h
  · simp only [r, h]
    exact .faulted hop he
  · simp only [r, h, answered]
    cases (sh.table s).get key with
    | error e => exact .refused
    | ok => exact .idle s.fault? hcmd

/-- An object goes if it is there. -/
theorem effect_delete (s : Store) (key : Key) (hcmd : cmd.object? = none) :
    let r := (if (sh.table s).contains key then
      (true, sh.next s ((sh.table s).erase key) s.issued s.writes key .deleted)
      else (false, s)).map Except.ok id
    s.Effect cmd r.1 r.2 := by
  intro r
  simp only [r]
  split
  next h =>
    obtain ⟨stored, h⟩ := Option.isSome_iff_exists.1 h
    exact .wrote (sh.wrote_erase h) fun w hw => nomatch hcmd ▸ hw
  next => exact .absent

/-- A client's write is stopped by a fault, refused or counted. -/
theorem effect_update {op : Operation} {run : Store → Except StoreError R × Store} (incoming : R)
    (write : R → R) (writes : WriteCounts) (hkeyed : (sh.table s).Keyed)
    (hop : cmd.operation? = some op) (hcmd : cmd.object? = some (sh.object incoming))
    (hcount : writes.total = s.writes.total + 1)
    (hmerge : ∀ stored, ∃ annotations finalizers, Resource.metadata (write stored) =
      { Resource.metadata stored with
        annotations, finalizers, version := (Resource.metadata stored).version + 1 })
    (hrun : (∃ e, run s = (.error e, s)) ∨
      ∃ stored, (sh.table s).Accepts incoming stored ∧ run s = (.ok (write stored),
        sh.next s ((sh.table s).put (Resource.key incoming) (write stored)) s.issued writes
          (Resource.key (write stored)) (Table.actionOf (write stored)))) :
    let r := answered (s.unlessFault op run)
    s.Effect cmd r.1 r.2 := by
  intro r
  simp only [r]
  rcases s.unlessFault_cases op run with ⟨e, he, hr⟩ | hr <;> rw [hr]
  · exact .faulted hop he
  rcases hrun with ⟨e, he⟩ | ⟨stored, hs, hu⟩
  · rw [he]
    exact .refused
  · rw [hu]
    refine .wrote (sh.wrote_update hkeyed hs hcount (hmerge stored)) fun w hw => ?_
    cases hcmd.symm.trans hw
    exact ⟨sh.kind_object incoming, congrArg Metadata.key (sh.metadata_object incoming)⟩

end Shelf

theorem effect_deleteAssociation (s : Store) (now : Instant) (key : Key) :
    let r := answered (s.deleteAssociation now key)
    s.Effect (.edit (.delete .association now key)) r.1 r.2 := by
  intro r
  have hcmd (w : Object) (hw : (Command.edit (.delete .association now key)).object? = some w) :
      w.kind = .association ∧ w.metadata.key = key := by cases hw
  simp only [r, deleteAssociation]
  split
  next => exact .refused
  next stored h =>
    split
    next => exact .wrote (Shelf.associations.wrote_erase h) hcmd
    next =>
      split
      next => exact .repeated h rfl
      next hlive =>
        have hfound : (Shelf.associations.table s).find? key = some stored := h
        have hd : (Resource.metadata stored).isBeingDeleted = false := Bool.eq_false_iff.2 hlive
        let m := stored.metadata
        let marked : Association :=
          { stored with metadata := { m with tombstone := some now, version := m.version + 1 } }
        refine .wrote (Shelf.associations.wrote (r := some marked) (fun x => ?_) (Nat.le_refl _)
          (Nat.le_refl _) rfl ?_) hcmd
        · exact (Dict.find?_insert ..).trans (by simp [Shelf.associations, marked, m])
        · rw [hfound]
          refine Shelf.associations.revised_of_raises ⟨rfl, rfl, ?_⟩
          rw [hd]
          exact Nat.le_refl _

theorem effect_apply (s : Store) (o : Object) :
    s.Effect (.edit (.apply o)) (.ok true) (s.edit (.apply o)) := by
  have hcmd {kind : Kind} {key : Key} (hkind : o.kind = kind) (hkey : o.metadata.key = key) (w)
      (hw : (Command.edit (.apply o)).object? = some w) : w.kind = kind ∧ w.metadata.key = key := by
    cases hw
    exact ⟨hkind, hkey⟩
  cases o with
  | association a => exact .wrote (Shelf.associations.wrote_apply s a) (hcmd rfl rfl)
  | elasticsearch es => exact .wrote (Shelf.elasticsearches.wrote_apply s es) (hcmd rfl rfl)
  | kibana kb => exact .wrote (Shelf.kibanas.wrote_apply s kb) (hcmd rfl rfl)
  | secret secret => exact .wrote (Shelf.secrets.wrote_apply s secret) (hcmd rfl rfl)

theorem effect_updateAssociation (h : s.Keyed) (a : Association) :
    let r := answered (s.updateAssociation a)
    s.Effect (.updateAssociation a) r.1 r.2 := by
  refine Shelf.associations.effect_update a a.rewritten
    { s.writes with associationUpdates := s.writes.associationUpdates + 1 } h.associations rfl rfl
    (by simp only [WriteCounts.total]; omega) (fun _ => ⟨_, _, rfl⟩) ?_
  dsimp only
  rcases s.associations.update_cases _ a with ⟨e, he, -⟩ | ⟨stored, hs, hu⟩
  · exact .inl ⟨e, by rw [he]⟩
  · exact .inr ⟨stored, hs, by rw [hu]; rfl⟩

theorem effect_updateAssociationStatus (h : s.Keyed) (a : Association) :
    let r := answered (s.updateAssociationStatus a)
    s.Effect (.updateAssociationStatus a) r.1 r.2 := by
  refine Shelf.associations.effect_update a a.restated
    { s.writes with statusUpdates := s.writes.statusUpdates + 1 } h.associations rfl rfl
    (by simp only [WriteCounts.total]; omega) (fun _ => ⟨_, _, rfl⟩) ?_
  dsimp only
  rcases s.associations.update_cases _ a with ⟨e, he, -⟩ | ⟨stored, hs, hu⟩
  · exact .inl ⟨e, by rw [he]⟩
  · exact .inr ⟨stored, hs, by rw [hu]; rfl⟩

theorem effect_updateKibana (h : s.Keyed) (kb : Kibana) :
    let r := answered (s.updateKibana kb)
    s.Effect (.updateKibana kb) r.1 r.2 := by
  refine Shelf.kibanas.effect_update kb kb.rewritten
    { s.writes with kibanaUpdates := s.writes.kibanaUpdates + 1 } h.kibanas rfl rfl
    (by simp only [WriteCounts.total]; omega) (fun _ => ⟨_, _, rfl⟩) ?_
  dsimp only
  rcases s.kibanas.update_cases _ kb with ⟨e, he, -⟩ | ⟨stored, hs, hu⟩
  · exact .inl ⟨e, by rw [he]⟩
  · exact .inr ⟨stored, hs, by rw [hu]; rfl⟩

theorem perform_effect (h : s.Keyed) (cmd : Command) :
    s.Effect cmd (s.perform cmd).1 (s.perform cmd).2 := by
  cases cmd with
  | edit e =>
    cases e with
    | apply o => exact s.effect_apply o
    | delete kind now key =>
      cases kind with
      | association => exact s.effect_deleteAssociation now key
      | elasticsearch => exact Shelf.elasticsearches.effect_delete s key rfl
      | kibana => exact Shelf.kibanas.effect_delete s key rfl
      | secret => exact Shelf.secrets.effect_delete s key rfl
  | read kind key =>
    cases kind with
    | association => exact Shelf.associations.effect_read s .getAssociation key rfl rfl
    | elasticsearch => exact Shelf.elasticsearches.effect_read s .getElasticsearch key rfl rfl
    | kibana => exact Shelf.kibanas.effect_read s .getKibana key rfl rfl
    | secret => exact Shelf.secrets.effect_read s .getSecret key rfl rfl
  | updateAssociation a => exact effect_updateAssociation h a
  | updateAssociationStatus a => exact effect_updateAssociationStatus h a
  | updateKibana kb => exact effect_updateKibana h kb
  | setFault => exact .idle _ rfl

/-! ## One place -/

namespace Effect

variable {cmd : Command} {answer : Except StoreError Bool}

theorem issued_le (h : s.Effect cmd answer s') : s.issued ≤ s'.issued := by
  cases h with
  | faulted | refused | absent | idle | repeated => exact Nat.le_refl _
  | wrote hw => exact hw.issued

theorem writeCount_le (h : s.Effect cmd answer s') : s.writeCount ≤ s'.writeCount := by
  cases h with
  | faulted | refused | absent | idle | repeated => exact Nat.le_refl _
  | wrote hw => exact hw.writeCount

/-- A place is left alone and nothing is written there, or what stands there is changed. -/
theorem place_cases (h : s.Effect cmd answer s') (kind : Kind) (key : Key) :
    (s'.find? kind key = s.find? kind key ∧ ¬(answer = .ok true ∧
      ∃ o, cmd.object? = some o ∧ o.kind = kind ∧ o.metadata.key = key)) ∨
      Revised s s' (s.find? kind key) (s'.find? kind key) := by
  cases h with
  | faulted => exact .inl ⟨by rw [find?_clearFault], nofun⟩
  | refused | absent => exact .inl ⟨rfl, nofun⟩
  | idle f h => exact .inl ⟨by rw [find?_withFaults], fun ⟨_, _, ho, _⟩ => nomatch h ▸ ho⟩
  | repeated _ h => exact .inl ⟨by rw [find?_emit], fun ⟨_, _, ho, _⟩ => nomatch h ▸ ho⟩
  | @wrote k x o s' hw hcmd =>
    by_cases hp : k = kind ∧ x = key
    · obtain ⟨rfl, rfl⟩ := hp
      exact .inr (hw.found ▸ hw.revised)
    · have hsame := hw.others kind key fun hk hx => hp ⟨hk.symm, hx.symm⟩
      refine .inl ⟨hsame, fun ⟨_, w, ho, hk, hx⟩ => ?_⟩
      obtain ⟨hk', hx'⟩ := hcmd w ho
      exact hp ⟨hk'.symm.trans hk, hx'.symm.trans hx⟩

end Effect

/-- A command leaves a place alone and does not write there, or it changes what stands there. -/
theorem place_cases (h : s.Keyed) (cmd : Command) (kind : Kind) (key : Key) :
    ((s.perform cmd).2.find? kind key = s.find? kind key ∧ ¬s.Writes cmd kind key) ∨
      Revised s (s.perform cmd).2 (s.find? kind key) ((s.perform cmd).2.find? kind key) :=
  (perform_effect h cmd).place_cases kind key

theorem writeCount_le_after (h : s.Keyed) (l : List Command) :
    s.writeCount ≤ (s.after l).writeCount := by
  induction l generalizing s with
  | nil => exact Nat.le_refl _
  | cons cmd l ih => exact Nat.le_trans (perform_effect h cmd).writeCount_le (ih (h.perform cmd))

end ClusterLink.Store

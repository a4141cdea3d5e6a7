import ClusterLink.Proofs.Store.Effect
import ClusterLink.Proofs.Store.Incarnation

/-! Versions over the history of a store. What was read from a place either still stands there, and
nobody has written there since, or it is superseded for good: whatever has its identifier has a
later version. So a version tells the states of one incarnation apart, and a write that is based on
a version goes through only if nobody came before it. -/

namespace ClusterLink.Store

/-- Nobody writes to a place while some commands are carried out, and what stands there stays. -/
def Untouched (kind : Kind) (key : Key) : Store → List Command → Prop
  | _, [] => True
  | s, cmd :: l => ¬s.Writes cmd kind key ∧ (s.perform cmd).2.find? kind key = s.find? kind key ∧
      Untouched kind key (s.perform cmd).2 l

/-- What versions and identifiers say in a history that starts from a store. -/
structure Versioned (s : Store) (l : List Command) : Prop where
  /-- Two objects of one place with the same identifier and version are equal. -/
  content : ∀ ⦃l₁ l₂ kind key o₁ o₂⦄, l₁ <+: l → l₂ <+: l →
    (s.after l₁).find? kind key = some o₁ → (s.after l₂).find? kind key = some o₂ →
    o₁.metadata.uid = o₂.metadata.uid → o₁.metadata.version = o₂.metadata.version → o₁ = o₂
  /-- A change, or a write that goes through, keeps the identifier and raises the version. -/
  change : ∀ ⦃l' cmd kind key o o'⦄, l' ++ [cmd] <+: l →
    (s.after l').find? kind key = some o → (s.after (l' ++ [cmd])).find? kind key = some o' →
    o' ≠ o ∨ (s.after l').Writes cmd kind key →
    o'.metadata.uid = o.metadata.uid ∧ o.metadata.version < o'.metadata.version
  /-- Every object has an identifier and a version, and stands in the place of its kind and key. -/
  identity : ∀ ⦃l' kind key o⦄, l' <+: l → (s.after l').find? kind key = some o →
    o.kind = kind ∧ o.metadata.key = key ∧ o.metadata.uid.isSome ∧ 1 ≤ o.metadata.version
  /-- A client's write with the version of a copy that was read goes through on the same incarnation
  only if nothing was written there since. -/
  fresh : ∀ ⦃l₁ l₂ cmd kind key copy w o⦄, l₁ ++ l₂ ++ [cmd] <+: l →
    (s.after l₁).find? kind key = some copy →
    cmd.update? = some w → w.kind = kind → w.metadata.key = key →
    w.metadata.version = copy.metadata.version →
    (s.after (l₁ ++ l₂)).find? kind key = some o → o.metadata.uid = copy.metadata.uid →
    ((s.after (l₁ ++ l₂)).perform cmd).1 = .ok true →
    (s.after l₁).Untouched kind key l₂

variable {s s' : Store} {kind : Kind} {key : Key}

theorem Untouched.find?_eq {l : List Command} (h : Untouched kind key s l) :
    (s.after l).find? kind key = s.find? kind key := by
  induction l generalizing s with
  | nil => rfl
  | cons cmd l ih => exact (ih h.2.2).trans h.2.1

/-! ## Identifiers and versions that were given out -/

/-- An identifier that was given out, and a version of at least one and at most the number of
writes, where a tombstone counts as one more. -/
structure Recorded (s : Store) (m : Metadata) : Prop where
  uid : ∃ n < s.issued, m.uid = some (.generated n)
  pos : 0 < m.version.toNat
  le : m.version.toNat ≤ s.writeCount + m.isBeingDeleted.toNat

/-- All objects have such identifiers and versions, and stand under their own keys. -/
structure Tracked (s : Store) : Prop where
  keyed : s.Keyed
  recorded : ∀ ⦃kind key o⦄, s.find? kind key = some o → s.Recorded o.metadata

theorem Tracked.new (n : Nat) : (new n).Tracked :=
  ⟨.new n, fun kind _ _ h => by cases kind <;> exact nomatch h⟩

theorem Recorded.mono {m : Metadata} (h : s.Recorded m) (hi : s.issued ≤ s'.issued)
    (hc : s.writeCount ≤ s'.writeCount) : s'.Recorded m := by
  obtain ⟨⟨n, hn, hu⟩, hpos, hle⟩ := h
  exact ⟨⟨n, by omega, hu⟩, hpos, by omega⟩

/-- Versions do not wrap around while there are few writes. -/
theorem Recorded.toNat_succ {o o' : Object} (h : s.Recorded o.metadata)
    (hversion : o'.metadata.version = o.metadata.version + 1)
    (hcount : s.writeCount + o.metadata.isBeingDeleted.toNat + 1 ≤
      s'.writeCount + o'.metadata.isBeingDeleted.toNat) (hb : s'.writeCount < 2 ^ 64 - 1) :
    o'.metadata.version.toNat = o.metadata.version.toNat + 1 := by
  have hdel := o'.metadata.isBeingDeleted.toNat_le
  rw [hversion]
  exact toNat_succ_of_lt h.le (by omega)

theorem Revised.recorded {r r' : Option Object} (h : Revised s s' r r') (hi : s.issued ≤ s'.issued)
    (hb : s'.writeCount < 2 ^ 64 - 1) (hr : ∀ o, r = some o → s.Recorded o.metadata) :
    ∀ o, r' = some o → s'.Recorded o.metadata := by
  intro o ho
  cases h with
  | created hissued huid hversion =>
    cases ho
    have hcount := s'.issued_le_writeCount
    have hversion : o.metadata.version.toNat = 1 := congrArg UInt64.toNat hversion
    exact ⟨⟨_, hissued, huid⟩, by omega, by omega⟩
  | @raised old _ huid hversion hcount =>
    cases ho
    have hold := hr old rfl
    have hsucc := hold.toNat_succ hversion hcount hb
    obtain ⟨⟨n, hn, hu⟩, -, hle⟩ := hold
    exact ⟨⟨n, by omega, huid.trans hu⟩, by omega, by omega⟩
  | removed => cases ho

theorem Tracked.perform (h : s.Tracked) (cmd : Command)
    (hb : (s.perform cmd).2.writeCount < 2 ^ 64 - 1) : (s.perform cmd).2.Tracked := by
  have hi := (perform_effect h.keyed cmd).issued_le
  refine ⟨h.keyed.perform cmd, fun kind key o ho => ?_⟩
  rcases place_cases h.keyed cmd kind key with ⟨hsame, -⟩ | hrev
  · exact (h.recorded (hsame ▸ ho)).mono hi ((perform_effect h.keyed cmd).writeCount_le)
  · exact hrev.recorded hi hb (fun _ hr => h.recorded hr) o ho

theorem Tracked.after (h : s.Tracked) (l : List Command)
    (hb : (s.after l).writeCount < 2 ^ 64 - 1) : (s.after l).Tracked := by
  induction l generalizing s with
  | nil => exact h
  | cons cmd l ih =>
    have hle := writeCount_le_after (h.keyed.perform cmd) l
    exact ih (h.perform cmd (Nat.lt_of_le_of_lt hle hb)) hb

/-! ## Copies -/

/-- Whatever of the copy's incarnation is or will be found has a later version. -/
structure Superseded (s : Store) (copy : Metadata) (r : Option Object) : Prop where
  uid : ∃ n < s.issued, copy.uid = some (.generated n)
  later : ∀ o, r = some o → o.metadata.uid = copy.uid →
    copy.version.toNat < o.metadata.version.toNat

/-- What is changed is superseded. -/
theorem Revised.superseded {o : Object} {r' : Option Object} (h : Revised s s' (some o) r')
    (ho : s.Recorded o.metadata) (hi : s.issued ≤ s'.issued) (hb : s'.writeCount < 2 ^ 64 - 1) :
    s'.Superseded o.metadata r' := by
  obtain ⟨n, hn, hu⟩ := ho.uid
  refine ⟨⟨n, by omega, hu⟩, fun o' ho' huid => ?_⟩
  cases h with
  | raised _ hversion hcount =>
    cases ho'
    have hsucc := ho.toNat_succ hversion hcount hb
    omega
  | removed => cases ho'

theorem Superseded.revised {copy : Metadata} {r r' : Option Object} (h : s.Superseded copy r)
    (hrev : Revised s s' r r') (hr : ∀ o, r = some o → s.Recorded o.metadata)
    (hi : s.issued ≤ s'.issued) (hb : s'.writeCount < 2 ^ 64 - 1) : s'.Superseded copy r' := by
  obtain ⟨⟨n, hn, hu⟩, hlater⟩ := h
  refine ⟨⟨n, by omega, hu⟩, fun o ho huid => ?_⟩
  cases hrev with
  | created hissued hnew =>
    -- the copy's identifier was given out before
    cases ho
    have hcount := s'.issued_le_writeCount
    have hsame := Option.some.inj (hnew.symm.trans (huid.trans hu))
    have := Uid.generated_inj (by omega) (by omega) hsame
    omega
  | @raised old _ hkept hversion hcount =>
    cases ho
    have hsucc := (hr old rfl).toNat_succ hversion hcount hb
    have := hlater old rfl (hkept.symm.trans huid)
    omega
  | removed => cases ho

theorem Superseded.perform {copy : Metadata} (h : s.Superseded copy (s.find? kind key))
    (ht : s.Tracked) (cmd : Command) (hb : (s.perform cmd).2.writeCount < 2 ^ 64 - 1) :
    (s.perform cmd).2.Superseded copy ((s.perform cmd).2.find? kind key) := by
  have hi := (perform_effect ht.keyed cmd).issued_le
  rcases place_cases ht.keyed cmd kind key with ⟨hsame, -⟩ | hrev
  · obtain ⟨⟨n, hn, hu⟩, hlater⟩ := h
    rw [hsame]
    exact ⟨⟨n, by omega, hu⟩, hlater⟩
  · exact h.revised hrev (fun _ hr => ht.recorded hr) hi hb

theorem Superseded.after {copy : Metadata} (h : s.Superseded copy (s.find? kind key))
    (ht : s.Tracked) (l : List Command) (hb : (s.after l).writeCount < 2 ^ 64 - 1) :
    (s.after l).Superseded copy ((s.after l).find? kind key) := by
  induction l generalizing s with
  | nil => exact h
  | cons cmd l ih =>
    have hb' : (s.perform cmd).2.writeCount < 2 ^ 64 - 1 :=
      Nat.lt_of_le_of_lt (writeCount_le_after (ht.keyed.perform cmd) l) hb
    exact ih (h.perform ht cmd hb') (ht.perform cmd hb') hb

/-- What is read stays untouched or is superseded. -/
theorem untouched_or_superseded (ht : s.Tracked) {copy : Object}
    (hcopy : s.find? kind key = some copy) (l : List Command)
    (hb : (s.after l).writeCount < 2 ^ 64 - 1) : Untouched kind key s l ∨
      (s.after l).Superseded copy.metadata ((s.after l).find? kind key) := by
  induction l generalizing s with
  | nil => exact .inl trivial
  | cons cmd l ih =>
    have hb' : (s.perform cmd).2.writeCount < 2 ^ 64 - 1 :=
      Nat.lt_of_le_of_lt (writeCount_le_after (ht.keyed.perform cmd) l) hb
    have ht' := ht.perform cmd hb'
    rcases place_cases ht.keyed cmd kind key with ⟨hsame, hno⟩ | hrev
    · exact (ih ht' (hsame.trans hcopy) hb).imp_left fun hl => ⟨hno, hsame, hl⟩
    · rw [hcopy] at hrev
      have hi := (perform_effect ht.keyed cmd).issued_le
      exact .inr ((hrev.superseded (ht.recorded hcopy) hi hb').after ht' l hb)

theorem eq_of_version_eq (ht : s.Tracked) {o o' : Object} (ho : s.find? kind key = some o)
    {l : List Command} (hb : (s.after l).writeCount < 2 ^ 64 - 1)
    (ho' : (s.after l).find? kind key = some o') (huid : o'.metadata.uid = o.metadata.uid)
    (hversion : o'.metadata.version = o.metadata.version) : o' = o := by
  rcases untouched_or_superseded ht ho l hb with hl | hl
  · exact Option.some.inj (ho'.symm.trans (hl.find?_eq.trans ho))
  · have hlt := hl.later o' ho' huid
    rw [hversion] at hlt
    exact absurd hlt (Nat.lt_irrefl _)

/-! ## Writes of clients -/

theorem find?_association {a : Association} (h : s.associations.find? key = some a) :
    s.find? .association key = some (.association a) := by simp [find?, h]

theorem find?_kibana {kb : Kibana} (h : s.kibanas.find? key = some kb) :
    s.find? .kibana key = some (.kibana kb) := by simp [find?, h]

/-- A client's write that goes through finds an object, in the write's own version if it has one. -/
theorem version_of_update {cmd : Command} {w : Object} (hw : cmd.update? = some w)
    (h : (s.perform cmd).1 = .ok true) : ∃ o, s.find? w.kind w.metadata.key = some o ∧
      (w.metadata.version = 0 ∨ w.metadata.version = o.metadata.version) := by
  cases cmd with
  | updateAssociation a =>
    cases hw
    rcases s.updateAssociation_cases a with ⟨e, f, he, -⟩ | ⟨stored, _, -, ha, -⟩
    · simp [Store.perform, answered, he, Except.map] at h
    · exact ⟨_, find?_association ha.1, ha.2⟩
  | updateAssociationStatus a =>
    cases hw
    rcases s.updateAssociationStatus_cases a with ⟨e, f, he, -⟩ | ⟨stored, _, -, ha, -⟩
    · simp [Store.perform, answered, he, Except.map] at h
    · exact ⟨_, find?_association ha.1, ha.2⟩
  | updateKibana kb =>
    cases hw
    rcases s.updateKibana_cases kb with ⟨e, f, he, -⟩ | ⟨stored, _, -, hk, -⟩
    · simp [Store.perform, answered, he, Except.map] at h
    · exact ⟨_, find?_kibana hk.1, hk.2⟩
  | edit e =>
    cases e <;> cases hw
  | read | setFault => cases hw

theorem untouched_of_update (ht : s.Tracked) {copy o w : Object} {cmd : Command}
    {l : List Command} (hcopy : s.find? kind key = some copy)
    (hb : (s.after l).writeCount < 2 ^ 64 - 1) (hw : cmd.update? = some w) (hkind : w.kind = kind)
    (hkey : w.metadata.key = key) (hversion : w.metadata.version = copy.metadata.version)
    (ho : (s.after l).find? kind key = some o) (huid : o.metadata.uid = copy.metadata.uid)
    (h : ((s.after l).perform cmd).1 = .ok true) : Untouched kind key s l := by
  refine (untouched_or_superseded ht hcopy l hb).resolve_right fun hl => ?_
  have hlt := hl.later o ho huid
  have hpos := (ht.recorded hcopy).pos
  obtain ⟨x, hx, hv⟩ := version_of_update hw h
  rw [hkind, hkey] at hx
  cases hx.symm.trans ho
  rw [← hversion] at hlt hpos
  rcases hv with hv | hv <;> rw [hv] at hlt hpos
  · exact absurd hpos (Nat.lt_irrefl _)
  · exact absurd hlt (Nat.lt_irrefl _)

theorem Tracked.change (ht : s.Tracked) {cmd : Command} {o o' : Object}
    (hb : (s.perform cmd).2.writeCount < 2 ^ 64 - 1) (ho : s.find? kind key = some o)
    (ho' : (s.perform cmd).2.find? kind key = some o') (h : o' ≠ o ∨ s.Writes cmd kind key) :
    o'.metadata.uid = o.metadata.uid ∧ o.metadata.version < o'.metadata.version := by
  rcases place_cases ht.keyed cmd kind key with ⟨hsame, hno⟩ | hrev
  · have heq := Option.some.inj (ho'.symm.trans (hsame.trans ho))
    rcases h with hne | hw
    · exact absurd heq hne
    · exact absurd hw hno
  · rw [ho, ho'] at hrev
    cases hrev with
    | raised huid hversion hcount =>
      have hsucc := (ht.recorded ho).toNat_succ hversion hcount hb
      exact ⟨huid, UInt64.lt_iff_toNat_lt.2 (by omega)⟩

/-- As long as there are fewer writes than versions, versions tell what the objects of an
incarnation are. -/
theorem versioned_of_new (n : Nat) (l : List Command)
    (hb : ((new n).after l).writeCount < 2 ^ 64 - 1) : (new n).Versioned l := by
  have hbound {l'} (hl : l' <+: l) : ((new n).after l').writeCount < 2 ^ 64 - 1 := by
    obtain ⟨more, rfl⟩ := hl
    have hle := writeCount_le_after ((Keyed.new n).after l') more
    rw [← after_append] at hle
    exact Nat.lt_of_le_of_lt hle hb
  have htracked {l'} (hl : l' <+: l) := (Tracked.new n).after l' (hbound hl)
  constructor
  case content =>
    intro l₁ l₂ kind key o₁ o₂ hl₁ hl₂ ho₁ ho₂ huid hversion
    rcases List.prefix_or_prefix_of_prefix hl₁ hl₂ with ⟨more, rfl⟩ | ⟨more, rfl⟩
    · rw [after_append] at ho₂
      have hb' := after_append .. ▸ hbound hl₂
      exact (eq_of_version_eq (htracked hl₁) ho₁ hb' ho₂ huid.symm hversion.symm).symm
    · rw [after_append] at ho₁
      have hb' := after_append .. ▸ hbound hl₁
      exact eq_of_version_eq (htracked hl₂) ho₂ hb' ho₁ huid hversion
  case change =>
    intro l' cmd kind key o o' hl ho ho' hchange
    have hb' := hbound hl
    rw [after_append] at ho' hb'
    exact (htracked ((List.prefix_append ..).trans hl)).change hb' ho ho' hchange
  case identity =>
    intro l' kind key o hl ho
    have ht := htracked hl
    obtain ⟨⟨n, -, hu⟩, hpos, -⟩ := ht.recorded ho
    have huid : o.metadata.uid.isSome := by rw [hu]; rfl
    exact ⟨kind_of_find? ho, ht.keyed.key_of_find? ho, huid, UInt64.le_iff_toNat_le.2 hpos⟩
  case fresh =>
    intro l₁ l₂ cmd kind key copy w o hl hcopy hw hkind hkey hversion ho huid h
    have hl' := (List.prefix_append (l₁ ++ l₂) [cmd]).trans hl
    have hb' := hbound hl'
    rw [after_append] at ho h hb'
    exact untouched_of_update (htracked ((List.prefix_append ..).trans hl')) hcopy hb' hw hkind hkey
      hversion ho huid h

/-- An association is read and then applied again, so a write of the copy does not go through. -/
theorem not_ok_of_reapplied :
    let a : Association := ⟨.new ⟨"ns", "a"⟩, ⟨⟨"ns", "es1"⟩, ⟨"ns", "kb"⟩⟩, .unknown⟩
    let moved : Association := ⟨.new ⟨"ns", "a"⟩, ⟨⟨"ns", "es2"⟩, ⟨"ns", "kb"⟩⟩, .unknown⟩
    let copy := Table.created (.generated 0) a
    let l : List Command := [.edit (.apply (.association a)), .edit (.apply (.association moved)),
      .updateAssociation copy]
    ((new 4).after l).writeCount < 2 ^ 64 - 1 ∧ (new 4).Versioned l ∧
      (((new 4).after (l.take 2)).perform (.updateAssociation copy)).1 ≠ .ok true := by
  intro a moved copy l
  have hb : ((new 4).after l).writeCount < 2 ^ 64 - 1 := by decide
  have hv := versioned_of_new 4 l hb
  refine ⟨hb, hv, fun h => ?_⟩
  have hu := @Versioned.fresh _ _ hv [.edit (.apply (.association a))]
    [.edit (.apply (.association moved))] (.updateAssociation copy) .association a.key
    (.association copy) (.association copy) (.association (Table.replaced moved copy))
    (List.prefix_refl l) (by decide) rfl rfl rfl rfl (by decide) rfl h
  exact hu.1 ⟨rfl, .association moved, rfl, rfl, rfl⟩

end ClusterLink.Store

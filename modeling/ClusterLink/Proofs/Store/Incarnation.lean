import ClusterLink.Proofs.Store.Reachable
import Mathlib.Algebra.Group.Nat.Defs

/-! Identifiers and versions. A change of an object keeps its identifier and raises its version by
one; only an object that is new gets a new identifier, and its version starts over. So as long as
versions do not wrap around, a client's copy that has the identifier and the version of the stored
object is a copy of just that object. -/

namespace ClusterLink

theorem Uid.generated_inj {m n : Nat} (hm : m < 2 ^ 64) (hn : n < 2 ^ 64)
    (h : generated m = generated n) : m = n := by
  simp only [generated, Uid.mk.injEq] at h
  have h := congrArg BitVec.toNat h
  simp only [BitVec.toNat_ofNat] at h
  omega

theorem toNat_succ_of_lt {v : UInt64} {n : Nat} (hv : v.toNat ≤ n) (hn : n + 1 < 2 ^ 64) :
    (v + 1).toNat = v.toNat + 1 := by
  rw [UInt64.toNat_add]
  exact Nat.mod_eq_of_lt (by simp; omega)

namespace Store

/-- What a change of the store does to the identity of what stands under one key. -/
inductive Advance {R : Type} [Resource R] (s s' : Store) : Option R → Option R → Prop where
  | same {r} : Advance s s' r r
  | removed {r} : Advance s s' (some r) none
  | raised {r r'} (hsize : s.log.size < s'.log.size)
    (huid : (Resource.metadata r').uid = (Resource.metadata r).uid)
    (hversion : (Resource.metadata r').version = (Resource.metadata r).version + 1) :
    Advance s s' (some r) (some r')
  | fresh {r'} (hsize : s.log.size < s'.log.size) (hissued : s.issued < s'.issued)
    (huid : (Resource.metadata r').uid = some (.generated s.issued))
    (hversion : (Resource.metadata r').version = 1) : Advance s s' none (some r')

/-- What a change of the store does to identities. -/
structure Advances (s s' : Store) : Prop where
  size : s.log.size ≤ s'.log.size
  issued : s.issued ≤ s'.issued
  balance : s'.issued + s.log.size ≤ s.issued + s'.log.size
  associations : ∀ key, Advance s s' (s.associations.find? key) (s'.associations.find? key)
  kibanas : ∀ key, Advance s s' (s.kibanas.find? key) (s'.kibanas.find? key)

variable {R : Type} [Resource R] {s s' : Store} {r r' : Option R}

theorem Advances.refl (s : Store) : Advances s s where
  size := Nat.le_refl _
  issued := Nat.le_refl _
  balance := Nat.le_refl _
  associations _ := .same
  kibanas _ := .same

theorem size_emit (s : Store) (kind : Kind) (key : Key) (action : Action) :
    (s.emit kind key action).log.size = s.log.size + 1 := by
  simp [emit, EventLog.size, EventLog.append]

/-! ## Edits -/

/-- An edit does nothing, or it is logged and gives out an identifier at most. -/
theorem edit_logged (s : Store) (e : Edit) : s.edit e = s ∨
    (s.edit e).log.size = s.log.size + 1 ∧ s.issued ≤ (s.edit e).issued ∧
      (s.edit e).issued ≤ s.issued + 1 := by
  cases e with
  | apply o =>
    refine .inr ?_
    cases o <;> exact ⟨size_emit .., Nat.le_succ _, Nat.le_refl _⟩
  | delete kind now key =>
    cases kind with
    | association =>
      simp only [edit, deleteAssociation]
      split
      · exact .inl rfl
      · refine .inr ?_
        repeat' split
        all_goals exact ⟨size_emit .., Nat.le_refl _, Nat.le_succ _⟩
    | elasticsearch =>
      simp only [edit, deleteElasticsearch]
      split
      · exact .inr ⟨size_emit .., Nat.le_refl _, Nat.le_succ _⟩
      · exact .inl rfl
    | kibana =>
      simp only [edit, deleteKibana]
      split
      · exact .inr ⟨size_emit .., Nat.le_refl _, Nat.le_succ _⟩
      · exact .inl rfl
    | secret =>
      simp only [edit, deleteSecret]
      split
      · exact .inr ⟨size_emit .., Nat.le_refl _, Nat.le_succ _⟩
      · exact .inl rfl

theorem edit_advances (s : Store) (e : Edit) : Advances s (s.edit e) := by
  rcases s.edit_logged e with h | ⟨hsize, hle, hissued⟩
  · rw [h]
    exact .refl s
  · have hlt : s.log.size < (s.edit e).log.size := by omega
    refine ⟨by omega, hle, by omega, fun key => ?_, fun key => ?_⟩
    · have hed := (s.edit_editedAt e key).association
      generalize s.associations.find? key = r at hed
      generalize (s.edit e).associations.find? key = r' at hed
      cases hed with
      | same => exact .same
      | created hs => exact .fresh hlt (by subst hs; exact Nat.lt_succ_self _) rfl rfl
      | replaced => exact .raised hlt rfl rfl
      | removed => exact .removed
      | doomed => exact .raised hlt rfl rfl
    · have hed := (s.edit_editedAt e key).kibana
      generalize s.kibanas.find? key = r at hed
      generalize (s.edit e).kibanas.find? key = r' at hed
      cases hed with
      | same => exact .same
      | created hs => exact .fresh hlt (by subst hs; exact Nat.lt_succ_self _) rfl rfl
      | replaced => exact .raised hlt rfl rfl
      | removed => exact .removed

/-! ## Calls -/

theorem advance_put {t : Table R} {place : Key} {stored new : R} (h : t.find? place = some stored)
    (hsize : s.log.size < s'.log.size)
    (huid : (Resource.metadata new).uid = (Resource.metadata stored).uid)
    (hversion : (Resource.metadata new).version = (Resource.metadata stored).version + 1)
    (key : Key) : Advance s s' (t.find? key) ((t.put place new).find? key) := by
  rw [Table.find?_put]
  split
  next hk =>
    subst hk
    rw [h]
    split
    · exact .removed
    · exact .raised hsize huid hversion
  next => exact .same

theorem Called.advances (h : s.Called s') : Advances s s' := by
  cases h with
  | same => exact ⟨Nat.le_refl _, Nat.le_refl _, Nat.le_refl _, fun _ => .same, fun _ => .same⟩
  | @association a stored h writes =>
    have hsize : (s.putAssociation a.key (a.rewritten stored) writes).log.size = s.log.size + 1 :=
      size_emit ..
    exact ⟨by omega, Nat.le_refl _, by simp only [hsize]; exact Nat.le_succ _,
      advance_put h.1 (by omega) rfl rfl, fun _ => .same⟩
  | @status a stored h writes =>
    have hsize : (s.putAssociation a.key (a.restated stored) writes).log.size = s.log.size + 1 :=
      size_emit ..
    exact ⟨by omega, Nat.le_refl _, by simp only [hsize]; exact Nat.le_succ _,
      advance_put h.1 (by omega) rfl rfl, fun _ => .same⟩
  | @kibana kb stored h writes =>
    have hsize : (s.putKibana kb.key (kb.rewritten stored) writes).log.size = s.log.size + 1 :=
      size_emit ..
    exact ⟨by omega, Nat.le_refl _, by simp only [hsize]; exact Nat.le_succ _,
      fun _ => .same, advance_put h.1 (by omega) rfl rfl⟩

/-! ## Numbers -/

/-- An identifier that was given out, and a version between one and the number of events. -/
structure Number (s : Store) (m : Metadata) : Prop where
  uid : ∃ n < s.issued, m.uid = some (.generated n)
  pos : 0 < m.version.toNat
  le : m.version.toNat ≤ s.log.size

/-- All associations and Kibana instances have such numbers. -/
structure Numbered (s : Store) : Prop where
  issued : s.issued ≤ s.log.size
  associations : ∀ ⦃key a⦄, s.associations.find? key = some a → s.Number a.metadata
  kibanas : ∀ ⦃key kb⦄, s.kibanas.find? key = some kb → s.Number kb.metadata

theorem Numbered.new (n : Nat) : (new n).Numbered :=
  ⟨Nat.le_refl _, fun _ _ h => (nomatch h), fun _ _ h => (nomatch h)⟩

theorem Number.mono {m : Metadata} (h : s.Number m) (hi : s.issued ≤ s'.issued)
    (hl : s.log.size ≤ s'.log.size) : s'.Number m := by
  obtain ⟨⟨n, hn, hu⟩, hpos, hle⟩ := h
  exact ⟨⟨n, by omega, hu⟩, hpos, by omega⟩

theorem Advance.number (h : Advance s s' r r') (hi : s.issued ≤ s'.issued)
    (hl : s.log.size ≤ s'.log.size) (hb : s'.log.size < 2 ^ 64)
    (hr : ∀ x, r = some x → s.Number (Resource.metadata x)) :
    ∀ x, r' = some x → s'.Number (Resource.metadata x) := by
  intro x hx
  cases h with
  | same => exact (hr x hx).mono hi hl
  | removed => cases hx
  | @raised r _ hsize huid hversion =>
    cases hx
    obtain ⟨⟨n, hn, hu⟩, -, hle⟩ := hr r rfl
    have hv := toNat_succ_of_lt hle (by omega)
    exact ⟨⟨n, by omega, huid.trans hu⟩, by rw [hversion]; omega, by rw [hversion]; omega⟩
  | fresh hsize hissued huid hversion =>
    cases hx
    have hversion : (Resource.metadata x).version.toNat = 1 :=
      congrArg UInt64.toNat hversion
    exact ⟨⟨_, hissued, huid⟩, by omega, by omega⟩

theorem Numbered.advances (h : s.Numbered) (ha : Advances s s') (hb : s'.log.size < 2 ^ 64) :
    s'.Numbered where
  issued := by
    have := h.issued
    have := ha.balance
    omega
  associations key :=
    (ha.associations key).number ha.issued ha.size hb (fun _ hx => h.associations hx)
  kibanas key := (ha.kibanas key).number ha.issued ha.size hb (fun _ hx => h.kibanas hx)

theorem Reachable.numbered {Allowed : Edit → Prop} (h : s.Reachable Allowed)
    (hb : s.log.size < 2 ^ 64) : s.Numbered := by
  induction h with
  | new n => exact .new n
  | @edit s e _ _ ih =>
    have ha := s.edit_advances e
    exact (ih (Nat.lt_of_le_of_lt ha.size hb)).advances ha hb
  | @call c _ q ih =>
    have ha := (c.answer_called q).advances
    exact (ih (Nat.lt_of_le_of_lt ha.size hb)).advances ha hb
  | @faults s _ f ih => exact (ih hb).advances (Called.same f).advances hb

/-! ## Copies -/

/-- A copy that was read from what stands under a key, of which `owned` is of interest: if the same
object still stands there, it has a later version, or it is as it was. -/
structure Copied {β : Type} (s : Store) (owned : R → β) (r : Option R) (copy : R) : Prop where
  uid : ∃ n < s.issued, (Resource.metadata copy).uid = some (.generated n)
  pos : 0 < (Resource.metadata copy).version.toNat
  stored : ∀ x, r = some x → (Resource.metadata x).uid = (Resource.metadata copy).uid →
    (Resource.metadata copy).version.toNat < (Resource.metadata x).version.toNat ∨
      (Resource.metadata copy).version = (Resource.metadata x).version ∧ owned x = owned copy

theorem Number.copied {β : Type} {owned : R → β} {x copy : R} (h : s.Number (Resource.metadata x))
    (hm : Resource.metadata copy = Resource.metadata x) (ho : owned x = owned copy) :
    s.Copied owned (some x) copy :=
  ⟨hm ▸ h.uid, hm ▸ h.pos, fun _ hx _ => Option.some.inj hx ▸ .inr ⟨by rw [hm], ho⟩⟩

theorem Copied.advance {β : Type} {owned : R → β} {copy : R} (h : s.Copied owned r copy)
    (ha : Advance s s' r r') (hi : s.issued ≤ s'.issued) (hs : s.issued ≤ s.log.size)
    (hb : s'.log.size < 2 ^ 64) (hr : ∀ x, r = some x → s.Number (Resource.metadata x)) :
    s'.Copied owned r' copy := by
  obtain ⟨⟨n, hn, hu⟩, hpos, hst⟩ := h
  refine ⟨⟨n, by omega, hu⟩, hpos, fun x hx hux => ?_⟩
  cases ha with
  | same => exact hst x hx hux
  | removed => cases hx
  | @raised old _ hsize huid hversion =>
    cases hx
    have hv := toNat_succ_of_lt (hr old rfl).le (by omega)
    refine .inl ?_
    rw [hversion]
    rcases hst old rfl (huid.symm.trans hux) with h | ⟨h, -⟩
    · omega
    · rw [h]
      omega
  | fresh hsize hissued huid hversion =>
    cases hx
    have hsame := Option.some.inj (huid.symm.trans (hux.trans hu))
    have := Uid.generated_inj (by omega) (by omega) hsame
    omega

theorem Copied.congr {β : Type} {owned : R → β} {copy copy' : R} (h : s.Copied owned r copy)
    (hu : (Resource.metadata copy').uid = (Resource.metadata copy).uid)
    (hv : (Resource.metadata copy').version = (Resource.metadata copy).version)
    (ho : owned copy' = owned copy) : s.Copied owned r copy' := by
  obtain ⟨h₁, h₂, h₃⟩ := h
  exact ⟨hu ▸ h₁, hv ▸ h₂, by rw [hu, hv, ho]; exact h₃⟩

/-- A write that is accepted and meets the object of the copy meets it as it was read. -/
theorem Copied.owned_eq {β : Type} {owned : R → β} {t : Table R} {copy stored : R}
    (h : s.Copied owned (t.find? (Resource.key copy)) copy) (ha : t.Accepts copy stored)
    (hu : (Resource.metadata stored).uid = (Resource.metadata copy).uid) :
    owned stored = owned copy := by
  rcases h.stored stored ha.1 hu with hlt | ⟨-, ho⟩
  · have hpos := h.pos
    rcases ha.2 with hv | hv <;> simp only [hv] at hlt hpos
    · exact absurd hpos (by decide)
    · exact absurd hlt (Nat.lt_irrefl _)
  · exact ho

end Store

end ClusterLink

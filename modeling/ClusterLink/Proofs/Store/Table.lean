import ClusterLink.Store.Basic

/-! What the operations of one table do to its look-ups. `Table.apply` and `Table.update` both put
one object in one place; `Table.put` is that write with the removal of an object that has a
tombstone and no finalizers, and `update_eq` says which object a client's write puts. -/

namespace ClusterLink

/-- The laws of an object's metadata. -/
class LawfulResource (R : Type) [Resource R] : Prop where
  metadata_withMetadata (r : R) (m : Metadata) :
    Resource.metadata (Resource.withMetadata r m) = m
  metadata_retain (incoming stored : R) : Resource.metadata (Resource.retain incoming stored) =
    (Resource.metadata incoming).keepFinalizers (Resource.metadata stored)

export LawfulResource (metadata_withMetadata metadata_retain)

attribute [simp] metadata_withMetadata metadata_retain

instance : LawfulResource Association := ⟨fun _ _ => rfl, fun _ _ => rfl⟩

instance : LawfulResource Elasticsearch := ⟨fun _ _ => rfl, fun _ _ => rfl⟩

instance : LawfulResource Kibana := ⟨fun _ _ => rfl, fun _ _ => rfl⟩

instance : LawfulResource Secret := ⟨fun _ _ => rfl, fun _ _ => rfl⟩

@[simp] theorem Metadata.keepFinalizers_key (incoming stored : Metadata) :
    (incoming.keepFinalizers stored).key = incoming.key := rfl

/-- An object that deletion was asked for and that nothing holds back. -/
def Metadata.isGone (m : Metadata) : Prop := m.isBeingDeleted ∧ m.finalizers = []

instance (m : Metadata) : Decidable m.isGone := inferInstanceAs (Decidable (_ ∧ _))

theorem Metadata.not_isGone {m : Metadata} {name : String} (h : name ∈ m.finalizers) :
    ¬m.isGone := fun hg => List.not_mem_nil (hg.2 ▸ h)

namespace Table

variable {R : Type} [Resource R] {t : Table R}

/-- Puts an object under a key, or removes what is there if the object is gone. -/
def put (t : Table R) (key : Key) (r : R) : Table R :=
  if (Resource.metadata r).isGone then t.erase key else t.insert key r

theorem find?_put (place key : Key) (r : R) : (t.put place r).find? key =
    if key = place then if (Resource.metadata r).isGone then none else some r
    else t.find? key := by
  unfold put
  split <;> simp

/-- An object with a finalizer is not removed. -/
theorem find?_put_self {r : R} {name : String} (h : name ∈ (Resource.metadata r).finalizers)
    (t : Table R) (key : Key) : (t.put key r).find? key = some r := by
  rw [find?_put, if_pos rfl, if_neg (Metadata.not_isGone h)]

theorem find?_put_of_ne {place key : Key} (h : key ≠ place) (r : R) :
    (t.put place r).find? key = t.find? key := by
  rw [find?_put, if_neg h]

theorem get_eq_ok {key : Key} {r : R} (h : t.find? key = some r) : t.get key = .ok r := by
  rw [get, h]

theorem get_eq_error {key : Key} (h : t.find? key = none) :
    t.get key = .error (.notFound (Resource.kind R) key) := by
  rw [get, h]

/-- Every object stands under its own key. -/
def Keyed (t : Table R) : Prop := ∀ ⦃key r⦄, t.find? key = some r → Resource.key r = key

theorem Keyed.empty : Keyed (∅ : Table R) := fun _ _ h => nomatch h

theorem Keyed.insert (h : t.Keyed) {key : Key} {r : R} (hr : Resource.key r = key) :
    Keyed (R := R) (t.insert key r) := by
  intro x r' hx
  by_cases e : x = key
  · simp only [e, Dict.find?_insert_self, Option.some.injEq] at hx
    rw [← hx, hr, e]
  · exact h (by simpa [e] using hx)

theorem Keyed.erase (h : t.Keyed) (key : Key) : Keyed (R := R) (t.erase key) := by
  intro x r hx
  by_cases e : x = key
  · simp [e] at hx
  · exact h (by simpa [e] using hx)

theorem Keyed.put (h : t.Keyed) {key : Key} {r : R} (hr : Resource.key r = key) :
    (t.put key r).Keyed := by
  unfold Table.put
  split
  · exact h.erase _
  · exact h.insert hr

/-! ## Writes from outside -/

section Apply

variable [LawfulResource R]

theorem key_created (fresh : Uid) (incoming : R) :
    Resource.key (created fresh incoming) = Resource.key incoming := by
  simp [Resource.key, created]

theorem key_replaced (incoming stored : R) :
    Resource.key (replaced incoming stored) = Resource.key incoming := by
  simp [Resource.key, replaced]

theorem key_apply (fresh : Uid) (incoming : R) :
    Resource.key (t.apply fresh incoming).1 = Resource.key incoming := by
  unfold apply
  dsimp only
  split
  · exact key_replaced ..
  · exact key_created ..

end Apply

theorem find?_apply (fresh : Uid) (incoming : R) (key : Key) :
    (t.apply fresh incoming).2.find? key =
      if key = Resource.key incoming then some (t.apply fresh incoming).1 else t.find? key := by
  simp [apply]

/-! ## Writes of clients -/

/-- The object that a client's write leaves of a stored one. -/
def written (merge : R → R → R) (incoming stored : R) : R :=
  let merged := merge stored incoming
  Resource.withMetadata merged
    { Resource.metadata merged with version := (Resource.metadata stored).version + 1 }

/-- A client's write finds an object, and that in the version on which the write is based. -/
def Accepts (t : Table R) (incoming stored : R) : Prop :=
  t.find? (Resource.key incoming) = some stored ∧
    ((Resource.metadata incoming).version = 0 ∨
      (Resource.metadata incoming).version = (Resource.metadata stored).version)

/-- What the event about a client's write says. -/
def actionOf (r : R) : Action := if (Resource.metadata r).isGone then .deleted else .applied

/-- What a client's write of an object makes of what it finds. -/
def attempt (incoming : R) (write : R → R) : Option R → Except StoreError R
  | none => .error (.notFound (Resource.kind R) (Resource.key incoming))
  | some stored =>
    let current := (Resource.metadata stored).version
    let expected := (Resource.metadata incoming).version
    if expected ≠ 0 ∧ expected ≠ current then
      .error (.conflict (Resource.kind R) (Resource.key incoming) current expected)
    else .ok (write stored)

theorem attempt_of_version {incoming stored : R}
    (h : (Resource.metadata incoming).version = (Resource.metadata stored).version)
    (write : R → R) : attempt incoming write (some stored) = .ok (write stored) :=
  if_neg fun hne => hne.2 h

theorem update_eq {merge : R → R → R} {incoming : R} {w : R → R}
    (hw : ∀ stored, written merge incoming stored = w stored) (t : Table R) :
    t.update merge incoming = (attempt incoming w (t.find? (Resource.key incoming))).map fun r =>
      (r, actionOf r, t.put (Resource.key incoming) r) := by
  unfold update
  dsimp only
  cases h : t.find? (Resource.key incoming) with
  | none => rfl
  | some stored =>
    dsimp only [attempt]
    by_cases hv : (Resource.metadata incoming).version ≠ 0 ∧
        (Resource.metadata incoming).version ≠ (Resource.metadata stored).version
    · rw [if_pos hv, if_pos hv, Except.map]
    · rw [if_neg hv, if_neg hv, Except.map, ← hw]
      unfold put actionOf
      by_cases hg : (Resource.metadata (written merge incoming stored)).isGone
      · rw [if_pos hg, if_pos hg]
        exact if_pos hg
      · rw [if_neg hg, if_neg hg]
        exact if_neg hg

/-- A client's write is refused, or it puts the written object. -/
theorem update_cases (t : Table R) (merge : R → R → R) (incoming : R) :
    (∃ e, t.update merge incoming = .error e ∧ ∀ stored, ¬t.Accepts incoming stored) ∨
    ∃ stored, t.Accepts incoming stored ∧
      t.update merge incoming = .ok (written merge incoming stored,
        actionOf (written merge incoming stored),
        t.put (Resource.key incoming) (written merge incoming stored)) := by
  rw [update_eq fun _ => rfl]
  cases h : t.find? (Resource.key incoming) with
  | none => exact .inl ⟨_, rfl, fun _ hs => nomatch h.symm.trans hs.1⟩
  | some stored =>
    dsimp only [attempt]
    split
    next hv =>
      refine .inl ⟨_, rfl, fun other ho => ?_⟩
      cases h.symm.trans ho.1
      exact ho.2.elim hv.1 hv.2
    next hv =>
      refine .inr ⟨stored, ⟨h, ?_⟩, rfl⟩
      exact Decidable.or_iff_not_imp_left.2 (by simpa using hv)

end Table

end ClusterLink

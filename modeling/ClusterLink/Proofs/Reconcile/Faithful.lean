import ClusterLink.Proofs.Reconcile.Step

/-! What a reconcile carries is what the store holds, as long as nobody else touches the
association (`Stage.Faithful`): each of its own writes gives it the stored association back. So when
it ends with nothing more to do, the association is dealt with (`Stage.Concludes`). -/

namespace ClusterLink

open Reconcile

/-- Nothing is left to be done for the association of a key, if there is one: it is on its way out
and the finalizer of the watches does not hold it back, or it is established. -/
def Cluster.DealtWith (c : Cluster) (key : Key) : Prop :=
  ∀ a, c.store.associations.find? key = some a →
    a.metadata.isBeingDeleted ∧ ¬a.metadata.hasFinalizer watchFinalizerName ∨
      a.status = .established

namespace Reconcile.Stage

variable {c c' : Cluster} {k : Key} {s s' : Stage} {a : Association}

/-- The association that a stage carries is the stored one, and a change of it that is still to be
written is not there yet. -/
def Faithful (k : Key) : Stage → Cluster → Prop
  | .fetch key, _ => key = k
  | .register a, c => c.store.associations.find? k = some a ∧
    ¬a.metadata.isBeingDeleted ∧ ¬a.metadata.hasFinalizer watchFinalizerName
  | .unwatchKibana key a, c | .unwatchElasticsearch key a, c => key = k ∧
    c.store.associations.find? k = some a ∧ a.metadata.isBeingDeleted ∧
      a.metadata.hasFinalizer watchFinalizerName
  | .release a, c => c.store.associations.find? k = some a ∧ a.metadata.isBeingDeleted ∧
    a.metadata.hasFinalizer watchFinalizerName
  | .watchElasticsearch a, c | .watchKibana a, c | .readElasticsearch a, c | .readUsers a _, c
  | .readCa a _ _, c | .readKibana a _, c | .configure a _, c =>
    c.store.associations.find? k = some a
  | .storeStatus a new _, c => c.store.associations.find? k = some a ∧ a.status ≠ new
  | .ended _, _ => True

/-- A stage depends on nothing but the association of its key. -/
theorem Faithful.congr (hs : s.Faithful k c)
    (h : c'.store.associations.find? k = c.store.associations.find? k) : s.Faithful k c' := by
  cases s <;> first | exact h.trans hs | exact hs | skip
  case register | release | storeStatus => exact ⟨h.trans hs.1, hs.2⟩
  case unwatchKibana | unwatchElasticsearch => exact ⟨hs.1, h.trans hs.2.1, hs.2.2⟩

theorem faithful_reported (h : c.store.associations.find? k = some a) (new : Status)
    (error : Option ReconcileError) : (reported a new error).Faithful k c := by
  unfold reported
  split
  next => trivial
  next hne => exact ⟨h, hne⟩

theorem faithful_opened (h : c.store.associations.find? k = some a) :
    (opened k a).Faithful k c := by
  unfold opened
  split
  next => trivial
  next =>
    split
    next hd =>
      split
      next hn => exact ⟨rfl, h, hd, hn⟩
      next => trivial
    next hd =>
      split
      next => exact h
      next hn => exact ⟨h, hd, hn⟩

theorem faithful_finalized
    (h : ¬a.metadata.isBeingDeleted → c.store.associations.find? k = some a) :
    (finalized a).Faithful k c := by
  unfold finalized
  split
  next => trivial
  next hlive => exact h hlive

theorem find?_putAssociation (h : ¬a.metadata.isGone) (c : Cluster) (key : Key)
    (writes : WriteCounts) :
    (c.putAssociation key a writes).store.associations.find? key = some a :=
  (Table.find?_put key key a).trans ((if_pos rfl).trans (if_neg h))

/-- What stands under a key after a write, if something does. -/
theorem eq_of_find?_putAssociation {b : Association} {writes : WriteCounts}
    (h : (c.putAssociation k a writes).store.associations.find? k = some b) : b = a := by
  replace h := (Table.find?_put k k a).symm.trans h
  rw [if_pos rfl] at h
  split at h
  next => cases h
  next => exact (Option.some.inj h).symm

theorem Step.faithful (h : Step s c s' c') (hkeyed : c.store.Keyed) (hs : s.Faithful k c) :
    s'.Faithful k c' := by
  cases h with
  | fetch _ ha =>
    obtain rfl := hs
    exact faithful_opened ha
  | fetchFails | registerFails | releaseFails | storeStatus | storeStatusFails => trivial
  | register | release =>
    refine faithful_finalized fun hlive => ?_
    rw [← hkeyed.associations hs.1]
    exact find?_putAssociation (fun hgone => hlive hgone.1) ..
  | unwatchKibana => exact hs
  | unwatchElasticsearch => exact hs.2
  | watchElasticsearch | watchKibana | readElasticsearch | readUsers | readCa | readKibana =>
    exact hs
  | _ =>
    refine faithful_reported ?_ ..
    exact hs

/-! ## The end -/

/-- A reconcile that ends with nothing more to do has dealt with the association, and the status
that it is about to store is one with which it does. -/
def Concludes (k : Key) : Stage → Cluster → Prop
  | .ended o, c => o.error = none → o.decision.isDone → c.DealtWith k
  | .storeStatus _ new error, _ =>
    error = none → (Decision.ofStatus new).isDone → new = .established
  | _, _ => True

theorem Concludes.congr (hs : s.Concludes k c)
    (h : c'.store.associations.find? k = c.store.associations.find? k) : s.Concludes k c' := by
  cases s <;> first | exact hs | skip
  case ended => exact fun he hd a ha => hs he hd a (h ▸ ha)

/-- Only an established association asks for nothing more. -/
theorem concludes_reported (ha : c.store.associations.find? k = some a) {new : Status}
    {error : Option ReconcileError}
    (h : error = none → (Decision.ofStatus new).isDone → new = .established) :
    (reported a new error).Concludes k c := by
  unfold reported
  split
  next hst =>
    intro he hd b hb
    obtain rfl : a = b := Option.some.inj (ha.symm.trans hb)
    exact .inr (hst.trans (h he hd))
  next => exact h

theorem concludes_opened (ha : c.store.associations.find? k = some a) :
    (opened k a).Concludes k c := by
  unfold opened
  split
  next => exact fun _ hd => nomatch hd
  next =>
    split
    next hd =>
      split
      next => trivial
      next hn =>
        intro _ _ b hb
        obtain rfl : a = b := Option.some.inj (ha.symm.trans hb)
        exact .inl ⟨hd, hn⟩
    next => split <;> trivial

theorem concludes_finalized (h : a.metadata.isBeingDeleted → c.DealtWith k) :
    (finalized a).Concludes k c := by
  unfold finalized
  split
  next hd => exact fun _ _ => h hd
  next => trivial

theorem not_hasFinalizer_unmarked (a stored : Association) :
    ¬((unmarked a).rewritten stored).metadata.hasFinalizer watchFinalizerName := by
  intro h
  have hmem : watchFinalizerName ∈ (unmarked a).metadata.finalizers := List.contains_iff_mem.1 h
  exact absurd rfl (bne_iff_ne.1 (List.mem_filter.1 hmem).2)

/-- No call lets a reconcile conclude what is not so, unless a fault makes the association look as
if it were not there. -/
theorem Step.concludes (h : Step s c s' c') (hkeyed : c.store.Keyed)
    (hfault : ∀ e, c.store.fault? .getAssociation = some e → ¬e.isNotFound)
    (hs : s.Faithful k c) (hc : s.Concludes k c) : s'.Concludes k c' := by
  cases h with
  | fetch _ ha =>
    obtain rfl := hs
    exact concludes_opened ha
  | fetchFails hr =>
    obtain rfl := hs
    rcases hr with hf | ⟨-, hn, rfl⟩
    · rw [if_neg (hfault _ hf)]
      exact fun he => nomatch he
    · exact fun _ _ a ha => nomatch hn.symm.trans ha
  | registerFails | releaseFails | storeStatusFails => exact fun he => nomatch he
  | @register _ a stored writes _ hacc =>
    obtain ⟨ha, hlive, -⟩ := hs
    obtain rfl := hkeyed.associations ha
    have hstored : c.store.associations.find? a.key = some stored := key_marked a ▸ hacc.1
    obtain rfl : a = stored := Option.some.inj (ha.symm.trans hstored)
    exact concludes_finalized fun hd => absurd hd hlive
  | @release _ a stored writes _ hacc =>
    obtain ⟨ha, -, -⟩ := hs
    obtain rfl := hkeyed.associations ha
    refine concludes_finalized fun hd b hb => ?_
    rw [eq_of_find?_putAssociation hb]
    exact .inl ⟨hd, not_hasFinalizer_unmarked a stored⟩
  | unwatchKibana | unwatchElasticsearch => trivial
  | watchElasticsearch | watchKibana | readElasticsearch | readUsers | readCa | readKibana =>
    trivial
  | @storeStatus _ a stored new error writes _ hacc =>
    obtain ⟨ha, -⟩ := hs
    obtain rfl := hkeyed.associations ha
    intro he hd b hb
    rw [eq_of_find?_putAssociation hb]
    exact .inr (hc he hd)
  | readElasticsearchMisses =>
    refine concludes_reported ?_ fun _ hd => absurd hd (by decide)
    exact hs
  | readKibanaSame | configure =>
    refine concludes_reported ?_ fun _ _ => rfl
    exact hs
  | _ =>
    refine concludes_reported ?_ fun he => absurd he (Option.some_ne_none _)
    exact hs

end Reconcile.Stage

end ClusterLink

import ClusterLink.Proofs.Cluster.Ownership
import ClusterLink.Proofs.Watch.Lifetime

/-! What a stored status describes. A reconcile computes a status from one copy of the association,
taken while the record was live, not paused, and held by the finalizer. Nobody else takes that
finalizer off, so until the status is written the record cannot go; all that others can do to it
raises its version. So the write, which is based on the version of the copy, meets the record as it
was copied, or fails. -/

namespace ClusterLink

open Reconcile

/-- An association as it was, or a later version of it. -/
def Association.Follows (new old : Association) : Prop :=
  new = old ∨ old.metadata.version.toNat < new.metadata.version.toNat

theorem Association.Follows.trans {a b c : Association} (h : c.Follows b) (h' : b.Follows a) :
    c.Follows a := by
  rcases h with rfl | h
  · exact h'
  · rcases h' with rfl | h'
    · exact .inr h
    · exact .inr (Nat.lt_trans h' h)

theorem Association.Follows.antisymm {a b : Association} (h : b.Follows a) (h' : a.Follows b) :
    b = a := by
  rcases h with h | h
  · exact h
  · rcases h' with h' | h'
    · exact h'.symm
    · exact absurd (Nat.lt_trans h h') (Nat.lt_irrefl _)

/-- A write that is accepted and based on an earlier version meets just that version. -/
theorem Association.Follows.eq_of_accepts {table : Table Association} {a b incoming : Association}
    (h : b.Follows a) (hpos : 0 < a.metadata.version.toNat)
    (hv : incoming.metadata.version = a.metadata.version) (ha : table.Accepts incoming b) :
    b = a := by
  rcases h with h | h
  · exact h
  · rcases ha.2 with h0 | heq
    · rw [← hv, show incoming.metadata.version = 0 from h0] at hpos
      exact absurd hpos (by decide)
    · rw [← hv, show incoming.metadata.version = b.metadata.version from heq] at h
      exact absurd h (Nat.lt_irrefl _)

/-- What stands under a key before and after a change that does not remove it. -/
theorem Store.Advances.follows {s s' : Store} (h : s.Advances s') (hn : s.Numbered)
    (hb : s'.log.size < 2 ^ 64) {key : Key} {a b : Association}
    (ha : s.associations.find? key = some a) (hb' : s'.associations.find? key = some b) :
    b.Follows a := by
  have hadv := h.associations key
  rw [ha, hb'] at hadv
  cases hadv with
  | same => exact .inl rfl
  | raised hsize _ hversion =>
    have hle := (hn.associations ha).le
    have hv := toNat_succ_of_lt hle (by omega)
    refine .inr ?_
    simp only [Resource.metadata] at hversion
    rw [hversion, hv]
    exact Nat.lt_succ_self _

/-- A record of which a status is to be computed: live, not paused, and held by the finalizer. -/
structure Cluster.Ready (c : Cluster) (key : Key) (a : Association) : Prop where
  stored : c.store.associations.find? key = some a
  live : ¬a.metadata.isBeingDeleted
  unpaused : ¬a.metadata.isPaused
  finalizer : watchFinalizerName ∈ a.metadata.finalizers

/-! ## Stages -/

namespace Reconcile.Stage

/-- The copy from which a status is computed. -/
def basis? : Stage → Option Association
  | .watchElasticsearch a | .watchKibana a | .readElasticsearch a | .readUsers a _
  | .readCa a _ _ | .readKibana a _ | .configure a _ | .storeStatus a _ _ => some a
  | .fetch _ | .register _ | .unwatchKibana .. | .unwatchElasticsearch .. | .release _
  | .ended _ => none

/-- A stage of reconciling a key whose association was not paused when it was read; a stage of its
removal comes only once deletion was asked for. -/
def Unpaused (k : Key) : Stage → Cluster → Prop
  | .fetch key, _ => key = k
  | .unwatchKibana _ a, c | .unwatchElasticsearch _ a, c | .release a, c =>
    a.key = k ∧ ¬a.metadata.isPaused ∧ c.Doomed k
  | .register a, _ | .watchElasticsearch a, _ | .watchKibana a, _ | .readElasticsearch a, _
  | .readUsers a _, _ | .readCa a _ _, _ | .readKibana a _, _ | .configure a _, _
  | .storeStatus a _ _, _ => a.key = k ∧ ¬a.metadata.isPaused
  | .ended _, _ => True

variable {c c' : Cluster} {j k : Key} {s s' : Stage} {a : Association}

theorem Unpaused.mono (h : s.Unpaused k c) (hd : c.Doomed k → c'.Doomed k) : s.Unpaused k c' := by
  cases s with
  | unwatchKibana | unwatchElasticsearch | release => exact ⟨h.1, h.2.1, hd h.2.2⟩
  | _ => exact h

theorem Unpaused.of_find? (h : s.Unpaused k c)
    (he : c'.store.associations.find? k = c.store.associations.find? k) : s.Unpaused k c' :=
  h.mono fun ⟨b, hb, hr⟩ => ⟨b, he.trans hb, hr⟩

theorem isPaused_rewritten (a stored : Association) :
    (a.rewritten stored).metadata.isPaused = a.metadata.isPaused := rfl

theorem unpaused_opened (ha : c.store.associations.find? k = some a) (hkey : a.key = k) :
    (opened k a).Unpaused k c := by
  unfold opened
  split
  next => trivial
  next hp =>
    split
    next hd =>
      split
      next hn => exact ⟨hkey, hp, a, ha, List.contains_iff_mem.1 hn, hd⟩
      next => trivial
    next => split <;> exact ⟨hkey, hp⟩

theorem unpaused_finalized (hkey : a.key = k) (hp : ¬a.metadata.isPaused) :
    (finalized a).Unpaused k c := by
  unfold finalized
  split
  · trivial
  · exact ⟨hkey, hp⟩

theorem unpaused_reported (hkey : a.key = k) (hp : ¬a.metadata.isPaused) (new : Status)
    (error : Option ReconcileError) : (reported a new error).Unpaused k c := by
  unfold reported
  split
  · trivial
  · exact ⟨hkey, hp⟩

theorem Step.unpaused (hc : c.store.Keyed) (hs : s.Unpaused k c) (h : Step s c s' c') :
    s'.Unpaused k c' := by
  cases h with
  | fetch _ ha =>
    obtain rfl := hs
    exact unpaused_opened ha (hc.associations ha)
  | fetchFails | registerFails | releaseFails | storeStatus | storeStatusFails => trivial
  | @register _ a stored _ _ ha =>
    refine unpaused_finalized ((hc.associations.key_rewritten ha).trans ?_) ?_
    · exact (key_marked a).trans hs.1
    · rw [isPaused_rewritten, isPaused_marked]
      exact hs.2
  | release _ ha => exact unpaused_finalized ((hc.associations.key_rewritten ha).trans hs.1) hs.2.1
  | unwatchKibana | unwatchElasticsearch => exact hs
  | watchElasticsearch | watchKibana | readElasticsearch | readUsers | readCa | readKibana =>
    exact hs
  | watchElasticsearchFails | watchKibanaFails | readElasticsearchMisses | readElasticsearchFails
  | readUsersMisses | readUsersFails | readCaFails | readKibanaSame | readKibanaFails | configure
  | configureFails => exact unpaused_reported hs.1 hs.2 ..

/-- A reconcile leaves the associations of other keys alone. -/
theorem Step.find?_of_ne (h : Step s c s' c') (hs : s.Unpaused k c) (hj : j ≠ k) :
    c'.store.associations.find? j = c.store.associations.find? j := by
  cases h with
  | register | release | storeStatus =>
    obtain ⟨rfl, -⟩ := hs
    exact Table.find?_put_of_ne hj _
  | _ => rfl

theorem basis?_reported {b : Association} {new : Status} {error : Option ReconcileError}
    (h : (reported a new error).basis? = some b) : a = b := by
  unfold reported at h
  split at h
  · cases h
  · exact Option.some.inj h

/-- The copy from which a status is computed was there before, or it is just stored. -/
theorem Step.basis (hs : s.Unpaused k c) (h : Step s c s' c') (hb : s'.basis? = some a) :
    s.basis? = some a ∨ s' = .watchElasticsearch a ∧ c'.Ready k a := by
  cases h with
  | @fetch _ _ b _ hfind =>
    obtain rfl := hs
    unfold opened at hb ⊢
    split at hb
    next => cases hb
    next hp =>
      rw [if_neg hp]
      split at hb
      next => split at hb <;> cases hb
      next hd =>
        rw [if_neg hd]
        split at hb
        next hn =>
          cases hb
          rw [if_pos hn]
          exact .inr ⟨rfl, hfind, hd, hp, List.contains_iff_mem.1 hn⟩
        next => cases hb
  | fetchFails | registerFails | releaseFails | storeStatus | storeStatusFails
  | unwatchKibana | unwatchElasticsearch => cases hb
  | @register _ b stored writes _ ha =>
    obtain ⟨rfl, hp⟩ := hs
    unfold finalized at hb ⊢
    split at hb
    next => cases hb
    next hd =>
      cases hb
      have hn : watchFinalizerName ∈ ((marked b).rewritten stored).metadata.finalizers :=
        mem_finalizers_marked b
      rw [if_neg hd]
      rw [← isPaused_marked] at hp
      exact .inr ⟨rfl, Table.find?_put_self hn _ _, hd, hp, hn⟩
  -- The record has a tombstone, so nothing is computed after its finalizer was taken off.
  | @release _ b stored _ _ ha =>
    obtain ⟨rfl, -, x, hx, -, hd⟩ := hs
    obtain rfl : x = stored := Option.some.inj (hx.symm.trans ha.1)
    have hd : ((unmarked b).rewritten x).metadata.isBeingDeleted = true := hd
    simp [finalized, hd, basis?] at hb
  | watchElasticsearch | watchKibana | readElasticsearch | readUsers | readCa | readKibana =>
    exact .inl hb
  | watchElasticsearchFails | watchKibanaFails | readElasticsearchMisses | readElasticsearchFails
  | readUsersMisses | readUsersFails | readCaFails | readKibanaSame | readKibanaFails | configure
  | configureFails => exact .inl (congrArg some (basis?_reported hb))

/-- While a status is computed the associations stay as they are, and the copy is kept until the
end. -/
theorem Step.computes (h : Step s c s' c') (hb : s.basis? = some a) :
    (∃ o, s' = .ended o) ∨
      s'.basis? = some a ∧ c'.store.associations = c.store.associations := by
  have reported : ∀ new error, (∃ o, reported a new error = .ended o) ∨
      (reported a new error).basis? = some a := by
    intro new error
    unfold Stage.reported
    split
    · exact .inl ⟨_, rfl⟩
    · exact .inr rfl
  cases h with
  | fetch | fetchFails | register | registerFails | release | releaseFails | unwatchKibana
  | unwatchElasticsearch => cases hb
  | storeStatus | storeStatusFails => exact .inl ⟨_, rfl⟩
  | watchElasticsearch | watchKibana | readElasticsearch | readUsers | readCa | readKibana =>
    exact .inr ⟨hb, rfl⟩
  | watchElasticsearchFails | watchKibanaFails | readElasticsearchMisses | readElasticsearchFails
  | readUsersMisses | readUsersFails | readCaFails | readKibanaSame | readKibanaFails | configure
  | configureFails =>
    cases hb
    exact (reported _ _).imp_right fun h => ⟨h, rfl⟩

end Reconcile.Stage

/-! ## Runs -/

namespace Traffic

/-- Any number of moves during which the reconcile of a key stays in flight. -/
abbrev Onward (key : Key) (t t' : Traffic) : Prop :=
  Relation.ReflTransGen (fun t t' => Move t t' ∧ (t'.flight key).isSome) t t'

/-- The reconcile of a key that is in flight computes its status from a copy: when it began to, the
copy was what is stored. -/
structure ComputedFrom (start : Traffic) (key : Key) (copy : Association) (t₀ t : Traffic) :
    Prop where
  run : Run start t₀
  onward : Onward key t₀ t
  flight : t₀.flight key =
    some ((Reconcile.status copy).bind fun r => Reconcile.storeStatus copy r.1 r.2)
  ready : t₀.cluster.Ready key copy

variable {start t t' t₀ : Traffic} {key : Key} {copy : Association}

theorem Onward.run (h : Onward key t t') : Run t t' :=
  Relation.ReflTransGen.mono (fun _ _ (hm : Move _ _ ∧ _) => hm.1) _ _ h

theorem Move.advances (h : Move t t') : t.cluster.store.Advances t'.cluster.store := by
  cases h with
  | edit e => exact t.cluster.store.edit_advances e
  | fault f => exact (Store.Called.same f).advances
  | start | leave => exact .refl _
  | @call key q => exact (t.cluster.answer_called q).advances

theorem Run.size_le (h : Run t t') : t.cluster.store.log.size ≤ t'.cluster.store.log.size := by
  induction h with
  | refl => exact Nat.le_refl _
  | tail _ hm ih => exact Nat.le_trans ih hm.advances.size

theorem unpaused_invariant : Invariant (fun c => c.store.Keyed) Stage.Unpaused where
  edit hc e := ⟨hc.edit e, fun hs => hs.mono (Cluster.Spares.edit _ e _).doomed⟩
  fault hc f := ⟨hc.withFaults f, fun hs => hs.of_find? rfl⟩
  start _ _ := rfl
  step hc hs h := ⟨hc.called h.called, h.unpaused hc hs,
    fun hj hr => hr.of_find? (h.find?_of_ne hs hj)⟩

/-- The stage at which a reconcile is in flight, with the beginning of what it computes. -/
structure Traced (start : Traffic) (key : Key) (s : Stage) (t : Traffic) : Prop where
  unpaused : s.Unpaused key t.cluster
  began : ∀ copy, s.basis? = some copy → ∃ t₀, ComputedFrom start key copy t₀ t

theorem Traced.tail {s : Stage} (h : Traced start key s t) (hm : Move t t')
    (hf : (t'.flight key).isSome) (hs : s.Unpaused key t'.cluster) : Traced start key s t' := by
  refine ⟨hs, fun copy hcopy => ?_⟩
  obtain ⟨t₀, ht₀⟩ := h.began copy hcopy
  exact ⟨t₀, { ht₀ with onward := ht₀.onward.tail ⟨hm, hf⟩ }⟩

/-- Of every reconcile in flight it is known how it came to what it computes from. -/
theorem Run.traced {c : Cluster} (hc : c.store.Keyed) (hr : Run (quiet c) t) :
    t.cluster.store.Keyed ∧ ∀ key p, t.flight key = some p →
      ∃ s : Stage, p = s.program ∧ Traced (quiet c) key s t := by
  have I := unpaused_invariant
  induction hr with
  | refl => exact ⟨hc, fun _ _ h => by cases h⟩
  | @tail t t' hr hm ih =>
    obtain ⟨hkeyed, hfl⟩ := ih
    have grow := fun {key p s} (hp : t'.flight key = some p) (hs : Traced (quiet c) key s t) =>
      hs.tail hm (Option.isSome_iff_exists.2 ⟨p, hp⟩)
    cases hm with
    | edit e =>
      refine ⟨(I.edit hkeyed e).1, fun key p hp => ?_⟩
      obtain ⟨s, rfl, hs⟩ := hfl key p hp
      exact ⟨s, rfl, grow hp hs ((I.edit hkeyed e).2 hs.unpaused)⟩
    | fault f =>
      refine ⟨(I.fault hkeyed f).1, fun key p hp => ?_⟩
      obtain ⟨s, rfl, hs⟩ := hfl key p hp
      exact ⟨s, rfl, grow hp hs ((I.fault hkeyed f).2 hs.unpaused)⟩
    | @start key h =>
      refine ⟨hkeyed, fun j p hp => ?_⟩
      by_cases hj : j = key
      · subst hj
        simp only [setFlight, if_pos, Option.some.injEq] at hp
        exact ⟨_, hp ▸ reconcile_eq_program j, I.start hkeyed j, fun _ h => by cases h⟩
      · obtain ⟨s, rfl, hs⟩ := hfl j p (by simpa [setFlight, hj] using hp)
        exact ⟨s, rfl, grow hp hs hs.unpaused⟩
    | @call key q next h =>
      obtain ⟨s, hs, htr⟩ := hfl key _ h
      obtain ⟨s', hs', hstep⟩ := Stage.step_of_program hs.symm t.cluster
      obtain ⟨hkeyed', hown, hothers⟩ := I.step hkeyed htr.unpaused hstep
      refine ⟨hkeyed', fun j p hp => ?_⟩
      by_cases hj : j = key
      · subst hj
        have hflight := hp
        simp only [setFlight, if_pos, Option.some.injEq] at hp
        refine ⟨s', hp ▸ hs', hown, fun copy hcopy => ?_⟩
        rcases hstep.basis htr.unpaused hcopy with hb | ⟨rfl, hready⟩
        · obtain ⟨t₀, ht₀⟩ := htr.began copy hb
          exact ⟨t₀, { ht₀ with onward := ht₀.onward.tail ⟨.call h, by simp [hflight]⟩ }⟩
        · refine ⟨_, hr.tail (.call h), .refl, ?_, hready⟩
          rw [hflight, ← hp, hs', Stage.program_watchElasticsearch]
      · obtain ⟨r, rfl, htr⟩ := hfl j p (by simpa [setFlight, hj] using hp)
        exact ⟨r, rfl, grow hp htr (hothers hj htr.unpaused)⟩
    | leave key =>
      refine ⟨hkeyed, fun j p hp => ?_⟩
      by_cases hj : j = key
      · simp [setFlight, hj] at hp
      · obtain ⟨s, rfl, hs⟩ := hfl j p (by simpa [setFlight, hj] using hp)
        exact ⟨s, rfl, grow hp hs hs.unpaused⟩

/-- A reconcile computes from a copy, and the record that its finalizer holds is `a` or a later
version of it. -/
def Computing (key : Key) (copy a : Association) (t : Traffic) : Prop :=
  (∃ s : Stage, t.flight key = some s.program ∧ s.basis? = some copy) ∧
    ∃ b, t.cluster.store.associations.find? key = some b ∧
      watchFinalizerName ∈ b.metadata.finalizers ∧ b.Follows a

/-- While a status is computed, the record stays and its version does not go back. -/
theorem Computing.move {a : Association} (h : Computing key copy a t) (hm : Move t t')
    (hf : (t'.flight key).isSome) (hu : t.Satisfies (fun c => c.store.Keyed) Stage.Unpaused)
    (hn : t.cluster.store.Numbered) (hb : t'.cluster.store.log.size < 2 ^ 64) :
    Computing key copy a t' ∨ ∃ o, t'.flight key = some (.done o) := by
  obtain ⟨⟨s, hs, hcopy⟩, b, hfind, hfin, hfollows⟩ := h
  have keep : t'.flight key = t.flight key →
      t'.cluster.store.associations.find? key = t.cluster.store.associations.find? key →
      Computing key copy a t' :=
    fun h h' => ⟨⟨s, h.trans hs, hcopy⟩, b, h'.trans hfind, hfin, hfollows⟩
  have hadv := hm.advances
  cases hm with
  | edit e =>
    obtain ⟨b', hfind', hfin'⟩ := (Cluster.Spares.edit t.cluster e key).marked ⟨b, hfind, hfin⟩
    exact .inl ⟨⟨s, hs, hcopy⟩, b', hfind', hfin',
      (hadv.follows hn hb hfind hfind').trans hfollows⟩
  | fault f => exact .inl (keep rfl rfl)
  | @start j hj =>
    refine .inl (keep ?_ rfl)
    have hne : key ≠ j := by
      rintro rfl
      cases hs.symm.trans hj
    simp [setFlight, hne]
  | @call j q next hj =>
    by_cases hkj : key = j
    · subst hkj
      obtain ⟨s', hs', hstep⟩ :=
        Stage.step_of_program (Option.some.inj (hs.symm.trans hj)) t.cluster
      rcases hstep.computes hcopy with ⟨o, rfl⟩ | ⟨hcopy', hsame⟩
      · exact .inr ⟨o, by simp [setFlight, hs']⟩
      · refine .inl ⟨⟨s', by simp [setFlight, hs'], hcopy'⟩, b, ?_, hfin, hfollows⟩
        exact (congrArg (Dict.find? · key) hsame).trans hfind
    · obtain ⟨r, hr, hunp⟩ := hu.2 j _ hj
      obtain ⟨r', -, hstep⟩ := Stage.step_of_program hr.symm t.cluster
      exact .inl (keep (by simp [setFlight, hkj]) (hstep.find?_of_ne hunp hkj))
  | leave j =>
    have hne : key ≠ j := by
      rintro rfl
      simp [setFlight] at hf
    exact .inl (keep (by simp [setFlight, hne]) rfl)

/-- A reconcile that has ended asks for nothing more. -/
theorem Onward.flight_of_done {o : Outcome} (h : Onward key t t')
    (hd : t.flight key = some (.done o)) : t'.flight key = some (.done o) := by
  induction h with
  | refl => exact hd
  | tail _ hm ih =>
    obtain ⟨hm, hf⟩ := hm
    cases hm with
    | edit | fault => exact ih
    | @start j hj =>
      have hne : key ≠ j := by
        rintro rfl
        cases ih.symm.trans hj
      simpa [setFlight, hne] using ih
    | @call j q next hj =>
      have hne : key ≠ j := by
        rintro rfl
        cases ih.symm.trans hj
      simpa [setFlight, hne] using ih
    | leave j =>
      have hne : key ≠ j := by
        rintro rfl
        simp [setFlight] at hf
      simpa [setFlight, hne] using ih

theorem Computing.onward {a : Association} {store : Store} {watches : Watches}
    {Allowed : Edit → Prop} (hs : store.Reachable Allowed) (hr : Run (quiet ⟨store, watches⟩) t)
    (h : Computing key copy a t) (ho : Onward key t t')
    (hb : t'.cluster.store.log.size < 2 ^ 64) :
    Computing key copy a t' ∨ ∃ o, t'.flight key = some (.done o) := by
  induction ho with
  | refl => exact .inl h
  | @tail t₁ t₂ ho hm ih =>
    have hr₁ := hr.trans (Onward.run ho)
    have hb₁ := Nat.lt_of_le_of_lt hm.1.advances.size hb
    rcases ih hb₁ with h | ⟨o, h⟩
    · have hn := (copy_invariant.run (.quiet ⟨hs.keyed, hs.numbered⟩) hr₁).1.2 hb₁
      have hu := unpaused_invariant.run (.quiet hs.keyed) hr₁
      exact h.move hm.1 hm.2 hu hn hb
    · exact .inr ⟨o, Onward.flight_of_done (.single hm) h⟩

/-- A status that a reconcile writes was computed from a copy. The write succeeds only if the record
is still that copy, so that the status stands with the spec it was computed from; if the record has
changed at any time since it was copied, the write fails, leaves the associations as they are, and
ends the reconcile with its error and another try after ten seconds. -/
theorem status_stored_with_its_copy {Allowed : Edit → Prop} {store : Store} {watches : Watches}
    {t : Traffic} (hs : store.Reachable Allowed) (hr : Run (quiet ⟨store, watches⟩) t)
    (hb : t.cluster.store.log.size < 2 ^ 64) {key : Key} {written : Association}
    {next : Except StoreError Association → Calls Outcome}
    (hf : t.flight key = some (.ask (.updateAssociationStatus written) next)) :
    ∃ t₀ copy, ComputedFrom (quiet ⟨store, watches⟩) key copy t₀ t ∧
      written = { copy with status := written.status } ∧
      (∀ new, (t.cluster.answer (.updateAssociationStatus written)).1 = .ok new →
        t.cluster.store.associations.find? key = some copy ∧
        new = { copy with
          metadata := { copy.metadata with version := copy.metadata.version + 1 }
          status := written.status } ∧
        (t.cluster.answer (.updateAssociationStatus written)).2.store.associations.find? key =
          some new) ∧
      ∀ t₁, Onward key t₀ t₁ → Onward key t₁ t →
        t₁.cluster.store.associations.find? key ≠ some copy →
        ∃ e, (t.cluster.answer (.updateAssociationStatus written)).1 = .error e ∧
          (t.cluster.answer (.updateAssociationStatus written)).2.store.associations =
            t.cluster.store.associations ∧
          next (.error e) = .done (.failed (.afterDelay (.ofSeconds 10)) (.store e)) := by
  obtain ⟨s, hp, htr⟩ := (Run.traced hs.keyed hr).2 key _ hf
  obtain ⟨next', hv, hnext⟩ := Stage.view_of_program_eq_ask hp.symm
  cases s with
  | storeStatus a new error =>
    cases hv
    obtain ⟨t₀, ht₀⟩ := htr.began a rfl
    -- While the reconcile asks, it has not ended, and so the record follows every earlier one.
    have computing : ∀ {b t₁}, Run (quiet ⟨store, watches⟩) t₁ → Computing key a b t₁ →
        Onward key t₁ t → Computing key a b t := by
      intro b t₁ hr₁ h ho
      rcases h.onward hs hr₁ ho hb with h | ⟨o, ho⟩
      · exact h
      · cases hf.symm.trans ho
    have hstart : Computing key a a t₀ :=
      ⟨⟨.watchElasticsearch a, by rw [ht₀.flight, Stage.program_watchElasticsearch], rfl⟩, a,
        ht₀.ready.stored, ht₀.ready.finalizer, .inl rfl⟩
    have hb₀ := Nat.lt_of_le_of_lt (Run.size_le (Onward.run ht₀.onward)) hb
    have hn₀ := (copy_invariant.run (.quiet ⟨hs.keyed, hs.numbered⟩) ht₀.run).1.2 hb₀
    have hpos := (hn₀.associations ht₀.ready.stored).pos
    have hkey : a.key = key := htr.unpaused.1
    obtain ⟨b, hfind, hfin, hfollows⟩ := (computing ht₀.run hstart ht₀.onward).2
    refine ⟨t₀, a, ht₀, rfl, ?_⟩
    simp only [Cluster.answer, Cluster.withStore]
    rcases t.cluster.store.updateAssociationStatus_cases { a with status := new } with
      ⟨e, f, he, -⟩ | ⟨stored, w, -, hacc, hok⟩
    · rw [he]
      refine ⟨fun _ h => (by cases h), fun t₁ _ _ _ => ⟨e, rfl, rfl, ?_⟩⟩
      rw [hnext]
      exact Stage.program_ended _
    · rw [hok]
      have hstored : t.cluster.store.associations.find? key = some stored := hkey ▸ hacc.1
      obtain rfl : b = stored := Option.some.inj (hfind.symm.trans hstored)
      obtain rfl : b = a := hfollows.eq_of_accepts hpos rfl hacc
      refine ⟨fun _ h => ?_, fun t₁ h₀ h₁ hne => ?_⟩
      · cases h
        exact ⟨hfind, rfl, hkey ▸ Table.find?_put_self hfin _ _⟩
      -- The record has changed and is a later version by now, so the write was not accepted.
      · have hr₁ := ht₀.run.trans (Onward.run h₀)
        have hb₁ := Nat.lt_of_le_of_lt (Run.size_le (Onward.run h₁)) hb
        rcases hstart.onward hs ht₀.run h₀ hb₁ with ⟨hs₁, c, hc, hfinc, hcb⟩ | ⟨o, ho⟩
        · have h : Computing key b c t₁ := ⟨hs₁, c, hc, hfinc, .inl rfl⟩
          obtain ⟨d, hd, -, hdc⟩ := (computing hr₁ h h₁).2
          obtain rfl : b = d := Option.some.inj (hfind.symm.trans hd)
          exact absurd (hdc.antisymm hcb ▸ hc) hne
        · cases hf.symm.trans (h₁.flight_of_done ho)
  | ended o => cases hv
  | _ => cases hv

/-- An association is annotated after a reconcile has put the finalizer on it, and before the status
is written: the write fails. -/
theorem status_refused_after_annotation :
    let a : Association := ⟨.new ⟨"ns", "a"⟩, ⟨⟨"ns", "es"⟩, ⟨"ns", "kb"⟩⟩, .unknown⟩
    let t₀ : Traffic := ⟨(Cluster.new 4).edit (.apply (.association a)), fun _ => none⟩
    let t₁ := (t₀.setFlight a.key (some (reconcile a.key))).turns a.key 2
    let edited : Association := { a with metadata := a.metadata.annotate "owner" "team-b" }
    let t₂ : Traffic := { t₁ with cluster := t₁.cluster.edit (.apply (.association edited)) }
    let t := t₂.turns a.key 3
    ∃ written next, t.flight a.key = some (.ask (.updateAssociationStatus written) next) ∧
      ∃ e, (t.cluster.answer (.updateAssociationStatus written)).1 = .error e ∧
        next (.error e) = .done (.failed (.afterDelay (.ofSeconds 10)) (.store e)) := by
  intro a t₀ t₁ edited t₂ t
  have h₁ : Run (quiet ⟨.new 4, .empty⟩) t₁ :=
    .trans (.tail (.single (.edit (.apply (.association a)))) (.start rfl)) (run_turns ..)
  have hr : Run (quiet ⟨.new 4, .empty⟩) t := .trans (.tail h₁ (.edit _)) (run_turns ..)
  have hs : (Store.new 4).Reachable Edit.IsPlain := .new 4
  have hf : ∃ written next,
      t.flight a.key = some (.ask (.updateAssociationStatus written) next) ∧
        written.metadata.version = 2 := by
    simp only [t, t₂, edited, t₁, t₀, a]
    exact ⟨_, _, rfl, by decide⟩
  obtain ⟨written, next, hf, hv⟩ := hf
  obtain ⟨t', copy, hcopy, hw, -, hchanged⟩ :=
    status_stored_with_its_copy hs hr (by decide) hf
  have hst : (t.cluster.store.associations.find? a.key).map (·.metadata.version) = some 3 := by
    decide
  have hne : t.cluster.store.associations.find? a.key ≠ some copy := by
    intro h
    rw [h, Option.map_some, ← show written.metadata = copy.metadata by rw [hw], hv] at hst
    exact absurd hst (by decide)
  obtain ⟨e, he, -, hnext⟩ := hchanged t hcopy.onward .refl hne
  exact ⟨written, next, hf, e, he, hnext⟩

end Traffic

end ClusterLink

import ClusterLink.Proofs.Cluster.Traffic
import ClusterLink.Proofs.Store.Reachable
import ClusterLink.Proofs.Watch.Registry

/-! Watches do not outlive their association. A reconcile adds a watch only while the association is
stored with the finalizer, and takes the finalizer off only after both watches are gone. What it has
seen stays true while others work: nobody else takes the finalizer off, brings the association back
from its deletion, or adds a watch for it. -/

namespace ClusterLink

open Reconcile

namespace Cluster

/-- The association is stored with the finalizer of its watches. -/
def Marked (c : Cluster) (key : Key) : Prop :=
  ∃ a, c.store.associations.find? key = some a ∧ watchFinalizerName ∈ a.metadata.finalizers

/-- The association is stored with the finalizer of its watches and with a tombstone. -/
def Doomed (c : Cluster) (key : Key) : Prop :=
  ∃ a, c.store.associations.find? key = some a ∧
    watchFinalizerName ∈ a.metadata.finalizers ∧ a.metadata.isBeingDeleted

/-- No watch of a side concerns the key. -/
def Unwatched (c : Cluster) (side : Side) (key : Key) : Prop :=
  ∀ name w, (c.watches.get side).find? name = some w → w.watcher ≠ key

/-- Every watch stands under the name that its watcher gives it, and its watcher is stored with the
finalizer. -/
structure Tended (c : Cluster) : Prop where
  keyed : c.store.associations.Keyed
  named : ∀ ⦃side name w⦄, (c.watches.get side).find? name = some w →
    name = side.watchName w.watcher
  marked : ∀ ⦃side name w⦄, (c.watches.get side).find? name = some w → c.Marked w.watcher

/-- What has been seen of an association stays true. -/
structure Spares (key : Key) (c c' : Cluster) : Prop where
  marked : c.Marked key → c'.Marked key
  doomed : c.Doomed key → c'.Doomed key
  unwatched : ∀ side, c.Unwatched side key → c'.Unwatched side key

variable {c c' : Cluster} {key : Key}

theorem Spares.of_find? (h : c'.store.associations.find? key = c.store.associations.find? key)
    (hw : ∀ side, c.Unwatched side key → c'.Unwatched side key) : Spares key c c' where
  marked := fun ⟨a, ha, hn⟩ => ⟨a, h.trans ha, hn⟩
  doomed := fun ⟨a, ha, hn⟩ => ⟨a, h.trans ha, hn⟩
  unwatched := hw

theorem Spares.refl (c : Cluster) (key : Key) : Spares key c c := ⟨id, id, fun _ => id⟩

theorem Spares.of_eq (ha : c'.store.associations = c.store.associations)
    (hw : c'.watches = c.watches) : Spares key c c' :=
  .of_find? (congrArg (Dict.find? · key) ha) fun _ h => by rwa [Unwatched, hw]

theorem Tended.of_eq (hc : c.Tended) (ha : c'.store.associations = c.store.associations)
    (hw : c'.watches = c.watches) : c'.Tended where
  keyed := ha ▸ hc.keyed
  named _ _ _ h := hc.named (hw ▸ h)
  marked _ _ _ h := (Spares.of_eq ha hw).marked (hc.marked (hw ▸ h))

theorem Spares.edit (c : Cluster) (e : Edit) (key : Key) : Spares key c (c.edit e) := by
  have hed := (c.store.edit_editedAt e key).association
  refine ⟨?_, ?_, fun _ h => h⟩
  · rintro ⟨a, ha, hn⟩
    rw [ha] at hed
    generalize hnew : (c.store.edit e).associations.find? key = new at hed
    cases hed with
    | same => exact ⟨a, hnew, hn⟩
    | replaced => exact ⟨_, hnew, hn⟩
    | removed hf => simp [hf] at hn
    | doomed => exact ⟨_, hnew, hn⟩
  · rintro ⟨a, ha, hn, hd⟩
    rw [ha] at hed
    generalize hnew : (c.store.edit e).associations.find? key = new at hed
    cases hed with
    | same => exact ⟨a, hnew, hn, hd⟩
    | @replaced incoming _ =>
      refine ⟨_, hnew, hn, ?_⟩
      simp only [Metadata.isBeingDeleted] at hd
      simp [Table.replaced, Metadata.isBeingDeleted, Resource.metadata, Resource.withMetadata, hd]
    | removed hf => simp [hf] at hn
    | doomed _ hlive => exact absurd hd hlive

theorem Tended.edit (hc : c.Tended) (e : Edit) : (c.edit e).Tended where
  keyed key a ha :=
    (c.store.edit_editedAt e key).association.keyed (fun _ h => hc.keyed h) a ha
  named := hc.named
  marked _ _ _ hw := (Spares.edit c e _).marked (hc.marked hw)

/-! ## Writes of associations -/

theorem Spares.putAssociation (c : Cluster) {place : Key} (h : key ≠ place) (a : Association)
    (writes : WriteCounts) : Spares key c (c.putAssociation place a writes) :=
  .of_find? (Table.find?_put_of_ne h a) fun _ h => h

theorem marked_putAssociation (c : Cluster) {a : Association}
    (h : watchFinalizerName ∈ a.metadata.finalizers) (key : Key) (writes : WriteCounts) :
    (c.putAssociation key a writes).Marked key :=
  ⟨a, c.store.associations.find?_put_self h key, h⟩

/-- A write keeps the registries in order if it leaves the finalizer, or if nothing watches on
behalf of the association. -/
theorem Tended.putAssociation (hc : c.Tended) {a : Association} (ha : a.key = key)
    (h : watchFinalizerName ∈ a.metadata.finalizers ∨ ∀ side, c.Unwatched side key)
    (writes : WriteCounts) : (c.putAssociation key a writes).Tended where
  keyed := hc.keyed.put ha
  named := hc.named
  marked side name w hw := by
    by_cases e : w.watcher = key
    · rcases h with h | h
      · exact e ▸ c.marked_putAssociation h key writes
      · exact absurd e (h side name w hw)
    · exact (Spares.putAssociation c e a writes).marked (hc.marked hw)

/-! ## Writes of registries -/

/-- After a name was erased, every watch is an old one of another name. -/
theorem old_of_erase {other : Side} {name n : String} {w : Watch}
    (hw : ((c.setRegistry side ((c.watches.get side).erase name)).watches.get other).find? n =
      some w) : (c.watches.get other).find? n = some w ∧ (other = side → n ≠ name) := by
  by_cases e : other = side
  · subst e
    simp only [setRegistry, Watches.get_set_self, Dict.find?_erase] at hw
    split at hw
    next => cases hw
    next hn => exact ⟨hw, fun _ e => hn (e ▸ Std.ReflCmp.compare_self)⟩
  · rw [setRegistry, Watches.get_set_of_ne _ e] at hw
    exact ⟨hw, fun h => absurd h e⟩

theorem Unwatched.erase (h : c.Unwatched side key) (other : Side) (name : String) :
    (c.setRegistry other ((c.watches.get other).erase name)).Unwatched side key :=
  fun n w hw => h n w (old_of_erase hw).1

/-- Erasing the watch of a name leaves none that concerns the key which gave the name. -/
theorem Tended.unwatched_erase (hc : c.Tended) (side : Side) (key : Key) :
    (c.setRegistry side ((c.watches.get side).erase (side.watchName key))).Unwatched side key := by
  rintro n w hw rfl
  obtain ⟨hold, hne⟩ := old_of_erase hw
  exact hne rfl (hc.named hold)

theorem Tended.erase (hc : c.Tended) (side : Side) (name : String) :
    (c.setRegistry side ((c.watches.get side).erase name)).Tended where
  keyed := hc.keyed
  named _ _ _ hw := hc.named (old_of_erase hw).1
  marked _ _ _ hw := hc.marked (old_of_erase hw).1

/-- After a watch was added, every watch is an old one or this one. -/
theorem eq_or_of_add {r : Registry} {w : Watch} (hr : (c.watches.get side).add w = .ok r)
    {other : Side} {name : String} {v : Watch}
    (hv : ((c.setRegistry side r).watches.get other).find? name = some v) :
    (c.watches.get other).find? name = some v ∨ other = side ∧ name = w.name ∧ v = w := by
  by_cases e : other = side
  · subst e
    rw [setRegistry, Watches.get_set_self, (Registry.complete_of_add hr).2, Dict.find?_insert] at hv
    split at hv
    next hn =>
      cases hv
      exact .inr ⟨rfl, Std.LawfulEqCmp.eq_of_compare hn, rfl⟩
    next => exact .inl hv
  · rw [setRegistry, Watches.get_set_of_ne _ e] at hv
    exact .inl hv

theorem unwatched_add {r : Registry} {w : Watch} (hr : (c.watches.get side).add w = .ok r)
    (hw : w.watcher ≠ key) {other : Side} (h : c.Unwatched other key) :
    (c.setRegistry side r).Unwatched other key := by
  intro name v hv
  rcases eq_or_of_add hr hv with hv | ⟨-, -, rfl⟩
  · exact h name v hv
  · exact hw

theorem Tended.add (hc : c.Tended) {r : Registry} {w : Watch}
    (hr : (c.watches.get side).add w = .ok r) (hn : w.name = side.watchName w.watcher)
    (hm : c.Marked w.watcher) : (c.setRegistry side r).Tended where
  keyed := hc.keyed
  named other name v hv := by
    rcases eq_or_of_add hr hv with hv | ⟨rfl, rfl, rfl⟩
    · exact hc.named hv
    · exact hn
  marked other name v hv := by
    rcases eq_or_of_add hr hv with hv | ⟨-, -, rfl⟩
    · exact hc.marked hv
    · exact hm

end Cluster

/-! ## What a reconcile knows -/

namespace Reconcile.Stage

/-- What a reconcile of a key has made sure of when it comes to a stage. -/
def Secured (k : Key) : Stage → Cluster → Prop
  | .fetch key, _ => key = k
  | .register a, _ => a.key = k
  | .unwatchKibana key a, c => key = k ∧ a.key = k ∧ c.Doomed k
  | .unwatchElasticsearch key a, c => key = k ∧ a.key = k ∧ c.Doomed k ∧ c.Unwatched .kibana k
  | .release a, c => a.key = k ∧ c.Doomed k ∧ ∀ side, c.Unwatched side k
  | .watchElasticsearch a, c | .watchKibana a, c | .readElasticsearch a, c | .readUsers a _, c
  | .readCa a _ _, c | .readKibana a _, c | .configure a _, c | .storeStatus a _ _, c =>
    a.key = k ∧ c.Marked k
  | .ended _, _ => True

variable {c c' : Cluster} {j k : Key} {s s' : Stage} {a : Association}

theorem Secured.mono (h : s.Secured k c) (hs : Cluster.Spares k c c') : s.Secured k c' := by
  cases s with
  | fetch key => exact h
  | register a => exact h
  | unwatchKibana key a => exact ⟨h.1, h.2.1, hs.doomed h.2.2⟩
  | unwatchElasticsearch key a => exact ⟨h.1, h.2.1, hs.doomed h.2.2.1, hs.unwatched _ h.2.2.2⟩
  | release a => exact ⟨h.1, hs.doomed h.2.1, fun side => hs.unwatched side (h.2.2 side)⟩
  | ended o => trivial
  | _ => exact ⟨h.1, hs.marked h.2⟩

theorem secured_opened (hc : c.Tended) (ha : c.store.associations.find? k = some a) :
    (opened k a).Secured k c := by
  have hkey : a.key = k := hc.keyed ha
  unfold opened
  split
  next => trivial
  next =>
    split
    next hd =>
      split
      next hn => exact ⟨rfl, hkey, a, ha, List.contains_iff_mem.1 hn, hd⟩
      next => trivial
    next =>
      split
      next hn => exact ⟨hkey, a, ha, List.contains_iff_mem.1 hn⟩
      next => exact hkey

theorem secured_finalized (ha : a.key = k) (h : ¬a.metadata.isBeingDeleted → c.Marked k) :
    (finalized a).Secured k c := by
  unfold finalized
  split
  next => trivial
  next hlive => exact ⟨ha, h hlive⟩

theorem secured_reported (ha : a.key = k) (h : c.Marked k) (new : Status)
    (error : Option ReconcileError) : (reported a new error).Secured k c := by
  unfold reported
  split
  · trivial
  · exact ⟨ha, h⟩

/-- What a call of a reconcile does to the registries, to what it has made sure of, and to what the
others have. -/
theorem Step.tended (hc : c.Tended) (hs : s.Secured k c) (h : Step s c s' c') :
    c'.Tended ∧ s'.Secured k c' ∧ ∀ ⦃j⦄, j ≠ k → Cluster.Spares j c c' := by
  cases h with
  | fetch _ ha =>
    obtain rfl := hs
    exact ⟨hc, secured_opened hc ha, fun _ _ => .refl _ _⟩
  | fetchFails | registerFails | releaseFails | storeStatusFails =>
    exact ⟨hc.of_eq rfl rfl, trivial, fun _ _ => .of_eq rfl rfl⟩
  | @register _ a stored writes _ ha =>
    obtain rfl := hs
    have hkey : ((marked a).rewritten stored).key = a.key :=
      (hc.keyed.key_rewritten ha).trans (key_marked a)
    have hn : watchFinalizerName ∈ ((marked a).rewritten stored).metadata.finalizers :=
      mem_finalizers_marked a
    exact ⟨hc.putAssociation hkey (.inl hn) writes,
      secured_finalized hkey fun _ => Cluster.marked_putAssociation c hn a.key writes,
      fun _ hj => .putAssociation c hj ..⟩
  | unwatchKibana =>
    obtain ⟨rfl, ha, hd⟩ := hs
    exact ⟨hc.erase .kibana _, ⟨rfl, ha, hd, hc.unwatched_erase .kibana _⟩,
      fun _ _ => .of_find? rfl fun _ hu => hu.erase _ _⟩
  | unwatchElasticsearch =>
    obtain ⟨rfl, ha, hd, hk⟩ := hs
    refine ⟨hc.erase .elasticsearch _, ⟨ha, hd, fun side => ?_⟩,
      fun _ _ => .of_find? rfl fun _ hu => hu.erase _ _⟩
    cases side with
    | elasticsearch => exact hc.unwatched_erase .elasticsearch _
    | kibana => exact hk.erase _ _
  -- Only here is the finalizer taken off, and both watches are gone by now.
  | @release _ a stored writes _ ha =>
    obtain ⟨rfl, ⟨b, hb, -, hd⟩, hu⟩ := hs
    obtain rfl : b = stored := Option.some.inj (hb.symm.trans ha.1)
    have hkey : ((unmarked a).rewritten b).key = a.key := hc.keyed.key_rewritten ha
    exact ⟨hc.putAssociation hkey (.inr hu) writes, secured_finalized hkey fun hl => absurd hd hl,
      fun _ hj => .putAssociation c hj ..⟩
  | watchElasticsearch hr =>
    obtain ⟨rfl, hm⟩ := hs
    exact ⟨hc.add hr rfl hm, ⟨rfl, hm⟩,
      fun _ hj => .of_find? rfl fun _ hu => Cluster.unwatched_add hr hj.symm hu⟩
  | watchKibana hr =>
    obtain ⟨rfl, hm⟩ := hs
    exact ⟨hc.add hr rfl hm, ⟨rfl, hm⟩,
      fun _ hj => .of_find? rfl fun _ hu => Cluster.unwatched_add hr hj.symm hu⟩
  | readElasticsearch | readUsers | readCa | readKibana =>
    exact ⟨hc, hs, fun _ _ => .refl _ _⟩
  | watchElasticsearchFails | watchKibanaFails | readElasticsearchMisses | readElasticsearchFails
  | readUsersMisses | readUsersFails | readCaFails | readKibanaSame | readKibanaFails | configure
  | configureFails =>
    refine ⟨hc.of_eq rfl rfl, secured_reported hs.1 ?_ .., fun _ _ => .of_eq rfl rfl⟩
    exact (Cluster.Spares.of_eq rfl rfl).marked hs.2
  | @storeStatus _ a stored new error writes _ ha =>
    obtain ⟨rfl, b, hb, hn⟩ := hs
    obtain rfl : b = stored := Option.some.inj (hb.symm.trans ha.1)
    have hkey : (Association.restated { a with status := new } b).key = a.key :=
      hc.keyed.key_restated ha
    exact ⟨hc.putAssociation hkey (.inl hn) writes, trivial, fun _ hj => .putAssociation c hj ..⟩

end Reconcile.Stage

namespace Traffic

theorem watch_invariant : Invariant Cluster.Tended Stage.Secured where
  edit hc e := ⟨hc.edit e, fun hs => hs.mono (.edit _ e _)⟩
  fault hc _ := ⟨hc.of_eq rfl rfl, fun hs => hs.mono (.of_eq rfl rfl)⟩
  start _ _ := rfl
  step hc hs h :=
    have ⟨hc', hs', hj⟩ := Stage.Step.tended hc hs h
    ⟨hc', hs', fun hne hr => hr.mono (hj hne)⟩

/-- A move changes the watches or the associations, but not both. -/
theorem Move.watches_eq_or {t t' : Traffic} (h : Move t t') :
    t'.cluster.watches = t.cluster.watches ∨
      t'.cluster.store.associations = t.cluster.store.associations := by
  cases h with
  | edit | fault | start | leave => exact .inl rfl
  | @call key q =>
    cases q with
    | addWatch side watch =>
      refine .inr ?_
      simp only [setFlight, Cluster.answer]
      split <;> rfl
    | removeWatch => exact .inr rfl
    | _ => exact .inl rfl

variable {Allowed : Edit → Prop} {store : Store} {t : Traffic}

theorem tended_of_run (hs : store.Reachable Allowed) (hr : Run (quiet ⟨store, .empty⟩) t) :
    t.cluster.Tended := by
  refine (watch_invariant.run (.quiet ⟨hs.keyed.associations, ?_, ?_⟩) hr).1
  all_goals exact fun side _ _ h => by cases side <;> cases h

/-- At any time every watch belongs to an association that is stored with the finalizer, and no move
removes a record or takes that finalizer off it while there is a watch that belongs to it. -/
theorem watchers_stored (hs : store.Reachable Allowed) (hr : Run (quiet ⟨store, .empty⟩) t) :
    (∀ side, ∀ w ∈ (t.cluster.watches.get side).registrations,
      ∃ a, t.cluster.store.associations.find? w.watcher = some a ∧ a.key = w.watcher ∧
        watchFinalizerName ∈ a.metadata.finalizers) ∧
    ∀ t', Move t t' → ∀ key a, t.cluster.store.associations.find? key = some a →
      (t'.cluster.store.associations.find? key = none ∨
        watchFinalizerName ∈ a.metadata.finalizers ∧
          ∃ b, t'.cluster.store.associations.find? key = some b ∧
            watchFinalizerName ∉ b.metadata.finalizers) →
      ∀ side, ∀ w ∈ (t.cluster.watches.get side).registrations, w.watcher ≠ key := by
  have hc := tended_of_run hs hr
  refine ⟨fun side w hw => ?_, fun t' hm key a ha hlost side w hw => ?_⟩
  · obtain ⟨name, hname⟩ := (Dict.mem_values_iff _ w).1 hw
    obtain ⟨a, ha, hn⟩ := hc.marked hname
    exact ⟨a, ha, hc.keyed ha, hn⟩
  · rintro rfl
    obtain ⟨name, hname⟩ := (Dict.mem_values_iff _ w).1 hw
    have hc' := tended_of_run hs (hr.tail hm)
    -- The watch is still there after the move, so the association is too.
    have kept : t'.cluster.Marked w.watcher := by
      rcases hm.watches_eq_or with e | e
      · exact hc'.marked (e ▸ hname)
      · obtain ⟨b, hb, hn⟩ := hc.marked hname
        exact ⟨b, (congrArg (Dict.find? · _) e).trans hb, hn⟩
    obtain ⟨b, hb, hn⟩ := kept
    rcases hlost with h | ⟨-, b', hb', hn'⟩
    · exact nomatch h.symm.trans hb
    · cases hb.symm.trans hb'
      exact hn' hn

/-- Four calls into the first reconcile of an association, both watches are there, and so is it. -/
theorem watchers_stored_of_first_reconcile :
    let a : Association := ⟨.new ⟨"ns", "a"⟩, ⟨⟨"ns", "es"⟩, ⟨"ns", "kb"⟩⟩, .unknown⟩
    let t₀ : Traffic := ⟨(Cluster.new 4).edit (.apply (.association a)), fun _ => none⟩
    let t := (t₀.setFlight a.key (some (reconcile a.key))).turns a.key 4
    (∀ side, (t.cluster.watches.get side).registrations.map Watch.watcher = [a.key]) ∧
      ∃ b, t.cluster.store.associations.find? a.key = some b ∧ b.key = a.key ∧
        watchFinalizerName ∈ b.metadata.finalizers := by
  intro a t₀ t
  have hr : Run (quiet (Cluster.new 4)) t :=
    .trans (.tail (.single (.edit (.apply (.association a)))) (.start rfl)) (run_turns ..)
  have hm := (watchers_stored (.new 4 : Store.Reachable Edit.IsPlain _) hr).1 .kibana
    ⟨"ns-a-kb-watch", ⟨"ns", "kb"⟩, ⟨"ns", "a"⟩⟩ (by decide)
  exact ⟨fun side => by cases side <;> decide, hm⟩

end Traffic

end ClusterLink

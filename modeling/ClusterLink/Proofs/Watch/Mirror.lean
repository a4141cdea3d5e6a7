import Mathlib.Data.List.Sort
import ClusterLink.Proofs.Reconcile.Current
import ClusterLink.Proofs.Reconcile.Footprint
import ClusterLink.Proofs.Watch.Lifetime

/-! The registries mirror the associations. After an association was reconciled its watches are
there (`Stage.Enlisting`), and they stay until a reconcile of another association with the same
names for its watches. So the watchers of an object are the associations that name it, as long as no
two associations share the name of a watch. -/

namespace ClusterLink

open Reconcile

/-- The object of a side that an association names. -/
def Association.partner (a : Association) : Side → Key
  | .elasticsearch => a.spec.elasticsearch
  | .kibana => a.spec.kibana

/-- An association that is to have both its watches. -/
structure Association.IsActive (a : Association) : Prop where
  paused : ¬a.metadata.isPaused
  deleted : ¬a.metadata.isBeingDeleted
  key : a.key.isComplete
  elasticsearch : a.spec.elasticsearch.isComplete
  kibana : a.spec.kibana.isComplete

instance (a : Association) : Decidable a.IsActive :=
  decidable_of_iff (¬a.metadata.isPaused ∧ ¬a.metadata.isBeingDeleted ∧ a.key.isComplete ∧
      a.spec.elasticsearch.isComplete ∧ a.spec.kibana.isComplete)
    ⟨fun ⟨hp, hd, hk, he, hb⟩ => ⟨hp, hd, hk, he, hb⟩, fun h => ⟨h.1, h.2, h.3, h.4, h.5⟩⟩

theorem Watch.isComplete_nameFor {owner watched watcher : Key} {kind : String}
    (hwatched : watched.isComplete) (hwatcher : watcher.isComplete) :
    Watch.isComplete ⟨Watch.nameFor owner kind, watched, watcher⟩ := by
  simp [Watch.isComplete, Watch.nameFor, hwatched, hwatcher]

namespace Cluster

/-- Both watches of an association are there if neither is refused. -/
def Enlisted (c : Cluster) (k : Key) (a : Association) : Prop :=
  a.elasticsearchWatch.isComplete → a.kibanaWatch.isComplete →
    ∀ side, c.Registered side k (a.partner side)

/-- The association that is stored under a key has its watches, unless it is paused or deleted. -/
def EnlistedAt (c : Cluster) (k : Key) : Prop :=
  ∀ a, c.store.associations.find? k = some a → ¬a.metadata.isPaused →
    ¬a.metadata.isBeingDeleted → c.Enlisted k a

end Cluster

/-! ## A reconcile adds the watches -/

namespace Reconcile.Stage

variable {c c' : Cluster} {k : Key} {s s' : Stage} {a : Association}

/-- The association of a key is stored just as the copy says. -/
structure Stored (k : Key) (a : Association) (c : Cluster) : Prop where
  found : c.store.associations.find? k = some a
  key : a.key = k

/-- What a reconcile of a key that runs alone has done about the watches. -/
def Enlisting (k : Key) : Stage → Cluster → Prop
  | .fetch key, _ => key = k
  | .register a, c | .watchElasticsearch a, c => Stored k a c
  | .unwatchKibana _ a, c | .unwatchElasticsearch _ a, c | .release a, c =>
    Stored k a c ∧ a.metadata.isBeingDeleted
  | .watchKibana a, c => Stored k a c ∧ c.Registered .elasticsearch k a.spec.elasticsearch
  | .readElasticsearch a, c | .readUsers a _, c | .readCa a _ _, c | .readKibana a _, c
  | .configure a _, c | .storeStatus a _ _, c => Stored k a c ∧ c.Enlisted k a
  | .ended _, c => c.EnlistedAt k

theorem Stored.enlistedAt (h : Stored k a c)
    (ha : ¬a.metadata.isPaused → ¬a.metadata.isBeingDeleted → c.Enlisted k a) : c.EnlistedAt k := by
  intro b hb hp hd
  obtain rfl : a = b := Option.some.inj (h.found.symm.trans hb)
  exact ha hp hd

theorem enlisting_reported (h : Stored k a c ∧ c.Enlisted k a)
    (ha : c'.store.associations = c.store.associations) (hw : c'.watches = c.watches)
    (new : Status) (error : Option ReconcileError) : (reported a new error).Enlisting k c' := by
  obtain ⟨⟨hst, hkey⟩, he⟩ := h
  have hst' : Stored k a c' := ⟨ha ▸ hst, hkey⟩
  have he' : c'.Enlisted k a := by
    intro hes hkb side
    rw [Cluster.Registered, hw]
    exact he hes hkb side
  unfold reported
  split
  · exact hst'.enlistedAt fun _ _ => he'
  · exact ⟨hst', he'⟩

theorem enlisting_opened (h : Stored k a c) : (opened k a).Enlisting k c := by
  unfold opened
  split
  next hp => exact h.enlistedAt fun hp' => absurd hp hp'
  next =>
    split
    next hd =>
      split
      next => exact ⟨h, hd⟩
      next => exact h.enlistedAt fun _ hd' => absurd hd hd'
    next =>
      split
      next => exact h
      next => exact h

theorem enlisting_finalized (h : Stored k a c) : (finalized a).Enlisting k c := by
  unfold finalized
  split
  next hd => exact h.enlistedAt fun _ hd' => absurd hd hd'
  next => exact h

/-- What a write leaves of an association, if it leaves anything. -/
theorem enlistedAt_putAssociation {b : Association} {writes : WriteCounts}
    (hb : ¬b.metadata.isBeingDeleted → (c.putAssociation k b writes).Enlisted k b) :
    (c.putAssociation k b writes).EnlistedAt k := by
  intro x hx _ hd
  have hput : (c.putAssociation k b writes).store.associations.find? k =
      if b.metadata.isGone then none else some b := (Table.find?_put ..).trans (if_pos rfl)
  rw [hx] at hput
  split at hput
  next => cases hput
  next =>
    cases hput
    exact hb hd

theorem Step.enlisting (h : Step s c s' c') (hkeyed : c.store.Keyed) (hcalm : c.Calm)
    (hs : s.Enlisting k c) : s'.Enlisting k c' := by
  cases h with
  | fetch _ ha =>
    obtain rfl := hs
    exact enlisting_opened ⟨ha, hkeyed.associations ha⟩
  | fetchFails hr =>
    obtain rfl := hs
    have hnone := (calm_readFails hcalm hr).1
    exact fun a ha => nomatch hnone.symm.trans ha
  | @register _ a stored writes _ ha =>
    obtain ⟨-, rfl⟩ := hs
    have hn : watchFinalizerName ∈ ((marked a).rewritten stored).metadata.finalizers :=
      mem_finalizers_marked a
    exact enlisting_finalized ⟨c.store.associations.find?_put_self hn _,
      (hkeyed.associations.key_rewritten ha).trans (key_marked a)⟩
  | @registerFails _ a _ _ hr =>
    obtain ⟨hst, rfl⟩ := hs
    exact absurd hr (calm_not_writeFails hcalm hst (key_marked a) (version_marked a))
  | unwatchKibana => exact ⟨⟨hs.1.found, hs.1.key⟩, hs.2⟩
  | unwatchElasticsearch => exact ⟨⟨hs.1.found, hs.1.key⟩, hs.2⟩
  | @release _ a stored writes _ ha =>
    obtain ⟨⟨hst, rfl⟩, hd⟩ := hs
    obtain rfl : a = stored := Option.some.inj (hst.symm.trans ha.1)
    have hd' : ((unmarked a).rewritten a).metadata.isBeingDeleted := hd
    rw [finalized, if_pos hd']
    exact enlistedAt_putAssociation fun hlive => absurd hd' hlive
  | releaseFails hr =>
    obtain ⟨⟨hst, rfl⟩, -⟩ := hs
    exact absurd hr (calm_not_writeFails hcalm hst rfl rfl)
  | @watchElasticsearch _ a r hr =>
    obtain ⟨hst, rfl⟩ := hs
    obtain rfl := (Registry.complete_of_add hr).2
    exact ⟨⟨hst, rfl⟩, Dict.find?_insert_self ..⟩
  | @watchElasticsearchFails _ a e hr =>
    have hw : ¬a.elasticsearchWatch.isComplete := Registry.incomplete_of_add hr
    exact enlisting_reported ⟨hs, fun hw' => absurd hw' hw⟩ rfl rfl ..
  | @watchKibana _ a r hr =>
    obtain ⟨⟨hst, rfl⟩, he⟩ := hs
    obtain rfl := (Registry.complete_of_add hr).2
    refine ⟨⟨hst, rfl⟩, fun _ _ side => ?_⟩
    cases side with
    | elasticsearch => exact he
    | kibana => exact Dict.find?_insert_self ..
  | @watchKibanaFails _ a e hr =>
    have hw : ¬a.kibanaWatch.isComplete := Registry.incomplete_of_add hr
    exact enlisting_reported ⟨hs.1, fun _ hw' => absurd hw' hw⟩ rfl rfl ..
  | readElasticsearch | readUsers | readCa | readKibana => exact hs
  | readElasticsearchMisses | readElasticsearchFails | readUsersMisses | readUsersFails
  | readCaFails | readKibanaSame | readKibanaFails | configure | configureFails =>
    refine enlisting_reported hs ?_ ?_ _ _
    · rfl
    · rfl
  | @storeStatus _ a stored new error writes _ ha =>
    obtain ⟨⟨hst, rfl⟩, he⟩ := hs
    obtain rfl : a = stored := Option.some.inj (hst.symm.trans ha.1)
    exact enlistedAt_putAssociation fun _ => he
  | storeStatusFails hr =>
    obtain ⟨⟨hst, rfl⟩, -⟩ := hs
    exact absurd hr (calm_not_writeFails hcalm hst rfl rfl)

end Reconcile.Stage

/-! ## Edits and undisturbed reconciles -/

/-- An edit from outside, or a reconcile with nothing in between. -/
inductive Act where
  | edit (e : Edit)
  | reconcile (key : Key)

/-- Whether an act is an edit of the association under a key. -/
def Act.Edits (key : Key) : Act → Prop
  | .edit (.apply (.association a)) => a.key = key
  | .edit (.delete .association _ place) => place = key
  | _ => False

instance (key : Key) : DecidablePred (Act.Edits key)
  | .edit (.apply (.association a)) => inferInstanceAs (Decidable (a.key = key))
  | .edit (.delete .association _ place) => inferInstanceAs (Decidable (place = key))
  | .edit (.apply (.elasticsearch _)) | .edit (.apply (.kibana _)) | .edit (.apply (.secret _))
  | .edit (.delete .elasticsearch ..) | .edit (.delete .kibana ..) | .edit (.delete .secret ..)
  | .reconcile _ => isFalse id

/-- An association was reconciled and not edited since. -/
def Act.UpToDate (key : Key) (acts : List Act) : Prop :=
  ∃ before after, acts = before ++ .reconcile key :: after ∧ ∀ act ∈ after, ¬act.Edits key

namespace Cluster

def act (c : Cluster) : Act → Cluster
  | .edit e => c.edit e
  | .reconcile key => ((ClusterLink.reconcile key).alone c).2

def acts (c : Cluster) (l : List Act) : Cluster := l.foldl act c

/-- The keys under which an association is stored at some time. -/
def everStored (c : Cluster) : List Act → List Key
  | [] => c.store.associations.keys
  | a :: l => c.store.associations.keys ++ (c.act a).everStored l

/-- After the acts every stored association is to have its watches, and is up to date. -/
def SettledBy (c : Cluster) (l : List Act) : Prop :=
  ∀ key a, (c.acts l).store.associations.find? key = some a → a.IsActive ∧ Act.UpToDate key l

/-- The watchers of every object are the associations that name it, in increasing order. -/
def Mirrors (c : Cluster) : Prop :=
  ∀ side watched, (c.watches.get side).watchersOf watched =
    (c.store.associations.entries.filter fun e => e.2.partner side = watched).map Prod.fst

/-- What every act keeps. -/
structure Sane (c : Cluster) : Prop where
  tended : c.Tended
  keyed : c.store.Keyed
  calm : c.Calm

variable {c c' : Cluster} {k : Key}

theorem Sane.reconcile (h : c.Sane) (key : Key) :
    ((ClusterLink.reconcile key).alone c).2.Sane ∧
      ((ClusterLink.reconcile key).alone c).2.EnlistedAt key := by
  let Holds (s : Stage) (c : Cluster) : Prop := c.Sane ∧ s.Secured key c ∧ s.Enlisting key c
  rw [reconcile_eq_program]
  have hend := Stage.alone_ended (s := .fetch key) (c := c) ?_ (show Holds _ _ from ⟨h, rfl, rfl⟩)
  · exact ⟨hend.1, hend.2.2⟩
  · rintro s c call next hv ⟨⟨htended, hkeyed, hcalm⟩, hsec, hen⟩
    have hstep := Stage.step_of_view hv c
    obtain ⟨htended', hsec', -⟩ := hstep.tended htended hsec
    exact ⟨⟨htended', hkeyed.called hstep.called, hcalm.answer call⟩, hsec',
      hstep.enlisting hkeyed hcalm hen⟩

theorem Sane.act (h : c.Sane) (a : Act) : (c.act a).Sane := by
  cases a with
  | edit e =>
    refine ⟨h.tended.edit e, h.keyed.edit e, fun op => ?_⟩
    exact (congrFun (c.store.edit_fault? e) op).trans (h.calm op)
  | reconcile key => exact (h.reconcile key).1

theorem Sane.acts (h : c.Sane) (l : List Act) : (c.acts l).Sane := by
  induction l generalizing c with
  | nil => exact h
  | cons a l ih => exact ih (h.act a)

/-! ## Watches stay -/

theorem find?_edit {e : Edit} (h : ¬(Act.edit e).Edits k) :
    (c.edit e).store.associations.find? k = c.store.associations.find? k := by
  cases e with
  | apply o =>
    cases o with
    | association a => exact (Table.find?_apply ..).trans (if_neg fun hk => h hk.symm)
    | elasticsearch | kibana | secret => rfl
  | delete kind now place =>
    cases kind with
    | association => exact c.store.find?_deleteAssociation_of_ne now fun hk => h hk.symm
    | elasticsearch | kibana | secret =>
      simp only [Cluster.edit, Store.edit, Store.deleteElasticsearch, Store.deleteKibana,
        Store.deleteSecret]
      split <;> rfl

theorem EnlistedAt.mono (h : c.EnlistedAt k)
    (ha : c'.store.associations.find? k = c.store.associations.find? k)
    (hw : (c.store.associations.find? k).isSome → ∀ side, (c'.watches.get side).find?
      (side.watchName k) = (c.watches.get side).find? (side.watchName k)) : c'.EnlistedAt k := by
  intro a hst hp hd hes hkb side
  have hst : c.store.associations.find? k = some a := ha ▸ hst
  exact (hw (by rw [hst]; rfl) side).trans (h a hst hp hd hes hkb side)

theorem mem_everStored {l : List Act} (h : (c.store.associations.find? k).isSome) :
    k ∈ c.everStored l := by
  have hk := (Dict.mem_keys ..).2 h
  cases l with
  | nil => exact hk
  | cons a l => exact List.mem_append_left _ hk

theorem acts_append (c : Cluster) (before after : List Act) :
    c.acts (before ++ after) = (c.acts before).acts after := List.foldl_append ..

theorem mem_everStored_append {before after : List Act}
    (h : k ∈ (c.acts before).everStored after) : k ∈ c.everStored (before ++ after) := by
  induction before generalizing c with
  | nil => exact h
  | cons a before ih => exact List.mem_append_right _ (ih h)

/-- An act that does not edit the association itself leaves its watches. -/
theorem Sane.enlistedAt_act (h : c.Sane) (hk : c.EnlistedAt k) {a : Act} (he : ¬a.Edits k)
    (hn : Side.NamesApart fun key => (c.store.associations.find? key).isSome) :
    (c.act a).EnlistedAt k := by
  cases a with
  | edit e => exact hk.mono (find?_edit he) fun _ _ => rfl
  | reconcile j =>
    by_cases hj : k = j
    · exact hj ▸ (h.reconcile k).2
    · have hagree := agree_alone h.keyed h.calm j
      refine hk.mono (hagree.entry (.association k) hj).symm fun hst side => ?_
      refine (hagree.entry (.watch side (side.watchName k)) ?_).symm
      rintro ⟨hst', hname⟩
      exact hj (hn side k j hst hst' hname)

theorem Sane.enlistedAt_acts (h : c.Sane) (hk : c.EnlistedAt k) {l : List Act}
    (he : ∀ a ∈ l, ¬a.Edits k) (hn : Side.NamesApart fun key => key ∈ c.everStored l) :
    (c.acts l).EnlistedAt k := by
  induction l generalizing c with
  | nil => exact hk
  | cons a l ih =>
    have hstored : Side.NamesApart fun key => (c.store.associations.find? key).isSome :=
      fun side i j hi hj => hn side i j (mem_everStored hi) (mem_everStored hj)
    refine ih (h.act a) (h.enlistedAt_act hk (he a List.mem_cons_self) hstored)
      (fun b hb => he b (List.mem_cons_of_mem _ hb)) fun side i j hi hj => ?_
    exact hn side i j (List.mem_append_right _ hi) (List.mem_append_right _ hj)

theorem Sane.enlistedAt_of_upToDate (h : c.Sane) {l : List Act} (hu : Act.UpToDate k l)
    (hn : Side.NamesApart fun key => key ∈ c.everStored l) : (c.acts l).EnlistedAt k := by
  obtain ⟨before, after, rfl, he⟩ := hu
  have hb := h.acts before
  obtain ⟨hr, hk⟩ := hb.reconcile k
  have hafter : c.acts (before ++ .reconcile k :: after) =
      ((c.acts before).act (.reconcile k)).acts after := acts_append ..
  rw [hafter]
  refine hr.enlistedAt_acts hk he fun side i j hi hj => hn side i j ?_ ?_
  · exact mem_everStored_append (List.mem_append_right _ hi)
  · exact mem_everStored_append (List.mem_append_right _ hj)

/-! ## The law -/

theorem registered_of_isActive (h : c.EnlistedAt k) {a : Association}
    (ha : c.store.associations.find? k = some a) (hactive : a.IsActive) (side : Side) :
    c.Registered side k (a.partner side) := by
  refine h a ha hactive.paused hactive.deleted ?_ ?_ side
  · exact Watch.isComplete_nameFor hactive.elasticsearch hactive.key
  · exact Watch.isComplete_nameFor hactive.kibana hactive.key

theorem mem_partners {side : Side} {watched : Key} :
    k ∈ (c.store.associations.entries.filter fun e => e.2.partner side = watched).map Prod.fst ↔
      ∃ a, c.store.associations.find? k = some a ∧ a.partner side = watched := by
  simp [Dict.mem_entries_iff]

instance : Std.Irrefl fun a b : Key => compare a b = .lt where
  irrefl a h := by simp [Std.ReflCmp.compare_self] at h

instance : Std.Antisymm fun a b : Key => compare a b = .lt where
  antisymm a b h h' := by
    have hlt := Std.TransCmp.lt_trans h h'
    simp [Std.ReflCmp.compare_self] at hlt

theorem Tended.mirrors (ht : c.Tended) (h : ∀ k a, c.store.associations.find? k = some a →
    ∀ side, c.Registered side k (a.partner side)) : c.Mirrors := by
  intro side watched
  have hl : ((c.watches.get side).watchersOf watched).Pairwise fun a b => compare a b = .lt :=
    List.pairwise_map.2 (Dict.sorted _)
  have hr : ((c.store.associations.entries.filter
      fun e => e.2.partner side = watched).map Prod.fst).Pairwise fun a b => compare a b = .lt :=
    List.pairwise_map.2 (c.store.associations.sorted.filter _)
  refine hl.eq_of_mem_iff hr fun k => ?_
  rw [Registry.mem_watchersOf, mem_partners]
  constructor
  · rintro ⟨name, w, hw, rfl, rfl⟩
    obtain rfl := ht.named hw
    obtain ⟨a, ha, -⟩ := ht.marked hw
    have hsame : w = ⟨side.watchName w.watcher, a.partner side, w.watcher⟩ :=
      Option.some.inj (hw.symm.trans (h _ a ha side))
    exact ⟨a, ha, (congrArg Watch.watched hsame).symm⟩
  · rintro ⟨a, ha, rfl⟩
    exact ⟨_, _, h k a ha side, rfl, rfl⟩

theorem Tended.namesApart (ht : c.Tended) (h : c.Mirrors) :
    Side.NamesApart fun key => (c.store.associations.find? key).isSome := by
  have hwatch : ∀ side k, (c.store.associations.find? k).isSome →
      ∃ w, (c.watches.get side).find? (side.watchName k) = some w ∧ w.watcher = k := by
    intro side k hk
    obtain ⟨a, ha⟩ := Option.isSome_iff_exists.1 hk
    have hmem : k ∈ (c.watches.get side).watchersOf (a.partner side) := by
      rw [h]
      exact mem_partners.2 ⟨a, ha, rfl⟩
    obtain ⟨name, w, hw, -, rfl⟩ := Registry.mem_watchersOf.1 hmem
    obtain rfl := ht.named hw
    exact ⟨w, hw, rfl⟩
  intro side j k hj hk hname
  obtain ⟨v, hv, rfl⟩ := hwatch side j hj
  obtain ⟨w, hw, rfl⟩ := hwatch side k hk
  rw [hname, hw] at hv
  cases hv
  rfl

/-- Where no two associations share the name of a watch, the registries mirror the associations that
are up to date; and they mirror them only where no two of those that are stored share one. -/
theorem mirrors_of_settled {s : Store} (hs : s.Reachable Allowed) {l : List Act} :
    let c := (Cluster.mk s .empty).calm
    c.SettledBy l →
      ((Side.NamesApart fun key => key ∈ c.everStored l) → (c.acts l).Mirrors) ∧
      ((c.acts l).Mirrors →
        Side.NamesApart fun key => ((c.acts l).store.associations.find? key).isSome) := by
  intro c hsettled
  have hsane : c.Sane := by
    refine ⟨⟨hs.keyed.associations, ?_, ?_⟩, hs.keyed.withFaults _, Cluster.calm_calm _⟩
    all_goals exact fun side _ _ h => by cases side <;> cases h
  have htended := (hsane.acts l).tended
  refine ⟨fun hn => htended.mirrors fun k a ha side => ?_, htended.namesApart⟩
  obtain ⟨hactive, hu⟩ := hsettled k a ha
  exact registered_of_isActive (hsane.enlistedAt_of_upToDate hu hn) ha hactive side

/-- An association moves from one cluster to another, and the registries follow. -/
theorem mirrors_of_moved :
    let a : Key := ⟨"ns", "a"⟩
    let b : Key := ⟨"ns", "b"⟩
    let apply (key : Key) (es : String) : Act :=
      .edit (.apply (.association ⟨.new key, ⟨⟨"ns", es⟩, ⟨"ns", "kb"⟩⟩, .unknown⟩))
    let l := [apply a "es1", apply b "es1", .reconcile a, .reconcile b, apply a "es2",
      .reconcile a]
    let c := (Cluster.mk (Store.new 4) .empty).calm
    (c.acts l).Mirrors ∧ (c.acts l).watches.elasticsearch.watchersOf ⟨"ns", "es1"⟩ = [b] ∧
      (c.acts l).watches.elasticsearch.watchersOf ⟨"ns", "es2"⟩ = [a] := by
  intro a b apply l c
  have hsettled : c.SettledBy l := by
    have hactive : ∀ e ∈ (c.acts l).store.associations.entries,
        e.2.IsActive ∧ (e.1 = a ∨ e.1 = b) := by decide
    intro key assoc hk
    obtain ⟨hassoc, rfl | rfl⟩ := hactive (key, assoc) ((Dict.mem_entries_iff ..).2 hk)
    · exact ⟨hassoc, l.take 5, [], rfl, fun _ h => nomatch h⟩
    · refine ⟨hassoc, l.take 3, l.drop 4, rfl, ?_⟩
      decide
  have hnames : ∀ side : Side, ∀ i ∈ c.everStored l, ∀ j ∈ c.everStored l,
      side.watchName i = side.watchName j → i = j := fun side => by cases side <;> decide
  have hmirrors := (mirrors_of_settled (.new 4 : Store.Reachable Edit.IsPlain _) hsettled).1
    fun side i j hi hj => hnames side i hi j hj
  exact ⟨hmirrors, by decide, by decide⟩

/-- The watches of two associations bear one name, so the second reconcile replaces those of the
first, and a change of the cluster concerns the second association alone. -/
theorem mirror_lost :
    let a : Key := ⟨"a", "b-c"⟩
    let b : Key := ⟨"a-b", "c"⟩
    let apply (key : Key) : Act :=
      .edit (.apply (.association ⟨.new key, ⟨⟨"ns", "es1"⟩, ⟨"ns", "kb1"⟩⟩, .unknown⟩))
    let l := [apply b, apply a, .reconcile b, .reconcile a]
    let c := (Cluster.mk (Store.new 4) .empty).calm
    c.SettledBy l ∧ (c.acts l).watches.elasticsearch.watchersOf ⟨"ns", "es1"⟩ = [a] ∧
      ¬(c.acts l).Mirrors := by
  intro a b apply l c
  refine ⟨?_, by decide, fun h => absurd (h .elasticsearch ⟨"ns", "es1"⟩) (by decide)⟩
  have hactive : ∀ e ∈ (c.acts l).store.associations.entries,
      e.2.IsActive ∧ (e.1 = a ∨ e.1 = b) := by decide
  intro key assoc hk
  obtain ⟨hassoc, rfl | rfl⟩ := hactive (key, assoc) ((Dict.mem_entries_iff ..).2 hk)
  · exact ⟨hassoc, l.take 3, [], rfl, fun _ h => nomatch h⟩
  · refine ⟨hassoc, l.take 2, l.drop 3, rfl, ?_⟩
    decide

end Cluster

end ClusterLink

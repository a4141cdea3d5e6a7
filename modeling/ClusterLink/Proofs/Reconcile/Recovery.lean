import ClusterLink.Proofs.Cluster.Content
import Mathlib.Logic.Relation

/-! A reconcile makes up for those before it that failed or were dropped. `Stage.Known` says what a
reconcile knows at each stage while nobody else writes; from it every call, whether it succeeds or
fails, leaves what reconciling the key brings about as it was (`Stage.Step.known`). So after any
number of halfway reconciles one that runs through arrives where it would have from the start. -/

namespace ClusterLink

open Reconcile

namespace Cluster

/-- No fault waits for any call. -/
def Calm (c : Cluster) : Prop := ∀ op, c.store.fault? op = none

/-- The cluster without the faults that wait. -/
def calm (c : Cluster) : Cluster := c.withFaults fun _ => none

theorem calm_calm (c : Cluster) : c.calm.Calm := fun _ => rfl

theorem Calm.fault?_ne {c : Cluster} (h : c.Calm) {op : Operation} {e : StoreError} :
    c.store.fault? op ≠ some e :=
  fun hf => nomatch (h op).symm.trans hf

/-- A write that fails on a calm cluster is one that the store does not accept. -/
theorem Calm.not_accepts {R : Type} [Resource R] {c : Cluster} (h : c.Calm) {op : Operation}
    {t : Table R} {incoming : R} {e : StoreError} (hr : c.store.WriteFails op t incoming e)
    (stored : R) : ¬t.Accepts incoming stored := by
  rcases hr with hf | ⟨-, hno⟩
  · exact absurd hf h.fault?_ne
  · exact hno stored

theorem Calm.answer {c : Cluster} (h : c.Calm) (q : Call) : (c.answer q).2.Calm := by
  intro op
  cases q with
  | addWatch side watch =>
    simp only [Cluster.answer]
    split <;> exact h op
  | removeWatch side name => exact h op
  | getAssociation | getElasticsearch | getKibana | getSecret =>
    simp only [Cluster.answer, withStore, Store.getAssociation, Store.getElasticsearch,
      Store.getKibana, Store.getSecret, Store.unlessFault, h _]
  | updateAssociation | updateAssociationStatus | updateKibana =>
    simp only [Cluster.answer, withStore, Store.updateAssociation, Store.updateAssociationStatus,
      Store.updateKibana, Store.unlessFault, h _]
    split <;> exact h op

end Cluster

/-! ## Copies without versions -/

theorem unversioned_marked (a : Association) :
    ((marked a).rewritten a).unversioned = marked a.unversioned := by
  unfold marked Metadata.addFinalizer
  split
  next h => rw [if_pos (show a.unversioned.metadata.hasFinalizer _ from h)]; rfl
  next h => rw [if_neg (show ¬a.unversioned.metadata.hasFinalizer _ from h)]; rfl

namespace Reconcile.Stage

variable {c c' : Cluster} {k : Key} {s s' : Stage} {a : Association} {clean : Prop}

/-- A live association with its finalizer, stored just as the copy says. -/
structure Live (k : Key) (a : Association) (c : Cluster) : Prop where
  stored : c.store.associations.find? k = some a
  key : a.key = k
  paused : ¬a.metadata.isPaused
  deleted : ¬a.metadata.isBeingDeleted
  named : a.metadata.hasFinalizer watchFinalizerName

/-- An association with tombstone and finalizer, stored just as the copy says. -/
structure Leaving (k : Key) (a : Association) (c : Cluster) : Prop where
  stored : c.store.associations.find? k = some a
  key : a.key = k
  paused : ¬a.metadata.isPaused
  deleted : a.metadata.isBeingDeleted
  named : a.metadata.hasFinalizer watchFinalizerName

/-- Both watches of an association are there. -/
structure Watched (a : Association) (c : Cluster) : Prop where
  elasticsearch : a.elasticsearchWatch.isComplete
  kibana : a.kibanaWatch.isComplete
  elasticsearch_stored : c.watches.elasticsearch.find? a.elasticsearchWatch.name =
    some a.elasticsearchWatch
  kibana_stored : c.watches.kibana.find? a.kibanaWatch.name = some a.kibanaWatch

/-- The status is the right one, and nothing but the status is still to be written. -/
structure Reached (a : Association) (new : Status) (c : Cluster) : Prop where
  status : c.content.status a = new
  kibana : ∀ kb, c.content.configured? a = some kb → c.content.kibanas a.spec.kibana = some kb
  watches : c.watches.tend a = c.watches

/-- What a reconcile of a key knows at a stage while nobody else writes. That it ends up with all
done is known if it is `clean`: if it meets no faults. -/
def Known (clean : Prop) (k : Key) : Stage → Cluster → Prop
  | .fetch key, _ => key = k
  | .register a, c => c.store.associations.find? k = some a ∧ a.key = k ∧ ¬a.metadata.isPaused ∧
      ¬a.metadata.isBeingDeleted
  | .unwatchKibana key a, c => key = k ∧ Leaving k a c
  | .unwatchElasticsearch key a, c => key = k ∧ Leaving k a c ∧
      c.watches.kibana.find? (Watch.kibanaName k) = none
  | .release a, c => Leaving k a c ∧ c.watches.kibana.find? (Watch.kibanaName k) = none ∧
      c.watches.elasticsearch.find? (Watch.elasticsearchName k) = none
  | .watchElasticsearch a, c => Live k a c
  | .watchKibana a, c => Live k a c ∧ a.elasticsearchWatch.isComplete ∧
      c.watches.elasticsearch.find? a.elasticsearchWatch.name = some a.elasticsearchWatch
  | .readElasticsearch a, c => Live k a c ∧ Watched a c
  | .readUsers a es, c => Live k a c ∧ Watched a c ∧
      c.store.elasticsearches.find? a.spec.elasticsearch = some es
  | .readCa a es password, c => Live k a c ∧ Watched a c ∧
      c.store.elasticsearches.find? a.spec.elasticsearch = some es ∧
      ∃ users, c.store.secrets.find? es.usersSecret = some users ∧
        users.text? Elasticsearch.kibanaUser = some password
  | .readKibana a expected, c => Live k a c ∧ Watched a c ∧ c.content.backend? a = some expected
  | .configure a kb, c => Live k a c ∧ Watched a c ∧ ∃ stored expected,
      c.store.kibanas.find? a.spec.kibana = some stored ∧
      c.content.backend? a = some expected ∧ kb = stored.withBackend expected
  | .storeStatus a new _, c => Live k a c ∧ (clean → Reached a new c)
  | .ended _, c => clean → c.content.reconciled k = c.content

theorem Live.reconciled (h : Live k a c) :
    c.content.reconciled k = c.content.established a.unversioned := by
  have ha : c.content.associations k = some a.unversioned :=
    congrArg (Option.map Association.unversioned) h.stored
  rw [Content.reconciled_of_live ha h.paused h.deleted]
  exact congrArg _ (marked_of_hasFinalizer (a := a.unversioned) h.named)

theorem Reached.reconciled (h : Live k a c) (hr : Reached a a.status c) :
    c.content.reconciled k = c.content := by
  have ha : c.content.associations a.key = some a.unversioned :=
    h.key ▸ congrArg (Option.map Association.unversioned) h.stored
  rw [h.reconciled]
  exact Content.established_eq_self ha hr.status hr.kibana hr.watches

theorem Leaving.reconciled (h : Leaving k a c) :
    c.content.reconciled k = c.content.released a.unversioned := by
  have ha : c.content.associations k = some a.unversioned :=
    congrArg (Option.map Association.unversioned) h.stored
  simp only [Content.reconciled, ha]
  exact ((if_neg h.paused).trans (if_pos h.deleted)).trans (if_pos h.named)

theorem Watched.tend (h : Watched a c) : c.watches.tend a = c.watches :=
  Watches.tend_eq_self h.elasticsearch h.elasticsearch_stored fun _ => h.kibana_stored

/-! ## What follows an answer -/

theorem known_reported (h : Live k a c) {new : Status} (hr : clean → Reached a new c)
    (error : Option ReconcileError) : (reported a new error).Known clean k c := by
  unfold reported
  split
  next hs => exact fun hx => (hs ▸ hr hx).reconciled h
  next => exact ⟨h, hr⟩

theorem known_opened (ha : c.store.associations.find? k = some a) (hkey : a.key = k) :
    (opened k a).Known clean k c := by
  have hc : c.content.associations k = some a.unversioned :=
    congrArg (Option.map Association.unversioned) ha
  unfold opened
  split
  next hp =>
    intro _
    simp only [Content.reconciled, hc]
    exact if_pos hp
  next hp =>
    split
    next hd =>
      split
      next hn => exact ⟨rfl, ha, hkey, hp, hd, hn⟩
      next hn =>
        intro _
        simp only [Content.reconciled, hc]
        exact ((if_neg hp).trans (if_pos hd)).trans (if_neg hn)
    next hd =>
      split
      next hn => exact ⟨ha, hkey, hp, hd, hn⟩
      next => exact ⟨ha, hkey, hp, hd⟩

theorem Live.withFaults (h : Live k a c) (f) : Live k a (c.withFaults f) :=
  ⟨h.stored, h.key, h.paused, h.deleted, h.named⟩

/-! ## The right status -/

theorem Watched.reached_pending (h : Watched a c) (hn : c.content.configured? a = none) :
    Reached a .pending c where
  status := by
    unfold Content.status
    rw [if_pos ⟨h.elasticsearch, h.kibana⟩, hn]
    rfl
  kibana kb hkb := nomatch hn.symm.trans hkb
  watches := h.tend

theorem Watched.reached_established (h : Watched a c) {kb : Kibana}
    (hc : c.content.configured? a = some kb) (hk : c.content.kibanas a.spec.kibana = some kb) :
    Reached a .established c where
  status := by
    unfold Content.status
    rw [if_pos ⟨h.elasticsearch, h.kibana⟩, hc]
    rfl
  kibana kb' hkb' := by
    cases hc.symm.trans hkb'
    exact hk
  watches := h.tend

theorem Watched.reached_same (h : Watched a c) {kb : Kibana}
    (hk : c.store.kibanas.find? a.spec.kibana = some kb)
    (hb : c.content.backend? a = some kb.spec.backend) : Reached a .established c := by
  have hkc : c.content.kibanas a.spec.kibana = some kb.unversioned :=
    congrArg (Option.map Kibana.unversioned) hk
  have hconf : c.content.configured? a = some kb.unversioned :=
    Content.configured?_eq_some.2 ⟨⟨h.elasticsearch, h.kibana⟩, _, _, hkc, hb, rfl⟩
  exact h.reached_established hconf hkc

/-- The watch of the cluster is refused. -/
theorem reached_failed_of_elasticsearch (hw : ¬a.elasticsearchWatch.isComplete) :
    Reached a .failed c where
  status := if_neg fun h => hw h.1
  kibana _ hkb := absurd (Content.configured?_eq_some.1 hkb).1.1 hw
  watches := if_neg hw

/-- The watch of the cluster is there, and that of the Kibana instance is refused. -/
theorem reached_failed_of_kibana (hw : a.elasticsearchWatch.isComplete)
    (hst : c.watches.elasticsearch.find? a.elasticsearchWatch.name = some a.elasticsearchWatch)
    (hk : ¬a.kibanaWatch.isComplete) : Reached a .failed c where
  status := if_neg fun h => hk h.2
  kibana _ hkb := absurd (Content.configured?_eq_some.1 hkb).1.2 hk
  watches := Watches.tend_eq_self hw hst fun h => absurd h hk

theorem Reached.withFaults {new : Status} (h : Reached a new c) (f) :
    Reached a new (c.withFaults f) :=
  ⟨h.status, h.kibana, h.watches⟩

theorem backend?_eq_none_of_elasticsearch
    (h : c.store.elasticsearches.find? a.spec.elasticsearch = none) :
    c.content.backend? a = none := by
  simp [Content.backend?, Cluster.content, h]

theorem backend?_of_elasticsearch {es : Elasticsearch}
    (h : c.store.elasticsearches.find? a.spec.elasticsearch = some es) :
    c.content.backend? a = (c.store.secrets.find? es.usersSecret).bind fun users =>
      (users.text? Elasticsearch.kibanaUser).bind fun password =>
        (c.store.secrets.find? es.caSecret).map (backendFor es password) := by
  simp only [Content.backend?, Cluster.content, h, Option.map_eq_bind]
  rfl

/-! ## Calls that fail -/

theorem accepts_of_find? (h : c.store.associations.find? k = some a) {b : Association}
    (hkey : b.key = k) (hv : b.metadata.version = a.metadata.version) :
    c.store.associations.Accepts b a :=
  ⟨show c.store.associations.find? b.key = some a from hkey ▸ h, .inr hv⟩

section

variable {op : Operation} {e : StoreError}

/-- On a calm cluster the association that stands there is replaced by any copy of its version. -/
theorem calm_not_writeFails (hcalm : c.Calm) (h : c.store.associations.find? k = some a)
    {b : Association} (hkey : b.key = k) (hv : b.metadata.version = a.metadata.version) :
    ¬c.store.WriteFails op c.store.associations b e :=
  fun hr => hcalm.not_accepts hr a (accepts_of_find? h hkey hv)

/-- On a calm cluster the Kibana instance that stands there is given any configuration. -/
theorem calm_not_writeFails_kibana (hcalm : c.Calm) {kb : Kibana}
    (h : c.store.kibanas.find? kb.key = some kb) (expected : Backend) :
    ¬c.store.WriteFails op c.store.kibanas (kb.withBackend expected) e :=
  fun hr => hcalm.not_accepts hr kb ⟨h, .inr rfl⟩

variable {R : Type} [Resource R] {t : Table R} {key : Key} {new : Status}

/-- A read that fails on a calm cluster fails because nothing is there. -/
theorem calm_readFails (h : c.Calm) (hr : c.store.ReadFails op t key e) :
    t.find? key = none ∧ e = .notFound (Resource.kind R) key := by
  rcases hr with hf | ⟨-, hn⟩
  · exact absurd hf h.fault?_ne
  · exact hn

/-- After a read that failed the association is pending, if nothing can be configured without what
was read. -/
theorem known_readFails (hr : c.store.ReadFails op t key e) (hl : Live k a c) (hw : Watched a c)
    (hcalm : clean → c.Calm) (hnone : t.find? key = none → c.content.configured? a = none)
    (hnew : e = .notFound (Resource.kind R) key → new = .pending) (error : Option ReconcileError)
    (f) : (reported a new error).Known clean k (c.withFaults f) := by
  refine known_reported (hl.withFaults f) (fun hx => ?_) error
  obtain ⟨ht, he⟩ := calm_readFails (hcalm hx) hr
  rw [hnew he]
  exact (hw.reached_pending (hnone ht)).withFaults f

end

/-! ## Writes of the association -/

theorem content_put_of_finalizer (c : Cluster) {a : Association} {name : String}
    (h : name ∈ a.metadata.finalizers) (key : Key) (writes : WriteCounts) :
    (c.putAssociation key a writes).content = { c.content with
      associations := Function.update c.content.associations key (some a.unversioned) } := by
  rw [Cluster.content_putAssociation, if_neg (Metadata.not_isGone h)]

/-- Registering the finalizer. -/
theorem live_register (ha : c.store.associations.find? a.key = some a)
    (hp : ¬a.metadata.isPaused) (hd : ¬a.metadata.isBeingDeleted) (writes : WriteCounts) :
    Live a.key ((marked a).rewritten a) (c.putAssociation a.key ((marked a).rewritten a) writes) ∧
      (c.putAssociation a.key ((marked a).rewritten a) writes).content.reconciled a.key =
        c.content.reconciled a.key := by
  have hn : watchFinalizerName ∈ ((marked a).rewritten a).metadata.finalizers :=
    mem_finalizers_marked a
  have hc : c.content.associations a.key = some a.unversioned :=
    congrArg (Option.map Association.unversioned) ha
  have hpaused : ((marked a).rewritten a).metadata.isPaused = a.metadata.isPaused :=
    isPaused_marked a
  have hlive : Live a.key ((marked a).rewritten a)
      (c.putAssociation a.key ((marked a).rewritten a) writes) :=
    ⟨c.store.associations.find?_put_self hn _, rfl, hpaused ▸ hp, hd, List.contains_iff_mem.2 hn⟩
  refine ⟨hlive, ?_⟩
  rw [hlive.reconciled, content_put_of_finalizer c hn, unversioned_marked,
    Content.reconciled_of_live hc hp hd]
  have hkey : (marked a.unversioned).key = a.key := key_marked _
  rw [← hkey]
  exact Content.established_update ..

/-- Storing a status. -/
theorem live_storeStatus (h : Live k a c) (new : Status) (writes : WriteCounts) :
    let b := Association.restated { a with status := new } a
    Live k b (c.putAssociation a.key b writes) ∧
      (c.putAssociation a.key b writes).content = { c.content with
        associations := Function.update c.content.associations a.key
          (some { a.unversioned with status := new }) } ∧
      (c.putAssociation a.key b writes).content.reconciled k = c.content.reconciled k := by
  intro b
  have hn : watchFinalizerName ∈ b.metadata.finalizers := List.contains_iff_mem.1 h.named
  have hc := content_put_of_finalizer c hn a.key writes
  have hlive : Live k b (c.putAssociation a.key b writes) :=
    ⟨h.key ▸ c.store.associations.find?_put_self hn _, h.key, h.paused, h.deleted, h.named⟩
  refine ⟨hlive, hc, ?_⟩
  rw [hlive.reconciled, hc, h.reconciled]
  exact Content.established_update c.content a.unversioned _

theorem Reached.storeStatus {new : Status} (hr : Reached a new c) (h : Live k a c)
    (writes : WriteCounts) :
    let b := Association.restated { a with status := new } a
    Reached b new (c.putAssociation a.key b writes) := by
  intro b
  obtain ⟨-, hc, -⟩ := live_storeStatus h new writes
  refine ⟨?_, ?_, hr.watches⟩
  · rw [hc]
    exact hr.status
  · rw [hc]
    exact hr.kibana

/-- Taking the finalizer off. -/
theorem reconciled_release (h : Leaving k a c)
    (hk : c.watches.kibana.find? (Watch.kibanaName k) = none)
    (he : c.watches.elasticsearch.find? (Watch.elasticsearchName k) = none)
    (writes : WriteCounts) :
    let c' := c.putAssociation a.key ((unmarked a).rewritten a) writes
    c'.content = c.content.reconciled k ∧ c'.content.reconciled k = c'.content := by
  intro c'
  have hc : c'.content = c.content.released a.unversioned := by
    have hw : c.watches.release k = c.watches := by
      simp only [Watches.release, Dict.erase_eq_self hk, Dict.erase_eq_self he]
    show (c.putAssociation a.key ((unmarked a).rewritten a) writes).content = _
    rw [Cluster.content_putAssociation]
    have hw' : c.content.watches = c.content.watches.release a.key := h.key ▸ hw.symm
    simp only [Content.released]
    rw [show a.unversioned.key = a.key from rfl, ← hw']
    rfl
  refine ⟨hc.trans h.reconciled.symm, ?_⟩
  have ha : c'.content.associations k = if (unmarked a.unversioned).metadata.isGone then none
      else some (unmarked a.unversioned) := by
    rw [hc, ← h.key]
    exact Function.update_self ..
  unfold Content.reconciled
  rw [ha]
  split
  next => rfl
  next b hb =>
    split at hb
    next => cases hb
    next =>
      cases hb
      have hn : ¬(unmarked a.unversioned).metadata.hasFinalizer watchFinalizerName := by
        simp [unmarked, Metadata.removeFinalizer, Metadata.hasFinalizer]
      exact ((if_neg h.paused).trans (if_pos h.deleted)).trans (if_neg hn)

/-! ## Writes of the registries and of the Kibana instance -/

theorem Leaving.setRegistry (h : Leaving k a c) (side : Side) (r : Registry) :
    Leaving k a (c.setRegistry side r) :=
  ⟨h.stored, h.key, h.paused, h.deleted, h.named⟩

theorem Live.setRegistry (h : Live k a c) (side : Side) (r : Registry) :
    Live k a (c.setRegistry side r) :=
  ⟨h.stored, h.key, h.paused, h.deleted, h.named⟩

theorem Leaving.reconciled_setRegistry (h : Leaving k a c) {side : Side} {r : Registry}
    (hw : (c.watches.set side r).release k = c.watches.release k) :
    (c.setRegistry side r).content.reconciled k = c.content.reconciled k := by
  rw [h.reconciled, (h.setRegistry side r).reconciled]
  have hw' : (c.watches.set side r).release a.unversioned.key =
      c.watches.release a.unversioned.key := by
    rw [show a.unversioned.key = k from h.key, hw]
  exact congrArg (fun w => { c.content.released a.unversioned with watches := w }) hw'

theorem Live.reconciled_setRegistry (h : Live k a c) {side : Side} {r : Registry}
    (hw : (c.watches.set side r).tend a = c.watches.tend a) :
    (c.setRegistry side r).content.reconciled k = c.content.reconciled k := by
  rw [h.reconciled, (h.setRegistry side r).reconciled]
  exact Content.established_watches (x := c.content) (a := a.unversioned) hw

/-- Giving the Kibana instance its configuration. -/
theorem reconciled_configure (hl : Live k a c) (hw : Watched a c) {kb : Kibana} {expected : Backend}
    (hlive : kb.metadata.tombstone = none)
    (hk : c.store.kibanas.find? a.spec.kibana = some kb) (hkey : kb.key = a.spec.kibana)
    (he : c.content.backend? a = some expected) (writes : WriteCounts) :
    let c' := c.putKibana kb.key ((kb.withBackend expected).rewritten kb) writes
    Live k a c' ∧ Reached a .established c' ∧
      c'.content.reconciled k = c.content.reconciled k := by
  intro c'
  let new := kb.unversioned.withBackend expected
  have hg : ¬((kb.withBackend expected).rewritten kb).metadata.isGone := by
    rintro ⟨hd, -⟩
    have hd : kb.metadata.tombstone.isSome := hd
    rw [hlive] at hd
    cases hd
  have hc : c'.content = { c.content with
      kibanas := Function.update c.content.kibanas a.spec.kibana (some new) } := by
    have hput := c.content_putKibana kb.key ((kb.withBackend expected).rewritten kb) writes
    rw [if_neg hg, hkey] at hput
    exact hkey ▸ hput
  have hconf : c.content.configured? a = some new :=
    Content.configured?_eq_some.2 ⟨⟨hw.elasticsearch, hw.kibana⟩, kb.unversioned, expected,
      congrArg (Option.map Kibana.unversioned) hk, he, rfl⟩
  have hl' : Live k a c' := ⟨hl.stored, hl.key, hl.paused, hl.deleted, hl.named⟩
  have hw' : Watched a c' := ⟨hw.1, hw.2, hw.3, hw.4⟩
  have hconf' : c'.content.configured? a = some new := by
    rw [hc]
    exact Content.configured?_update hconf
  refine ⟨hl', hw'.reached_established hconf' ?_, ?_⟩
  · rw [hc]
    exact Function.update_self ..
  · rw [hl'.reconciled, hl.reconciled, hc]
    exact Content.established_configure (a := a.unversioned) hconf

/-- What a call does to what a reconcile knows and to what it is to bring about. -/
theorem Step.known (h : Step s c s' c') (hkeyed : c.store.Keyed) (hplain : c.store.Plain)
    (hs : s.Known clean k c) (hcalm : clean → c.Calm) :
    s'.Known clean k c' ∧ c'.content.reconciled k = c.content.reconciled k := by
  cases h with
  | fetch _ ha =>
    obtain rfl := hs
    exact ⟨known_opened ha (hkeyed.associations ha), rfl⟩
  | @fetchFails _ key _ _ hr =>
    obtain rfl := hs
    refine ⟨fun hx => ?_, rfl⟩
    have hc : c.content.associations key = none :=
      congrArg (Option.map Association.unversioned) (calm_readFails (hcalm hx) hr).1
    simp only [Cluster.content_withFaults, Content.reconciled, hc]
  | @register _ a stored writes _ ha =>
    obtain ⟨hst, rfl, hp, hd⟩ := hs
    obtain rfl : a = stored := Option.some.inj (hst.symm.trans (key_marked a ▸ ha.1))
    obtain ⟨hlive, hrec⟩ := live_register hst hp hd writes
    refine ⟨?_, hrec⟩
    rw [finalized, if_neg hlive.deleted]
    exact hlive
  | @registerFails _ a _ _ hr =>
    obtain ⟨hst, rfl, -, -⟩ := hs
    refine ⟨fun hx => absurd hr ?_, rfl⟩
    exact calm_not_writeFails (hcalm hx) hst (key_marked a) (version_marked a)
  | unwatchKibana =>
    obtain ⟨rfl, hl⟩ := hs
    exact ⟨⟨rfl, hl.setRegistry .., Dict.find?_erase_self ..⟩,
      hl.reconciled_setRegistry (Watches.release_kibana ..)⟩
  | unwatchElasticsearch =>
    obtain ⟨rfl, hl, hk⟩ := hs
    exact ⟨⟨hl.setRegistry .., hk, Dict.find?_erase_self ..⟩,
      hl.reconciled_setRegistry (Watches.release_elasticsearch ..)⟩
  | @release _ a stored writes _ ha =>
    obtain ⟨hl, hk, he⟩ := hs
    obtain rfl : a = stored := Option.some.inj (hl.stored.symm.trans (hl.key ▸ ha.1))
    obtain ⟨hc, hrec⟩ := reconciled_release hl hk he writes
    refine ⟨?_, hrec.trans hc⟩
    have hd : ((unmarked a).rewritten a).metadata.isBeingDeleted := hl.deleted
    rw [finalized, if_pos hd]
    exact fun _ => hrec
  | releaseFails hr =>
    obtain ⟨hl, -, -⟩ := hs
    refine ⟨fun hx => absurd hr ?_, rfl⟩
    exact calm_not_writeFails (hcalm hx) hl.stored hl.key rfl
  | @watchElasticsearch _ a r hr =>
    have hl : Live k a c := hs
    obtain ⟨hw, rfl⟩ := Registry.complete_of_add hr
    exact ⟨⟨hl.setRegistry .., hw, Dict.find?_insert_self ..⟩,
      hl.reconciled_setRegistry (Watches.tend_elasticsearch hw)⟩
  | @watchElasticsearchFails _ a e hr =>
    have hw : ¬a.elasticsearchWatch.isComplete := Registry.incomplete_of_add hr
    exact ⟨known_reported hs (fun _ => reached_failed_of_elasticsearch hw) _, rfl⟩
  | @watchKibana _ a r hr =>
    obtain ⟨hl, hw, hst⟩ := hs
    obtain ⟨hk, rfl⟩ := Registry.complete_of_add hr
    exact ⟨⟨hl.setRegistry .., hw, hk, hst, Dict.find?_insert_self ..⟩,
      hl.reconciled_setRegistry (Watches.tend_kibana hw hk)⟩
  | @watchKibanaFails _ a e hr =>
    obtain ⟨hl, hw, hst⟩ := hs
    have hk : ¬a.kibanaWatch.isComplete := Registry.incomplete_of_add hr
    exact ⟨known_reported hl (fun _ => reached_failed_of_kibana hw hst hk) _, rfl⟩
  | readElasticsearch _ hes =>
    obtain ⟨hl, hw⟩ := hs
    exact ⟨⟨hl, hw, hes⟩, rfl⟩
  | readElasticsearchMisses hr =>
    obtain ⟨hl, hw⟩ := hs
    refine ⟨known_readFails hr hl hw hcalm (fun hes => ?_) (fun _ => rfl) _ _, rfl⟩
    exact Content.configured?_eq_none (.inl (backend?_eq_none_of_elasticsearch hes))
  | readElasticsearchFails hr he =>
    obtain ⟨hl, hw⟩ := hs
    refine ⟨known_readFails hr hl hw hcalm (fun hes => ?_) (fun h => ?_) _ _, rfl⟩
    · exact Content.configured?_eq_none (.inl (backend?_eq_none_of_elasticsearch hes))
    · exact absurd (h ▸ rfl) he
  | readUsers _ hu hp =>
    obtain ⟨hl, hw, hes⟩ := hs
    exact ⟨⟨hl, hw, hes, _, hu, hp⟩, rfl⟩
  | readUsersMisses _ hu hp =>
    obtain ⟨hl, hw, hes⟩ := hs
    refine ⟨known_reported hl (fun _ => hw.reached_pending ?_) _, rfl⟩
    exact Content.configured?_eq_none (.inl (by simp [backend?_of_elasticsearch hes, hu, hp]))
  | readUsersFails hr =>
    obtain ⟨hl, hw, hes⟩ := hs
    refine ⟨known_readFails hr hl hw hcalm (fun hu => ?_) (fun h => h ▸ rfl) _ _, rfl⟩
    exact Content.configured?_eq_none (.inl (by simp [backend?_of_elasticsearch hes, hu]))
  | readCa _ hc =>
    obtain ⟨hl, hw, hes, users, hu, hp⟩ := hs
    exact ⟨⟨hl, hw, by simp [backend?_of_elasticsearch hes, hu, hp, hc]⟩, rfl⟩
  | readCaFails hr =>
    obtain ⟨hl, hw, hes, users, hu, hp⟩ := hs
    refine ⟨known_readFails hr hl hw hcalm (fun hc => ?_) (fun h => h ▸ rfl) _ _, rfl⟩
    exact Content.configured?_eq_none (.inl (by simp [backend?_of_elasticsearch hes, hu, hc]))
  | readKibanaSame _ hk hb =>
    obtain ⟨hl, hw, he⟩ := hs
    exact ⟨known_reported hl (fun _ => hw.reached_same hk (hb ▸ he)) _, rfl⟩
  | readKibana _ hk _ =>
    obtain ⟨hl, hw, he⟩ := hs
    exact ⟨⟨hl, hw, _, _, hk, he, rfl⟩, rfl⟩
  | readKibanaFails hr =>
    obtain ⟨hl, hw, he⟩ := hs
    refine ⟨known_readFails hr hl hw hcalm (fun hk => ?_) (fun h => h ▸ rfl) _ _, rfl⟩
    exact Content.configured?_eq_none (.inr (congrArg (Option.map Kibana.unversioned) hk))
  | @configure _ a kb stored writes _ ha =>
    obtain ⟨hl, hw, old, expected, hk, he, rfl⟩ := hs
    have hkey : old.key = a.spec.kibana := hkeyed.kibanas hk
    obtain rfl : old = stored := Option.some.inj (hk.symm.trans (hkey ▸ ha.1))
    obtain ⟨hl', hc, hrec⟩ := reconciled_configure hl hw (hplain.kibanas hk) hk hkey he writes
    exact ⟨known_reported hl' (fun _ => hc) _, hrec⟩
  | @configureFails _ a _ _ _ hr =>
    obtain ⟨hl, -, old, expected, hk, -, rfl⟩ := hs
    have hkey : old.key = a.spec.kibana := hkeyed.kibanas hk
    refine ⟨known_reported (hl.withFaults _) (fun hx => absurd hr ?_) _, rfl⟩
    exact calm_not_writeFails_kibana (hcalm hx) (hkey.symm ▸ hk) expected
  | @storeStatus _ a stored new error writes _ ha =>
    obtain ⟨hl, hr⟩ := hs
    obtain rfl : a = stored := Option.some.inj (hl.stored.symm.trans (hl.key ▸ ha.1))
    obtain ⟨hl', -, hrec⟩ := live_storeStatus hl new writes
    exact ⟨fun hx => Reached.reconciled hl' ((hr hx).storeStatus hl writes), hrec⟩
  | storeStatusFails hr =>
    obtain ⟨hl, -⟩ := hs
    refine ⟨fun hx => absurd hr ?_, rfl⟩
    exact calm_not_writeFails (hcalm hx) hl.stored hl.key rfl

theorem Known.withFaults (h : s.Known clean k c) (f) : s.Known clean k (c.withFaults f) := by
  have live : ∀ {a}, Live k a c → Live k a (c.withFaults f) := fun h => h.withFaults f
  have leaving : ∀ {a}, Leaving k a c → Leaving k a (c.withFaults f) :=
    fun h => ⟨h.stored, h.key, h.paused, h.deleted, h.named⟩
  have watched : ∀ {a}, Watched a c → Watched a (c.withFaults f) :=
    fun h => ⟨h.1, h.2, h.3, h.4⟩
  cases s with
  | fetch | register | ended => exact h
  | unwatchKibana => exact ⟨h.1, leaving h.2⟩
  | unwatchElasticsearch => exact ⟨h.1, leaving h.2.1, h.2.2⟩
  | release => exact ⟨leaving h.1, h.2⟩
  | watchElasticsearch => exact live h
  | watchKibana => exact ⟨live h.1, h.2⟩
  | storeStatus => exact ⟨live h.1, fun hx => (h.2 hx).withFaults f⟩
  | readElasticsearch => exact ⟨live h.1, watched h.2⟩
  | _ => exact ⟨live h.1, watched h.2.1, h.2.2⟩

/-- A reconcile that runs through alone on a calm cluster brings about what it is to. -/
theorem content_alone {s : Stage} (hkeyed : c.store.Keyed) (hplain : c.store.Plain)
    (hcalm : c.Calm) (hs : s.Known True k c) :
    (s.program.alone c).2.content = c.content.reconciled k := by
  -- Each call leaves what is to be brought about as it was.
  induction s using Stage.program.induct generalizing c with
  | case1 s o hv =>
    rw [program_eq_done hv]
    cases s <;> cases hv
    exact (hs trivial).symm
  | case2 s call next hv ih =>
    rw [program_eq_ask hv fun _ => rfl]
    have hstep := step_of_view hv c
    have hcall := hstep.called
    obtain ⟨hs', hrec⟩ := hstep.known hkeyed hplain hs fun _ => hcalm
    rw [← hrec]
    exact ih _ (hkeyed.called hcall) (hplain.called hcall) (hcalm.answer call) hs'

end Reconcile.Stage

/-! ## Interrupted reconciles -/

/-- A program runs for a while, with faults set before any of its calls, and is then dropped. -/
inductive Interrupted : Calls α → Cluster → Cluster → Prop where
  | dropped {p c} : Interrupted p c c
  | fault {p} {c c' : Cluster} (f) (h : Interrupted p (c.withFaults f) c') : Interrupted p c c'
  | call {q c c'} {next : q.Answer → Calls α}
    (h : Interrupted (next (c.answer q).1) (c.answer q).2 c') : Interrupted (.ask q next) c c'

/-- The cluster after so many calls of a program. -/
def Calls.after : Nat → Calls α → Cluster → Cluster
  | 0, _, c | _, .done _, c => c
  | n + 1, .ask q next, c => after n (next (c.answer q).1) (c.answer q).2

theorem Interrupted.after (n : Nat) (p : Calls α) (c : Cluster) :
    Interrupted p c (p.after n c) := by
  induction n generalizing p c with
  | zero => exact .dropped
  | succ n ih =>
    cases p with
    | done => exact .dropped
    | ask q next => exact .call (ih ..)

/-- Any number of reconciles of a key, each of which is dropped or runs to its end. -/
abbrev Disturbed (key : Key) : Cluster → Cluster → Prop :=
  Relation.ReflTransGen (Interrupted (reconcile key))

variable {c c' : Cluster} {key : Key}

theorem Interrupted.reconciled {p : Calls Outcome} (h : Interrupted p c c') {s : Stage}
    (hp : p = s.program) (hkeyed : c.store.Keyed) (hplain : c.store.Plain)
    (hs : s.Known False key c) :
    c'.store.Keyed ∧ c'.store.Plain ∧ c'.content.reconciled key = c.content.reconciled key := by
  induction h generalizing s with
  | dropped => exact ⟨hkeyed, hplain, rfl⟩
  | fault f h ih => exact ih hp (hkeyed.withFaults f) (hplain.withFaults f) (hs.withFaults f)
  | @call q c c' next h ih =>
    obtain ⟨s', hs', hstep⟩ := Stage.step_of_program hp.symm c
    have hcall := hstep.called
    obtain ⟨hknown, hrec⟩ := hstep.known hkeyed hplain hs False.elim
    obtain ⟨hk, hpl, hrec'⟩ := ih hs' (hkeyed.called hcall) (hplain.called hcall) hknown
    exact ⟨hk, hpl, hrec'.trans hrec⟩

theorem Disturbed.reconciled (h : Disturbed key c c') (hkeyed : c.store.Keyed)
    (hplain : c.store.Plain) :
    c'.store.Keyed ∧ c'.store.Plain ∧ c'.content.reconciled key = c.content.reconciled key := by
  induction h with
  | refl => exact ⟨hkeyed, hplain, rfl⟩
  | tail _ h ih =>
    obtain ⟨hk, hpl, hrec⟩ := ih
    obtain ⟨hk', hpl', hrec'⟩ := h.reconciled (reconcile_eq_program key) hk hpl rfl
    exact ⟨hk', hpl', hrec'.trans hrec⟩

theorem content_reconcile_calm (hkeyed : c.store.Keyed) (hplain : c.store.Plain) (key : Key) :
    ((reconcile key).alone c.calm).2.content = c.content.reconciled key := by
  rw [reconcile_eq_program]
  exact Stage.content_alone (hkeyed.withFaults _) (hplain.withFaults _) c.calm_calm rfl

/-- However many reconciles of a key failed or were dropped, one that runs through without faults
leaves what it would have left in their place. -/
theorem content_reconcile_of_disturbed (hs : c.store.Reachable Edit.IsPlain)
    (h : Disturbed key c c') : ((reconcile key).alone c'.calm).2.content =
      ((reconcile key).alone c.calm).2.content := by
  obtain ⟨hkeyed, hplain, hrec⟩ := h.reconciled hs.keyed hs.plain
  rw [content_reconcile_calm hkeyed hplain, content_reconcile_calm hs.keyed hs.plain, hrec]

/-- A reconcile is dropped after it has written the finalizer and added one watch. -/
theorem content_reconcile_of_dropped :
    let a : Association := ⟨.new ⟨"ns", "a"⟩, ⟨⟨"ns", "es"⟩, ⟨"ns", "kb"⟩⟩, .unknown⟩
    let c : Cluster := ⟨(Store.new 4).edit (.apply (.association a)), .empty⟩
    let c' := (reconcile a.key).after 3 c
    c'.watches.size = 1 ∧ ((reconcile a.key).alone c'.calm).2.content =
      ((reconcile a.key).alone c.calm).2.content := by
  intro a c c'
  have ha : (Edit.apply (.association a)).IsPlain := rfl
  have hs : c.store.Reachable Edit.IsPlain := .edit (.new 4) ha
  exact ⟨by decide, content_reconcile_of_disturbed hs (.single (.after 3 _ c))⟩

end ClusterLink

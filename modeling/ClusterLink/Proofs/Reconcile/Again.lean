import ClusterLink.Proofs.Reconcile.Recovery

/-! Reconciling a key again. `Verdict` lists which status and error come out of what an association
depends on when nothing is left to be written. A reconcile that runs through alone leaves a cluster
on which the next one only reads, and comes to the same end (`foretold_alone`). -/

namespace ClusterLink

open Reconcile

/-! ## Calls that change nothing -/

namespace Cluster

variable {c : Cluster}

theorem Calm.getAssociation (h : c.Calm) (key : Key) :
    c.answer (.getAssociation key) = (c.store.associations.get key, c) := by
  simp only [Cluster.answer, withStore, Store.getAssociation, Store.unlessFault, h _]

theorem Calm.getElasticsearch (h : c.Calm) (key : Key) :
    c.answer (.getElasticsearch key) = (c.store.elasticsearches.get key, c) := by
  simp only [Cluster.answer, withStore, Store.getElasticsearch, Store.unlessFault, h _]

theorem Calm.getKibana (h : c.Calm) (key : Key) :
    c.answer (.getKibana key) = (c.store.kibanas.get key, c) := by
  simp only [Cluster.answer, withStore, Store.getKibana, Store.unlessFault, h _]

theorem Calm.getSecret (h : c.Calm) (key : Key) :
    c.answer (.getSecret key) = (c.store.secrets.get key, c) := by
  simp only [Cluster.answer, withStore, Store.getSecret, Store.unlessFault, h _]

theorem answer_addWatch_of_refused {side : Side} {w : Watch} {e : WatchError}
    (h : (c.watches.get side).add w = .error e) : c.answer (.addWatch side w) = (.error e, c) := by
  simp only [answer, h]

theorem answer_addWatch_of_stored (side : Side) {w : Watch} (h : w.isComplete)
    (hw : (c.watches.get side).find? w.name = some w) :
    c.answer (.addWatch side w) = (.ok (), c) := by
  simp only [answer, Registry.add_of_complete h, Dict.insert_eq_self hw]
  cases side <;> rfl

end Cluster

namespace Reconcile.Stage

variable {c c' : Cluster} {k : Key} {s s' : Stage} {a : Association} {new : Status}
  {error : Option ReconcileError}

/-- The status and the error of an association on a cluster where nothing but the status is left to
be written. -/
inductive Verdict (a : Association) (c : Cluster) : Status → Option ReconcileError → Prop where
  | elasticsearchRefused {e}
    (h : (c.watches.get .elasticsearch).add a.elasticsearchWatch = .error e) :
    Verdict a c .failed (some (.watch e))
  | kibanaRefused {e} (hw : a.elasticsearchWatch.isComplete)
    (hs : c.watches.elasticsearch.find? a.elasticsearchWatch.name = some a.elasticsearchWatch)
    (h : (c.watches.get .kibana).add a.kibanaWatch = .error e) :
    Verdict a c .failed (some (.watch e))
  | noElasticsearch (hw : Watched a c)
    (h : c.store.elasticsearches.find? a.spec.elasticsearch = none) : Verdict a c .pending none
  | noUsers {es} (hw : Watched a c)
    (hes : c.store.elasticsearches.find? a.spec.elasticsearch = some es)
    (h : c.store.secrets.find? es.usersSecret = none) :
    Verdict a c .pending (some (.store (.notFound .secret es.usersSecret)))
  | noPassword {es users} (hw : Watched a c)
    (hes : c.store.elasticsearches.find? a.spec.elasticsearch = some es)
    (hu : c.store.secrets.find? es.usersSecret = some users)
    (h : users.text? Elasticsearch.kibanaUser = none) :
    Verdict a c .pending (some (.missingCredential es.usersSecret Elasticsearch.kibanaUser))
  | noCa {es users password} (hw : Watched a c)
    (hes : c.store.elasticsearches.find? a.spec.elasticsearch = some es)
    (hu : c.store.secrets.find? es.usersSecret = some users)
    (hp : users.text? Elasticsearch.kibanaUser = some password)
    (h : c.store.secrets.find? es.caSecret = none) :
    Verdict a c .pending (some (.store (.notFound .secret es.caSecret)))
  | noKibana {expected} (hw : Watched a c) (hb : c.content.backend? a = some expected)
    (h : c.store.kibanas.find? a.spec.kibana = none) :
    Verdict a c .pending (some (.store (.notFound .kibana a.spec.kibana)))
  | same {kb expected} (hw : Watched a c) (hb : c.content.backend? a = some expected)
    (h : c.store.kibanas.find? a.spec.kibana = some kb) (he : kb.spec.backend = expected) :
    Verdict a c .established none

/-! ## The verdict is what a reconcile comes to -/

/-- A call that changes nothing, and what follows its answer. -/
theorem alone_eq_of_answer {call : Call} {next : call.Answer → Stage} {answer : call.Answer}
    (hv : s.view = .inr ⟨call, next⟩) (h : c.answer call = (answer, c)) (hs : next answer = s') :
    s.program.alone c = s'.program.alone c := by
  subst hs
  rw [program_eq_ask hv fun _ => rfl]
  simp only [Calls.alone, Program.run, h]

theorem Watched.withFaults (h : Watched a c) (f) : Watched a (c.withFaults f) :=
  ⟨h.elasticsearch, h.kibana, h.elasticsearch_stored, h.kibana_stored⟩

theorem Watched.alone (h : Watched a c) :
    (watchElasticsearch a).program.alone c = (readElasticsearch a).program.alone c := by
  have hes := Cluster.answer_addWatch_of_stored .elasticsearch h.1 h.3
  have hkb := Cluster.answer_addWatch_of_stored .kibana h.2 h.4
  exact (alone_eq_of_answer rfl hes rfl).trans (alone_eq_of_answer rfl hkb rfl)

theorem alone_readUsers (hcalm : c.Calm) (hw : Watched a c) {es : Elasticsearch}
    (hes : c.store.elasticsearches.find? a.spec.elasticsearch = some es) :
    (watchElasticsearch a).program.alone c = (readUsers a es).program.alone c := by
  have hget := hcalm.getElasticsearch a.spec.elasticsearch
  rw [Table.get_eq_ok hes] at hget
  exact hw.alone.trans (alone_eq_of_answer rfl hget rfl)

theorem alone_readCa (hcalm : c.Calm) (hw : Watched a c) {es : Elasticsearch} {users : Secret}
    {password : String} (hes : c.store.elasticsearches.find? a.spec.elasticsearch = some es)
    (hu : c.store.secrets.find? es.usersSecret = some users)
    (hp : users.text? Elasticsearch.kibanaUser = some password) :
    (watchElasticsearch a).program.alone c = (readCa a es password).program.alone c := by
  have hget := hcalm.getSecret es.usersSecret
  rw [Table.get_eq_ok hu] at hget
  exact (alone_readUsers hcalm hw hes).trans (alone_eq_of_answer rfl hget (by simp only [hp]))

theorem alone_readKibana (hcalm : c.Calm) (hw : Watched a c) {expected : Backend}
    (hb : c.content.backend? a = some expected) :
    (watchElasticsearch a).program.alone c = (readKibana a expected).program.alone c := by
  simp only [Content.backend?, Option.bind_eq_bind, Option.bind_eq_some_iff, Option.pure_def,
    Option.some.injEq] at hb
  obtain ⟨es, hes, users, hu, password, hp, ca, hca, rfl⟩ := hb
  have hget := hcalm.getSecret es.caSecret
  rw [Table.get_eq_ok (t := c.store.secrets) hca] at hget
  exact (alone_readCa hcalm hw hes hu hp).trans (alone_eq_of_answer rfl hget rfl)

theorem Verdict.alone (h : Verdict a c new error) (hcalm : c.Calm) :
    (watchElasticsearch a).program.alone c = (reported a new error).program.alone c := by
  cases h with
  | elasticsearchRefused h =>
    exact alone_eq_of_answer rfl (Cluster.answer_addWatch_of_refused h) rfl
  | kibanaRefused hw hs h =>
    have hes := Cluster.answer_addWatch_of_stored .elasticsearch hw hs
    have hkb := Cluster.answer_addWatch_of_refused h
    exact (alone_eq_of_answer rfl hes rfl).trans (alone_eq_of_answer rfl hkb rfl)
  | noElasticsearch hw h =>
    have hget := hcalm.getElasticsearch a.spec.elasticsearch
    rw [Table.get_eq_error h] at hget
    exact hw.alone.trans (alone_eq_of_answer rfl hget rfl)
  | @noUsers es hw hes h =>
    have hget := hcalm.getSecret es.usersSecret
    rw [Table.get_eq_error h] at hget
    exact (alone_readUsers hcalm hw hes).trans (alone_eq_of_answer rfl hget rfl)
  | @noPassword es users hw hes hu h =>
    have hget := hcalm.getSecret es.usersSecret
    rw [Table.get_eq_ok hu] at hget
    exact (alone_readUsers hcalm hw hes).trans (alone_eq_of_answer rfl hget (by simp only [h]))
  | @noCa es users password hw hes hu hp h =>
    have hget := hcalm.getSecret es.caSecret
    rw [Table.get_eq_error h] at hget
    exact (alone_readCa hcalm hw hes hu hp).trans (alone_eq_of_answer rfl hget rfl)
  | noKibana hw hb h =>
    have hget := hcalm.getKibana a.spec.kibana
    rw [Table.get_eq_error h] at hget
    exact (alone_readKibana hcalm hw hb).trans (alone_eq_of_answer rfl hget rfl)
  | same hw hb h he =>
    have hget := hcalm.getKibana a.spec.kibana
    rw [Table.get_eq_ok h] at hget
    exact (alone_readKibana hcalm hw hb).trans (alone_eq_of_answer rfl hget (if_pos he))

theorem alone_of_find? (hcalm : c.Calm) (ha : c.store.associations.find? k = some a) :
    (reconcile k).alone c = (opened k a).program.alone c := by
  have hget := hcalm.getAssociation k
  rw [Table.get_eq_ok ha] at hget
  rw [reconcile_eq_program]
  exact alone_eq_of_answer rfl hget rfl

theorem alone_of_find?_none (hcalm : c.Calm) (ha : c.store.associations.find? k = none) :
    (reconcile k).alone c = (.ok .done, c) := by
  have hget := hcalm.getAssociation k
  rw [Table.get_eq_error ha] at hget
  rw [reconcile_eq_program, alone_eq_of_answer rfl hget rfl]
  exact congrArg (Calls.alone · c) (program_ended _)

/-- A live association for which everything is done and that has the status it should have. -/
theorem Live.alone (h : Live k a c) (hcalm : c.Calm) (hv : Verdict a c a.status error) :
    (reconcile k).alone c = (⟨.ofStatus a.status, error⟩, c) := by
  have hopened : opened k a = watchElasticsearch a := by
    rw [opened, if_neg h.paused, if_neg h.deleted, if_pos h.named]
  have hreported : reported a a.status error = ended ⟨.ofStatus a.status, error⟩ := if_pos rfl
  rw [alone_of_find? hcalm h.stored, hopened, hv.alone hcalm, hreported, program_ended]
  rfl

/-! ## Every reconcile leaves such a cluster -/

/-- What else is known at a stage: a status that is to be stored is the verdict, and reconciling
again where a reconcile has ended changes nothing and comes to the same end. -/
def Foretold (k : Key) : Stage → Cluster → Prop
  | .storeStatus a new error, c => Verdict a c new error
  | .ended o, c => (reconcile k).alone c = (o, c)
  | _, _ => True

theorem foretold_reported (hl : Live k a c) (hcalm : c.Calm) (hv : Verdict a c new error) :
    (reported a new error).Foretold k c := by
  unfold reported
  split
  next hs =>
    subst hs
    exact hl.alone hcalm hv
  next => exact hv

theorem foretold_opened (hcalm : c.Calm) (ha : c.store.associations.find? k = some a) :
    (opened k a).Foretold k c := by
  have halone := alone_of_find? hcalm ha
  generalize hs : opened k a = s at halone
  cases s with
  | ended o =>
    rw [program_ended] at halone
    exact halone
  | storeStatus =>
    -- No association is opened at the end of its reconcile.
    unfold opened at hs
    repeat' split at hs
    all_goals cases hs
  | _ => trivial

/-- Storing the status leaves the verdict as it is. -/
theorem Verdict.storeStatus (h : Verdict a c new error) (status : Status) (writes : WriteCounts) :
    let b := Association.restated { a with status } a
    Verdict b (c.putAssociation a.key b writes) new error := by
  intro b
  have watched : Watched a c → Watched b (c.putAssociation a.key b writes) :=
    fun h => ⟨h.1, h.2, h.3, h.4⟩
  cases h with
  | elasticsearchRefused h => exact .elasticsearchRefused h
  | kibanaRefused hw hs h => exact .kibanaRefused hw hs h
  | noElasticsearch hw h => exact .noElasticsearch (watched hw) h
  | noUsers hw hes h => exact .noUsers (watched hw) hes h
  | noPassword hw hes hu h => exact .noPassword (watched hw) hes hu h
  | noCa hw hes hu hp h => exact .noCa (watched hw) hes hu hp h
  | noKibana hw hb h => exact .noKibana (watched hw) hb h
  | same hw hb h he => exact .same (watched hw) hb h he

/-- Nothing is left to be done once the finalizer is off. -/
theorem Leaving.alone_released (h : Leaving k a c) {writes : WriteCounts} (hcalm' : c'.Calm)
    (hc : c' = c.putAssociation a.key ((unmarked a).rewritten a) writes) :
    (reconcile k).alone c' = (.ok .done, c') := by
  subst hc
  let b := (unmarked a).rewritten a
  have hput : (c.putAssociation a.key b writes).store.associations.find? k =
      if b.metadata.isGone then none else some b := by
    rw [← h.key]
    exact (Table.find?_put ..).trans (if_pos rfl)
  split at hput
  next => exact alone_of_find?_none hcalm' hput
  next =>
    have hn : ¬b.metadata.hasFinalizer watchFinalizerName := by
      simp [b, Association.rewritten, Store.mergeMetadata, unmarked, Metadata.removeFinalizer,
        Metadata.hasFinalizer]
    have hopened : opened k b = ended (.ok .done) := by
      rw [opened, if_neg (show ¬b.metadata.isPaused from h.paused),
        if_pos (show b.metadata.isBeingDeleted from h.deleted), if_neg hn]
    rw [alone_of_find? hcalm' hput, hopened, program_ended]
    rfl

theorem not_isGone_rewritten {kb : Kibana} (h : kb.metadata.tombstone = none)
    (expected : Backend) : ¬((kb.withBackend expected).rewritten kb).metadata.isGone := by
  rintro ⟨hd, -⟩
  have hd : kb.metadata.tombstone.isSome := hd
  rw [h] at hd
  cases hd

theorem Step.foretold (h : Step s c s' c') (hkeyed : c.store.Keyed) (hplain : c.store.Plain)
    (hcalm : c.Calm) (hcalm' : c'.Calm) (hs : s.Known True k c) (hf : s.Foretold k c) :
    s'.Foretold k c' := by
  cases h with
  | fetch _ ha =>
    obtain rfl := hs
    exact foretold_opened hcalm ha
  | fetchFails hr =>
    obtain rfl := hs
    obtain ⟨ha, rfl⟩ := calm_readFails hcalm hr
    exact alone_of_find?_none hcalm' ha
  | @register _ a stored writes _ ha =>
    obtain ⟨hst, rfl, -, hd⟩ := hs
    obtain rfl : a = stored := Option.some.inj (hst.symm.trans (key_marked a ▸ ha.1))
    have hd' : ¬((marked a).rewritten a).metadata.isBeingDeleted := hd
    rw [finalized, if_neg hd']
    trivial
  | @registerFails _ a _ _ hr =>
    obtain ⟨hst, rfl, -, -⟩ := hs
    exact absurd hr (calm_not_writeFails hcalm hst (key_marked a) (version_marked a))
  | unwatchKibana | unwatchElasticsearch | watchElasticsearch | watchKibana | readElasticsearch
  | readUsers | readCa | readKibana => trivial
  | @release _ a stored writes _ ha =>
    obtain ⟨hl, -, -⟩ := hs
    obtain rfl : a = stored := Option.some.inj (hl.stored.symm.trans (hl.key ▸ ha.1))
    have hd : ((unmarked a).rewritten a).metadata.isBeingDeleted := hl.deleted
    rw [finalized, if_pos hd]
    exact hl.alone_released hcalm' rfl
  | releaseFails hr =>
    obtain ⟨hl, -, -⟩ := hs
    exact absurd hr (calm_not_writeFails hcalm hl.stored hl.key rfl)
  | watchElasticsearchFails hr => exact foretold_reported hs hcalm (.elasticsearchRefused hr)
  | watchKibanaFails hr =>
    obtain ⟨hl, hw, hst⟩ := hs
    exact foretold_reported hl hcalm (.kibanaRefused hw hst hr)
  | readElasticsearchMisses hr =>
    obtain ⟨hl, hw⟩ := hs
    have hes := (calm_readFails hcalm hr).1
    exact foretold_reported (hl.withFaults _) hcalm' (.noElasticsearch (hw.withFaults _) hes)
  | readElasticsearchFails hr he =>
    obtain ⟨-, rfl⟩ := calm_readFails hcalm hr
    exact absurd rfl he
  | readUsersMisses _ hu hp =>
    obtain ⟨hl, hw, hes⟩ := hs
    exact foretold_reported hl hcalm (.noPassword hw hes hu hp)
  | readUsersFails hr =>
    obtain ⟨hl, hw, hes⟩ := hs
    obtain ⟨hu, rfl⟩ := calm_readFails hcalm hr
    exact foretold_reported (hl.withFaults _) hcalm' (.noUsers (hw.withFaults _) hes hu)
  | readCaFails hr =>
    obtain ⟨hl, hw, hes, users, hu, hp⟩ := hs
    obtain ⟨hc, rfl⟩ := calm_readFails hcalm hr
    exact foretold_reported (hl.withFaults _) hcalm' (.noCa (hw.withFaults _) hes hu hp hc)
  | readKibanaSame _ hk hb =>
    obtain ⟨hl, hw, he⟩ := hs
    exact foretold_reported hl hcalm (.same hw he hk hb)
  | readKibanaFails hr =>
    obtain ⟨hl, hw, he⟩ := hs
    obtain ⟨hk, rfl⟩ := calm_readFails hcalm hr
    exact foretold_reported (hl.withFaults _) hcalm' (.noKibana (hw.withFaults _) he hk)
  | @configure _ a kb stored writes _ ha =>
    obtain ⟨hl, hw, old, expected, hk, he, rfl⟩ := hs
    have hkey : old.key = a.spec.kibana := hkeyed.kibanas hk
    obtain rfl : old = stored := Option.some.inj (hk.symm.trans (hkey ▸ ha.1))
    have hlive := hplain.kibanas hk
    obtain ⟨hl', -⟩ := reconciled_configure hl hw hlive hk hkey he writes
    have hw' : Watched a (c.putKibana old.key ((old.withBackend expected).rewritten old) writes) :=
      ⟨hw.1, hw.2, hw.3, hw.4⟩
    have hst := (c.store.kibanas.find?_put old.key a.spec.kibana
      ((old.withBackend expected).rewritten old)).trans
        ((if_pos hkey.symm).trans (if_neg (not_isGone_rewritten hlive expected)))
    exact foretold_reported hl' hcalm' (.same hw' he hst rfl)
  | @configureFails _ a _ _ _ hr =>
    obtain ⟨-, -, old, expected, hk, -, rfl⟩ := hs
    have hkey : old.key = a.spec.kibana := hkeyed.kibanas hk
    exact absurd hr (calm_not_writeFails_kibana hcalm (hkey.symm ▸ hk) expected)
  | @storeStatus _ a stored new error writes _ ha =>
    obtain ⟨hl, -⟩ := hs
    obtain rfl : a = stored := Option.some.inj (hl.stored.symm.trans (hl.key ▸ ha.1))
    exact (live_storeStatus hl new writes).1.alone hcalm' (hf.storeStatus new writes)
  | storeStatusFails hr =>
    obtain ⟨hl, -⟩ := hs
    exact absurd hr (calm_not_writeFails hcalm hl.stored hl.key rfl)

/-- A reconcile that runs through alone has foretold what the next one does. -/
theorem foretold_alone (hkeyed : c.store.Keyed) (hplain : c.store.Plain) (hcalm : c.Calm)
    (hs : s.Known True k c) (hf : s.Foretold k c) :
    (reconcile k).alone (s.program.alone c).2 = s.program.alone c := by
  let Holds (s : Stage) (c : Cluster) : Prop :=
    c.store.Keyed ∧ c.store.Plain ∧ c.Calm ∧ s.Known True k c ∧ s.Foretold k c
  have hend : Holds (.ended (s.program.alone c).1) (s.program.alone c).2 := by
    refine alone_ended ?_ (show Holds s c from ⟨hkeyed, hplain, hcalm, hs, hf⟩)
    rintro s c call next hv ⟨hkeyed, hplain, hcalm, hs, hf⟩
    have hstep := step_of_view hv c
    have hcalm' := hcalm.answer call
    exact ⟨hkeyed.called hstep.called, hplain.called hstep.called, hcalm',
      (hstep.known hkeyed hplain hs fun _ => hcalm).1,
      hstep.foretold hkeyed hplain hcalm hcalm' hs hf⟩
  exact hend.2.2.2.2

end Reconcile.Stage

variable {c : Cluster}

/-- Reconciling a key again changes nothing and comes to the same end. -/
theorem reconcile_again (hs : c.store.Reachable Edit.IsPlain) (key : Key) :
    (reconcile key).alone ((reconcile key).alone c.calm).2 = (reconcile key).alone c.calm := by
  have hkeyed : c.calm.store.Keyed := hs.keyed.withFaults _
  have hplain : c.calm.store.Plain := hs.plain.withFaults _
  have h := Stage.foretold_alone (s := .fetch key) hkeyed hplain c.calm_calm rfl trivial
  rwa [← reconcile_eq_program] at h

/-- The first reconcile writes the finalizer, adds both watches, and stores the status. -/
theorem reconcile_again_of_applied :
    let a : Association := ⟨.new ⟨"ns", "a"⟩, ⟨⟨"ns", "es"⟩, ⟨"ns", "kb"⟩⟩, .unknown⟩
    let c : Cluster := ⟨(Store.new 4).edit (.apply (.association a)), .empty⟩
    let r := (reconcile a.key).alone c.calm
    r.1 = .ok .retry ∧ r.2.store.writes = ⟨1, 1, 0⟩ ∧ r.2.watches.size = 2 ∧
      (reconcile a.key).alone r.2 = r := by
  intro a c r
  have ha : (Edit.apply (.association a)).IsPlain := rfl
  have hs : c.store.Reachable Edit.IsPlain := .edit (.new 4) ha
  exact ⟨by decide, by decide, by decide, reconcile_again hs a.key⟩

end ClusterLink

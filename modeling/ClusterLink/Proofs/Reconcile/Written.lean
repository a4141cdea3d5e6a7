import ClusterLink.Proofs.Cluster.Place

/-! What a reconcile writes while nobody else does anything. `Content.writes` reads it off what the
store holds before: the finalizer if it is to be put on or taken off, the Kibana instance if its
configuration is to be another, and the status if it is to be another. `writes_reconcile` says that
these writes succeed and that there are no others. -/

namespace ClusterLink

open Reconcile

/-- A write that succeeded. -/
inductive Written where
  /-- The finalizers of an association. -/
  | finalizers (key : Key)
  | status (key : Key)
  | kibana (key : Key)
  deriving DecidableEq

/-- What a call has written, by its answer. -/
def Call.written? : (q : Call) → q.Answer → Option Written
  | .updateAssociation a, .ok _ => some (.finalizers a.key)
  | .updateAssociationStatus a, .ok _ => some (.status a.key)
  | .updateKibana kb, .ok _ => some (.kibana kb.key)
  | _, _ => none

/-- What a program writes if it runs alone. -/
def Calls.writes : Calls α → Cluster → List Written
  | .done _, _ => []
  | .ask q next, c =>
    (q.written? (c.answer q).1).toList ++ writes (next (c.answer q).1) (c.answer q).2

namespace Content

/-- The write of the Kibana instance of an association, if it is to have another configuration. -/
def kibanaWrites (x : Content) (a : Association) : List Written :=
  match x.configured? a with
  | some kb => if x.kibanas a.spec.kibana = some kb then [] else [.kibana a.spec.kibana]
  | none => []

/-- The write of the status of an association, if it is to have another one. -/
def statusWrites (x : Content) (a : Association) : List Written :=
  if a.status = x.status a then [] else [.status a.key]

/-- What reconciling a key writes. -/
def writes (key : Key) (x : Content) : List Written :=
  match x.associations key with
  | none => []
  | some a =>
    if a.metadata.isPaused then []
    else if a.metadata.isBeingDeleted then
      if a.metadata.hasFinalizer watchFinalizerName then [.finalizers key] else []
    else
      (if a.metadata.hasFinalizer watchFinalizerName then [] else [.finalizers key]) ++
        (x.kibanaWrites a ++ x.statusWrites a)

end Content

namespace Reconcile.Stage

variable {c c' : Cluster} {k : Key} {s s' : Stage} {a : Association} {new : Status}
  {error : Option ReconcileError}

/-- A call, and what is written after its answer. -/
theorem writes_of_answer {call : Call} {next : call.Answer → Stage} {answer : call.Answer}
    (hv : s.view = .inr ⟨call, next⟩) (h : c.answer call = (answer, c')) (hs : next answer = s') :
    s.program.writes c = (call.written? answer).toList ++ s'.program.writes c' := by
  subst hs
  rw [program_eq_ask hv fun _ => rfl]
  simp only [Calls.writes, h]

/-- A call that writes nothing. -/
theorem writes_of_idle {call : Call} {next : call.Answer → Stage} {answer : call.Answer}
    {l : List Written} (hv : s.view = .inr ⟨call, next⟩) (h : c.answer call = (answer, c'))
    (hw : call.written? answer = none) (hs : next answer = s') (hl : s'.program.writes c' = l) :
    s.program.writes c = l := by
  rw [writes_of_answer hv h hs, hw, hl]
  rfl

@[simp] theorem writes_ended (o : Outcome) (c : Cluster) : (ended o).program.writes c = [] := by
  rw [program_ended]
  rfl

/-! ## From the status on -/

theorem writes_storeStatus (hcalm : c.Calm) (h : Live k a c) (new : Status)
    (error : Option ReconcileError) :
    (storeStatus a new error).program.writes c = [.status a.key] := by
  have hst : c.store.associations.find? a.key = some a := h.key.symm ▸ h.stored
  have hget := hcalm.updateAssociationStatus_of_stored (a := { a with status := new }) hst rfl
  rw [writes_of_answer rfl hget rfl, writes_ended]
  rfl

theorem writes_reported (hcalm : c.Calm) (h : Live k a c) (new : Status)
    (error : Option ReconcileError) : (reported a new error).program.writes c =
      if a.status = new then [] else [.status a.key] := by
  unfold reported
  split
  · exact writes_ended ..
  · exact writes_storeStatus hcalm h new error

/-- A Kibana instance that has its configuration, or for which none is known, is not written. -/
theorem writes_reported_of_reached (hcalm : c.Calm) (h : Live k a c) (hr : Reached a new c)
    (error : Option ReconcileError) : (reported a new error).program.writes c =
      c.content.kibanaWrites a ++ c.content.statusWrites a := by
  have hkb : c.content.kibanaWrites a = [] := by
    unfold Content.kibanaWrites
    split
    next kb hkb => exact if_pos (hr.kibana kb hkb)
    next => rfl
  rw [hkb, List.nil_append, Content.statusWrites, hr.status]
  exact writes_reported hcalm h new error

theorem writes_configure (hcalm : c.Calm) (hkeyed : c.store.Keyed) (h : Live k a c)
    (hw : Watched a c) {kb : Kibana} {expected : Backend}
    (hk : c.store.kibanas.find? a.spec.kibana = some kb)
    (hb : c.content.backend? a = some expected) (hne : kb.spec.backend ≠ expected) :
    (configure a (kb.withBackend expected)).program.writes c =
      c.content.kibanaWrites a ++ c.content.statusWrites a := by
  have hkey : kb.key = a.spec.kibana := hkeyed.kibanas hk
  have hst : c.store.kibanas.find? (kb.withBackend expected).key = some kb := hkey.symm ▸ hk
  have hget := hcalm.updateKibana_of_stored hst rfl
  rw [show (kb.withBackend expected).key = a.spec.kibana from hkey] at hget
  have hconf : c.content.configured? a = some (kb.unversioned.withBackend expected) :=
    Content.configured?_eq_some.2 ⟨⟨hw.elasticsearch, hw.kibana⟩, _, _,
      congrArg (Option.map Kibana.unversioned) hk, hb, rfl⟩
  have hold : c.content.kibanas a.spec.kibana ≠ some (kb.unversioned.withBackend expected) := by
    intro he
    have he := Option.some.inj ((congrArg (Option.map Kibana.unversioned) hk).symm.trans he)
    exact hne (congrArg (·.spec.backend) he)
  have h' : Live k a (c.putKibana a.spec.kibana ((kb.withBackend expected).rewritten kb)
      (c.store.writes + ⟨0, 0, 1⟩)) := ⟨h.stored, h.key, h.paused, h.deleted, h.named⟩
  have hcalm' : (c.putKibana a.spec.kibana ((kb.withBackend expected).rewritten kb)
      (c.store.writes + ⟨0, 0, 1⟩)).Calm := hcalm
  have hstatus : c.content.status a = .established := by
    unfold Content.status
    rw [if_pos ⟨hw.elasticsearch, hw.kibana⟩, hconf]
    rfl
  have hwritten : (Call.updateKibana (kb.withBackend expected)).written?
      (.ok ((kb.withBackend expected).rewritten kb)) = some (.kibana a.spec.kibana) :=
    congrArg (some ∘ Written.kibana) hkey
  rw [writes_of_answer rfl hget (show _ = reported a .established none from rfl), hwritten,
    writes_reported hcalm' h', Content.kibanaWrites, hconf, Content.statusWrites, hstatus]
  simp only [if_neg hold]
  rfl

/-! ## Reading what an association depends on -/

theorem writes_readKibana (hcalm : c.Calm) (hkeyed : c.store.Keyed) (h : Live k a c)
    (hw : Watched a c) {expected : Backend} (hb : c.content.backend? a = some expected) :
    (readKibana a expected).program.writes c =
      c.content.kibanaWrites a ++ c.content.statusWrites a := by
  have hget := hcalm.getKibana a.spec.kibana
  cases hk : c.store.kibanas.find? a.spec.kibana with
  | none =>
    rw [Table.get_eq_error hk] at hget
    have hn := Content.configured?_eq_none (x := c.content) (a := a)
      (.inr (congrArg (Option.map Kibana.unversioned) hk))
    refine writes_of_idle rfl hget rfl rfl ?_
    exact writes_reported_of_reached hcalm h (hw.reached_pending hn) _
  | some kb =>
    rw [Table.get_eq_ok hk] at hget
    by_cases he : kb.spec.backend = expected
    · refine writes_of_idle rfl hget rfl (if_pos he) ?_
      exact writes_reported_of_reached hcalm h (hw.reached_same hk (he ▸ hb)) _
    · refine writes_of_idle rfl hget rfl (if_neg he) ?_
      exact writes_configure hcalm hkeyed h hw hk hb he

theorem writes_readElasticsearch (hcalm : c.Calm) (hkeyed : c.store.Keyed) (h : Live k a c)
    (hw : Watched a c) :
    (readElasticsearch a).program.writes c =
      c.content.kibanaWrites a ++ c.content.statusWrites a := by
  have pending : ∀ {error}, c.content.backend? a = none →
      (reported a .pending error).program.writes c =
        c.content.kibanaWrites a ++ c.content.statusWrites a := fun hn =>
    writes_reported_of_reached hcalm h
      (hw.reached_pending (Content.configured?_eq_none (.inl hn))) _
  have hget := hcalm.getElasticsearch a.spec.elasticsearch
  cases hes : c.store.elasticsearches.find? a.spec.elasticsearch with
  | none =>
    rw [Table.get_eq_error hes] at hget
    refine writes_of_idle rfl hget rfl rfl ?_
    exact pending (backend?_eq_none_of_elasticsearch hes)
  | some es =>
    rw [Table.get_eq_ok hes] at hget
    refine writes_of_idle rfl hget rfl rfl ?_
    have husers := hcalm.getSecret es.usersSecret
    have hb := backend?_of_elasticsearch hes
    cases hu : c.store.secrets.find? es.usersSecret with
    | none =>
      rw [Table.get_eq_error hu] at husers
      refine writes_of_idle rfl husers rfl rfl ?_
      exact pending (by rw [hb, hu]; rfl)
    | some users =>
      rw [Table.get_eq_ok hu] at husers
      rw [hu, Option.bind_some] at hb
      cases hp : users.text? Elasticsearch.kibanaUser with
      | none =>
        refine writes_of_idle rfl husers rfl (by simp only [hp]; rfl) ?_
        exact pending (by rw [hb, hp]; rfl)
      | some password =>
        refine writes_of_idle rfl husers rfl (show _ = readCa a es password by simp only [hp]) ?_
        rw [hp, Option.bind_some] at hb
        have hca := hcalm.getSecret es.caSecret
        cases hc : c.store.secrets.find? es.caSecret with
        | none =>
          rw [Table.get_eq_error hc] at hca
          refine writes_of_idle rfl hca rfl rfl ?_
          exact pending (by rw [hb, hc]; rfl)
        | some ca =>
          rw [Table.get_eq_ok hc] at hca
          refine writes_of_idle rfl hca rfl rfl ?_
          exact writes_readKibana hcalm hkeyed h hw (by rw [hb, hc]; rfl)

/-! ## A whole reconcile -/

theorem writes_watchKibana (hcalm : c.Calm) (hkeyed : c.store.Keyed)
    (h : Live k a c) (hw : a.elasticsearchWatch.isComplete)
    (hf : c.watches.elasticsearch.find? a.elasticsearchWatch.name = some a.elasticsearchWatch) :
    (watchKibana a).program.writes c = c.content.kibanaWrites a ++ c.content.statusWrites a := by
  cases hr : (c.watches.get .kibana).add a.kibanaWatch with
  | error e =>
    have hk : ¬a.kibanaWatch.isComplete := Registry.incomplete_of_add hr
    have hreached : Reached a .failed c := by
      refine ⟨if_neg fun h => hk h.2, fun kb hkb => ?_, Watches.tend_eq_self hw hf fun h => ?_⟩
      · exact absurd (Content.configured?_eq_some.1 hkb).1.2 hk
      · exact absurd h hk
    refine writes_of_idle rfl (Cluster.answer_addWatch_of_refused hr) rfl rfl ?_
    exact writes_reported_of_reached hcalm h hreached _
  | ok r =>
    have hk := (Registry.complete_of_add hr).1
    refine writes_of_idle rfl (c.answer_addWatch_of_complete .kibana hk) rfl rfl ?_
    exact writes_readElasticsearch hcalm hkeyed (h.setRegistry ..)
      ⟨hw, hk, hf, Dict.find?_insert_self ..⟩

theorem writes_watchElasticsearch (hcalm : c.Calm) (hkeyed : c.store.Keyed) (h : Live k a c) :
    (watchElasticsearch a).program.writes c =
      c.content.kibanaWrites a ++ c.content.statusWrites a := by
  cases hr : (c.watches.get .elasticsearch).add a.elasticsearchWatch with
  | error e =>
    have hw : ¬a.elasticsearchWatch.isComplete := Registry.incomplete_of_add hr
    have hreached : Reached a .failed c := by
      refine ⟨if_neg fun h => hw h.1, fun kb hkb => ?_, if_neg hw⟩
      exact absurd (Content.configured?_eq_some.1 hkb).1.1 hw
    refine writes_of_idle rfl (Cluster.answer_addWatch_of_refused hr) rfl rfl ?_
    exact writes_reported_of_reached hcalm h hreached _
  | ok r =>
    have hw := (Registry.complete_of_add hr).1
    refine writes_of_idle rfl (c.answer_addWatch_of_complete .elasticsearch hw) rfl rfl ?_
    exact writes_watchKibana hcalm hkeyed (h.setRegistry ..) hw (Dict.find?_insert_self ..)

theorem writes_register (hcalm : c.Calm) (hkeyed : c.store.Keyed)
    (ha : c.store.associations.find? a.key = some a) (hp : ¬a.metadata.isPaused)
    (hd : ¬a.metadata.isBeingDeleted) : (register a).program.writes c =
      .finalizers a.key :: (c.content.kibanaWrites a ++ c.content.statusWrites a) := by
  have hst : c.store.associations.find? (marked a).key = some a := (key_marked a).symm ▸ ha
  have hget := hcalm.updateAssociation_of_stored hst (version_marked a)
  rw [key_marked] at hget
  have hlive := (live_register ha hp hd (c.store.writes + ⟨1, 0, 0⟩)).1
  have hfinal : finalized ((marked a).rewritten a) = watchElasticsearch ((marked a).rewritten a) :=
    if_neg hlive.deleted
  have hwritten : (Call.updateAssociation (marked a)).written? (.ok ((marked a).rewritten a)) =
      some (.finalizers a.key) := congrArg (some ∘ Written.finalizers) (key_marked a)
  have hkey : ((marked a).rewritten a).key = a.key := rfl
  have hrest := writes_watchElasticsearch (c := c.putAssociation a.key _ _) hcalm
    (hkeyed.putAssociation hkey _) hlive
  rw [writes_of_answer rfl hget hfinal, hwritten, hrest]
  rfl

theorem writes_release (hcalm : c.Calm) (h : Leaving k a c) :
    (release a).program.writes c = [.finalizers a.key] := by
  have hst : c.store.associations.find? (unmarked a).key = some a := h.key.symm ▸ h.stored
  have hget := hcalm.updateAssociation_of_stored hst rfl
  have hd : ((unmarked a).rewritten a).metadata.isBeingDeleted := h.deleted
  have hfinal : finalized ((unmarked a).rewritten a) = ended (.ok .done) := if_pos hd
  rw [writes_of_answer rfl hget hfinal, writes_ended]
  rfl

theorem writes_opened (hcalm : c.Calm) (hkeyed : c.store.Keyed)
    (ha : c.store.associations.find? k = some a) :
    (opened k a).program.writes c = c.content.writes k := by
  have hkey : a.key = k := hkeyed.associations ha
  have hc : c.content.associations k = some a.unversioned :=
    congrArg (Option.map Association.unversioned) ha
  unfold Content.writes opened
  rw [hc]
  simp only [show a.unversioned.metadata.isPaused = a.metadata.isPaused from rfl,
    show a.unversioned.metadata.isBeingDeleted = a.metadata.isBeingDeleted from rfl,
    show ∀ name, a.unversioned.metadata.hasFinalizer name = a.metadata.hasFinalizer name
      from fun _ => rfl]
  split
  next => exact writes_ended ..
  next hp =>
    split
    next hd =>
      split
      next hn =>
        have hl : Leaving k a c := ⟨ha, hkey, hp, hd, hn⟩
        refine writes_of_idle rfl rfl rfl rfl (writes_of_idle rfl rfl rfl rfl ?_)
        rw [← hkey]
        exact writes_release hcalm ((hl.setRegistry .kibana _).setRegistry .elasticsearch _)
      next => exact writes_ended ..
    next hd =>
      split
      next hn => exact writes_watchElasticsearch hcalm hkeyed ⟨ha, hkey, hp, hd, hn⟩
      next =>
        subst hkey
        exact writes_register hcalm hkeyed ha hp hd

end Reconcile.Stage

/-- A reconcile that runs alone on a calm cluster writes just what is to be written. -/
theorem writes_reconcile {c : Cluster} (hcalm : c.Calm) (hkeyed : c.store.Keyed) (key : Key) :
    (reconcile key).writes c = c.content.writes key := by
  rw [reconcile_eq_program]
  have hget := hcalm.getAssociation key
  cases ha : c.store.associations.find? key with
  | none =>
    rw [Table.get_eq_error ha] at hget
    have hc : c.content.associations key = none :=
      congrArg (Option.map Association.unversioned) ha
    refine Stage.writes_of_idle rfl hget rfl rfl ?_
    rw [Stage.writes_ended, Content.writes, hc]
  | some a =>
    rw [Table.get_eq_ok ha] at hget
    exact Stage.writes_of_idle rfl hget rfl rfl (Stage.writes_opened hcalm hkeyed ha)

end ClusterLink

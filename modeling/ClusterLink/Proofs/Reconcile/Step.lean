import ClusterLink.Proofs.Reconcile.Stage
import ClusterLink.Proofs.Store.Reachable

/-! What one call of a reconcile can do: `Stage.Step` has one rule for each stage and each way in
which its call can come out, with what that tells about the store. -/

namespace ClusterLink

namespace Cluster

/-- The cluster whose store has other faults. -/
def withFaults (c : Cluster) (fault? : Operation → Option StoreError) : Cluster :=
  { c with store := c.store.withFaults fault? }

def putAssociation (c : Cluster) (key : Key) (a : Association) (writes : WriteCounts) : Cluster :=
  { c with store := c.store.putAssociation key a writes }

def putKibana (c : Cluster) (key : Key) (kb : Kibana) (writes : WriteCounts) : Cluster :=
  { c with store := c.store.putKibana key kb writes }

def setRegistry (c : Cluster) (side : Side) (r : Registry) : Cluster :=
  { c with watches := c.watches.set side r }

end Cluster

/-- What every call keeps, a program keeps that runs alone. -/
theorem Calls.alone_keeps {P : Cluster → Prop} (h : ∀ {c}, P c → ∀ q, P (c.answer q).2)
    (p : Calls α) {c : Cluster} (hc : P c) : P (p.alone c).2 := by
  induction p generalizing c with
  | done => exact hc
  | ask q next ih => exact ih _ (h hc q)

namespace Reconcile.Stage

/-- One call of a reconcile, from a stage and a cluster to a stage and a cluster. -/
inductive Step : Stage → Cluster → Stage → Cluster → Prop where
  | fetch {c : Cluster} {key a} (hf : c.store.fault? .getAssociation = none)
      (h : c.store.associations.find? key = some a) : Step (.fetch key) c (opened key a) c
  | fetchFails {c : Cluster} {key e f}
      (h : c.store.ReadFails .getAssociation c.store.associations key e) :
      Step (.fetch key) c
        (.ended (if e.isNotFound then .ok .done else .failed .done (.store e))) (c.withFaults f)
  | register {c : Cluster} {a stored writes} (hf : c.store.fault? .updateAssociation = none)
      (h : c.store.associations.Accepts (marked a) stored) :
      Step (.register a) c (finalized ((marked a).rewritten stored))
        (c.putAssociation a.key ((marked a).rewritten stored) writes)
  | registerFails {c : Cluster} {a e f}
      (h : c.store.WriteFails .updateAssociation c.store.associations (marked a) e) :
      Step (.register a) c (.ended (.failed .retry (.finalizer (.store e)))) (c.withFaults f)
  | unwatchKibana {c key a} : Step (.unwatchKibana key a) c (.unwatchElasticsearch key a)
      (c.setRegistry .kibana ((c.watches.get .kibana).erase (Watch.kibanaName key)))
  | unwatchElasticsearch {c key a} : Step (.unwatchElasticsearch key a) c (.release a)
      (c.setRegistry .elasticsearch
        ((c.watches.get .elasticsearch).erase (Watch.elasticsearchName key)))
  | release {c : Cluster} {a stored writes} (hf : c.store.fault? .updateAssociation = none)
      (h : c.store.associations.Accepts (unmarked a) stored) :
      Step (.release a) c (finalized ((unmarked a).rewritten stored))
        (c.putAssociation a.key ((unmarked a).rewritten stored) writes)
  | releaseFails {c : Cluster} {a e f}
      (h : c.store.WriteFails .updateAssociation c.store.associations (unmarked a) e) :
      Step (.release a) c (.ended (.failed .retry (.finalizer (.store e)))) (c.withFaults f)
  | watchElasticsearch {c : Cluster} {a r} (h : (c.watches.get .elasticsearch).add
        ⟨Watch.elasticsearchName a.key, a.spec.elasticsearch, a.key⟩ = .ok r) :
      Step (.watchElasticsearch a) c (.watchKibana a) (c.setRegistry .elasticsearch r)
  | watchElasticsearchFails {c : Cluster} {a e} (h : (c.watches.get .elasticsearch).add
        ⟨Watch.elasticsearchName a.key, a.spec.elasticsearch, a.key⟩ = .error e) :
      Step (.watchElasticsearch a) c (reported a .failed (some (.watch e))) c
  | watchKibana {c : Cluster} {a r} (h : (c.watches.get .kibana).add
        ⟨Watch.kibanaName a.key, a.spec.kibana, a.key⟩ = .ok r) :
      Step (.watchKibana a) c (.readElasticsearch a) (c.setRegistry .kibana r)
  | watchKibanaFails {c : Cluster} {a e} (h : (c.watches.get .kibana).add
        ⟨Watch.kibanaName a.key, a.spec.kibana, a.key⟩ = .error e) :
      Step (.watchKibana a) c (reported a .failed (some (.watch e))) c
  | readElasticsearch {c : Cluster} {a es} (hf : c.store.fault? .getElasticsearch = none)
      (h : c.store.elasticsearches.find? a.spec.elasticsearch = some es) :
      Step (.readElasticsearch a) c (.readUsers a es) c
  | readElasticsearchMisses {c : Cluster} {a e f}
      (h : c.store.ReadFails .getElasticsearch c.store.elasticsearches a.spec.elasticsearch e)
      (he : e.isNotFound) :
      Step (.readElasticsearch a) c (reported a .pending none) (c.withFaults f)
  | readElasticsearchFails {c : Cluster} {a e f}
      (h : c.store.ReadFails .getElasticsearch c.store.elasticsearches a.spec.elasticsearch e)
      (he : ¬e.isNotFound) :
      Step (.readElasticsearch a) c (reported a .failed (some (.store e))) (c.withFaults f)
  | readUsers {c : Cluster} {a es users password} (hf : c.store.fault? .getSecret = none)
      (h : c.store.secrets.find? es.usersSecret = some users)
      (hp : users.text? Elasticsearch.kibanaUser = some password) :
      Step (.readUsers a es) c (.readCa a es password) c
  | readUsersMisses {c : Cluster} {a es users} (hf : c.store.fault? .getSecret = none)
      (h : c.store.secrets.find? es.usersSecret = some users)
      (hp : users.text? Elasticsearch.kibanaUser = none) :
      Step (.readUsers a es) c (reported a .pending
        (some (.missingCredential es.usersSecret Elasticsearch.kibanaUser))) c
  | readUsersFails {c : Cluster} {a} {es : Elasticsearch} {e f}
      (h : c.store.ReadFails .getSecret c.store.secrets es.usersSecret e) :
      Step (.readUsers a es) c (reported a (statusOf (.store e)) (some (.store e)))
        (c.withFaults f)
  | readCa {c : Cluster} {a} {es : Elasticsearch} {password ca}
      (hf : c.store.fault? .getSecret = none) (h : c.store.secrets.find? es.caSecret = some ca) :
      Step (.readCa a es password) c (.readKibana a (backendFor es password ca)) c
  | readCaFails {c : Cluster} {a} {es : Elasticsearch} {password e f}
      (h : c.store.ReadFails .getSecret c.store.secrets es.caSecret e) :
      Step (.readCa a es password) c (reported a (statusOf (.store e)) (some (.store e)))
        (c.withFaults f)
  | readKibanaSame {c : Cluster} {a expected kb} (hf : c.store.fault? .getKibana = none)
      (h : c.store.kibanas.find? a.spec.kibana = some kb) (hb : kb.spec.backend = expected) :
      Step (.readKibana a expected) c (reported a .established none) c
  | readKibana {c : Cluster} {a expected kb} (hf : c.store.fault? .getKibana = none)
      (h : c.store.kibanas.find? a.spec.kibana = some kb) (hb : kb.spec.backend ≠ expected) :
      Step (.readKibana a expected) c (.configure a (kb.withBackend expected)) c
  | readKibanaFails {c : Cluster} {a expected e f}
      (h : c.store.ReadFails .getKibana c.store.kibanas a.spec.kibana e) :
      Step (.readKibana a expected) c (reported a (statusOf (.store e)) (some (.store e)))
        (c.withFaults f)
  | configure {c : Cluster} {a kb stored writes} (hf : c.store.fault? .updateKibana = none)
      (h : c.store.kibanas.Accepts kb stored) :
      Step (.configure a kb) c (reported a .established none)
        (c.putKibana kb.key (kb.rewritten stored) writes)
  | configureFails {c : Cluster} {a kb e f}
      (h : c.store.WriteFails .updateKibana c.store.kibanas kb e) :
      Step (.configure a kb) c (reported a .pending (some (.store e))) (c.withFaults f)
  | storeStatus {c : Cluster} {a stored new error writes}
      (hf : c.store.fault? .updateAssociationStatus = none)
      (h : c.store.associations.Accepts { a with status := new } stored) :
      Step (.storeStatus a new error) c (.ended ⟨.ofStatus new, error⟩)
        (c.putAssociation a.key (Association.restated { a with status := new } stored) writes)
  | storeStatusFails {c : Cluster} {a new error e f}
      (h : c.store.WriteFails .updateAssociationStatus c.store.associations
        { a with status := new } e) :
      Step (.storeStatus a new error) c (.ended (.failed .retry (.store e))) (c.withFaults f)

/-- Every answer to the call of a stage is one of the rules. -/
theorem step_of_view {s : Stage} {call : Call} {next : call.Answer → Stage}
    (h : s.view = .inr ⟨call, next⟩) (c : Cluster) :
    Step s c (next (c.answer call).1) (c.answer call).2 := by
  cases s <;> simp only [view, reduceCtorEq, Sum.inr.injEq, Sigma.mk.injEq] at h
  all_goals obtain ⟨rfl, h⟩ := h; cases h
  case fetch key =>
    rcases c.store.getAssociation_cases key with ⟨e, f, h, hr⟩ | ⟨a, hf, ha, h⟩
    · simp only [Cluster.answer, Cluster.withStore, h]
      exact .fetchFails hr
    · simp only [Cluster.answer, Cluster.withStore, h]
      exact .fetch hf ha
  case register a =>
    rcases c.store.updateAssociation_cases (marked a) with ⟨e, f, h, hr⟩ | ⟨stored, w, hf, ha, h⟩
    · simp only [Cluster.answer, Cluster.withStore, h]
      exact .registerFails hr
    · simp only [Cluster.answer, Cluster.withStore, h, key_marked]
      exact .register hf ha
  case release a =>
    rcases c.store.updateAssociation_cases (unmarked a) with ⟨e, f, h, hr⟩ | ⟨stored, w, hf, ha, h⟩
    · simp only [Cluster.answer, Cluster.withStore, h]
      exact .releaseFails hr
    · simp only [Cluster.answer, Cluster.withStore, h]
      exact .release hf ha
  case unwatchKibana key a => exact .unwatchKibana
  case unwatchElasticsearch key a => exact .unwatchElasticsearch
  case watchElasticsearch a =>
    simp only [Cluster.answer]
    cases h : (c.watches.get .elasticsearch).add
      ⟨Watch.elasticsearchName a.key, a.spec.elasticsearch, a.key⟩ with
    | error e => exact .watchElasticsearchFails h
    | ok r => exact .watchElasticsearch h
  case watchKibana a =>
    simp only [Cluster.answer]
    cases h : (c.watches.get .kibana).add ⟨Watch.kibanaName a.key, a.spec.kibana, a.key⟩ with
    | error e => exact .watchKibanaFails h
    | ok r => exact .watchKibana h
  case readElasticsearch a =>
    rcases c.store.getElasticsearch_cases a.spec.elasticsearch with
      ⟨e, f, h, hr⟩ | ⟨es, hf, hes, h⟩
    · simp only [Cluster.answer, Cluster.withStore, h]
      split
      next he => exact .readElasticsearchMisses hr he
      next he => exact .readElasticsearchFails hr he
    · simp only [Cluster.answer, Cluster.withStore, h]
      exact .readElasticsearch hf hes
  case readUsers a es =>
    rcases c.store.getSecret_cases es.usersSecret with ⟨e, f, h, hr⟩ | ⟨users, hf, hu, h⟩
    · simp only [Cluster.answer, Cluster.withStore, h]
      exact .readUsersFails hr
    · simp only [Cluster.answer, Cluster.withStore, h]
      split
      next password hp => exact .readUsers hf hu hp
      next hp => exact .readUsersMisses hf hu hp
  case readCa a es password =>
    rcases c.store.getSecret_cases es.caSecret with ⟨e, f, h, hr⟩ | ⟨ca, hf, hc, h⟩
    · simp only [Cluster.answer, Cluster.withStore, h]
      exact .readCaFails hr
    · simp only [Cluster.answer, Cluster.withStore, h]
      exact .readCa hf hc
  case readKibana a expected =>
    rcases c.store.getKibana_cases a.spec.kibana with ⟨e, f, h, hr⟩ | ⟨kb, hf, hk, h⟩
    · simp only [Cluster.answer, Cluster.withStore, h]
      exact .readKibanaFails hr
    · simp only [Cluster.answer, Cluster.withStore, h]
      split
      next hb => exact .readKibanaSame hf hk hb
      next hb => exact .readKibana hf hk hb
  case configure a kb =>
    rcases c.store.updateKibana_cases kb with ⟨e, f, h, hr⟩ | ⟨stored, w, hf, hk, h⟩
    · simp only [Cluster.answer, Cluster.withStore, h]
      exact .configureFails hr
    · simp only [Cluster.answer, Cluster.withStore, h]
      exact .configure hf hk
  case storeStatus a new error =>
    rcases c.store.updateAssociationStatus_cases { a with status := new } with
      ⟨e, f, h, hr⟩ | ⟨stored, w, hf, ha, h⟩
    · simp only [Cluster.answer, Cluster.withStore, h]
      exact .storeStatusFails hr
    · simp only [Cluster.answer, Cluster.withStore, h]
      exact .storeStatus hf ha

/-- A call of a reconcile leads from a stage to a stage. -/
theorem step_of_program {s : Stage} {call : Call} {k : call.Answer → Calls Outcome}
    (h : s.program = .ask call k) (c : Cluster) :
    ∃ s' : Stage, k (c.answer call).1 = s'.program ∧ Step s c s' (c.answer call).2 := by
  obtain ⟨next, hv, hk⟩ := view_of_program_eq_ask h
  exact ⟨_, hk _, step_of_view hv c⟩

/-- A call of a reconcile is a call of the store, or leaves the store alone. -/
theorem Step.called {s s' : Stage} {c c' : Cluster} (h : Step s c s' c') :
    c.store.Called c'.store := by
  cases h with
  | @register _ a _ _ _ h => exact key_marked a ▸ .association h _
  | release _ h => exact .association h _
  | storeStatus _ h => exact .status h _
  | configure _ h => exact .kibana h _
  | _ => exact .same _

/-- What every call of a reconcile keeps holds at its end if it runs alone. -/
theorem alone_ended {Holds : Stage → Cluster → Prop}
    (hstep : ∀ {s : Stage} {c : Cluster} {call : Call} {next : call.Answer → Stage},
      s.view = .inr ⟨call, next⟩ → Holds s c → Holds (next (c.answer call).1) (c.answer call).2)
    {s : Stage} {c : Cluster} (h : Holds s c) :
    Holds (.ended (s.program.alone c).1) (s.program.alone c).2 := by
  induction s using Stage.program.induct generalizing c with
  | case1 s o hv =>
    rw [program_eq_done hv]
    cases s <;> cases hv
    exact h
  | case2 s call next hv ih =>
    rw [program_eq_ask hv fun _ => rfl]
    exact ih _ (hstep hv h)

end Reconcile.Stage

end ClusterLink

import ClusterLink.Proofs.Cluster.Standstill

/-! Which cluster a configuration points at. An address joins the name and the namespace of its
cluster with text that either may contain, so two clusters may have one address. The name of the
secret with the certificate tells them apart, as a secret stands under its own key. Two clusters
that are given one configuration are therefore one cluster with one password, and the Kibana
instance of an association that turns to another cluster is written. -/

namespace ClusterLink

open Reconcile

/-- Clusters of one name are at different addresses. -/
theorem Elasticsearch.key_eq_of_url {e₁ e₂ : Elasticsearch} (hname : e₁.key.name = e₂.key.name)
    (hurl : e₁.url = e₂.url) : e₁.key = e₂.key := by
  have hspace : e₁.key.space = e₂.key.space := by
    unfold url at hurl
    rw [hname] at hurl
    simpa using hurl
  rw [show e₁.key = ⟨e₁.key.space, e₁.key.name⟩ from rfl, hspace, hname]

/-- The name of a cluster may hold what another has in its namespace. -/
example : Elasticsearch.url ⟨.new ⟨"b-es-public.c", "a"⟩, default⟩ =
    Elasticsearch.url ⟨.new ⟨"c", "a-es-public.b"⟩, default⟩ := by decide

/-- The password that a store holds for a cluster. -/
def Store.password? (s : Store) (es : Elasticsearch) : Option String :=
  (s.secrets.find? es.usersSecret).bind (·.text? Elasticsearch.kibanaUser)

variable {c c₁ c₂ : Cluster} {es e₁ e₂ : Elasticsearch} {b expected : Backend} {a : Association}
  {kb : Kibana}

/-! ## The configuration for a cluster -/

theorem Cluster.find?_of_getSecret {key : Key} {secret : Secret}
    (h : (c.answer (.getSecret key)).1 = .ok secret) : c.store.secrets.find? key = some secret := by
  rcases c.store.getSecret_cases key with ⟨e, f, hr, -⟩ | ⟨_, -, hs, hr⟩
  · simp [answer, withStore, hr] at h
  · simp only [answer, withStore, hr, Except.ok.injEq] at h
    exact h ▸ hs

/-- A configuration is made from two secrets that are there, whatever faults wait. -/
theorem expectedBackend_eq_ok (h : ((expectedBackend es).alone c).1 = .ok b) :
    ∃ users password ca, c.store.secrets.find? es.usersSecret = some users ∧
      users.text? Elasticsearch.kibanaUser = some password ∧
      c.store.secrets.find? es.caSecret = some ca ∧ b = backendFor es password ca := by
  simp only [expectedBackend, Calls.alone, Program.bind_eq, Program.request, Program.ask_bind,
    Program.done_bind, Program.run] at h
  cases hu : (c.answer (.getSecret es.usersSecret)).1 with
  | error e => simp [hu] at h
  | ok users =>
    simp only [hu] at h
    cases hp : users.text? Elasticsearch.kibanaUser with
    | none => simp [hp] at h
    | some password =>
      simp only [hp, Program.run] at h
      split at h
      next => simp at h
      next ca hca =>
        have hca := Cluster.find?_of_getSecret hca
        rw [(c.answer_called _).secrets] at hca
        simp only [Program.pure_eq, Program.run_done, Except.ok.injEq] at h
        exact ⟨users, password, ca, Cluster.find?_of_getSecret hu, hp, hca, h.symm⟩

theorem expectedBackend_of_secrets (h : c.Calm) {users ca : Secret} {password : String}
    (hu : c.store.secrets.find? es.usersSecret = some users)
    (hp : users.text? Elasticsearch.kibanaUser = some password)
    (hca : c.store.secrets.find? es.caSecret = some ca) :
    ((expectedBackend es).alone c).1 = .ok (backendFor es password ca) := by
  simp only [expectedBackend, Calls.alone, Program.bind_eq, Program.request, Program.ask_bind,
    Program.done_bind, Program.run, h.getSecret, Table.get_eq_ok hu, hp, Table.get_eq_ok hca]
  rfl

/-- One configuration is that of one cluster with one password. -/
theorem eq_of_expectedBackend (hk₁ : c₁.store.Keyed) (hk₂ : c₂.store.Keyed)
    (h₁ : ((expectedBackend e₁).alone c₁).1 = .ok b)
    (h₂ : ((expectedBackend e₂).alone c₂).1 = .ok b) : e₁.key = e₂.key ∧
      ∃ password, c₁.store.password? e₁ = some password ∧
        c₂.store.password? e₂ = some password := by
  obtain ⟨users₁, password, ca₁, hu₁, hp₁, hca₁, rfl⟩ := expectedBackend_eq_ok h₁
  obtain ⟨users₂, password₂, ca₂, hu₂, hp₂, hca₂, heq⟩ := expectedBackend_eq_ok h₂
  simp only [backendFor, Backend.mk.injEq, Option.some.injEq, InlineAuth.mk.injEq, true_and] at heq
  obtain ⟨hurl, rfl, hca⟩ := heq
  have hkey₁ : ca₁.key = e₁.key := hk₁.secrets hca₁
  have hkey₂ : ca₂.key = e₂.key := hk₂.secrets hca₂
  rw [hkey₁, hkey₂] at hca
  exact ⟨Elasticsearch.key_eq_of_url hca hurl, password, by simp [Store.password?, hu₁, hp₁],
    by simp [Store.password?, hu₂, hp₂]⟩

theorem backend?_of_expectedBackend
    (hes : c.store.elasticsearches.find? a.spec.elasticsearch = some es)
    (h : ((expectedBackend es).alone c).1 = .ok expected) :
    c.content.backend? a = some expected := by
  obtain ⟨users, password, ca, hu, hp, hca, rfl⟩ := expectedBackend_eq_ok h
  simp [Stage.backend?_of_elasticsearch hes, hu, hp, hca]

/-! ## The Kibana instance of an association -/

theorem Kibana.eq_withBackend_iff (kb : Kibana) {b : Backend} :
    kb = kb.withBackend b ↔ kb.spec.backend = b := by
  refine ⟨fun h => congrArg (·.spec.backend) h, ?_⟩
  rintro rfl
  rfl

/-- A live association with both of its ends. -/
structure Tied (c : Cluster) (a : Association) (es : Elasticsearch) (kb : Kibana) : Prop where
  stored : c.store.associations.find? a.key = some a
  paused : ¬a.metadata.isPaused
  deleted : ¬a.metadata.isBeingDeleted
  complete : a.elasticsearchWatch.isComplete ∧ a.kibanaWatch.isComplete
  elasticsearch : c.store.elasticsearches.find? a.spec.elasticsearch = some es
  kibana : c.store.kibanas.find? a.spec.kibana = some kb

namespace Tied

theorem kibanas_reconciled (h : Tied c a es kb) (hb : c.content.backend? a = some expected) :
    (c.content.reconciled a.key).kibanas a.spec.kibana =
      some (kb.unversioned.withBackend expected) := by
  have ha : c.content.associations a.key = some a.unversioned :=
    congrArg (Option.map Association.unversioned) h.stored
  have hkb : c.content.kibanas a.spec.kibana = some kb.unversioned :=
    congrArg (Option.map Kibana.unversioned) h.kibana
  have hasked : c.content.asked? a.spec.kibana a.key = some expected := by
    rw [Content.asked?_of_live ha h.paused h.deleted]
    exact (if_pos rfl).trans ((if_pos h.complete).trans hb)
  rw [(c.content.changed a.key).kibanas, hkb, hasked]
  rfl

/-- The Kibana instance is written just if it has another configuration. -/
theorem mem_writes_iff (h : Tied c a es kb) (hcalm : c.Calm) (hkeyed : c.store.Keyed)
    (hb : c.content.backend? a = some expected) :
    .kibana a.spec.kibana ∈ (reconcile a.key).writes c ↔ kb.spec.backend ≠ expected := by
  have hkb : c.content.kibanas a.spec.kibana = some kb.unversioned :=
    congrArg (Option.map Kibana.unversioned) h.kibana
  have hsame : (c.content.reconciled a.key).kibanas a.spec.kibana =
      c.content.kibanas a.spec.kibana ↔ kb.spec.backend = expected := by
    rw [h.kibanas_reconciled hb, hkb, Option.some.injEq, eq_comm]
    exact kb.unversioned.eq_withBackend_iff
  rw [writes_reconcile hcalm hkeyed, ← List.count_pos_iff, Content.count_kibana_writes, ne_eq,
    ← hsame]
  split
  next he => exact ⟨fun hpos => absurd hpos (Nat.lt_irrefl 0), fun hne => absurd he hne⟩
  next hne => exact ⟨fun _ => hne, fun _ => Nat.one_pos⟩

/-- After a reconcile the Kibana instance has the configuration for the cluster. -/
theorem backend_alone (h : Tied c a es kb) (hkeyed : c.store.Keyed) (hplain : c.store.Plain)
    (hb : c.content.backend? a = some expected) :
    ∃ kb', ((reconcile a.key).alone c.calm).2.store.kibanas.find? a.spec.kibana = some kb' ∧
      kb'.spec.backend = expected := by
  have hend := h.kibanas_reconciled hb
  rw [← content_reconcile_calm hkeyed hplain] at hend
  obtain ⟨kb', hkb', hnew⟩ := Option.map_eq_some_iff.1 hend
  exact ⟨kb', hkb', congrArg (·.spec.backend) hnew⟩

end Tied

/-- **A configuration tells its cluster and its password.** Whatever two clusters are called, and
whatever faults wait when their configurations are made: if the configurations are equal, then so
are the namespaces, the names and the passwords. So an association that turns to another cluster,
or whose cluster has another password, gets its Kibana instance written; without tombstones from
outside it then has the configuration for that cluster. -/
theorem backend_tells_cluster_and_password {Allowed : Edit → Prop}
    (hc₁ : c₁.store.Reachable Allowed) (hc₂ : c₂.store.Reachable Allowed)
    (hb : ((expectedBackend e₁).alone c₁).1 = .ok b) :
    (∀ e₂, ((expectedBackend e₂).alone c₂).1 = .ok b → e₁.key = e₂.key ∧
      ∃ password, c₁.store.password? e₁ = some password ∧
        c₂.store.password? e₂ = some password) ∧
    ∀ a es kb expected, Tied c₂ a es kb → kb.spec.backend = b →
      a.spec.elasticsearch ≠ e₁.key ∨ c₂.store.password? es ≠ c₁.store.password? e₁ →
      ((expectedBackend es).alone c₂.calm).1 = .ok expected →
      .kibana a.spec.kibana ∈ (reconcile a.key).writes c₂.calm ∧
      (c₂.store.Reachable Edit.IsPlain → ∃ kb',
        ((reconcile a.key).alone c₂.calm).2.store.kibanas.find? a.spec.kibana = some kb' ∧
          kb'.spec.backend = expected) := by
  have hk₂ : c₂.calm.store.Keyed := hc₂.keyed.withFaults _
  refine ⟨fun e₂ => eq_of_expectedBackend hc₁.keyed hc₂.keyed hb,
    fun a es kb expected h hkb hother hexpected => ?_⟩
  have htied : Tied c₂.calm a es kb := ⟨h.1, h.2, h.3, h.4, h.5, h.6⟩
  have hx : c₂.calm.content.backend? a = some expected :=
    backend?_of_expectedBackend htied.elasticsearch hexpected
  have hne : kb.spec.backend ≠ expected := by
    rintro rfl
    obtain ⟨hkey, password, hp₁, hp₂⟩ :=
      eq_of_expectedBackend hc₁.keyed hk₂ hb (hkb ▸ hexpected)
    have hes : es.key = a.spec.elasticsearch := hc₂.keyed.elasticsearches h.elasticsearch
    rcases hother with hkey' | hp
    · exact hkey' (hkey.trans hes).symm
    · exact hp (hp₂.trans hp₁.symm)
  exact ⟨(htied.mem_writes_iff c₂.calm_calm hk₂ hx).2 hne,
    fun hplain => h.backend_alone hc₂.keyed hplain.plain hx⟩

/-- An association turns to a cluster at the address of the one before. -/
theorem backend_tells_cluster_at_one_address :
    let e₁ : Elasticsearch := ⟨.new ⟨"b-es-public.c", "a"⟩, ⟨"8.0", 1⟩⟩
    let e₂ : Elasticsearch := ⟨.new ⟨"c", "a-es-public.b"⟩, ⟨"8.0", 1⟩⟩
    let users (es : Elasticsearch) : Secret :=
      ⟨.new es.usersSecret, .ofList [(Elasticsearch.kibanaUser, [112])]⟩
    let ca (es : Elasticsearch) : Secret := ⟨.new es.caSecret, ∅⟩
    let b : Backend := backendFor e₁ "p" (ca e₁)
    let kb : Kibana := ⟨.new ⟨"ns", "kb"⟩, ⟨"8.0", 1, b⟩⟩
    let a : Association := ⟨.new ⟨"ns", "a"⟩, ⟨e₂.key, kb.key⟩, .unknown⟩
    let edits : List Edit := [.apply (.secret (users e₁)), .apply (.secret (ca e₁)),
      .apply (.secret (users e₂)), .apply (.secret (ca e₂)), .apply (.elasticsearch e₁),
      .apply (.elasticsearch e₂), .apply (.kibana kb), .apply (.association a)]
    let c : Cluster := ⟨edits.foldl Store.edit (.new 4), .empty⟩
    e₁.url = e₂.url ∧ ((expectedBackend e₁).alone c).1 = .ok b ∧
      ((expectedBackend e₂).alone c).1 ≠ .ok b ∧
      .kibana kb.key ∈ (reconcile a.key).writes c.calm := by
  intro e₁ e₂ users ca b kb a edits c
  have hs : c.store.Reachable Edit.IsPlain := .edits (.new 4) (by decide)
  have hcalm : c.Calm := fun op => by cases op <;> rfl
  have hu₁ : c.store.secrets.find? e₁.usersSecret =
      some (Table.created (.generated 0) (users e₁)) := by decide
  have hp₁ : (Table.created (.generated 0) (users e₁)).text? Elasticsearch.kibanaUser =
      some "p" := by decide
  have hca₁ : c.store.secrets.find? e₁.caSecret =
      some (Table.created (.generated 1) (ca e₁)) := by decide
  let stored : Elasticsearch := Table.created (.generated 5) e₂
  have hu₂ : c.store.secrets.find? stored.usersSecret =
      some (Table.created (.generated 2) (users e₂)) := by decide
  have hp₂ : (Table.created (.generated 2) (users e₂)).text? Elasticsearch.kibanaUser =
      some "p" := by decide
  have hca₂ : c.store.secrets.find? stored.caSecret =
      some (Table.created (.generated 3) (ca e₂)) := by decide
  have htied : Tied c (Table.created (.generated 7) a) stored (Table.created (.generated 6) kb) :=
    ⟨by decide, by decide, by decide, by decide, by decide, by decide⟩
  have hb : ((expectedBackend e₁).alone c).1 = .ok b :=
    (expectedBackend_of_secrets hcalm hu₁ hp₁ hca₁).trans rfl
  have hb₂ : ((expectedBackend stored).alone c.calm).1 = .ok (backendFor stored "p" (ca e₂)) :=
    (expectedBackend_of_secrets c.calm_calm hu₂ hp₂ hca₂).trans rfl
  obtain ⟨hsame, hwrite⟩ := backend_tells_cluster_and_password hs hs hb
  have hkey : e₁.key ≠ e₂.key := by decide
  exact ⟨by decide, hb, fun h => hkey (hsame e₂ h).1,
    (hwrite _ _ _ _ htied rfl (.inl hkey.symm) hb₂).1⟩

end ClusterLink

import ClusterLink.Proofs.Reconcile.Step
import ClusterLink.Proofs.Store.Log
import ClusterLink.Proofs.Watch.Registry

/-! What a reconcile has read is current, or news of it are on their way. `Stage.Current` says for
each stage what was read so far, where `news` are the objects that somebody is about to look up the
watchers of. It survives the work of others (`Stage.Current.mono`), and each call takes it to the
next stage unless it is logged as a change of the association itself (`Stage.Step.current`). -/

namespace ClusterLink

open Reconcile

namespace Cluster

/-- The watch of an association on an object is there. -/
def Registered (c : Cluster) (side : Side) (key watched : Key) : Prop :=
  (c.watches.get side).find? (side.watchName key) = some ⟨side.watchName key, watched, key⟩

/-- An association is established, and its Kibana instance has the configuration that belongs to its
cluster. -/
structure Converged (c : Cluster) (a : Association) : Prop where
  status : a.status = .established
  backend : ∃ es users password ca kb,
    c.store.elasticsearches.find? a.spec.elasticsearch = some es ∧
    c.store.secrets.find? es.usersSecret = some users ∧
    users.text? Elasticsearch.kibanaUser = some password ∧
    c.store.secrets.find? es.caSecret = some ca ∧
    c.store.kibanas.find? a.spec.kibana = some kb ∧ kb.spec.backend = backendFor es password ca

variable (news : Side → Key → Prop)

/-- A configuration belongs to the cluster of an association. -/
def Derived (a : Association) (expected : Backend) (c : Cluster) : Prop :=
  ∃ es users password ca,
    (c.store.elasticsearches.find? a.spec.elasticsearch = some es ∨
      news .elasticsearch a.spec.elasticsearch) ∧
    c.store.secrets.find? es.usersSecret = some users ∧
    users.text? Elasticsearch.kibanaUser = some password ∧
    c.store.secrets.find? es.caSecret = some ca ∧ expected = backendFor es password ca

/-- Nothing is to be done for an association until there are news. -/
structure AtRest (key : Key) (a : Association) (c : Cluster) : Prop where
  status : a.status = .established
  elasticsearch : c.Registered .elasticsearch key a.spec.elasticsearch
  kibana : c.Registered .kibana key a.spec.kibana
  configured : ∃ expected, c.Derived news a expected ∧
    ((∃ kb, c.store.kibanas.find? a.spec.kibana = some kb ∧ kb.spec.backend = expected) ∨
      news .kibana a.spec.kibana)

/-- Nothing is to be done for a key until there are news. -/
def Settled (key : Key) (c : Cluster) : Prop :=
  ∀ a, c.store.associations.find? key = some a → ¬a.metadata.isPaused →
    ¬a.metadata.isBeingDeleted → c.AtRest news key a

/-- What the work of others leaves of that which concerns a key, for a new state of the news. -/
structure Keeps (key : Key) (news' : Side → Key → Prop) (c c' : Cluster) : Prop where
  association : c'.store.associations.find? key = c.store.associations.find? key
  secrets : c'.store.secrets = c.store.secrets
  watch : ∀ side, (c'.watches.get side).find? (side.watchName key) =
    (c.watches.get side).find? (side.watchName key)
  elasticsearch : ∀ r, c'.store.elasticsearches.find? r = c.store.elasticsearches.find? r ∨
    news' .elasticsearch r
  kibana : ∀ r, c'.store.kibanas.find? r = c.store.kibanas.find? r ∨ news' .kibana r
  news : ∀ side r, news side r → c'.Registered side key r → news' side r

variable {news} {news' : Side → Key → Prop} {c c' : Cluster} {key : Key} {a : Association}

theorem AtRest.converged_or (h : c.AtRest news key a) :
    c.Converged a ∨ ∃ side r, c.Registered side key r ∧ news side r := by
  obtain ⟨_, ⟨es, users, password, ca, hes, hu, hp, hca, rfl⟩, hkb⟩ := h.configured
  rcases hes with hes | hnews
  · rcases hkb with ⟨kb, hkb, hb⟩ | hnews
    · exact .inl ⟨h.status, es, users, password, ca, kb, hes, hu, hp, hca, hkb, hb⟩
    · exact .inr ⟨_, _, h.kibana, hnews⟩
  · exact .inr ⟨_, _, h.elasticsearch, hnews⟩

theorem Keeps.of_eq (hs : c'.store = c.store) (hw : c'.watches = c.watches)
    (hnews : ∀ side r, news side r → c.Registered side key r → news' side r) :
    Keeps news key news' c c' := by
  obtain ⟨store, watches⟩ := c
  obtain ⟨_, _⟩ := c'
  cases hs
  cases hw
  exact ⟨rfl, rfl, fun _ => rfl, fun _ => .inl rfl, fun _ => .inl rfl, hnews⟩

theorem Keeps.registered (h : Keeps news key news' c c') {side : Side} {r : Key}
    (hr : c.Registered side key r) : c'.Registered side key r :=
  (h.watch side).trans hr

theorem Derived.mono (h : Keeps news key news' c c')
    (hr : c.Registered .elasticsearch key a.spec.elasticsearch) {expected : Backend}
    (hd : c.Derived news a expected) : c'.Derived news' a expected := by
  obtain ⟨es, users, password, ca, hes, hrest⟩ := hd
  refine ⟨es, users, password, ca, ?_, h.secrets ▸ hrest⟩
  rcases hes with hes | hnews
  · exact (h.elasticsearch _).imp_left fun e => e.trans hes
  · exact .inr (h.news _ _ hnews (h.registered hr))

theorem AtRest.mono (h : Keeps news key news' c c') (ha : c.AtRest news key a) :
    c'.AtRest news' key a where
  status := ha.status
  elasticsearch := h.registered ha.elasticsearch
  kibana := h.registered ha.kibana
  configured := by
    obtain ⟨expected, hd, hkb⟩ := ha.configured
    refine ⟨expected, hd.mono h ha.elasticsearch, ?_⟩
    rcases hkb with ⟨kb, hkb, hb⟩ | hnews
    · exact (h.kibana _).imp_left fun e => ⟨kb, e.trans hkb, hb⟩
    · exact .inr (h.news _ _ hnews (h.registered ha.kibana))

theorem Settled.mono (h : Keeps news key news' c c') (hs : c.Settled news key) :
    c'.Settled news' key :=
  fun a ha hp hd => (hs a (h.association ▸ ha) hp hd).mono h

end Cluster

namespace Reconcile.Stage

/-- A stage of reconciling a key, which is one of those that occur once its association was
read. -/
def About (Occurs : Key → Prop) (k : Key) : Stage → Prop
  | .fetch key => key = k
  | .unwatchKibana key a | .unwatchElasticsearch key a => key = k ∧ a.key = k ∧ Occurs k
  | .register a | .release a | .watchElasticsearch a | .watchKibana a | .readElasticsearch a
  | .readUsers a _ | .readCa a _ _ | .readKibana a _ | .storeStatus a _ _ => a.key = k ∧ Occurs k
  | .configure a kb => a.key = k ∧ Occurs k ∧ kb.key = a.spec.kibana
  | .ended _ => True

/-- What was read until a stage is current, or there are news of it. Nothing is claimed of a stage
after which the association is looked at again in any case. -/
def Current (news : Side → Key → Prop) (k : Key) : Stage → Cluster → Prop
  | .watchElasticsearch a, c => c.store.associations.find? k = some a
  | .watchKibana a, c => c.store.associations.find? k = some a ∧
      c.Registered .elasticsearch k a.spec.elasticsearch
  | .readElasticsearch a, c => c.store.associations.find? k = some a ∧
      c.Registered .elasticsearch k a.spec.elasticsearch ∧ c.Registered .kibana k a.spec.kibana
  | .readUsers a es, c => c.store.associations.find? k = some a ∧
      c.Registered .elasticsearch k a.spec.elasticsearch ∧ c.Registered .kibana k a.spec.kibana ∧
      (c.store.elasticsearches.find? a.spec.elasticsearch = some es ∨
        news .elasticsearch a.spec.elasticsearch)
  | .readCa a es password, c => c.store.associations.find? k = some a ∧
      c.Registered .elasticsearch k a.spec.elasticsearch ∧ c.Registered .kibana k a.spec.kibana ∧
      (c.store.elasticsearches.find? a.spec.elasticsearch = some es ∨
        news .elasticsearch a.spec.elasticsearch) ∧
      ∃ users, c.store.secrets.find? es.usersSecret = some users ∧
        users.text? Elasticsearch.kibanaUser = some password
  | .readKibana a expected, c => c.store.associations.find? k = some a ∧
      c.Registered .elasticsearch k a.spec.elasticsearch ∧ c.Registered .kibana k a.spec.kibana ∧
      c.Derived news a expected
  | .configure a kb, c => c.store.associations.find? k = some a ∧
      c.Registered .elasticsearch k a.spec.elasticsearch ∧ c.Registered .kibana k a.spec.kibana ∧
      c.Derived news a kb.spec.backend
  | .ended o, c => o = .ok .done → c.Settled news k
  | .fetch _, _ | .register _, _ | .unwatchKibana .., _ | .unwatchElasticsearch .., _
  | .release _, _ | .storeStatus .., _ => True

variable {news news' : Side → Key → Prop} {Occurs : Key → Prop} {c c' : Cluster} {j k : Key}
  {s s' : Stage} {a : Association}

/-- What was read stays current while others work. -/
theorem Current.mono (h : Cluster.Keeps news k news' c c') (hs : s.Current news k c) :
    s.Current news' k c' := by
  have stored : ∀ {a}, c.store.associations.find? k = some a →
      c'.store.associations.find? k = some a := fun ha => h.association.trans ha
  have cluster : ∀ {r es}, c.Registered .elasticsearch k r →
      (c.store.elasticsearches.find? r = some es ∨ news .elasticsearch r) →
      (c'.store.elasticsearches.find? r = some es ∨ news' .elasticsearch r) := by
    rintro r es hr (hes | hnews)
    · exact (h.elasticsearch r).imp_left fun e => e.trans hes
    · exact .inr (h.news _ _ hnews (h.registered hr))
  cases s with
  | fetch | register | unwatchKibana | unwatchElasticsearch | release | storeStatus => trivial
  | watchElasticsearch => exact stored hs
  | watchKibana => exact ⟨stored hs.1, h.registered hs.2⟩
  | readElasticsearch => exact ⟨stored hs.1, h.registered hs.2.1, h.registered hs.2.2⟩
  | readUsers =>
    obtain ⟨ha, he, hk, hes⟩ := hs
    exact ⟨stored ha, h.registered he, h.registered hk, cluster he hes⟩
  | readCa =>
    obtain ⟨ha, he, hk, hes, hu⟩ := hs
    exact ⟨stored ha, h.registered he, h.registered hk, cluster he hes, h.secrets ▸ hu⟩
  | readKibana | configure =>
    obtain ⟨ha, he, hk, hd⟩ := hs
    exact ⟨stored ha, h.registered he, h.registered hk, hd.mono h he⟩
  | ended => exact fun ho => (hs ho).mono h

/-! ## What follows an answer -/

theorem about_reported (ha : a.key = k) (hk : Occurs k) (new : Status)
    (error : Option ReconcileError) : (reported a new error).About Occurs k := by
  unfold reported
  split
  · trivial
  · exact ⟨ha, hk⟩

theorem about_finalized (ha : a.key = k) (hk : Occurs k) : (finalized a).About Occurs k := by
  unfold finalized
  split
  · trivial
  · exact ⟨ha, hk⟩

theorem about_opened (ha : a.key = k) (hk : Occurs k) : (opened k a).About Occurs k := by
  unfold opened
  repeat' split
  all_goals trivial

/-- An error, or a status that is waited for, has the association looked at again. -/
theorem current_reported_of_ne {new : Status} {error : Option ReconcileError}
    (h : (⟨.ofStatus new, error⟩ : Outcome) ≠ .ok .done) :
    (reported a new error).Current news k c := by
  unfold reported
  split
  · exact fun ho => absurd ho h
  · trivial

theorem current_reported (ha : c.store.associations.find? k = some a)
    (h : a.status = .established → c.AtRest news k a) :
    (reported a .established none).Current news k c := by
  unfold reported
  split
  next hst =>
    intro _ b hb _ _
    cases ha.symm.trans hb
    exact h hst
  next => trivial

theorem current_opened (ha : c.store.associations.find? k = some a) :
    (opened k a).Current news k c := by
  unfold opened
  split
  next => exact fun ho => nomatch ho
  next =>
    split
    next hd =>
      split
      next => trivial
      next =>
        intro _ b hb _ hlive
        cases ha.symm.trans hb
        exact absurd hd hlive
    next =>
      split
      next => exact ha
      next => trivial

/-- A reconcile keeps to its key. -/
theorem Step.about (h : Step s c s' c') (hkeyed : c.store.Keyed)
    (hocc : ∀ a, c.store.associations.find? k = some a → Occurs k) (hs : s.About Occurs k) :
    s'.About Occurs k := by
  cases h with
  | fetch _ ha =>
    obtain rfl := hs
    exact about_opened (hkeyed.associations ha) (hocc _ ha)
  | fetchFails | registerFails | releaseFails | storeStatus | storeStatusFails => trivial
  | @register _ a stored writes _ ha =>
    have hkey := (hkeyed.associations.key_rewritten ha).trans (key_marked a)
    exact about_finalized (hkey.trans hs.1) hs.2
  | release _ ha => exact about_finalized ((hkeyed.associations.key_rewritten ha).trans hs.1) hs.2
  | unwatchKibana => exact hs
  | unwatchElasticsearch => exact hs.2
  | watchElasticsearch | watchKibana | readElasticsearch | readUsers | readCa => exact hs
  | readKibana _ hk =>
    have hkey := hkeyed.kibanas hk
    exact ⟨hs.1, hs.2, hkey⟩
  | configure | configureFails => exact about_reported hs.1 hs.2.1 ..
  | _ => exact about_reported hs.1 hs.2 ..

/-- A reconcile writes no association but that of its key. -/
theorem Step.find?_of_about (h : Step s c s' c') (hs : s.About Occurs k) (hj : j ≠ k) :
    c'.store.associations.find? j = c.store.associations.find? j := by
  cases h with
  | register | release | storeStatus =>
    obtain ⟨rfl, -⟩ := hs
    exact Table.find?_put_of_ne hj _
  | _ => rfl

/-- What a call has read is current, unless the call is a change of the association that is itself
logged. -/
theorem Step.current (h : Step s c s' c') (hkeyed : c.store.Keyed)
    (hfault : ∀ e, c.store.fault? .getAssociation = some e → ¬e.isNotFound)
    (hnews : ∀ side r, c'.store.log.Tells c.store.log.size side.kind r → news side r)
    (hquiet : ¬c'.store.log.Tells c.store.log.size .association k)
    (habout : s.About Occurs k) (hs : s.Current news k c) : s'.Current news k c' := by
  cases h with
  | fetch _ ha =>
    obtain rfl := habout
    exact current_opened ha
  | fetchFails hr =>
    obtain rfl := habout
    rcases hr with hf | ⟨-, hn, rfl⟩
    · rw [if_neg (hfault _ hf)]
      exact fun ho => nomatch ho
    · exact fun _ a ha => nomatch hn.symm.trans ha
  | registerFails | releaseFails | storeStatusFails => exact fun ho => nomatch ho
  -- The writes of the association are in the log as changes of it.
  | @register _ a stored writes _ ha =>
    have hkey := (hkeyed.associations.key_rewritten ha).trans (key_marked a)
    exact absurd (habout.1 ▸ c.store.tells_putAssociation hkey writes) hquiet
  | @release _ a stored writes _ ha =>
    have hkey := hkeyed.associations.key_rewritten ha
    exact absurd (habout.1 ▸ c.store.tells_putAssociation hkey writes) hquiet
  | @storeStatus _ a stored new error writes _ ha =>
    have hkey := hkeyed.associations.key_restated ha
    exact absurd (habout.1 ▸ c.store.tells_putAssociation hkey writes) hquiet
  | unwatchKibana | unwatchElasticsearch => trivial
  | @watchElasticsearch _ a r hr =>
    obtain ⟨rfl, -⟩ := habout
    obtain rfl := (Registry.complete_of_add hr).2
    exact ⟨hs, Dict.find?_insert_self ..⟩
  | @watchKibana _ a r hr =>
    obtain ⟨rfl, -⟩ := habout
    obtain rfl := (Registry.complete_of_add hr).2
    exact ⟨hs.1, hs.2, Dict.find?_insert_self ..⟩
  | readElasticsearch _ hes => exact ⟨hs.1, hs.2.1, hs.2.2, .inl hes⟩
  | readUsers _ hu hp => exact ⟨hs.1, hs.2.1, hs.2.2.1, hs.2.2.2, _, hu, hp⟩
  | readCa _ hca =>
    obtain ⟨ha, he, hk, hes, users, hu, hp⟩ := hs
    exact ⟨ha, he, hk, _, users, _, _, hes, hu, hp, hca, rfl⟩
  | readKibanaSame _ hkb hb =>
    obtain ⟨ha, he, hk, hd⟩ := hs
    exact current_reported ha fun hst => ⟨hst, he, hk, _, hd, .inl ⟨_, hkb, hb⟩⟩
  | readKibana => exact hs
  | @configure _ a kb stored writes _ hkb =>
    obtain ⟨ha, he, hk, hd⟩ := hs
    have ht := c.store.tells_putKibana (hkeyed.kibanas.key_rewritten_kibana hkb) writes
    -- What stands there now is news itself: the reader looks up whom it concerns.
    have hkb' : news .kibana a.spec.kibana := hnews .kibana _ (habout.2.2 ▸ ht)
    exact current_reported ha fun hst => ⟨hst, he, hk, _, hd, .inr hkb'⟩
  | readElasticsearchMisses => exact current_reported_of_ne nofun
  | _ => exact current_reported_of_ne fun ho => nomatch congrArg Outcome.error ho

/-! ## What a call leaves to others -/

/-- A reconcile touches no watches but those of its own association. -/
theorem Step.watch (h : Step s c s' c') (hs : s.About Occurs k) {side : Side}
    (hne : Occurs k → side.watchName j ≠ side.watchName k) :
    (c'.watches.get side).find? (side.watchName j) =
      (c.watches.get side).find? (side.watchName j) := by
  have set : ∀ {other : Side} {r : Registry}, (other = side →
      r.find? (side.watchName j) = (c.watches.get side).find? (side.watchName j)) →
      ((c.setRegistry other r).watches.get side).find? (side.watchName j) =
        (c.watches.get side).find? (side.watchName j) := by
    intro other r hr
    by_cases e : side = other
    · subst e
      rw [Cluster.setRegistry, Watches.get_set_self, hr rfl]
    · rw [Cluster.setRegistry, Watches.get_set_of_ne _ e]
  cases h with
  | unwatchKibana =>
    obtain ⟨rfl, -, hocc⟩ := hs
    exact set (by rintro rfl; exact Dict.find?_erase_of_ne _ (hne hocc))
  | unwatchElasticsearch =>
    obtain ⟨rfl, -, hocc⟩ := hs
    exact set (by rintro rfl; exact Dict.find?_erase_of_ne _ (hne hocc))
  | watchElasticsearch hr =>
    obtain ⟨rfl, hocc⟩ := hs
    obtain rfl := (Registry.complete_of_add hr).2
    exact set (by rintro rfl; exact Dict.find?_insert_of_ne _ _ (hne hocc))
  | watchKibana hr =>
    obtain ⟨rfl, hocc⟩ := hs
    obtain rfl := (Registry.complete_of_add hr).2
    exact set (by rintro rfl; exact Dict.find?_insert_of_ne _ _ (hne hocc))
  | _ => rfl

end Reconcile.Stage

end ClusterLink

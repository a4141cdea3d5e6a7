import ClusterLink.Proofs.Cluster.Redacted
import ClusterLink.Proofs.Reconcile.Effective

/-! The octets of secrets reach nothing but the password that is embedded in a configuration.
`Discreet` compares two programs that run alone on clusters that are redacted to the same, and
follows the definition of a reconcile. Only `configure` acts on a password: it may write in one run
and not in the other, and comes to the same in both (`alone_configure`). -/

namespace ClusterLink

open Reconcile

namespace Calls

/-- What a program writes apart from Kibana instances. -/
def otherWrites (p : Calls α) (c : Cluster) : List Written :=
  (p.writes c).filter fun w => w.operation ≠ .updateKibana

theorem writes_bind (p : Calls α) (f : α → Calls β) (c : Cluster) :
    Calls.writes (p.bind f) c = p.writes c ++ (f (p.alone c).1).writes (p.alone c).2 := by
  induction p generalizing c with
  | done => rfl
  | ask q next ih =>
    simp only [Program.ask_bind, writes, ih, List.append_assoc]
    rfl

theorem alone_bind (p : Calls α) (f : α → Calls β) (c : Cluster) :
    Calls.alone (p.bind f) c = (f (p.alone c).1).alone (p.alone c).2 :=
  Program.run_bind ..

end Calls

theorem Call.Alike.written? {q : Call} {r r' : q.Answer} (h : q.Alike r r') :
    q.written? r = q.written? r' := by
  cases q with
  | getSecret => rfl
  | _ =>
    cases h
    rfl

/-- Two programs that run alone on clusters that are redacted to the same come to results in `R`,
leave clusters that are redacted to the same, and write the same apart from Kibana instances. -/
def Discreet (R : α → β → Prop) (p : Calls α) (p' : Calls β) : Prop :=
  ∀ ⦃c c' : Cluster⦄, c.Orderly → c'.Orderly → c.redacted = c'.redacted →
    R (p.alone c).1 (p'.alone c').1 ∧ (p.alone c).2.redacted = (p'.alone c').2.redacted ∧
      p.otherWrites c = p'.otherWrites c'

namespace Discreet

variable {R : α → β → Prop} {S : γ → δ → Prop}

theorem done {a : α} {b : β} (h : R a b) : Discreet R (.done a) (.done b) :=
  fun _ _ _ _ heq => ⟨h, heq, rfl⟩

theorem ask {q : Call} {next : q.Answer → Calls α} {next' : q.Answer → Calls β}
    (hq : ∀ key, q.place? ≠ some (.kibana key))
    (h : ∀ r r', q.Alike r r' → Discreet R (next r) (next' r')) :
    Discreet R (.ask q next) (.ask q next') := by
  intro c c' hc hc' heq
  obtain ⟨ha, heq⟩ := hc.answer_alike hc' heq hq
  obtain ⟨hr, hend, hw⟩ := h _ _ ha (hc.answer q) (hc'.answer q) heq
  refine ⟨hr, hend, ?_⟩
  simp only [Calls.otherWrites, Calls.writes, List.filter_append, ha.written?]
  exact congrArg _ hw

theorem request_bind {q : Call} {next : q.Answer → Calls α} {next' : q.Answer → Calls β}
    (hq : ∀ key, q.place? ≠ some (.kibana key))
    (h : ∀ r r', q.Alike r r' → Discreet R (next r) (next' r')) :
    Discreet R (Program.request q >>= next) (Program.request q >>= next') :=
  ask hq h

theorem bind {p : Calls γ} {p' : Calls δ} {f : γ → Calls α} {f' : δ → Calls β}
    (h : Discreet S p p') (hf : ∀ x x', S x x' → Discreet R (f x) (f' x')) :
    Discreet R (p.bind f) (p'.bind f') := by
  intro c c' hc hc' heq
  obtain ⟨hx, heq, hw⟩ := h hc hc' heq
  obtain ⟨hr, hend, hw'⟩ := hf _ _ hx (hc.alone p) (hc'.alone p') heq
  rw [Calls.alone_bind, Calls.alone_bind]
  refine ⟨hr, hend, ?_⟩
  simp only [Calls.otherWrites, Calls.writes_bind, List.filter_append] at hw hw' ⊢
  rw [hw, hw']

end Discreet

/-! ## Finalizers and status -/

theorem discreet_write (a : Association) (executed : List String) :
    Discreet Eq (Finalizer.write a executed) (Finalizer.write a executed) := by
  unfold Finalizer.write
  refine .request_bind nofun ?_
  rintro r _ rfl
  cases r <;> exact .done rfl

theorem discreet_handle (a : Association) (key : Key) :
    Discreet Eq (Finalizer.handle a [watchFinalizer key])
      (Finalizer.handle a [watchFinalizer key]) := by
  by_cases hd : a.metadata.isBeingDeleted
  · by_cases hn : a.metadata.hasFinalizer watchFinalizerName
    · rw [handle_of_deleted hd hn]
      exact .ask nofun fun _ _ _ => .ask nofun fun _ _ _ => discreet_write ..
    · rw [handle_of_released hd hn]
      exact .done rfl
  · by_cases hn : a.metadata.hasFinalizer watchFinalizerName
    · rw [handle_of_marked hd hn]
      exact .done rfl
    · rw [handle_of_unmarked hd hn]
      exact discreet_write ..

theorem discreet_storeStatus (a : Association) (new : Status) (error : Option ReconcileError) :
    Discreet Eq (storeStatus a new error) (storeStatus a new error) := by
  unfold storeStatus
  split
  · exact .done rfl
  · refine .request_bind nofun ?_
    rintro r _ rfl
    cases r <;> exact .done rfl

theorem discreet_addWatches (a : Association) : Discreet Eq (addWatches a) (addWatches a) := by
  unfold addWatches
  refine .request_bind nofun ?_
  rintro r _ rfl
  cases r with
  | error e => exact .done rfl
  | ok => exact .ask nofun fun _ _ h => .done h

/-! ## The configuration -/

/-- Two answers that are mapped to the same are one error or two values that are. -/
theorem except_map_cases {r r' : Except ε α} {f : α → β} (h : r.map f = r'.map f) :
    (∃ e, r = .error e ∧ r' = .error e) ∨ ∃ a a', r = .ok a ∧ r' = .ok a' ∧ f a = f a' := by
  cases r with
  | error e =>
    cases r' with
    | error => exact .inl ⟨e, rfl, congrArg Except.error (Except.error.inj h).symm⟩
    | ok => cases h
  | ok a =>
    cases r' with
    | error => cases h
    | ok a' => exact .inr ⟨a, a', rfl, rfl, Except.ok.inj h⟩

/-- The configurations for one cluster differ in their passwords at most, and whether one can be
made does not depend on octets. -/
theorem discreet_expectedBackend (es : Elasticsearch) :
    Discreet (fun r r' => r.map Backend.redacted = r'.map Backend.redacted)
      (expectedBackend es) (expectedBackend es) := by
  unfold expectedBackend
  refine .request_bind nofun fun users users' h => ?_
  obtain ⟨e, rfl, rfl⟩ | ⟨users, users', rfl, rfl, hu⟩ := except_map_cases h
  · exact .done rfl
  have htext := Secret.isSome_text? hu Elasticsearch.kibanaUser
  dsimp only
  cases hp : users.text? Elasticsearch.kibanaUser <;>
    cases hp' : users'.text? Elasticsearch.kibanaUser <;> rw [hp, hp'] at htext
  case none.none => exact .done rfl
  case some.some password password' =>
    refine .request_bind nofun fun ca ca' h => ?_
    obtain ⟨e, rfl, rfl⟩ | ⟨ca, ca', rfl, rfl, hca⟩ := except_map_cases h
    · exact .done rfl
    have hkey : ca.key = ca'.key := congrArg (fun x => x.1.key) hca
    refine .done (congrArg Except.ok ?_)
    simp only [Backend.redacted, backendFor, hkey]
    rfl
  case none.some => cases htext
  case some.none => cases htext

/-- A cluster where a Kibana instance, if it is there, has a configuration. -/
def Redacted.configured (x : Redacted) (key : Key) (b : Backend) : Redacted :=
  { x with kibanas := Function.update x.kibanas key ((x.kibanas key).map (·.withBackend b)) }

/-- What comes of giving a Kibana instance its configuration, whether or not it has it already. -/
theorem alone_configure {c : Cluster} (h : c.Orderly) (a : Association) (b : Backend) :
    ((configure a b).alone c).1 = (match c.redacted.kibanas a.spec.kibana with
      | none => (.pending, some (.store (.notFound .kibana a.spec.kibana)))
      | some _ => (.established, none)) ∧
    ((configure a b).alone c).2.redacted = c.redacted.configured a.spec.kibana b.redacted ∧
    (configure a b).otherWrites c = [] := by
  have hget := h.calm.getKibana a.spec.kibana
  have hview : c.redacted.kibanas a.spec.kibana =
      (c.store.kibanas.find? a.spec.kibana).map Kibana.redacted := rfl
  -- An instance that has its configuration already looks as it would after the write.
  have hidle : c.redacted.kibanas a.spec.kibana =
      (c.redacted.kibanas a.spec.kibana).map (·.withBackend b.redacted) →
      c.redacted = c.redacted.configured a.spec.kibana b.redacted := fun hsame => by
    rw [Redacted.configured, ← hsame, Function.update_eq_self]
  simp only [configure, Calls.alone, Calls.otherWrites, Program.bind_eq, Program.request,
    Program.ask_bind, Program.done_bind, Program.run, Calls.writes, hget]
  cases hk : c.store.kibanas.find? a.spec.kibana with
  | none =>
    rw [hk] at hview
    simp only [Table.get_eq_error hk, hview]
    exact ⟨rfl, hidle (by rw [hview]; rfl), rfl⟩
  | some kb =>
    rw [hk] at hview
    simp only [Table.get_eq_ok hk, hview]
    by_cases hb : kb.spec.backend = b
    · simp only [if_pos hb]
      refine ⟨rfl, hidle ?_, rfl⟩
      subst hb
      rw [hview]
      rfl
    · have hkey : (kb.withBackend b).key = a.spec.kibana := show kb.key = _ from h.keyed.kibanas hk
      have hst : c.store.kibanas.find? (kb.withBackend b).key = some kb := hkey.symm ▸ hk
      have hput := h.calm.updateKibana_of_stored hst rfl
      rw [hkey] at hput
      simp only [if_neg hb, Program.run, hput, Calls.writes]
      have hlive := Stage.not_isGone_rewritten (h.plain.kibanas hk) b
      refine ⟨rfl, ?_, rfl⟩
      rw [Redacted.configured, hview]
      exact (c.redacted_putKibana ..).trans (by rw [if_neg hlive]; rfl)

theorem discreet_configure (a : Association) {b b' : Backend} (hb : b.redacted = b'.redacted) :
    Discreet Eq (configure a b) (configure a b') := by
  intro c c' hc hc' heq
  obtain ⟨hr, hend, hw⟩ := alone_configure hc a b
  obtain ⟨hr', hend', hw'⟩ := alone_configure hc' a b'
  exact ⟨by rw [hr, hr', heq], by rw [hend, hend', heq, hb], by rw [hw, hw']⟩

theorem discreet_status (a : Association) : Discreet Eq (status a) (status a) := by
  unfold status
  refine (discreet_addWatches a).bind ?_
  rintro r _ rfl
  cases r with
  | error e => exact .done rfl
  | ok =>
    refine .request_bind nofun ?_
    rintro r _ rfl
    cases r with
    | error e =>
      dsimp only
      split <;> exact .done rfl
    | ok es =>
      refine (discreet_expectedBackend es).bind fun b b' h => ?_
      obtain ⟨e, rfl, rfl⟩ | ⟨b, b', rfl, rfl, hb⟩ := except_map_cases h
      · exact .done rfl
      · exact discreet_configure a hb

/-! ## A whole reconcile -/

theorem discreet_association (key : Key) (a : Association) :
    Discreet Eq (association key a) (association key a) := by
  unfold association
  split
  · exact .done rfl
  · refine (discreet_handle a key).bind ?_
    rintro report _ rfl
    split
    · exact .done rfl
    · split
      · exact .done rfl
      · refine (discreet_status _).bind ?_
        rintro ⟨new, error⟩ _ rfl
        exact discreet_storeStatus ..

theorem discreet_reconcile (key : Key) : Discreet Eq (reconcile key) (reconcile key) := by
  unfold reconcile
  refine .request_bind nofun ?_
  rintro r _ rfl
  cases r with
  | ok a => exact discreet_association key a
  | error e =>
    dsimp only
    split <;> exact .done rfl

/-- Two clusters that are the same but for the octets of secrets. -/
structure Cluster.SameButOctets (c c' : Cluster) : Prop where
  associations : c.store.associations = c'.store.associations
  elasticsearches : c.store.elasticsearches = c'.store.elasticsearches
  kibanas : c.store.kibanas = c'.store.kibanas
  secrets : ∀ key, (c.store.secrets.find? key).map Secret.redacted =
    (c'.store.secrets.find? key).map Secret.redacted
  watches : c.watches = c'.watches

theorem Cluster.SameButOctets.redacted {c c' : Cluster} (h : c.SameButOctets c') :
    c.redacted = c'.redacted := by
  simp only [Cluster.redacted, h.associations, h.elasticsearches, h.kibanas, funext h.secrets,
    h.watches]

/-- **The octets of secrets reach nothing but the password in a configuration.** Let two clusters,
whose tombstones come from deletions only, be the same but for the octets of secrets. A reconcile
that runs alone without faults comes to one decision and one error on both, and so to one message.
It leaves the same associations, clusters and watches, and every secret as it was. Kibana instances
differ in password and version at most, and only that of the association does. All writes but that
of this instance are the same. -/
theorem reconcile_hides_octets {c c' : Cluster} (hc : c.store.Reachable Edit.IsPlain)
    (hc' : c'.store.Reachable Edit.IsPlain) (h : c.SameButOctets c') (key : Key) :
    let r := (reconcile key).alone c.calm
    let r' := (reconcile key).alone c'.calm
    r.1 = r'.1 ∧
    r.2.store.associations = r'.2.store.associations ∧
    r.2.store.elasticsearches = r'.2.store.elasticsearches ∧
    r.2.store.secrets = c.store.secrets ∧ r'.2.store.secrets = c'.store.secrets ∧
    r.2.watches = r'.2.watches ∧
    (∀ k, (r.2.store.kibanas.find? k).map Kibana.redacted =
      (r'.2.store.kibanas.find? k).map Kibana.redacted) ∧
    (∀ k, (∀ a, c.store.associations.find? key = some a → a.spec.kibana ≠ k) →
      r.2.store.kibanas.find? k = r'.2.store.kibanas.find? k) ∧
    (reconcile key).otherWrites c.calm = (reconcile key).otherWrites c'.calm := by
  intro r r'
  have ho := Cluster.Orderly.calm_of_reachable hc
  have ho' := Cluster.Orderly.calm_of_reachable hc'
  obtain ⟨hr, hend, hwrites⟩ := discreet_reconcile key ho ho' h.redacted
  have hfar : ∀ k, (∀ a, c.store.associations.find? key = some a → a.spec.kibana ≠ k) →
      r.2.store.kibanas.find? k = c.store.kibanas.find? k ∧
        r'.2.store.kibanas.find? k = c'.store.kibanas.find? k := by
    intro k hk
    refine ⟨entry_alone (p := .kibana k) ho.keyed key fun ⟨a, ha, hka⟩ => hk a ha hka,
      entry_alone (p := .kibana k) ho'.keyed key fun ⟨a, ha, hka⟩ => hk a ?_ hka⟩
    rw [h.associations]
    exact ha
  refine ⟨hr, congrArg Redacted.associations hend, congrArg Redacted.elasticsearches hend,
    (Calls.alone_reads _ _).2.1, (Calls.alone_reads _ _).2.1, congrArg Redacted.watches hend,
    fun k => congrFun (congrArg Redacted.kibanas hend) k, fun k hk => ?_, hwrites⟩
  rw [(hfar k hk).1, (hfar k hk).2, h.kibanas]

/-- Octets that form no text, in place of the password that the Kibana instance has already. -/
theorem reconcile_hides_octets_that_form_no_text :
    let a : Association := ⟨.new ⟨"ns", "a"⟩, ⟨⟨"ns", "es"⟩, ⟨"ns", "kb"⟩⟩, .unknown⟩
    let es : Elasticsearch := ⟨.new a.spec.elasticsearch, ⟨"8.0", 1⟩⟩
    let b : Backend := ⟨es.url, some ⟨Elasticsearch.kibanaUser, "p"⟩, some "es"⟩
    let kb : Kibana := ⟨.new a.spec.kibana, ⟨"8.0", 1, b⟩⟩
    let users (octets : List UInt8) : Secret :=
      ⟨.new es.usersSecret, .ofList [(Elasticsearch.kibanaUser, octets)]⟩
    let edits (octets : List UInt8) := Edit.provider "es" ++
      [.apply (.secret (users octets)), .apply (.kibana kb), .apply (.association a)]
    let c (octets : List UInt8) : Cluster := ⟨(edits octets).foldl Store.edit (.new 4), .empty⟩
    let r (octets : List UInt8) := (reconcile a.key).alone (c octets).calm
    (reconcile a.key).writes (c [112]).calm = [.finalizers a.key, .status a.key] ∧
      (reconcile a.key).writes (c [112, 255]).calm =
        [.finalizers a.key, .kibana kb.key, .status a.key] ∧
      (r [112]).1 = (r [112, 255]).1 ∧
      (r [112]).2.store.associations = (r [112, 255]).2.store.associations := by
  intro a es b kb users edits c r
  have hs : (c [112]).store.Reachable Edit.IsPlain := .edits (.new 4) (by decide)
  have hs' : (c [112, 255]).store.Reachable Edit.IsPlain := .edits (.new 4) (by decide)
  let before : Table Secret := ((Edit.provider "es").foldl Store.edit (.new 4)).secrets
  have hsecrets : ∀ octets key, (c octets).store.secrets.find? key =
      if key = es.usersSecret then some (before.apply (.generated 3) (users octets)).1
      else before.find? key := fun octets key => before.find?_apply ..
  have hsame : (c [112]).SameButOctets (c [112, 255]) := by
    refine ⟨by decide, by decide, by decide, fun key => ?_, rfl⟩
    rw [hsecrets, hsecrets]
    split
    next => decide
    next => rfl
  obtain ⟨hr, hassociations, -⟩ := reconcile_hides_octets hs hs' hsame a.key
  exact ⟨by decide, by decide, hr, hassociations⟩

end ClusterLink

import ClusterLink.Cluster.Call
import ClusterLink.Proofs.Reconcile.Step
import ClusterLink.Proofs.Watch.Registry
import Mathlib.Logic.Function.Basic

/-! What a reconcile is to bring about, apart from the calls in which it does so:
`Content.reconciled` maps what the store and the registries hold, versions apart, to what they are
to hold. -/

namespace ClusterLink

open Reconcile

/-- The association without its version. -/
def Association.unversioned (a : Association) : Association :=
  { a with metadata := { a.metadata with version := 0 } }

/-- The Kibana instance without its version. -/
def Kibana.unversioned (kb : Kibana) : Kibana :=
  { kb with metadata := { kb.metadata with version := 0 } }

/-- What the store and the registries hold, without versions. -/
structure Content where
  associations : Key → Option Association
  kibanas : Key → Option Kibana
  elasticsearches : Table Elasticsearch
  secrets : Table Secret
  watches : Watches

def Cluster.content (c : Cluster) : Content where
  associations key := (c.store.associations.find? key).map Association.unversioned
  kibanas key := (c.store.kibanas.find? key).map Kibana.unversioned
  elasticsearches := c.store.elasticsearches
  secrets := c.store.secrets
  watches := c.watches

/-- The watch of an association on its cluster. -/
def Association.elasticsearchWatch (a : Association) : Watch :=
  ⟨Watch.elasticsearchName a.key, a.spec.elasticsearch, a.key⟩

/-- The watch of an association on its Kibana instance. -/
def Association.kibanaWatch (a : Association) : Watch :=
  ⟨Watch.kibanaName a.key, a.spec.kibana, a.key⟩

namespace Watches

/-- The registries with the watches of an association, up to the first that is refused. -/
def tend (w : Watches) (a : Association) : Watches :=
  if a.elasticsearchWatch.isComplete then
    let w := { w with
      elasticsearch := w.elasticsearch.insert a.elasticsearchWatch.name a.elasticsearchWatch }
    if a.kibanaWatch.isComplete then
      { w with kibana := w.kibana.insert a.kibanaWatch.name a.kibanaWatch }
    else w
  else w

/-- The registries without the watches of an association. -/
def release (w : Watches) (key : Key) : Watches where
  elasticsearch := w.elasticsearch.erase (Watch.elasticsearchName key)
  kibana := w.kibana.erase (Watch.kibanaName key)

variable {w : Watches} {a : Association}

theorem tend_elasticsearch (h : a.elasticsearchWatch.isComplete) :
    tend { w with
      elasticsearch := w.elasticsearch.insert a.elasticsearchWatch.name a.elasticsearchWatch } a =
      w.tend a := by
  simp only [tend, h, if_true, Dict.insert_insert]

theorem tend_kibana (h : a.elasticsearchWatch.isComplete)
    (hk : a.kibanaWatch.isComplete) :
    tend { w with kibana := w.kibana.insert a.kibanaWatch.name a.kibanaWatch } a =
      w.tend a := by
  simp only [tend, h, hk, if_true, Dict.insert_insert]

theorem tend_eq_self (h : a.elasticsearchWatch.isComplete)
    (hw : w.elasticsearch.find? a.elasticsearchWatch.name = some a.elasticsearchWatch)
    (hk : a.kibanaWatch.isComplete →
      w.kibana.find? a.kibanaWatch.name = some a.kibanaWatch) : w.tend a = w := by
  simp only [tend, h, if_true, Dict.insert_eq_self hw]
  split
  next hc => rw [Dict.insert_eq_self (hk hc)]
  next => rfl

theorem release_kibana (w : Watches) (key : Key) :
    release { w with kibana := w.kibana.erase (Watch.kibanaName key) } key = w.release key := by
  simp only [release, Dict.erase_eq_self (Dict.find?_erase_self ..)]

theorem release_elasticsearch (w : Watches) (key : Key) :
    release { w with elasticsearch := w.elasticsearch.erase (Watch.elasticsearchName key) } key =
      w.release key := by
  simp only [release, Dict.erase_eq_self (Dict.find?_erase_self ..)]

end Watches

namespace Content

/-- The configuration that the Kibana instance of an association should have, if all it is made from
is there. -/
def backend? (x : Content) (a : Association) : Option Backend := do
  let es ← x.elasticsearches.find? a.spec.elasticsearch
  let users ← x.secrets.find? es.usersSecret
  let password ← users.text? Elasticsearch.kibanaUser
  let ca ← x.secrets.find? es.caSecret
  return backendFor es password ca

/-- The Kibana instance of an association as it should be, if it is there and the configuration is
known. -/
def configured? (x : Content) (a : Association) : Option Kibana :=
  if a.elasticsearchWatch.isComplete ∧ a.kibanaWatch.isComplete then do
    let kb ← x.kibanas a.spec.kibana
    let backend ← x.backend? a
    return kb.withBackend backend
  else none

/-- The status that an association should have. -/
def status (x : Content) (a : Association) : Status :=
  if a.elasticsearchWatch.isComplete ∧ a.kibanaWatch.isComplete then
    if (x.configured? a).isSome then .established else .pending
  else .failed

/-- What a live association with its finalizer brings about. -/
def established (x : Content) (a : Association) : Content :=
  { x with
    associations := Function.update x.associations a.key (some { a with status := x.status a })
    kibanas :=
      match x.configured? a with
      | some kb => Function.update x.kibanas a.spec.kibana (some kb)
      | none => x.kibanas
    watches := x.watches.tend a }

/-- What is left of an association with a tombstone once its finalizer is off. -/
def released (x : Content) (a : Association) : Content :=
  { x with
    associations := Function.update x.associations a.key
      (if (unmarked a).metadata.isGone then none else some (unmarked a))
    watches := x.watches.release a.key }

/-- What reconciling a key brings about. -/
def reconciled (key : Key) (x : Content) : Content :=
  match x.associations key with
  | none => x
  | some a =>
    if a.metadata.isPaused then x
    else if a.metadata.isBeingDeleted then
      if a.metadata.hasFinalizer watchFinalizerName then x.released a else x
    else x.established (marked a)

/-! ## What changes nothing -/

variable {x : Content} {a : Association} {key : Key}

theorem reconciled_of_live (ha : x.associations key = some a) (hp : ¬a.metadata.isPaused)
    (hd : ¬a.metadata.isBeingDeleted) : x.reconciled key = x.established (marked a) := by
  simp only [reconciled, ha]
  rw [if_neg hp, if_neg hd]

theorem established_update (x : Content) (a : Association) (r : Option Association) :
    Content.established { x with associations := Function.update x.associations a.key r } a =
      x.established a := by
  simp only [established, Function.update_idem]
  rfl

theorem established_watches {w : Watches} (h : w.tend a = x.watches.tend a) :
    Content.established { x with watches := w } a = x.established a := by
  simp only [established, h]
  rfl

theorem configured?_eq_some {kb : Kibana} : x.configured? a = some kb ↔
    (a.elasticsearchWatch.isComplete ∧ a.kibanaWatch.isComplete) ∧
      ∃ old backend, x.kibanas a.spec.kibana = some old ∧ x.backend? a = some backend ∧
        kb = old.withBackend backend := by
  unfold configured?
  split
  next hc =>
    simp only [Option.bind_eq_bind, Option.bind_eq_some_iff, Option.pure_def, Option.some.injEq]
    exact ⟨fun ⟨old, ho, b, hb, h⟩ => ⟨hc, old, b, ho, hb, h.symm⟩,
      fun ⟨_, old, b, ho, hb, h⟩ => ⟨old, ho, b, hb, h.symm⟩⟩
  next hc => exact ⟨fun h => (nomatch h), fun h => absurd h.1 hc⟩

theorem configured?_eq_none (h : x.backend? a = none ∨ x.kibanas a.spec.kibana = none) :
    x.configured? a = none := by
  refine Option.eq_none_iff_forall_ne_some.2 fun kb hkb => ?_
  obtain ⟨-, old, b, ho, hb, -⟩ := configured?_eq_some.1 hkb
  rcases h with h | h
  · exact nomatch h.symm.trans hb
  · exact nomatch h.symm.trans ho

theorem configured?_update {kb : Kibana} (h : x.configured? a = some kb) :
    Content.configured?
      { x with kibanas := Function.update x.kibanas a.spec.kibana (some kb) } a = some kb := by
  obtain ⟨hc, old, b, -, hb, rfl⟩ := configured?_eq_some.1 h
  exact configured?_eq_some.2 ⟨hc, _, b, Function.update_self .., hb, rfl⟩

/-- Giving the Kibana instance its configuration early changes nothing. -/
theorem established_configure {kb : Kibana} (h : x.configured? a = some kb) :
    Content.established
      { x with kibanas := Function.update x.kibanas a.spec.kibana (some kb) } a =
      x.established a := by
  simp only [established, status, configured?_update h, h, Function.update_idem]

/-- An association for which everything is done stays as it is. -/
theorem established_eq_self (ha : x.associations a.key = some a) (hs : x.status a = a.status)
    (hk : ∀ kb, x.configured? a = some kb → x.kibanas a.spec.kibana = some kb)
    (hw : x.watches.tend a = x.watches) : x.established a = x := by
  have hself : some { a with status := x.status a } = x.associations a.key := by rw [hs, ha]
  unfold established
  rw [hself, hw, Function.update_eq_self]
  split
  next kb hkb => rw [← hk kb hkb, Function.update_eq_self]
  next => rfl

end Content

/-! ## Writes -/

theorem Table.map_find?_put {R β : Type} [Resource R] (t : Table R) (key : Key) (r : R)
    (f : R → β) : (fun k => ((t.put key r).find? k).map f) =
      Function.update (fun k => (t.find? k).map f) key
        (if (Resource.metadata r).isGone then none else some (f r)) := by
  funext k
  rw [find?_put]
  by_cases hk : k = key
  · subst hk
    rw [Function.update_self, if_pos rfl]
    split <;> rfl
  · rw [Function.update_of_ne hk, if_neg hk]

namespace Cluster

variable (c : Cluster) (key : Key)

theorem content_withFaults (f : Operation → Option StoreError) :
    (c.withFaults f).content = c.content := rfl

theorem content_putAssociation (a : Association) (writes : WriteCounts) :
    (c.putAssociation key a writes).content =
      { c.content with
        associations := Function.update c.content.associations key
          (if a.metadata.isGone then none else some a.unversioned) } := by
  have h := c.store.associations.map_find?_put key a Association.unversioned
  exact congrArg (fun f => { c.content with associations := f }) h

theorem content_putKibana (kb : Kibana) (writes : WriteCounts) :
    (c.putKibana key kb writes).content =
      { c.content with
        kibanas := Function.update c.content.kibanas key
          (if kb.metadata.isGone then none else some kb.unversioned) } := by
  have h := c.store.kibanas.map_find?_put key kb Kibana.unversioned
  exact congrArg (fun f => { c.content with kibanas := f }) h

end Cluster

end ClusterLink

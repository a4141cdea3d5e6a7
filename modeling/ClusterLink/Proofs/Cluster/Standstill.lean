import ClusterLink.Proofs.Reconcile.Written

/-! How often reconciles write while nobody else does. What a status depends on is not written by
reconciles, so the status of an association is written once at most. A Kibana instance is written
whenever the configuration that is asked for is not the one that was asked for last; so it is
written once at most if the associations that name it ask for one and the same, and otherwise as
often as their reconciles take turns. -/

namespace ClusterLink

open Reconcile

/-- How often the value changes along a list. -/
def changes [DecidableEq α] : α → List α → Nat
  | _, [] => 0
  | a, b :: l => (if a = b then 0 else 1) + changes b l

theorem changes_self [DecidableEq α] {a : α} {l : List α} (h : ∀ x ∈ l, x = a) :
    changes a l = 0 := by
  induction l with
  | nil => rfl
  | cons x l ih =>
    obtain rfl := h x List.mem_cons_self
    rw [changes, if_pos rfl, ih fun y hy => h y (List.mem_cons_of_mem _ hy)]

theorem changes_le_one [DecidableEq α] {a : α} {l : List α} (h : ∀ x ∈ l, ∀ y ∈ l, x = y) :
    changes a l ≤ 1 := by
  cases l with
  | nil => exact Nat.zero_le _
  | cons x l =>
    rw [changes, changes_self fun y hy => h y (List.mem_cons_of_mem _ hy) x List.mem_cons_self]
    split <;> decide

/-- A Kibana instance with the configuration that is asked for, if one is. -/
def Kibana.given (kb : Kibana) (asked : Option Backend) : Kibana :=
  asked.elim kb kb.withBackend

@[simp] theorem Kibana.given_none (kb : Kibana) : kb.given none = kb := rfl

/-- Two associations with one key that ask for the same. -/
structure Association.Alike (a b : Association) : Prop where
  key : a.key = b.key
  spec : a.spec = b.spec

theorem Association.Alike.elasticsearchWatch {a b : Association} (h : a.Alike b) :
    a.elasticsearchWatch = b.elasticsearchWatch := by
  simp only [Association.elasticsearchWatch, h.key, h.spec]

theorem Association.Alike.kibanaWatch {a b : Association} (h : a.Alike b) :
    a.kibanaWatch = b.kibanaWatch := by
  simp only [Association.kibanaWatch, h.key, h.spec]

theorem alike_marked (a : Association) (status : Status) :
    Association.Alike { marked a with status } a := ⟨key_marked a, rfl⟩

namespace Content

/-- What is written when keys are reconciled one after the other. -/
def writesOf : List Key → Content → List Written
  | [], _ => []
  | key :: keys, x => x.writes key ++ writesOf keys (x.reconciled key)

/-- The configuration that an association asks for, if its watches are taken and all it is made from
is there. -/
def asks? (x : Content) (a : Association) : Option Backend :=
  if a.elasticsearchWatch.isComplete ∧ a.kibanaWatch.isComplete then x.backend? a else none

/-- The configuration that reconciling a key asks for at a Kibana instance. -/
def asked? (x : Content) (place key : Key) : Option Backend := do
  let a ← x.associations key
  if a.metadata.isPaused ∨ a.metadata.isBeingDeleted ∨ a.spec.kibana ≠ place then none
  else x.asks? a

/-- Every association stands under its own key. -/
def Keyed (x : Content) : Prop := ∀ ⦃key a⦄, x.associations key = some a → a.key = key

/-- What reconciling a key can do. -/
inductive Changed (key : Key) (x : Content) : Content → Prop where
  | idle (h : ∀ a, x.associations key = some a → a.metadata.isPaused ∨ a.metadata.isBeingDeleted) :
    Changed key x x
  | released {a : Association} (ha : x.associations key = some a)
    (hd : a.metadata.isBeingDeleted) : Changed key x (x.released a)
  | established {a : Association} (ha : x.associations key = some a) (hp : ¬a.metadata.isPaused)
    (hd : ¬a.metadata.isBeingDeleted) : Changed key x (x.established (marked a))

variable {x y : Content} {key place : Key} {a : Association}

theorem changed (x : Content) (key : Key) : Changed key x (x.reconciled key) := by
  unfold reconciled
  split
  next hn => exact .idle fun a ha => nomatch hn.symm.trans ha
  next a ha =>
    split
    next hp => exact .idle fun b hb => .inl (Option.some.inj (ha.symm.trans hb) ▸ hp)
    next hp =>
      split
      next hd =>
        split
        next => exact .released ha hd
        next => exact .idle fun b hb => .inr (Option.some.inj (ha.symm.trans hb) ▸ hd)
      next hd => exact .established ha hp hd

/-! ## What stays as it is -/

theorem asks?_of_alike {a b : Association} (h : a.Alike b) (x : Content) :
    x.asks? a = x.asks? b := by
  simp only [asks?, backend?, h.elasticsearchWatch, h.kibanaWatch, h.spec]

theorem configured?_eq (x : Content) (a : Association) : x.configured? a =
    (x.kibanas a.spec.kibana).bind fun kb => (x.asks? a).map kb.withBackend := by
  unfold configured? asks?
  split
  next => simp only [Option.map_eq_bind]; rfl
  next => simp

/-- The status that an association should have depends on what it asks for and on whether its Kibana
instance is there. -/
theorem status_eq (x : Content) (a : Association) : x.status a =
    if a.elasticsearchWatch.isComplete ∧ a.kibanaWatch.isComplete then
      if (x.kibanas a.spec.kibana).isSome ∧ (x.asks? a).isSome then .established else .pending
    else .failed := by
  rw [status, configured?_eq]
  cases x.kibanas a.spec.kibana <;> simp

theorem status_of_alike {a b : Association} (h : a.Alike b) (x : Content) :
    x.status a = x.status b := by
  simp only [status_eq, h.elasticsearchWatch, h.kibanaWatch, h.spec, asks?_of_alike h]

theorem keyed_update (hx : x.Keyed) {r : Option Association} (hr : ∀ b, r = some b → b.key = place)
    {b : Association} (hb : Function.update x.associations place r key = some b) :
    b.key = key := by
  by_cases hk : key = place
  · subst hk
    rw [Function.update_self] at hb
    exact hr b hb
  · rw [Function.update_of_ne hk] at hb
    exact hx hb

theorem Changed.keyed (h : Changed key x y) (hx : x.Keyed) : y.Keyed := by
  intro j b hb
  cases h with
  | idle => exact hx hb
  | released =>
    refine keyed_update hx (fun b hb => ?_) hb
    split at hb
    · cases hb
    · cases hb
      rfl
  | established =>
    refine keyed_update hx (fun b hb => ?_) hb
    cases hb
    rfl

/-- The associations of other keys stay as they are. -/
theorem Changed.associations_of_ne (h : Changed key x y) (hx : x.Keyed) {j : Key} (hj : j ≠ key) :
    y.associations j = x.associations j := by
  cases h with
  | idle => rfl
  | released ha => exact Function.update_of_ne (by rwa [hx ha]) ..
  | established ha => exact Function.update_of_ne (by rwa [key_marked, hx ha]) ..

theorem released_self (hx : x.Keyed) (ha : x.associations key = some a) :
    (x.released a).associations key =
      if (unmarked a).metadata.isGone then none else some (unmarked a) := by
  rw [← hx ha]
  exact Function.update_self ..

theorem established_self (hx : x.Keyed) (ha : x.associations key = some a) :
    (x.established (marked a)).associations key = some { marked a with status := x.status a } := by
  rw [← hx ha, ← key_marked a, ← status_of_alike (alike_marked a a.status)]
  exact Function.update_self ..

/-- What an association asks for does not depend on what reconciles write. -/
theorem Changed.asks? (h : Changed key x y) (a : Association) : y.asks? a = x.asks? a := by
  cases h <;> rfl

theorem asked?_of_live (ha : x.associations key = some a) (hp : ¬a.metadata.isPaused)
    (hd : ¬a.metadata.isBeingDeleted) :
    x.asked? place key = if a.spec.kibana = place then x.asks? a else none := by
  simp [asked?, ha, hp, hd]

theorem asked?_of_idle
    (h : ∀ a, x.associations key = some a → a.metadata.isPaused ∨ a.metadata.isBeingDeleted) :
    x.asked? place key = none := by
  unfold asked?
  cases ha : x.associations key with
  | none => rfl
  | some a => exact if_pos ((h a ha).imp_right .inl)

theorem Changed.asked? (h : Changed key x y) (hx : x.Keyed) (place j : Key) :
    y.asked? place j = x.asked? place j := by
  have hasks := h.asks?
  by_cases hj : j = key
  · subst hj
    cases h with
    | idle => rfl
    -- Neither before nor after does an association with a tombstone ask for anything.
    | @released a ha hd =>
      rw [asked?_of_idle fun b hb => .inr (Option.some.inj (ha.symm.trans hb) ▸ hd)]
      refine asked?_of_idle fun b hb => .inr ?_
      rw [released_self hx ha] at hb
      split at hb
      · cases hb
      · cases hb
        exact hd
    | @established a ha hp hd =>
      have hy := established_self hx ha
      rw [asked?_of_live ha hp hd, asked?_of_live hy, hasks, asks?_of_alike (alike_marked a _)]
      · rfl
      · rwa [isPaused_marked]
      · rwa [isBeingDeleted_marked]
  · unfold Content.asked?
    rw [h.associations_of_ne hx hj]
    simp only [hasks]

theorem kibanas_established (x : Content) (a : Association) (place : Key) :
    (x.established a).kibanas place = (x.kibanas place).map fun kb =>
      kb.given (if a.spec.kibana = place then x.asks? a else none) := by
  simp only [established, configured?_eq]
  by_cases hp : a.spec.kibana = place
  · subst hp
    rw [if_pos rfl]
    cases hk : x.kibanas a.spec.kibana with
    | none => exact hk
    | some kb =>
      cases x.asks? a with
      | none => exact hk
      | some backend => exact Function.update_self ..
  · have hne : place ≠ a.spec.kibana := fun h => hp h.symm
    rw [if_neg hp]
    generalize (x.kibanas a.spec.kibana).bind _ = configured
    cases configured with
    | none => simp
    | some kb => simp [Function.update_of_ne hne]

/-- A Kibana instance gets the configuration that the reconcile asks for at it. -/
theorem Changed.kibanas (h : Changed key x y) (place : Key) :
    y.kibanas place = (x.kibanas place).map (·.given (x.asked? place key)) := by
  cases h with
  | idle h =>
    simp [asked?_of_idle h]
  | released ha hd =>
    rw [asked?_of_idle fun b hb => .inr (Option.some.inj (ha.symm.trans hb) ▸ hd)]
    simp [Content.released]
  | @established a ha hp hd =>
    rw [asked?_of_live ha hp hd, kibanas_established,
      asks?_of_alike (alike_marked a (marked a).status)]
    rfl

theorem Changed.status (h : Changed key x y) (a : Association) : y.status a = x.status a := by
  simp only [status_eq, h.asks?, h.kibanas, Option.isSome_map]

/-! ## What is written -/

theorem idle_or_live (x : Content) (key : Key) :
    (∀ a, x.associations key = some a → a.metadata.isPaused ∨ a.metadata.isBeingDeleted) ∨
      ∃ a, x.associations key = some a ∧ ¬a.metadata.isPaused ∧ ¬a.metadata.isBeingDeleted := by
  by_cases h : ∃ a, x.associations key = some a ∧ ¬a.metadata.isPaused ∧ ¬a.metadata.isBeingDeleted
  · exact .inr h
  · exact .inl fun a ha => Decidable.byContradiction fun hn => h ⟨a, ha, not_or.1 hn⟩

theorem writes_of_live (ha : x.associations key = some a) (hp : ¬a.metadata.isPaused)
    (hd : ¬a.metadata.isBeingDeleted) : x.writes key =
      (if a.metadata.hasFinalizer watchFinalizerName then [] else [.finalizers key]) ++
        (x.kibanaWrites a ++ x.statusWrites a) := by
  simp only [writes, ha]
  rw [if_neg hp, if_neg hd]

/-- A reconcile of an association that is paused or has a tombstone writes finalizers at most. -/
theorem writes_of_idle
    (h : ∀ a, x.associations key = some a → a.metadata.isPaused ∨ a.metadata.isBeingDeleted) :
    x.writes key = [] ∨ x.writes key = [.finalizers key] := by
  unfold writes
  cases ha : x.associations key with
  | none => exact .inl rfl
  | some a =>
    dsimp only
    split
    · exact .inl rfl
    · split
      · split
        · exact .inr rfl
        · exact .inl rfl
      next hp hd => exact absurd (h a ha) (not_or.2 ⟨hp, hd⟩)

theorem count_kibanaWrites (x : Content) (a : Association) (place : Key) :
    (x.kibanaWrites a).count (.kibana place) =
      if (x.established a).kibanas place = x.kibanas place then 0 else 1 := by
  unfold kibanaWrites established
  cases x.configured? a with
  | none => simp
  | some kb =>
    by_cases hplace : place = a.spec.kibana
    · subst hplace
      simp only [Function.update_self, eq_comm]
      split <;> simp
    · simp only [Function.update_of_ne hplace, if_true]
      split
      · rfl
      · simp [Ne.symm hplace]

/-- A Kibana instance is written if reconciling the key changes it. -/
theorem count_kibana_writes (x : Content) (key place : Key) :
    (x.writes key).count (.kibana place) =
      if (x.reconciled key).kibanas place = x.kibanas place then 0 else 1 := by
  rcases x.idle_or_live key with h | ⟨a, ha, hp, hd⟩
  · have hcount : (x.writes key).count (.kibana place) = 0 := by
      rcases writes_of_idle h with hw | hw <;> simp [hw]
    rw [hcount, (x.changed key).kibanas, asked?_of_idle h]
    simp
  · have hfinalizers : (if a.metadata.hasFinalizer watchFinalizerName then []
        else [Written.finalizers key]).count (.kibana place) = 0 := by
      split <;> simp
    have hstatus : (x.statusWrites a).count (.kibana place) = 0 := by
      unfold statusWrites
      split <;> simp
    rw [writes_of_live ha hp hd, List.count_append, List.count_append, hfinalizers, hstatus,
      Nat.zero_add, Nat.add_zero, count_kibanaWrites, reconciled_of_live ha hp hd,
      kibanas_established, kibanas_established, asks?_of_alike (alike_marked a (marked a).status)]
    rfl

/-- The association of a key has the status that reconciling it would store, if any. -/
def Stated (x : Content) (key : Key) : Prop :=
  ∀ a, x.associations key = some a → ¬a.metadata.isPaused → ¬a.metadata.isBeingDeleted →
    a.status = x.status a

theorem count_status_of_live (ha : x.associations key = some a) (hp : ¬a.metadata.isPaused)
    (hd : ¬a.metadata.isBeingDeleted) (j : Key) :
    (x.writes key).count (.status j) = (x.statusWrites a).count (.status j) := by
  have hfinalizers : (if a.metadata.hasFinalizer watchFinalizerName then []
      else [Written.finalizers key]).count (.status j) = 0 := by
    split <;> simp
  have hkibana : (x.kibanaWrites a).count (.status j) = 0 := by
    unfold kibanaWrites
    repeat' split
    all_goals simp
  rw [writes_of_live ha hp hd, List.count_append, List.count_append, hfinalizers, hkibana,
    Nat.zero_add, Nat.zero_add]

theorem count_status_of_ne (hx : x.Keyed) {j : Key} (h : j ≠ key) :
    (x.writes j).count (.status key) = 0 := by
  rcases x.idle_or_live j with hidle | ⟨a, ha, hp, hd⟩
  · rcases writes_of_idle hidle with hw | hw <;> simp [hw]
  · have hne : a.key ≠ key := hx ha ▸ h
    rw [count_status_of_live ha hp hd, statusWrites]
    split <;> simp [hne]

theorem count_status_of_stated (h : x.Stated key) : (x.writes key).count (.status key) = 0 := by
  rcases x.idle_or_live key with hidle | ⟨a, ha, hp, hd⟩
  · rcases writes_of_idle hidle with hw | hw <;> simp [hw]
  · rw [count_status_of_live ha hp hd, statusWrites, if_pos (h a ha hp hd)]
    rfl

theorem count_status_le_one (x : Content) (key : Key) : (x.writes key).count (.status key) ≤ 1 := by
  rcases x.idle_or_live key with hidle | ⟨a, ha, hp, hd⟩
  · rcases writes_of_idle hidle with hw | hw <;> simp [hw]
  · rw [count_status_of_live ha hp hd]
    refine Nat.le_trans List.count_le_length ?_
    unfold statusWrites
    split <;> simp

theorem stated_reconciled (hx : x.Keyed) (key : Key) : (x.reconciled key).Stated key := by
  intro b hb hp hd
  have hc := x.changed key
  generalize x.reconciled key = y at hb hc ⊢
  cases hc with
  | idle h => exact absurd (h b hb) (not_or.2 ⟨hp, hd⟩)
  | @released a ha hdoomed =>
    rw [released_self hx ha] at hb
    split at hb
    · cases hb
    · cases hb
      exact absurd hdoomed hd
  | @established a ha hp' hd' =>
    have hstatus := (Changed.established ha hp' hd').status b
    rw [established_self hx ha] at hb
    cases hb
    rw [hstatus, status_of_alike (alike_marked a _)]

theorem Stated.changed {j : Key} (h : x.Stated key) (hx : x.Keyed) (hc : Changed j x y)
    (hj : key ≠ j) : y.Stated key := by
  intro a ha hp hd
  rw [hc.associations_of_ne hx hj] at ha
  rw [hc.status]
  exact h a ha hp hd

/-! ## Sequences of reconciles -/

/-- A status that is the right one is not written. -/
theorem count_status_writesOf_of_stated (hx : x.Keyed) (h : x.Stated key) (keys : List Key) :
    (writesOf keys x).count (.status key) = 0 := by
  induction keys generalizing x with
  | nil => rfl
  | cons j keys ih =>
    have hc := x.changed j
    rw [writesOf, List.count_append]
    by_cases hj : key = j
    · subst hj
      rw [count_status_of_stated h, ih (hc.keyed hx) (stated_reconciled hx key)]
    · rw [count_status_of_ne hx (Ne.symm hj), ih (hc.keyed hx) (h.changed hx hc hj)]

theorem count_status_writesOf (hx : x.Keyed) (key : Key) (keys : List Key) :
    (writesOf keys x).count (.status key) ≤ 1 := by
  induction keys generalizing x with
  | nil => exact Nat.zero_le _
  | cons j keys ih =>
    have hx' := (x.changed j).keyed hx
    rw [writesOf, List.count_append]
    by_cases hj : key = j
    -- The first reconcile of the key writes the status, if any does.
    · subst hj
      rw [count_status_writesOf_of_stated hx' (stated_reconciled hx key)]
      exact count_status_le_one x key
    · rw [count_status_of_ne hx (Ne.symm hj), Nat.zero_add]
      exact ih hx'

theorem given_eq_self {kb : Kibana} {backend : Backend} :
    kb.given (some backend) = kb ↔ kb.spec.backend = backend :=
  ⟨fun h => (congrArg (·.spec.backend) h).symm, fun h => h ▸ rfl⟩

/-- A Kibana instance is written as often as the configuration that is asked for changes. -/
theorem count_kibana_writesOf (hx : x.Keyed) {kb : Kibana} (hk : x.kibanas place = some kb)
    (keys : List Key) : (writesOf keys x).count (.kibana place) =
      changes kb.spec.backend (keys.filterMap (x.asked? place)) := by
  induction keys generalizing x kb with
  | nil => rfl
  | cons j keys ih =>
    have hc := x.changed j
    have hk' : (x.reconciled j).kibanas place = some (kb.given (x.asked? place j)) := by
      rw [hc.kibanas, hk]
      rfl
    have hasked : (x.reconciled j).asked? place = x.asked? place := funext (hc.asked? hx place)
    rw [writesOf, List.count_append, count_kibana_writes, ih (hc.keyed hx) hk', hasked, hk', hk]
    cases hj : x.asked? place j with
    | none =>
      rw [List.filterMap_cons_none hj]
      simp
    | some backend =>
      rw [List.filterMap_cons_some hj, changes]
      simp only [Option.some.injEq, given_eq_self]
      rfl

theorem count_kibana_writesOf_of_none (hk : x.kibanas place = none) (keys : List Key) :
    (writesOf keys x).count (.kibana place) = 0 := by
  induction keys generalizing x with
  | nil => rfl
  | cons j keys ih =>
    have hk' : (x.reconciled j).kibanas place = none := by
      rw [(x.changed j).kibanas, hk]
      rfl
    rw [writesOf, List.count_append, count_kibana_writes, hk', hk, ih hk']
    rfl

end Content

/-! ## Reconciles of a cluster -/

namespace Cluster

/-- What is written when keys are reconciled one after the other. -/
def writesOf : List Key → Cluster → List Written
  | [], _ => []
  | key :: keys, c => (reconcile key).writes c ++ writesOf keys ((reconcile key).alone c).2

variable {c : Cluster}

theorem writesOf_eq (hcalm : c.Calm) (hkeyed : c.store.Keyed) (hplain : c.store.Plain)
    (keys : List Key) : writesOf keys c = c.content.writesOf keys := by
  induction keys generalizing c with
  | nil => rfl
  | cons key keys ih =>
    have hcontent : ((reconcile key).alone c).2.content = c.content.reconciled key := by
      rw [reconcile_eq_program]
      exact Stage.content_alone hkeyed hplain hcalm rfl
    rw [writesOf, Content.writesOf, writes_reconcile hcalm hkeyed, ← hcontent, ih]
    · exact Calls.alone_keeps (fun h => h.answer) _ hcalm
    · exact Calls.alone_keeps (P := fun c => c.store.Keyed)
        (fun h q => h.called (answer_called _ q)) _ hkeyed
    · exact Calls.alone_keeps (P := fun c => c.store.Plain)
        (fun h q => h.called (answer_called _ q)) _ hplain

theorem keyed_content (h : c.store.Keyed) : c.content.Keyed := by
  intro key a ha
  obtain ⟨b, hb, rfl⟩ := Option.map_eq_some_iff.1 ha
  have hkey : b.key = key := h.associations hb
  exact hkey

/-- However long reconciles go on while nobody else does anything, they write the status of an
association once at most, and a Kibana instance as often as the configuration changes that is asked
for at it. So they write an instance once at most if all who ask for a configuration there ask for
the same. -/
theorem writes_bounded (hs : c.store.Reachable Edit.IsPlain) (keys : List Key) :
    (∀ key, (writesOf keys c.calm).count (.status key) ≤ 1) ∧
    (∀ place kb, c.store.kibanas.find? place = some kb →
      (writesOf keys c.calm).count (.kibana place) =
        changes kb.spec.backend (keys.filterMap (c.content.asked? place))) ∧
    ∀ place, (∀ backend ∈ keys.filterMap (c.content.asked? place),
        ∀ other ∈ keys.filterMap (c.content.asked? place), backend = other) →
      (writesOf keys c.calm).count (.kibana place) ≤ 1 := by
  have hx := keyed_content (c := c.calm) (hs.keyed.withFaults _)
  rw [writesOf_eq c.calm_calm (hs.keyed.withFaults _) (hs.plain.withFaults _)]
  have hcount : ∀ place kb, c.store.kibanas.find? place = some kb →
      (c.calm.content.writesOf keys).count (.kibana place) =
        changes kb.spec.backend (keys.filterMap (c.content.asked? place)) := fun place kb hk =>
    Content.count_kibana_writesOf (x := c.calm.content) hx
      (congrArg (Option.map Kibana.unversioned) hk) keys
  refine ⟨fun key => Content.count_status_writesOf hx key keys, hcount, fun place h => ?_⟩
  cases hk : c.store.kibanas.find? place with
  | none =>
    have hnone := Content.count_kibana_writesOf_of_none (x := c.calm.content)
      (congrArg (Option.map Kibana.unversioned) hk) keys
    rw [hnone]
    exact Nat.zero_le _
  | some kb =>
    rw [hcount place kb hk]
    exact changes_le_one h

/-- An association whose cluster and Kibana instance are there is reconciled four times. -/
theorem writes_bounded_of_single :
    let a : Association := ⟨.new ⟨"ns", "a"⟩, ⟨⟨"ns", "es1"⟩, ⟨"ns", "kb1"⟩⟩, .unknown⟩
    let kb : Kibana := ⟨.new ⟨"ns", "kb1"⟩, ⟨"8.0", 1, .empty⟩⟩
    let edits := Edit.provider "es1" ++ [.apply (.kibana kb), .apply (.association a)]
    let c : Cluster := ⟨edits.foldl Store.edit (.new 4), .empty⟩
    let written := writesOf (List.replicate 4 a.key) c.calm
    written = [.finalizers a.key, .kibana kb.key, .status a.key] ∧
      written.count (.status a.key) ≤ 1 ∧ written.count (.kibana kb.key) ≤ 1 := by
  intro a kb edits c written
  have hs : c.store.Reachable Edit.IsPlain := .edits (.new 4) (by decide)
  have h := writes_bounded hs (List.replicate 4 a.key)
  exact ⟨by decide, h.1 a.key, h.2.2 kb.key (by decide)⟩

/-- Two associations ask for different configurations at one Kibana instance, and each reconcile
takes it from the other. -/
theorem kibana_written_again :
    let a : Association := ⟨.new ⟨"ns", "a"⟩, ⟨⟨"ns", "es1"⟩, ⟨"ns", "kb1"⟩⟩, .unknown⟩
    let b : Association := ⟨.new ⟨"ns", "b"⟩, ⟨⟨"ns", "es2"⟩, ⟨"ns", "kb1"⟩⟩, .unknown⟩
    let kb : Kibana := ⟨.new ⟨"ns", "kb1"⟩, ⟨"8.0", 1, .empty⟩⟩
    let edits := Edit.provider "es1" ++ Edit.provider "es2" ++
      [.apply (.kibana kb), .apply (.association a), .apply (.association b)]
    let c : Cluster := ⟨edits.foldl Store.edit (.new 4), .empty⟩
    c.store.Reachable Edit.IsPlain ∧
      (writesOf [a.key, b.key] c.calm).count (.kibana kb.key) = 2 ∧
      (writesOf [a.key, b.key, a.key, b.key] c.calm).count (.kibana kb.key) = 4 := by
  intro a b kb edits c
  exact ⟨.edits (.new 4) (by decide), by decide, by decide⟩

end Cluster

end ClusterLink

import Mathlib.Algebra.BigOperators.Group.List.Basic
import Mathlib.Data.List.Nodup
import ClusterLink.Proofs.Cluster.Traffic
import ClusterLink.Proofs.Reconcile.Footprint

/-! Reconciles of independent associations. Where the footprints of the reconciles in flight are
apart, each gets from the common cluster the answers that it gets when it runs alone from the start
(`Lockstep`). So in whatever order the calls are made, what the reconciles come to and what they
leave is what they come to and leave one after the other. -/

namespace ClusterLink

open Reconcile
open Stage (footprint)

theorem sum_map_update {ι M : Type} [DecidableEq ι] [AddCommMonoid M] {l : List ι} {i : ι}
    (hl : l.Nodup) (hi : i ∈ l) (f : ι → M) (x : M) :
    (l.map (Function.update f i (f i + x))).sum = (l.map f).sum + x := by
  induction l with
  | nil => cases hi
  | cons j l ih =>
    obtain ⟨hj, hl⟩ := List.nodup_cons.1 hl
    simp only [List.map_cons, List.sum_cons]
    by_cases e : j = i
    · subst e
      have hrest : l.map (Function.update f j (f j + x)) = l.map f :=
        List.map_congr_left fun k hk => Function.update_of_ne (fun (e : k = j) => hj (e ▸ hk)) ..
      rw [hrest, Function.update_self, add_right_comm]
    · have hi : i ∈ l := (List.mem_cons.1 hi).resolve_left (Ne.symm e)
      rw [Function.update_of_ne e, ih hl hi, add_assoc]

namespace Traffic

/-- A reconcile of each of the keys is about to start. -/
def launch (keys : List Key) (c : Cluster) : Traffic where
  cluster := c
  flight key := if key ∈ keys then some (reconcile key) else none

/-- The reconciles in flight take turns: the keys tell whose turn it is. -/
def play (schedule : List Key) (t : Traffic) : Traffic :=
  schedule.foldl (fun t key => t.turn key) t

/-- No reconcile in flight has a call left to make. -/
def Ended (t : Traffic) : Prop := ∀ key p, t.flight key = some p → ∃ o, p = .done o

theorem setFlight_eq_self {t : Traffic} {key : Key} {flight : Option (Calls Outcome)}
    (h : t.flight key = flight) : t.setFlight key flight = t := by
  have hf : (fun k => if k = key then flight else t.flight k) = t.flight := by
    funext k
    split
    next e => rw [e, h]
    next => rfl
  rw [setFlight, hf]

theorem turn_eq {t : Traffic} {key : Key} {p : Calls Outcome} (h : t.flight key = some p) :
    t.turn key = { t with cluster := (Calls.next (p, t.cluster)).2 }.setFlight key
      (some (Calls.next (p, t.cluster)).1) := by
  cases p with
  | ask q next => simp only [turn, h, Calls.next]
  | done o =>
    have ht : t.turn key = t := by simp only [turn, h]
    exact ht.trans (setFlight_eq_self h).symm

theorem turn_of_none {t : Traffic} {key : Key} (h : t.flight key = none) : t.turn key = t := by
  simp only [turn, h]

/-- Every reconcile in flight has come as far as it comes alone in so many calls, and what nobody
keeps to is as it was. -/
structure Lockstep (c₀ : Cluster) (keys : List Key) (n : Key → Nat) (t : Traffic) : Prop where
  flight : ∀ k, t.flight k = if k ∈ keys then some (solo c₀ k (n k)).1 else none
  own : ∀ k ∈ keys, (solo c₀ k (n k)).2.Agree (footprint c₀ k) t.cluster
  rest : c₀.Agree (fun p => ∀ k ∈ keys, ¬footprint c₀ k p) t.cluster
  writes : t.cluster.store.writes = c₀.store.writes + (keys.map fun k => gained c₀ k (n k)).sum

/-- No two of the keys keep to a common place. -/
def FootprintsApart (c₀ : Cluster) (keys : List Key) : Prop :=
  ∀ j ∈ keys, ∀ k ∈ keys, ∀ p, footprint c₀ j p → footprint c₀ k p → j = k

variable {c₀ : Cluster} {keys : List Key} {n : Key → Nat} {t t' : Traffic}

theorem Lockstep.launch (hc : c₀.Calm) (keys : List Key) :
    Lockstep c₀ keys (fun _ => 0) (launch keys c₀) where
  flight _ := rfl
  own _ _ := .refl hc
  rest := .refl hc
  writes := by
    have hzero : (keys.map fun k => gained c₀ k 0).sum = 0 := List.sum_map_zero
    rw [hzero, add_zero]
    rfl

theorem sum_gained_update {j : Key} (hj : j ∈ keys) (hnodup : keys.Nodup) :
    (keys.map fun k => gained c₀ k (Function.update n j (n j + 1) k)).sum =
      (keys.map fun k => gained c₀ k (n k)).sum + Calls.gain (solo c₀ j (n j)) := by
  have hmap : (keys.map fun k => gained c₀ k (Function.update n j (n j + 1) k)) =
      keys.map (Function.update (fun k => gained c₀ k (n k)) j
        (gained c₀ j (n j) + Calls.gain (solo c₀ j (n j)))) := by
    refine List.map_congr_left fun k _ => ?_
    by_cases e : k = j
    · subst e
      rw [Function.update_self, Function.update_self, gained]
    · rw [Function.update_of_ne e, Function.update_of_ne e]
  rw [hmap, sum_map_update hnodup hj fun k => gained c₀ k (n k)]

theorem Lockstep.turn_of_mem (h : Lockstep c₀ keys n t) (hkeyed : c₀.store.Keyed)
    (hapart : FootprintsApart c₀ keys) (hnodup : keys.Nodup) {j : Key} (hj : j ∈ keys) :
    Lockstep c₀ keys (Function.update n j (n j + 1)) (t.turn j) := by
  have hkeeps := solo_keepsTo hkeyed j (n j)
  obtain ⟨hnext, hgain, hown⟩ := Calls.agree_next (h.own j hj) hkeeps
  rw [turn_eq ((h.flight j).trans (if_pos hj))]
  refine ⟨fun k => ?_, fun k hk => ?_, ?_, ?_⟩
  · by_cases e : k = j
    · subst e
      rw [if_pos hj, Function.update_self, solo_succ]
      exact (if_pos rfl).trans (congrArg some hnext.symm)
    · rw [Function.update_of_ne e, ← h.flight]
      exact if_neg e
  · by_cases e : k = j
    · subst e
      rw [Function.update_self, solo_succ]
      exact hown
    · rw [Function.update_of_ne e]
      refine Calls.agree_next_right (h.own k hk) hkeeps fun place hp hq => ?_
      exact e (hapart k hk j hj place hp hq)
  · exact Calls.agree_next_right h.rest hkeeps fun place hp hq => hp j hj hq
  · rw [sum_gained_update hj hnodup, ← add_assoc, ← h.writes]
    exact (Calls.writes_next _).trans (congrArg _ hgain.symm)

/-- Only the numbers of calls for the keys in question count. -/
theorem Lockstep.congr {n' : Key → Nat} (h : Lockstep c₀ keys n t)
    (hn : ∀ k ∈ keys, n' k = n k) : Lockstep c₀ keys n' t := by
  refine ⟨fun k => ?_, fun k hk => ?_, h.rest, ?_⟩
  · rw [h.flight]
    split
    next hk => rw [hn k hk]
    next => rfl
  · rw [hn k hk]
    exact h.own k hk
  · rw [h.writes]
    exact congrArg (c₀.store.writes + List.sum ·)
      (List.map_congr_left fun k hk => congrArg (gained c₀ k) (hn k hk).symm)

theorem Lockstep.turn (h : Lockstep c₀ keys n t) (hkeyed : c₀.store.Keyed)
    (hapart : FootprintsApart c₀ keys) (hnodup : keys.Nodup) (j : Key) :
    Lockstep c₀ keys (Function.update n j (n j + 1)) (t.turn j) := by
  by_cases hj : j ∈ keys
  · exact h.turn_of_mem hkeyed hapart hnodup hj
  · rw [turn_of_none ((h.flight j).trans (if_neg hj))]
    refine h.congr fun k hk => Function.update_of_ne ?_ ..
    rintro rfl
    exact hj hk

theorem Lockstep.play (h : Lockstep c₀ keys n t) (hkeyed : c₀.store.Keyed)
    (hapart : FootprintsApart c₀ keys) (hnodup : keys.Nodup) (schedule : List Key) :
    Lockstep c₀ keys (fun k => n k + schedule.count k) (play schedule t) := by
  induction schedule generalizing n t with
  | nil => exact h
  | cons j schedule ih =>
    have hstep := ih (h.turn hkeyed hapart hnodup j)
    have hcount : (fun k => n k + (j :: schedule).count k) =
        fun k => Function.update n j (n j + 1) k + schedule.count k := by
      funext k
      rw [List.count_cons]
      by_cases e : k = j
      · subst e
        simp only [Function.update_self, BEq.rfl, if_true]
        omega
      · rw [Function.update_of_ne e, if_neg (by simpa using fun e' => e e'.symm)]
        omega
    rw [hcount]
    exact hstep

/-- When all have ended, each has come to what it comes to alone. -/
theorem Lockstep.solo_eq (h : Lockstep c₀ keys n t) (he : t.Ended) {k : Key} (hk : k ∈ keys) :
    solo c₀ k (n k) = (.done ((reconcile k).alone c₀).1, ((reconcile k).alone c₀).2) := by
  obtain ⟨o, ho⟩ := he k _ ((h.flight k).trans (if_pos hk))
  exact solo_of_done ho

/-- All ends are the same but for the log. -/
theorem Lockstep.end_unique {n' : Key → Nat} (h : Lockstep c₀ keys n t)
    (h' : Lockstep c₀ keys n' t') (he : t.Ended) (he' : t'.Ended) :
    t.flight = t'.flight ∧ t.cluster.unlogged = t'.cluster.unlogged := by
  have hsolo : ∀ k ∈ keys, solo c₀ k (n k) = solo c₀ k (n' k) := fun k hk =>
    (h.solo_eq he hk).trans (h'.solo_eq he' hk).symm
  have hgained : ∀ k ∈ keys, gained c₀ k (n k) = gained c₀ k (n' k) := by
    intro k hk
    have hw := writes_solo c₀ k (n k)
    rw [hsolo k hk, writes_solo] at hw
    exact WriteCounts.add_left_cancel hw.symm
  refine ⟨?_, Cluster.Agree.unlogged ⟨h.rest.calm', h'.rest.calm', ?_, ?_, ?_, fun p _ => ?_⟩ ?_⟩
  · funext k
    rw [h.flight, h'.flight]
    split
    next hk => rw [hsolo k hk]
    next => rfl
  · exact h.rest.elasticsearches.symm.trans h'.rest.elasticsearches
  · exact h.rest.secrets.symm.trans h'.rest.secrets
  · exact h.rest.issued.symm.trans h'.rest.issued
  · by_cases hp : ∃ k ∈ keys, footprint c₀ k p
    · obtain ⟨k, hk, hp⟩ := hp
      have hentry := (h.own k hk).entry p hp
      rw [hsolo k hk] at hentry
      exact hentry.symm.trans ((h'.own k hk).entry p hp)
    · have hp : ∀ k ∈ keys, ¬footprint c₀ k p := fun k hk hf => hp ⟨k, hk, hf⟩
      exact (h.rest.entry p hp).symm.trans (h'.rest.entry p hp)
  · rw [h.writes, h'.writes, List.map_congr_left hgained]

theorem Lockstep.ended (h : Lockstep c₀ keys n t) (hn : ∀ k ∈ keys, 12 ≤ n k) : t.Ended := by
  intro k p hp
  rw [h.flight] at hp
  split at hp
  next hk =>
    cases hp
    exact solo_done c₀ k (hn k hk)
  next => cases hp

end Traffic

/-! ## One after the other -/

namespace Cluster

/-- Reconciles keys one after the other: what came of each, and what is left. -/
def reconcileAll : List Key → Cluster → (Key → Option Outcome) × Cluster
  | [], c => (fun _ => none, c)
  | key :: rest, c =>
    let (outcome, c) := (reconcile key).alone c
    let (outcomes, c) := reconcileAll rest c
    (Function.update outcomes key (some outcome), c)

/-- The associations that are stored under some keys. -/
def stored (c : Cluster) (keys : List Key) : List Association :=
  keys.filterMap c.store.associations.find?

end Cluster

namespace Traffic

variable {c : Cluster} {keys : List Key}

theorem play_replicate {t : Traffic} {key : Key} {p : Calls Outcome} (h : t.flight key = some p)
    (n : Nat) : play (List.replicate n key) t =
      { t with cluster := (Calls.next^[n] (p, t.cluster)).2 }.setFlight key
        (some (Calls.next^[n] (p, t.cluster)).1) := by
  induction n generalizing t p with
  | zero => exact (setFlight_eq_self h).symm
  | succ n ih =>
    have hp : (t.turn key).flight key = some (Calls.next (p, t.cluster)).1 := by
      rw [turn_eq h]
      exact if_pos rfl
    have hstep : play (List.replicate (n + 1) key) t = play (List.replicate n key) (t.turn key) :=
      rfl
    rw [hstep, ih hp, turn_eq h, Function.iterate_succ_apply]
    simp only [setFlight]
    congr 1
    funext k
    split <;> rfl

/-- Reconciling one after the other is one way of taking turns. -/
theorem play_serial {order : List Key} (hnodup : order.Nodup) {t : Traffic}
    (h : ∀ k ∈ order, t.flight k = some (reconcile k)) :
    play (order.flatMap (List.replicate 12)) t =
      ⟨(t.cluster.reconcileAll order).2, fun k =>
        if k ∈ order then ((t.cluster.reconcileAll order).1 k).map .done else t.flight k⟩ := by
  induction order generalizing t with
  | nil => rfl
  | cons k order ih =>
    obtain ⟨hk, hnodup⟩ := List.nodup_cons.1 hnodup
    obtain ⟨o, ho⟩ := solo_done t.cluster k (Nat.le_refl 12)
    have hsolo := solo_of_done ho
    rw [solo] at hsolo
    rw [List.flatMap_cons, play, List.foldl_append, ← play, ← play,
      play_replicate (h k List.mem_cons_self), hsolo, ih hnodup]
    · refine congrArg (Traffic.mk _) (funext fun j => ?_)
      by_cases e : j = k
      · subst e
        have hself : (t.cluster.reconcileAll (j :: order)).1 j =
            some ((reconcile j).alone t.cluster).1 := Function.update_self ..
        rw [if_neg hk, if_pos List.mem_cons_self, hself]
        exact if_pos rfl
      · simp only [List.mem_cons, e, false_or]
        split
        next => exact congrArg (Option.map Program.done) (Function.update_of_ne e ..).symm
        next => exact if_neg e
    · intro j hj
      have hne : j ≠ k := by
        rintro rfl
        exact hk hj
      exact (if_neg hne).trans (h j (List.mem_cons_of_mem _ hj))

theorem reconcileAll_of_not_mem {order : List Key} {k : Key} (h : k ∉ order) (c : Cluster) :
    (c.reconcileAll order).1 k = none := by
  induction order generalizing c with
  | nil => rfl
  | cons j order ih =>
    have hne : k ≠ j := fun e => h (e ▸ List.mem_cons_self)
    exact (Function.update_of_ne hne ..).trans (ih (fun hm => h (List.mem_cons_of_mem _ hm)) _)

/-- Associations with different Kibana instances and different names for their watches are
independent. -/
theorem footprintsApart_of_nodup (hkeyed : c.store.Keyed)
    (hkibana : ((c.stored keys).map fun a => a.spec.kibana).Nodup)
    (hnames : ∀ side : Side, ((c.stored keys).map fun a => side.watchName a.key).Nodup) :
    FootprintsApart c keys := by
  have hmem : ∀ {k a}, k ∈ keys → c.store.associations.find? k = some a → a ∈ c.stored keys :=
    fun hk ha => List.mem_filterMap.2 ⟨_, hk, ha⟩
  intro j hj k hk p hpj hpk
  cases p with
  | association key => exact hpj.symm.trans hpk
  | kibana key =>
    obtain ⟨a, ha, rfl⟩ := hpj
    obtain ⟨b, hb, e⟩ := hpk
    obtain rfl := List.inj_on_of_nodup_map hkibana (hmem hk hb) (hmem hj ha) e
    exact (hkeyed.associations ha).symm.trans (hkeyed.associations hb)
  | watch side name =>
    obtain ⟨hj', rfl⟩ := hpj
    obtain ⟨hk', e⟩ := hpk
    obtain ⟨a, ha⟩ := Option.isSome_iff_exists.1 hj'
    obtain ⟨b, hb⟩ := Option.isSome_iff_exists.1 hk'
    obtain rfl : a.key = j := hkeyed.associations ha
    obtain rfl : b.key = k := hkeyed.associations hb
    rw [List.inj_on_of_nodup_map (hnames side) (hmem hj ha) (hmem hk hb) e]

/-- Reconciles of independent associations that take turns, call by call and in any order, come to
their ends, and what they come to and leave is what they come to and leave one after the other. -/
theorem serializable (hs : c.store.Reachable Allowed) (hc : c.Calm) (hnodup : keys.Nodup)
    (hkibana : ((c.stored keys).map fun a => a.spec.kibana).Nodup)
    (hnames : ∀ side : Side, ((c.stored keys).map fun a => side.watchName a.key).Nodup)
    (schedule : List Key) :
    let t := play schedule (launch keys c)
    ((∀ k ∈ keys, 12 ≤ schedule.count k) → t.Ended) ∧
    (t.Ended → ∀ order, order.Perm keys →
      (t.flight = fun k => ((c.reconcileAll order).1 k).map .done) ∧
        t.cluster.unlogged = (c.reconcileAll order).2.unlogged) := by
  intro t
  have hapart := footprintsApart_of_nodup hs.keyed hkibana hnames
  have hlock := Lockstep.launch hc keys
  have ht := hlock.play hs.keyed hapart hnodup schedule
  refine ⟨fun hcount => ht.ended fun k hk => ?_, fun he order horder => ?_⟩
  · exact (Nat.zero_add _).symm ▸ hcount k hk
  -- The serial run is one more schedule, and all schedules end alike.
  have hserial := play_serial (horder.nodup_iff.2 hnodup) (t := launch keys c) fun k hk =>
    if_pos (horder.mem_iff.1 hk)
  have hflight : (play (order.flatMap (List.replicate 12)) (launch keys c)).flight =
      fun k => ((c.reconcileAll order).1 k).map .done := by
    rw [hserial]
    funext k
    by_cases hk : k ∈ order
    · exact if_pos hk
    · have hk' : k ∉ keys := fun hm => hk (horder.mem_iff.2 hm)
      rw [reconcileAll_of_not_mem hk]
      exact (if_neg hk).trans (if_neg hk')
  have he' : (play (order.flatMap (List.replicate 12)) (launch keys c)).Ended := by
    intro k p hp
    rw [hflight] at hp
    obtain ⟨o, -, rfl⟩ := Option.map_eq_some_iff.1 hp
    exact ⟨o, rfl⟩
  have hserialLock := hlock.play hs.keyed hapart hnodup (order.flatMap (List.replicate 12))
  obtain ⟨hfl, hcl⟩ := ht.end_unique hserialLock he he'
  refine ⟨hfl.trans hflight, hcl.trans ?_⟩
  rw [hserial]
  rfl

/-- Two associations of one cluster take turns, and come to what they come to in either order. -/
theorem serializable_of_two :
    let a : Association := ⟨.new ⟨"ns", "a"⟩, ⟨⟨"ns", "es"⟩, ⟨"ns", "kb1"⟩⟩, .unknown⟩
    let b : Association := ⟨.new ⟨"ns", "b"⟩, ⟨⟨"ns", "es"⟩, ⟨"ns", "kb2"⟩⟩, .unknown⟩
    let c := ((Cluster.new 4).edit (.apply (.association a))).edit (.apply (.association b))
    let t := play ((List.replicate 12 [a.key, b.key]).flatten) (launch [a.key, b.key] c)
    t.Ended ∧ ∀ order, order.Perm [a.key, b.key] →
      (t.flight = fun k => ((c.reconcileAll order).1 k).map .done) ∧
        t.cluster.unlogged = (c.reconcileAll order).2.unlogged := by
  intro a b c t
  have ha : (Edit.apply (.association a)).IsPlain := rfl
  have hb : (Edit.apply (.association b)).IsPlain := rfl
  have hs : c.store.Reachable Edit.IsPlain := .edit (.edit (.new 4) ha) hb
  obtain ⟨hcount, hserial⟩ := serializable hs (fun _ => rfl)
    (show [a.key, b.key].Nodup by decide) (by decide) (fun side => by cases side <;> decide)
    (List.replicate 12 [a.key, b.key]).flatten
  have he : t.Ended := hcount (by decide)
  exact ⟨he, hserial he⟩

end Traffic

end ClusterLink

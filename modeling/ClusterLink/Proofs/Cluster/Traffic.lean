import ClusterLink.Proofs.Reconcile.Step
import ClusterLink.Proofs.Store.Edit
import Mathlib.Logic.Relation

/-! Reconciles in flight: a cluster on which actors from outside work, and reconciles of which each
key has one at most. They take turns call by call, in any order; a call may meet a fault, and a
reconcile may be dropped before any call. `Traffic.Invariant` is what one move has to keep, stage by
stage, and `Traffic.Invariant.run` that every run keeps it. -/

namespace ClusterLink

namespace Cluster

/-- Carries an edit out. -/
def edit (c : Cluster) (e : Edit) : Cluster := { c with store := c.store.edit e }

end Cluster

/-- A cluster with the reconciles in flight, by key. -/
structure Traffic where
  cluster : Cluster
  flight : Key → Option (Calls Outcome)

namespace Traffic

/-- The traffic with another reconcile in flight for a key, or none. -/
def setFlight (t : Traffic) (key : Key) (flight : Option (Calls Outcome)) : Traffic :=
  { t with flight := fun k => if k = key then flight else t.flight k }

/-- One move of one of those who work on the cluster. -/
inductive Move : Traffic → Traffic → Prop where
  | edit {t : Traffic} (e : Edit) : Move t { t with cluster := t.cluster.edit e }
  /-- Faults are set, or used up by a call that is dropped before it does anything else. -/
  | fault {t : Traffic} (fault? : Operation → Option StoreError) :
    Move t { t with cluster := t.cluster.withFaults fault? }
  | start {t : Traffic} {key : Key} (h : t.flight key = none) :
    Move t (t.setFlight key (some (reconcile key)))
  | call {t : Traffic} {key : Key} {q : Call} {next : q.Answer → Calls Outcome}
      (h : t.flight key = some (.ask q next)) :
      Move t ({ t with cluster := (t.cluster.answer q).2 }.setFlight key
        (some (next (t.cluster.answer q).1)))
  /-- A reconcile leaves, whether it has ended or is dropped. -/
  | leave {t : Traffic} (key : Key) : Move t (t.setFlight key none)

/-- Nothing is in flight on this cluster. -/
def quiet (c : Cluster) : Traffic := ⟨c, fun _ => none⟩

/-- Any number of moves. -/
abbrev Run (t t' : Traffic) : Prop := Relation.ReflTransGen Move t t'

/-- The next call of the reconcile in flight for a key, if there is one. -/
def turn (key : Key) (t : Traffic) : Traffic :=
  match t.flight key with
  | some (.ask q next) =>
    { t with cluster := (t.cluster.answer q).2 }.setFlight key
      (some (next (t.cluster.answer q).1))
  | _ => t

/-- So many calls of the reconcile in flight for a key. -/
def turns (key : Key) : Nat → Traffic → Traffic
  | 0, t => t
  | n + 1, t => turns key n (t.turn key)

theorem run_turn (key : Key) (t : Traffic) : Run t (t.turn key) := by
  unfold turn
  split
  next q next h => exact .single (.call h)
  next => exact .refl

theorem run_turns (key : Key) (n : Nat) (t : Traffic) : Run t (t.turns key n) := by
  induction n generalizing t with
  | zero => exact .refl
  | succ n ih => exact (run_turn key t).trans (ih _)

open Reconcile

/-- An invariant of clusters, with an assertion for each stage of a reconcile of each key. -/
structure Invariant (Inv : Cluster → Prop) (Holds : Key → Stage → Cluster → Prop) : Prop where
  edit : ∀ {c}, Inv c → ∀ e, Inv (c.edit e) ∧ ∀ {k s}, Holds k s c → Holds k s (c.edit e)
  fault : ∀ {c}, Inv c → ∀ f,
    Inv (c.withFaults f) ∧ ∀ {k s}, Holds k s c → Holds k s (c.withFaults f)
  start : ∀ {c}, Inv c → ∀ k, Holds k (.fetch k) c
  step : ∀ {c c' k s s'}, Inv c → Holds k s c → Stage.Step s c s' c' →
    Inv c' ∧ Holds k s' c' ∧ ∀ {j r}, j ≠ k → Holds j r c → Holds j r c'

/-- Traffic in which the invariant and the assertions about all reconciles in flight hold. -/
def Satisfies (Inv : Cluster → Prop) (Holds : Key → Stage → Cluster → Prop) (t : Traffic) : Prop :=
  Inv t.cluster ∧
    ∀ key p, t.flight key = some p → ∃ s : Stage, p = s.program ∧ Holds key s t.cluster

variable {Inv : Cluster → Prop} {Holds : Key → Stage → Cluster → Prop} {t t' : Traffic}

theorem Satisfies.quiet {c : Cluster} (h : Inv c) : (Traffic.quiet c).Satisfies Inv Holds :=
  ⟨h, fun _ _ h => nomatch h⟩

namespace Invariant

theorem move (I : Invariant Inv Holds) (h : t.Satisfies Inv Holds) (hm : Move t t') :
    t'.Satisfies Inv Holds := by
  obtain ⟨hinv, hfl⟩ := h
  cases hm with
  | edit e =>
    refine ⟨(I.edit hinv e).1, fun key p hp => ?_⟩
    obtain ⟨s, rfl, hs⟩ := hfl key p hp
    exact ⟨s, rfl, (I.edit hinv e).2 hs⟩
  | fault f =>
    refine ⟨(I.fault hinv f).1, fun key p hp => ?_⟩
    obtain ⟨s, rfl, hs⟩ := hfl key p hp
    exact ⟨s, rfl, (I.fault hinv f).2 hs⟩
  | @start key h =>
    refine ⟨hinv, fun j p hp => ?_⟩
    simp only [setFlight] at hp
    split at hp
    next hj =>
      cases hp
      exact ⟨_, reconcile_eq_program key, hj ▸ I.start hinv key⟩
    next => exact hfl j p hp
  | @call key q next h =>
    obtain ⟨s, hs, hold⟩ := hfl key _ h
    obtain ⟨s', hs', hstep⟩ := Stage.step_of_program hs.symm t.cluster
    obtain ⟨hinv', hold', hothers⟩ := I.step hinv hold hstep
    refine ⟨hinv', fun j p hp => ?_⟩
    simp only [setFlight] at hp
    split at hp
    next hj =>
      cases hp
      exact ⟨s', hs', hj ▸ hold'⟩
    next hj =>
      obtain ⟨r, rfl, hr⟩ := hfl j p hp
      exact ⟨r, rfl, hothers hj hr⟩
  | leave key =>
    refine ⟨hinv, fun j p hp => ?_⟩
    simp only [setFlight] at hp
    split at hp
    next => cases hp
    next => exact hfl j p hp

theorem run (I : Invariant Inv Holds) (h : t.Satisfies Inv Holds) (hr : Run t t') :
    t'.Satisfies Inv Holds := by
  induction hr with
  | refl => exact h
  | tail _ hm ih => exact I.move ih hm

end Invariant

end Traffic

end ClusterLink

import Mathlib.Logic.Function.Iterate
import ClusterLink.Proofs.Cluster.Place

/-! What one reconcile reads and writes. `solo` follows a reconcile that runs alone call by call.
All its calls keep to its `footprint`: the association, the Kibana instance that it names, and the
two watches that bear its name. -/

namespace ClusterLink

open Reconcile

/-! ## Running alone, call by call -/

namespace Calls

variable {α : Type}

/-- The program and the cluster after the next call, if there is one. -/
def next : Calls α × Cluster → Calls α × Cluster
  | (.done o, c) => (.done o, c)
  | (.ask q next, c) => (next (c.answer q).1, (c.answer q).2)

/-- How many writes of each kind the next call is. -/
def gain : Calls α × Cluster → WriteCounts
  | (.done _, _) => 0
  | (.ask q _, c) => q.gain (c.answer q).1

/-- The next call of a program, if there is one, keeps to some places. -/
def KeepsTo (P : Place → Prop) (p : Calls α) : Prop :=
  ∀ q next place, p = .ask q next → q.place? = some place → P place

theorem alone_next (x : Calls α × Cluster) : (next x).1.alone (next x).2 = x.1.alone x.2 := by
  obtain ⟨p, c⟩ := x
  cases p <;> rfl

theorem alone_iterate (n : Nat) (x : Calls α × Cluster) :
    (next^[n] x).1.alone (next^[n] x).2 = x.1.alone x.2 := by
  induction n with
  | zero => rfl
  | succ n ih => rw [Function.iterate_succ_apply', alone_next, ih]

theorem iterate_done (n : Nat) (o : α) (c : Cluster) : next^[n] (.done o, c) = (.done o, c) :=
  Function.iterate_fixed rfl n

/-- A program that has ended has come to what it comes to alone. -/
theorem iterate_of_done {n : Nat} {x : Calls α × Cluster} {o : α} (h : (next^[n] x).1 = .done o) :
    next^[n] x = (.done (x.1.alone x.2).1, (x.1.alone x.2).2) := by
  have hx := alone_iterate n x
  generalize next^[n] x = y at h hx
  obtain ⟨p, c⟩ := y
  obtain rfl : p = .done o := h
  rw [← hx]
  rfl

theorem writes_next (x : Calls α × Cluster) :
    (next x).2.store.writes = x.2.store.writes + gain x := by
  obtain ⟨p, c⟩ := x
  cases p with
  | done o => exact (add_zero _).symm
  | ask q k => exact c.writes_answer q

variable {P : Place → Prop} {c c' : Cluster} {p : Calls α}

theorem agree_next (h : c.Agree P c') (hp : p.KeepsTo P) :
    (next (p, c)).1 = (next (p, c')).1 ∧ gain (p, c) = gain (p, c') ∧
      Cluster.Agree P (next (p, c)).2 (next (p, c')).2 := by
  cases p with
  | done o => exact ⟨rfl, rfl, h⟩
  | ask q k =>
    obtain ⟨ha, h'⟩ := h.answer fun place => hp q k place rfl
    exact ⟨congrArg k ha, congrArg q.gain ha, h'⟩

theorem agree_next_right (h : c.Agree P c') {Q : Place → Prop} (hp : p.KeepsTo Q)
    (hd : ∀ place, P place → ¬Q place) : c.Agree P (next (p, c')).2 := by
  cases p with
  | done o => exact h
  | ask q k =>
    exact h.answer_right fun place hplace hq => hd place hplace (hp q k place rfl hq)

/-- A call leaves what is outside of the places that it keeps to. -/
theorem entry_next (hp : p.KeepsTo P) {place : Place} (h : ¬P place) :
    (next (p, c)).2.entry place = c.entry place := by
  cases p with
  | done o => rfl
  | ask q k => exact c.entry_answer_of_ne fun hq => h (hp q k place rfl hq)

/-- Clusters and secrets are only read. -/
theorem alone_reads (p : Calls α) (c : Cluster) :
    (p.alone c).2.store.elasticsearches = c.store.elasticsearches ∧
      (p.alone c).2.store.secrets = c.store.secrets ∧
      (p.alone c).2.store.issued = c.store.issued := by
  refine Calls.alone_keeps (P := fun c' => c'.store.elasticsearches = c.store.elasticsearches ∧
    c'.store.secrets = c.store.secrets ∧ c'.store.issued = c.store.issued) ?_ p ⟨rfl, rfl, rfl⟩
  intro c' h q
  have hcalled := c'.answer_called q
  exact ⟨hcalled.elasticsearches.trans h.1, hcalled.secrets.trans h.2.1,
    hcalled.issued.trans h.2.2⟩

end Calls

namespace Reconcile.Stage

theorem iterate_of_rank {s : Stage} {n : Nat} (h : s.rank ≤ n + 1) (c : Cluster) :
    ∃ o, (Calls.next^[n] (s.program, c)).1 = .done o := by
  induction n generalizing s c with
  | zero =>
    cases s with
    | ended o => exact ⟨o, program_ended o⟩
    | _ => simp [rank] at h
  | succ n ih =>
    cases hv : s.view with
    | inl o =>
      rw [program_eq_done hv]
      exact ⟨o, congrArg Prod.fst (Calls.iterate_done (n + 1) o c)⟩
    | inr ask =>
      obtain ⟨call, next⟩ := ask
      rw [program_eq_ask hv fun _ => rfl, Function.iterate_succ_apply]
      have hlt := rank_lt_of_view hv (c.answer call).1
      exact ih (by omega) _

variable {c c' c₀ : Cluster} {k : Key} {s s' : Stage} {a : Association}

/-- The places that a reconcile of a key keeps to, by the association that stands there when it
starts. -/
def footprint (c₀ : Cluster) (k : Key) : Place → Prop
  | .association key => key = k
  | .kibana key => ∃ a, c₀.store.associations.find? k = some a ∧ a.spec.kibana = key
  | .watch side name => (c₀.store.associations.find? k).isSome ∧ name = side.watchName k

/-- A copy of the association of a key that names the same Kibana instance. -/
def IsCopy (c₀ : Cluster) (k : Key) (a : Association) : Prop :=
  a.key = k ∧ ∃ b, c₀.store.associations.find? k = some b ∧ b.spec.kibana = a.spec.kibana

/-- What a reconcile of a key that runs alone from the start works on. -/
def Within (c₀ : Cluster) (k : Key) : Stage → Cluster → Prop
  | .fetch key, c => key = k ∧ c = c₀
  | .unwatchKibana key a, _ | .unwatchElasticsearch key a, _ => key = k ∧ IsCopy c₀ k a
  | .register a, _ | .release a, _ | .watchElasticsearch a, _ | .watchKibana a, _
  | .readElasticsearch a, _ | .readUsers a _, _ | .readCa a _ _, _ | .readKibana a _, _
  | .storeStatus a _ _, _ => IsCopy c₀ k a
  | .configure a kb, _ => IsCopy c₀ k a ∧ kb.key = a.spec.kibana
  | .ended _, _ => True

theorem within_reported (h : IsCopy c₀ k a) (new : Status) (error : Option ReconcileError)
    (c : Cluster) : (reported a new error).Within c₀ k c := by
  unfold reported
  split
  · trivial
  · exact h

theorem within_finalized (h : IsCopy c₀ k a) (c : Cluster) : (finalized a).Within c₀ k c := by
  unfold finalized
  split
  · trivial
  · exact h

theorem within_opened (h : IsCopy c₀ k a) (c : Cluster) : (opened k a).Within c₀ k c := by
  unfold opened
  repeat' split
  all_goals trivial

theorem IsCopy.footprint (h : IsCopy c₀ k a) (side : Side) :
    footprint c₀ k (.association a.key) ∧ footprint c₀ k (.kibana a.spec.kibana) ∧
      footprint c₀ k (.watch side (side.watchName a.key)) := by
  obtain ⟨rfl, b, hb, hk⟩ := h
  exact ⟨rfl, ⟨b, hb, hk⟩, by rw [hb]; rfl, rfl⟩

theorem Within.keepsTo (h : s.Within c₀ k c) : s.program.KeepsTo (footprint c₀ k) := by
  intro q k' place hq hplace
  obtain ⟨next, hv, -⟩ := view_of_program_eq_ask hq
  cases s <;> simp only [view, reduceCtorEq, Sum.inr.injEq, Sigma.mk.injEq] at hv
  all_goals obtain ⟨rfl, -⟩ := hv; cases hplace
  case fetch => exact h.1
  case register a => exact key_marked a ▸ (h.footprint .kibana).1
  case release => exact (IsCopy.footprint h .kibana).1
  case storeStatus => exact (IsCopy.footprint h .kibana).1
  case unwatchKibana key a =>
    obtain ⟨rfl, ha, b, hb, -⟩ := h
    exact ⟨by rw [hb]; rfl, rfl⟩
  case unwatchElasticsearch key a =>
    obtain ⟨rfl, ha, b, hb, -⟩ := h
    exact ⟨by rw [hb]; rfl, rfl⟩
  case watchElasticsearch => exact (IsCopy.footprint h .elasticsearch).2.2
  case watchKibana => exact (IsCopy.footprint h .kibana).2.2
  case readKibana => exact (IsCopy.footprint h .kibana).2.1
  case configure a kb => exact h.2 ▸ (h.1.footprint .kibana).2.1

theorem Step.within (h : Step s c s' c') (hkeyed : c.store.Keyed) (hs : s.Within c₀ k c) :
    s'.Within c₀ k c' := by
  cases h with
  | fetch _ ha =>
    obtain ⟨rfl, rfl⟩ := hs
    exact within_opened ⟨hkeyed.associations ha, _, ha, rfl⟩ _
  | fetchFails | registerFails | releaseFails | storeStatus | storeStatusFails => trivial
  | @register _ a stored writes _ ha =>
    obtain ⟨hkey, b, hb, hk⟩ := hs
    have hkey' := (hkeyed.associations.key_rewritten ha).trans (key_marked a)
    exact within_finalized ⟨hkey'.trans hkey, b, hb, hk⟩ _
  | release _ ha =>
    obtain ⟨hkey, b, hb, hk⟩ := hs
    exact within_finalized ⟨(hkeyed.associations.key_rewritten ha).trans hkey, b, hb, hk⟩ _
  | unwatchElasticsearch => exact hs.2
  | unwatchKibana | watchElasticsearch | watchKibana | readElasticsearch | readUsers | readCa =>
    exact hs
  | readKibana _ hk =>
    have hkey := hkeyed.kibanas hk
    exact ⟨hs, hkey⟩
  | configure | configureFails => exact within_reported hs.1 ..
  | _ => exact within_reported hs ..

end Reconcile.Stage

open Stage (footprint)

/-! ## One reconcile alone -/

/-- A reconcile of a key and the cluster, so many calls after it started alone. -/
def solo (c₀ : Cluster) (k : Key) (n : Nat) : Calls Outcome × Cluster :=
  Calls.next^[n] (reconcile k, c₀)

/-- How many writes of each kind these calls were. -/
def gained (c₀ : Cluster) (k : Key) : Nat → WriteCounts
  | 0 => 0
  | n + 1 => gained c₀ k n + Calls.gain (solo c₀ k n)

section Solo

variable {c₀ : Cluster} {k : Key} {n : Nat}

theorem solo_succ (c₀ : Cluster) (k : Key) (n : Nat) :
    solo c₀ k (n + 1) = Calls.next (solo c₀ k n) := Function.iterate_succ_apply' ..

theorem solo_of_done {o : Outcome} (h : (solo c₀ k n).1 = .done o) :
    solo c₀ k n = (.done ((reconcile k).alone c₀).1, ((reconcile k).alone c₀).2) :=
  Calls.iterate_of_done h

theorem solo_done (c₀ : Cluster) (k : Key) (h : 12 ≤ n) : ∃ o, (solo c₀ k n).1 = .done o := by
  rw [solo, reconcile_eq_program]
  exact Stage.iterate_of_rank (show 13 ≤ n + 1 by omega) c₀

theorem solo_within (hkeyed : c₀.store.Keyed) (k : Key) (n : Nat) : ∃ s : Stage,
    (solo c₀ k n).1 = s.program ∧ s.Within c₀ k (solo c₀ k n).2 ∧
      (solo c₀ k n).2.store.Keyed := by
  induction n with
  | zero => exact ⟨.fetch k, reconcile_eq_program k, ⟨rfl, rfl⟩, hkeyed⟩
  | succ n ih =>
    obtain ⟨s, hp, hs, hk⟩ := ih
    rw [solo_succ]
    generalize solo c₀ k n = x at hp hs hk
    obtain ⟨p, c⟩ := x
    cases p with
    | done o => exact ⟨s, hp, hs, hk⟩
    | ask q next =>
      obtain ⟨s', hp', hstep⟩ := Stage.step_of_program hp.symm c
      exact ⟨s', hp', hstep.within hk hs, hk.called hstep.called⟩

theorem solo_keepsTo (hkeyed : c₀.store.Keyed) (k : Key) (n : Nat) :
    (solo c₀ k n).1.KeepsTo (footprint c₀ k) := by
  obtain ⟨s, hp, hs, -⟩ := solo_within hkeyed k n
  exact hp ▸ hs.keepsTo

theorem writes_solo (c₀ : Cluster) (k : Key) (n : Nat) :
    (solo c₀ k n).2.store.writes = c₀.store.writes + gained c₀ k n := by
  induction n with
  | zero => exact (add_zero _).symm
  | succ n ih =>
    rw [solo_succ, Calls.writes_next, ih, gained, add_assoc]

/-- A reconcile leaves every place outside of its footprint as it was. -/
theorem entry_alone (hkeyed : c₀.store.Keyed) (k : Key) {p : Place} (hp : ¬footprint c₀ k p) :
    ((reconcile k).alone c₀).2.entry p = c₀.entry p := by
  have hsolo : ∀ n, (solo c₀ k n).2.entry p = c₀.entry p := by
    intro n
    induction n with
    | zero => rfl
    | succ n ih =>
      rw [solo_succ, ← ih]
      exact Calls.entry_next (solo_keepsTo hkeyed k n) hp
  obtain ⟨o, ho⟩ := solo_done c₀ k (Nat.le_refl 12)
  have hend := hsolo 12
  rwa [solo_of_done ho] at hend

/-- On a cluster without faults a reconcile leaves all that is outside of its footprint as it
was. -/
theorem agree_alone (hkeyed : c₀.store.Keyed) (hcalm : c₀.Calm) (k : Key) :
    c₀.Agree (fun p => ¬footprint c₀ k p) ((reconcile k).alone c₀).2 where
  calm := hcalm
  calm' := Calls.alone_keeps (fun h q => h.answer q) _ hcalm
  elasticsearches := (Calls.alone_reads (reconcile k) c₀).1.symm
  secrets := (Calls.alone_reads (reconcile k) c₀).2.1.symm
  issued := (Calls.alone_reads (reconcile k) c₀).2.2.symm
  entry _ hp := (entry_alone hkeyed k hp).symm

end Solo

end ClusterLink

import ClusterLink.Proofs.Reconcile.Faithful
import ClusterLink.Proofs.Reconcile.Footprint
import ClusterLink.Proofs.Reconcile.Written

/-! No write without effect. While a reconcile runs alone, what it carries is what the store holds,
whatever faults it meets (`Stage.Faithful`, and `Stage.Differs` for a Kibana instance). So every
write that succeeds changes the field that it is about, and the writes come in the order of their
stages, each kind once at most. -/

namespace ClusterLink

open Reconcile

namespace Written

/-- The call that made a write. -/
def operation : Written → Operation
  | .finalizers _ => .updateAssociation
  | .status _ => .updateAssociationStatus
  | .kibana _ => .updateKibana

/-- The turn of the call that made a write. -/
def turn : Written → Nat
  | .finalizers _ => 10
  | .kibana _ => 3
  | .status _ => 2

theorem turn_eq_of_operation {w w' : Written} (h : w.operation = w'.operation) :
    w.turn = w'.turn := by
  cases w <;> cases w' <;> first | rfl | cases h

/-- What a write has to change between two clusters: it puts the finalizer on an association or
takes it off, perhaps with the association, gives it another status, or gives a Kibana instance
another configuration. -/
def Changes (c c' : Cluster) : Written → Prop
  | .finalizers key => ∃ a, c.store.associations.find? key = some a ∧
    if a.metadata.hasFinalizer watchFinalizerName then
      ∀ a', c'.store.associations.find? key = some a' →
        ¬ a'.metadata.hasFinalizer watchFinalizerName
    else ∃ a', c'.store.associations.find? key = some a' ∧
      a'.metadata.hasFinalizer watchFinalizerName
  | .status key => ∃ a a', c.store.associations.find? key = some a ∧
    c'.store.associations.find? key = some a' ∧ a'.status ≠ a.status
  | .kibana key => ∃ kb kb', c.store.kibanas.find? key = some kb ∧
    c'.store.kibanas.find? key = some kb' ∧ kb'.spec.backend ≠ kb.spec.backend

end Written

/-- The writes of a program that runs alone, with the clusters before and after each. -/
def Calls.effects : Calls α → Cluster → List (Written × Cluster × Cluster)
  | .done _, _ => []
  | .ask q next, c =>
    ((q.written? (c.answer q).1).toList.map fun w => (w, c, (c.answer q).2)) ++
      effects (next (c.answer q).1) (c.answer q).2

theorem Calls.map_effects (p : Calls α) (c : Cluster) :
    (p.effects c).map Prod.fst = p.writes c := by
  induction p generalizing c with
  | done => rfl
  | ask q next ih => simp [effects, writes, ih, Function.comp_def]

namespace Reconcile.Stage

variable {c c' : Cluster} {k : Key} {s s' : Stage} {a : Association}

/-- A Kibana instance that is about to be written has another configuration in the store. -/
def Differs : Stage → Cluster → Prop
  | .configure a kb, c => ∃ old, c.store.kibanas.find? a.spec.kibana = some old ∧
    kb.key = a.spec.kibana ∧ kb.spec.backend ≠ old.spec.backend
  | _, _ => True

theorem differs_reported (a : Association) (new : Status) (error : Option ReconcileError)
    (c : Cluster) : (reported a new error).Differs c := by
  unfold reported
  split <;> trivial

theorem differs_opened (key : Key) (a : Association) (c : Cluster) : (opened key a).Differs c := by
  unfold opened
  repeat' split
  all_goals trivial

theorem differs_finalized (a : Association) (c : Cluster) : (finalized a).Differs c := by
  unfold finalized
  split <;> trivial

theorem Step.differs (h : Step s c s' c') (hkeyed : c.store.Keyed) : s'.Differs c' := by
  cases h with
  | fetch => exact differs_opened ..
  | register | release => exact differs_finalized ..
  | readKibana _ hkb hb =>
    have hkey := hkeyed.kibanas hkb
    exact ⟨_, hkb, hkey, fun e => hb e.symm⟩
  | fetchFails | registerFails | releaseFails | unwatchKibana | unwatchElasticsearch => trivial
  | watchElasticsearch | watchKibana | readElasticsearch | readUsers | readCa => trivial
  | storeStatus | storeStatusFails => trivial
  | _ => exact differs_reported ..

/-! ## What a write changes -/

theorem changes_of_marked {a b : Association} (ha : c.store.associations.find? k = some a)
    (hn : ¬a.metadata.hasFinalizer watchFinalizerName)
    (hb : watchFinalizerName ∈ b.metadata.finalizers) (writes : WriteCounts) :
    (Written.finalizers k).Changes c (c.putAssociation k b writes) := by
  refine ⟨a, ha, ?_⟩
  rw [if_neg hn]
  exact ⟨b, find?_putAssociation (Metadata.not_isGone hb) .., List.contains_iff_mem.2 hb⟩

theorem changes_of_unmarked {a b : Association} (ha : c.store.associations.find? k = some a)
    (hn : a.metadata.hasFinalizer watchFinalizerName)
    (hb : ¬b.metadata.hasFinalizer watchFinalizerName) (writes : WriteCounts) :
    (Written.finalizers k).Changes c (c.putAssociation k b writes) := by
  refine ⟨a, ha, ?_⟩
  rw [if_pos hn]
  intro a' ha'
  rwa [eq_of_find?_putAssociation ha']

theorem changes_of_restated {a b : Association} (ha : c.store.associations.find? k = some a)
    (hlive : ¬b.metadata.isGone) (hb : b.status ≠ a.status) (writes : WriteCounts) :
    (Written.status k).Changes c (c.putAssociation k b writes) :=
  ⟨a, b, ha, find?_putAssociation hlive .., hb⟩

theorem changes_of_configured {kb b : Kibana} (hkb : c.store.kibanas.find? k = some kb)
    (hlive : ¬b.metadata.isGone) (hb : b.spec.backend ≠ kb.spec.backend)
    (writes : WriteCounts) : (Written.kibana k).Changes c (c.putKibana k b writes) :=
  ⟨kb, b, hkb, (Table.find?_put k k b).trans ((if_pos rfl).trans (if_neg hlive)), hb⟩

/-- What the call of a stage wrote is different now. -/
theorem changes_of_view {call : Call} {next : call.Answer → Stage} (hv : s.view = .inr ⟨call, next⟩)
    (hs : s.Faithful k c) (hd : s.Differs c) (hkeyed : c.store.Keyed) (hplain : c.store.Plain)
    {w : Written} (hw : call.written? (c.answer call).1 = some w) :
    w.Changes c (c.answer call).2 := by
  cases s <;> simp only [view, reduceCtorEq, Sum.inr.injEq, Sigma.mk.injEq] at hv
  all_goals obtain ⟨rfl, -⟩ := hv
  case register a =>
    obtain ⟨ha, -, hn⟩ := hs
    obtain rfl : a.key = k := hkeyed.associations ha
    rcases c.store.updateAssociation_cases (marked a) with ⟨e, f, h, -⟩ | ⟨stored, writes, -, -, h⟩
    · simp [Cluster.answer, Cluster.withStore, h, Call.written?] at hw
    · simp only [Cluster.answer, Cluster.withStore, h, Call.written?, Option.some.injEq,
        key_marked] at hw ⊢
      subst hw
      exact changes_of_marked (b := (marked a).rewritten stored) ha hn (mem_finalizers_marked a)
        writes
  case release a =>
    obtain ⟨ha, -, hn⟩ := hs
    obtain rfl : a.key = k := hkeyed.associations ha
    rcases c.store.updateAssociation_cases (unmarked a) with
      ⟨e, f, h, -⟩ | ⟨stored, writes, -, -, h⟩
    · simp [Cluster.answer, Cluster.withStore, h, Call.written?] at hw
    · simp only [Cluster.answer, Cluster.withStore, h, Call.written?, Option.some.injEq] at hw ⊢
      subst hw
      exact changes_of_unmarked ha hn (not_hasFinalizer_unmarked a stored) writes
  case configure a kb =>
    obtain ⟨old, hold, hkey, hne⟩ := hd
    rcases c.store.updateKibana_cases kb with ⟨e, f, h, -⟩ | ⟨stored, writes, -, hacc, h⟩
    · simp [Cluster.answer, Cluster.withStore, h, Call.written?] at hw
    · simp only [Cluster.answer, Cluster.withStore, h, Call.written?, Option.some.injEq] at hw ⊢
      subst hw
      have hlive : stored.metadata.tombstone = none := hplain.kibanas hacc.1
      have hkey' : a.spec.kibana = kb.key := hkey.symm
      refine changes_of_configured (b := kb.rewritten stored) (hkey' ▸ hold) ?_ hne writes
      intro hgone
      have hdoomed : stored.metadata.isBeingDeleted := hgone.1
      simp [Metadata.isBeingDeleted, hlive] at hdoomed
  case storeStatus a new error =>
    obtain ⟨ha, hne⟩ := hs
    obtain rfl : a.key = k := hkeyed.associations ha
    rcases c.store.updateAssociationStatus_cases { a with status := new } with
      ⟨e, f, h, -⟩ | ⟨stored, writes, -, hacc, h⟩
    · simp [Cluster.answer, Cluster.withStore, h, Call.written?] at hw
    · simp only [Cluster.answer, Cluster.withStore, h, Call.written?, Option.some.injEq] at hw ⊢
      subst hw
      have hlive : ¬stored.metadata.isGone := hplain.associations hacc.1
      exact changes_of_restated (b := Association.restated { a with status := new } stored) ha hlive
        (fun e => hne e.symm) writes
  all_goals simp [Call.written?] at hw

/-! ## All writes of a program -/

variable {w : Written}

theorem effects_of_view {call : Call} {next : call.Answer → Stage}
    (hv : s.view = .inr ⟨call, next⟩) (c : Cluster) : s.program.effects c =
      ((call.written? (c.answer call).1).toList.map fun w => (w, c, (c.answer call).2)) ++
        (next (c.answer call).1).program.effects (c.answer call).2 := by
  rw [program_eq_ask hv fun _ => rfl]
  rfl

/-- Every write has its effect. -/
theorem changes_of_mem_effects (hkeyed : c.store.Keyed) (hplain : c.store.Plain)
    (hs : s.Faithful k c) (hd : s.Differs c) {before after : Cluster}
    (hw : (w, before, after) ∈ s.program.effects c) :
    w.Changes before after := by
  induction s using Stage.program.induct generalizing c with
  | case1 s o hv => simp [program_eq_done hv, Calls.effects] at hw
  | case2 s call next hv ih =>
    rw [effects_of_view hv, List.mem_append, List.mem_map] at hw
    rcases hw with ⟨w', hw', heq⟩ | hw
    · cases heq
      exact changes_of_view hv hs hd hkeyed hplain (Option.mem_toList.1 hw')
    · have hstep := step_of_view hv c
      have hcall := hstep.called
      exact ih _ (hkeyed.called hcall) (hplain.called hcall) (hstep.faithful hkeyed hs)
        (hstep.differs hkeyed) hw

/-- The calls that write are made in the order of their turns. -/
theorem turn_of_written {call : Call} {next : call.Answer → Stage}
    (hv : s.view = .inr ⟨call, next⟩) {answer : call.Answer} (hw : call.written? answer = some w) :
    w.turn = s.rank := by
  cases s <;> simp only [view, reduceCtorEq, Sum.inr.injEq, Sigma.mk.injEq] at hv
  all_goals obtain ⟨rfl, -⟩ := hv
  all_goals cases answer <;> cases hw <;> rfl

theorem turn_le_rank (s : Stage) (c : Cluster) (hw : w ∈ s.program.writes c) :
    w.turn ≤ s.rank := by
  induction s using Stage.program.induct generalizing c with
  | case1 s o hv => simp [program_eq_done hv, Calls.writes] at hw
  | case2 s call next hv ih =>
    rw [writes_of_answer hv rfl rfl, List.mem_append] at hw
    rcases hw with hw | hw
    · exact Nat.le_of_eq (turn_of_written hv (Option.mem_toList.1 hw))
    · exact Nat.le_trans (ih _ _ hw) (Nat.le_of_lt (rank_lt_of_view hv _))

theorem pairwise_turn (s : Stage) (c : Cluster) :
    (s.program.writes c).Pairwise fun w w' => w'.turn < w.turn := by
  induction s using Stage.program.induct generalizing c with
  | case1 s o hv => simp [program_eq_done hv, Calls.writes]
  | case2 s call next hv ih =>
    rw [writes_of_answer hv rfl rfl, List.pairwise_append]
    refine ⟨by cases call.written? (c.answer call).1 <;> simp, ih _ _, fun w hw w' hw' => ?_⟩
    rw [turn_of_written hv (Option.mem_toList.1 hw)]
    exact Nat.lt_of_le_of_lt (turn_le_rank _ _ hw') (rank_lt_of_view hv _)

end Reconcile.Stage

/-! ## A whole reconcile -/

/-- **No write is redundant and none strays.** However the faults are set, a reconcile that runs
alone writes finalizers, configuration and status once each at most. Every write changes what it is
about, and nothing else is changed but the association of the key and the Kibana instance that it
names. -/
theorem writes_effective {c : Cluster} (h : c.store.Reachable Edit.IsPlain) (key : Key)
    (fault? : Operation → Option StoreError) :
    let start := c.withFaults fault?
    let finish := ((reconcile key).alone start).2
    (((reconcile key).effects start).map (Written.operation ∘ Prod.fst)).Nodup ∧
    (∀ x ∈ (reconcile key).effects start, x.1.Changes x.2.1 x.2.2) ∧
    (∀ k ≠ key, finish.store.associations.find? k = c.store.associations.find? k) ∧
    (∀ k, (∀ a, c.store.associations.find? key = some a → a.spec.kibana ≠ k) →
      finish.store.kibanas.find? k = c.store.kibanas.find? k) ∧
    finish.store.elasticsearches = c.store.elasticsearches ∧
    finish.store.secrets = c.store.secrets := by
  intro start finish
  have hkeyed : start.store.Keyed := h.keyed.withFaults fault?
  have hplain : start.store.Plain := h.plain.withFaults fault?
  obtain ⟨helasticsearches, hsecrets, -⟩ := Calls.alone_reads (reconcile key) start
  have hentry {p : Place} (hp : ¬Stage.footprint start key p) : finish.entry p = start.entry p :=
    entry_alone hkeyed key hp
  refine ⟨?_, fun x hx => ?_, fun k hk => ?_, fun k hk => ?_, helasticsearches, hsecrets⟩
  · rw [← List.map_map, Calls.map_effects, reconcile_eq_program, List.Nodup, List.pairwise_map]
    refine (Stage.pairwise_turn (.fetch key) start).imp fun hlt heq => ?_
    exact Nat.ne_of_gt hlt (Written.turn_eq_of_operation heq)
  · rw [reconcile_eq_program] at hx
    exact Stage.changes_of_mem_effects hkeyed hplain (s := .fetch key) rfl trivial hx
  · exact hentry (p := .association k) hk
  · exact hentry (p := .kibana k) fun ⟨a, ha, hka⟩ => hk a ha hka

/-- The Kibana instance cannot be written, which leaves the finalizer and the status. -/
theorem writes_effective_of_refused_kibana :
    let a : Association := ⟨.new ⟨"ns", "a"⟩, ⟨⟨"ns", "es1"⟩, ⟨"ns", "kb1"⟩⟩, .unknown⟩
    let kb : Kibana := ⟨.new ⟨"ns", "kb1"⟩, ⟨"8.0", 1, .empty⟩⟩
    let edits := Edit.provider "es1" ++ [.apply (.kibana kb), .apply (.association a)]
    let c : Cluster := ⟨edits.foldl Store.edit (.new 4), .empty⟩
    let start := c.withFaults fun op =>
      if op = .updateKibana then some (.unavailable "down") else none
    let finish := ((reconcile a.key).alone start).2
    (reconcile a.key).writes start = [.finalizers a.key, .status a.key] ∧
      (((reconcile a.key).effects start).map (Written.operation ∘ Prod.fst)).Nodup ∧
      (∀ x ∈ (reconcile a.key).effects start, x.1.Changes x.2.1 x.2.2) ∧
      finish.store.secrets = c.store.secrets := by
  intro a kb edits c start finish
  have hs : c.store.Reachable Edit.IsPlain := .edits (.new 4) (by decide)
  obtain ⟨hnodup, hchanges, -, -, -, hsecrets⟩ := writes_effective hs a.key start.store.fault?
  exact ⟨by decide, hnodup, hchanges, hsecrets⟩

end ClusterLink

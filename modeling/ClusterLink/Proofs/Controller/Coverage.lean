import ClusterLink.Proofs.Controller.Answer

/-! No association is left behind: at any time of a run of the controller, a stored association that
is neither paused nor on its way out has converged, or its key will be looked at again. -/

namespace ClusterLink.World

open Reconcile Work

/-- A key will be looked at again. -/
inductive WillLook (w : World) (key : Key) : Prop where
  | queued (h : key ∈ w.queue.queue)
  /-- A worker holds it and will give it back. -/
  | held {t} (h : key ∈ w.queue.processing) (ht : t ∈ w.tasks) (hr : t.work.Returns key)
  /-- A task is on its way to add it. -/
  | added {t} (ht : t ∈ w.tasks) (h : t.work.Offers key)
  /-- A task is on its way to list all associations and to add their keys. -/
  | listed {t} (ht : t ∈ w.tasks) (h : t.work.Sweeps)
  /-- A task is on its way to look up whom a change concerns that concerns it. -/
  | looked {t r} {side : Side} (ht : t ∈ w.tasks) (h : t.work.Maps side.kind r)
    (hk : key ∈ w.cluster.watches.watchersOf side.kind r)
  /-- There is an event that concerns it and that the reader of the log, which is there or about to
  be started, has not got yet. -/
  | told {t id place kind r} (ht : t ∈ w.tasks)
    (hs : t.work.Starts id ∨ t.round = Controller.reader id) (hr : (id, place) ∈ w.readers)
    (h : w.cluster.store.log.Tells place kind r)
    (hk : kind = .association ∧ r = key ∨ key ∈ w.cluster.watches.watchersOf kind r)

/-- The world in which the main task of a controller was started on a store, with no watches. -/
def start (settings : ControllerSettings) (store : Store) (wallClock : Instant) (label : String) :
    World :=
  { World.new settings 1 wallClock with cluster := ⟨store, .empty⟩ }.spawnController label

/-- Every key that is in work is on its way back. -/
def Tended (w : World) : Prop :=
  ∀ key ∈ w.queue.processing, ∃ t ∈ w.tasks, t.work.Returns key

variable {Occurs : Key → Prop} {w w' w₁ : World} {phase : TaskId → Phase} {key : Key} {t : Task}

theorem Attended.start {store : Store} (hkeyed : store.Keyed)
    (hfault : ∀ e, store.fault? .getAssociation = some e → ¬e.isNotFound)
    (hocc : ∀ key a, store.associations.find? key = some a → Occurs key)
    (settings : ControllerSettings) (wallClock : Instant) (label : String) :
    Attended Occurs (start settings store wallClock label)
      (Function.update (fun _ => .free) 1 .starting) := by
  obtain ⟨next, hrun, hnext⟩ := Controller.run_eq settings
  have hsweeps : Sweeps (Controller.run settings) := hrun ▸ fun id => (hnext id).1
  have ht : ⟨1, some label, Controller.run settings, Controller.run settings⟩ ∈
      (World.start settings store wallClock label).tasks := List.mem_singleton_self _
  have hphase : ∀ i, Function.update (fun _ => Phase.free) 1 .starting i = .starting ↔ i = 1 := by
    intro i
    by_cases e : i = 1
    · simp [e]
    · simp [e]
  refine ⟨⟨.new, rfl, rfl, hfault, hkeyed, hocc⟩, ⟨?_, ?_, ?_, ?_⟩, ?_, fun key => ⟨?_, ?_, ?_⟩⟩
  · intro t u ht hu _
    rw [List.mem_singleton.1 ht, List.mem_singleton.1 hu]
  · intro t ht
    rw [List.mem_singleton.1 ht]
    exact Nat.lt_succ_self _
  · exact fun i hi => Function.update_of_ne (Nat.ne_of_gt hi) ..
  · intro t ht
    rw [List.mem_singleton.1 ht]
    exact ⟨.starting, Controller.isRound_run settings, Controller.isRound_run settings⟩
  · exact .starting rfl ht hrun hnext hphase
  · intro i s hi
    by_cases e : i = 1
    · rw [e, Function.update_self] at hi
      cases hi
    · rw [Function.update_of_ne e] at hi
      cases hi
  · intro i j s s' hi
    by_cases e : i = 1
    · rw [e, Function.update_self] at hi
      cases hi
    · rw [Function.update_of_ne e] at hi
      cases hi
  · exact fun _ => .of_roused (.of_sweeps ht hsweeps) _

/-- One step of any task. -/
theorem Attended.step (h : Attended Occurs w phase) (hnames : Side.NamesApart Occurs)
    {id : TaskId} (hs : w.step? id = some w') : ∃ phase', Attended Occurs w' phase' := by
  obtain ⟨t, ht, rfl, ⟨hw, rfl⟩ | ⟨ending, hw, rfl⟩ | ⟨r, next, answer, w₁, hw, ha, rfl⟩⟩ :=
    step?_cases hs
  · exact ⟨_, h.restart ht hw⟩
  · exact ⟨_, h.finish ht hw⟩
  · have ho := attempt_ordinary h.sane.stopping h.sane.queue ha
    obtain ⟨a, hturn, hheeds, hcourse⟩ := h.staffed.course_ask ht hw ho
    have hg := attempt_grows hturn.ne_cancel ha
    have hstaffed := (h.staffed.grow hg).setWork (hg.mem ht) hcourse
    generalize hp : phase t.id = p at hturn
    cases hturn with
    | plain hr =>
      subst hp
      exact ⟨_, h.plain ht hw ha hr hstaffed⟩
    | subscribe => exact ⟨_, h.subscribe ht hw ha hp hstaffed⟩
    | receive => exact ⟨_, h.receive ht hw ha hp hheeds hstaffed⟩
    | key => exact ⟨_, h.take ht hw ha hp .key hstaffed⟩
    | empty => exact ⟨_, h.take ht hw ha hp .empty hstaffed⟩
    | call hv => exact ⟨_, h.call hnames ht hw ha hp hv hstaffed⟩
    | addLater => exact ⟨_, h.addLater ht hw ha hp hstaffed⟩
    | finish => exact ⟨_, h.giveBack ht hw ha hp hstaffed⟩

theorem Tended.step (h : w.Tended) (hatt : Attended Occurs w phase) {id : TaskId}
    (hs : w.step? id = some w') : w'.Tended := by
  intro key hk
  obtain ⟨t, ht, rfl, ⟨hw, rfl⟩ | ⟨ending, hw, rfl⟩ | ⟨r, next, answer, w₁, hw, ha, rfl⟩⟩ :=
    step?_cases hs
  · obtain ⟨u, hu, hr⟩ := h key hk
    rcases hatt.staffed.eq_or_mem (.same rfl (Nat.le_refl _)) ht t.round hu with rfl | hu'
    · rw [hw] at hr
      exact hr.elim
    · exact ⟨u, hu', hr⟩
  · obtain ⟨u, hu, hr⟩ := h key hk
    rcases hatt.staffed.eq_or_mem_finish ht ending hu with rfl | hu'
    · rw [hw] at hr
      exact hr.elim
    · exact ⟨u, hu', hr⟩
  · have ho := attempt_ordinary hatt.sane.stopping hatt.sane.queue ha
    obtain ⟨a, hturn, hheeds, -⟩ := hatt.staffed.course_ask ht hw ho
    have hg := attempt_grows hturn.ne_cancel ha
    have hmoved := mem_setWork_self (hg.mem ht) (next answer)
    have hhands := attempt_hands hturn.ne_shutDown hatt.sane.queue ha
    rcases hhands.processing_cases hk with ⟨hold, hne⟩ | htook
    · obtain ⟨u, hu, hr⟩ := h key hold
      rcases hatt.staffed.eq_or_mem hg ht (next answer) hu with rfl | hu'
      · rw [hw] at hr
        exact ⟨_, hmoved, Makes.step hr hne (attempt_not_refused hatt.sane.listFault ha)⟩
      · exact ⟨u, hu', hr⟩
    · exact ⟨_, hmoved, htook _ hheeds⟩

theorem Attended.move (h : Attended Occurs w phase) (ht : w.Tended)
    (hnames : Side.NamesApart Occurs) (hm : Move Occurs w w') :
    w'.Tended ∧ ∃ phase', Attended Occurs w' phase' := by
  have hsane := h.sane
  cases hm with
  | step hs => exact ⟨ht.step h hs, h.step hnames hs⟩
  | edit hsecret hocc => exact ⟨ht, _, h.edit hsecret hocc⟩
  | fault hf => exact ⟨ht, _, h.fault hf⟩
  | hire =>
    refine ⟨fun key hk => ?_, _, h.hire⟩
    obtain ⟨u, hu, hr⟩ := ht key hk
    exact ⟨u, List.mem_append_left _ hu, hr⟩
  | time | schedule =>
    exact ⟨ht, _, h.of_kept
      (hsane.of_cluster rfl hsane.queue hsane.listFault hsane.stopping)
      rfl rfl rfl rfl (.of_eq rfl rfl rfl rfl) rfl rfl⟩

theorem Attended.run (h : Attended Occurs w phase) (ht : w.Tended)
    (hnames : Side.NamesApart Occurs) (hr : Run Occurs w w') :
    w'.Tended ∧ ∃ phase', Attended Occurs w' phase' := by
  induction hr with
  | refl => exact ⟨ht, phase, h⟩
  | tail _ hm ih =>
    obtain ⟨ht, phase, h⟩ := ih
    exact h.move ht hnames hm

theorem Tended.willLook (h : w.Tended) (hk : key ∈ w.queue.processing) : w.WillLook key := by
  obtain ⟨t, ht, hr⟩ := h key hk
  exact .held hk ht hr

theorem Served.told (h : Served w phase) {kind : Kind} {r : Key} (hu : w.Unread kind r)
    (hk : kind = .association ∧ r = key ∨ key ∈ w.cluster.watches.watchersOf kind r) :
    w.WillLook key := by
  obtain ⟨id, place, hm, htells⟩ := hu
  cases h with
  | starting hr =>
    rw [hr] at hm
    cases hm
  | reading hr _ ht hs =>
    rw [hr] at hm
    cases List.mem_singleton.1 hm
    exact .told ht (hs.imp_right And.left) (hr ▸ List.mem_singleton_self _) htells hk

/-- In an attended world, what is roused or has news is looked at again. -/
theorem Attended.covers (h : Attended Occurs w phase) (ht : w.Tended) {a : Association}
    (ha : w.cluster.store.associations.find? key = some a) (hp : ¬a.metadata.isPaused)
    (hd : ¬a.metadata.isBeingDeleted) : w.cluster.Converged a ∨ w.WillLook key := by
  -- A key that no worker holds is at rest, as if its reconcile had just ended with nothing to do.
  by_cases hheld : ∃ i s, phase i = .holding key s
  · obtain ⟨i, s, hi⟩ := hheld
    exact .inr (ht.willLook ((h.minded key).held hi).1)
  · have hseen := (h.minded key).rest fun i s hi => hheld ⟨i, s, hi⟩
    by_cases hr : w.Roused key
    · right
      rcases hr with hdirty | hu | ⟨t, ht, ho | hs⟩
      · rcases h.sane.queue.queued_of_dirty hdirty with hq | hproc
        · exact .queued hq
        · exact ht.willLook hproc
      · exact h.served.told hu (.inl ⟨rfl, rfl⟩)
      · exact .added ht ho
      · exact .listed ht hs
    · have hrest := hseen ⟨a, ha⟩ hr rfl a ha hp hd
      rcases hrest.converged_or with hc | ⟨side, r, hreg, hu | ⟨t, ht, hm⟩⟩
      · exact .inl hc
      · exact .inr (h.served.told hu (.inr (mem_watchersOf hreg)))
      · exact .inr (.looked ht hm (mem_watchersOf hreg))

/-- No association is left behind, in any state of any run of a controller. -/
theorem converged_or_willLook {Allowed : Edit → Prop} {store : Store}
    (hstore : store.Reachable Allowed)
    (hfault : ∀ e, store.fault? .getAssociation = some e → ¬e.isNotFound)
    (hocc : ∀ key a, store.associations.find? key = some a → Occurs key)
    (hnames : Side.NamesApart Occurs)
    {settings : ControllerSettings} {wallClock : Instant} {label : String}
    (hr : Run Occurs (start settings store wallClock label) w) {a : Association}
    (ha : w.cluster.store.associations.find? key = some a) (hp : ¬a.metadata.isPaused)
    (hd : ¬a.metadata.isBeingDeleted) : w.cluster.Converged a ∨ w.WillLook key := by
  have hstart := Attended.start hstore.keyed hfault hocc settings wallClock label
  have htended : (World.start settings store wallClock label).Tended :=
    fun _ hk => absurd hk List.not_mem_nil
  obtain ⟨ht, phase, h⟩ := hstart.run htended hnames hr
  exact h.covers ht ha hp hd

/-- A controller starts on an empty store, an association is applied, and its reconcile finds no
cluster yet. -/
theorem converged_or_willLook_of_applied :
    let a : Association := ⟨.new ⟨"ns", "a"⟩, ⟨⟨"ns", "es"⟩, ⟨"ns", "kb"⟩⟩, .unknown⟩
    let w₀ := start {} (.new 4) .epoch "main"
    let w := runReady 40 { w₀ with cluster := w₀.cluster.edit (.apply (.association a)) }
    ∃ b, w.cluster.store.associations.find? a.key = some b ∧ b.status = .pending ∧
      (w.cluster.Converged b ∨ w.WillLook a.key) := by
  intro a w₀ w
  have hr : Run (· = a.key) w₀ w :=
    .trans (.single (.edit (by decide) fun b e => by cases e; rfl)) (run_runReady ..)
  obtain ⟨b, hb, hplain⟩ : ∃ b, w.cluster.store.associations.find? a.key = some b ∧
      b.status = .pending ∧ ¬b.metadata.isPaused ∧ ¬b.metadata.isBeingDeleted := by
    refine ⟨_, Option.eq_some_of_isSome (by decide +kernel), by decide +kernel⟩
  refine ⟨b, hb, hplain.1, ?_⟩
  exact converged_or_willLook (.new 4 : Store.Reachable Edit.IsPlain _) (fun _ e => nomatch e)
    (fun _ _ e => nomatch e) (fun _ _ _ hj hk _ => hj.trans hk.symm) hr hb hplain.2.1 hplain.2.2

end ClusterLink.World

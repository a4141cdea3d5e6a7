import ClusterLink.Proofs.Controller.Answer
import ClusterLink.Proofs.Simulation.Beside

/-! The tasks of a controller at work while somebody else holds a key. Whatever they do, they leave
that key to him (`Held.meanwhile`): they write no association but those of the keys that they hold
themselves, no task is handed the key, and what is on its way to the queue arrives there. -/

namespace ClusterLink.World

open Reconcile Work

/-- The queue and the store are in order, and nobody stops the controller. -/
structure Steady (w : World) : Prop where
  queue : w.queue.Sound
  stopping : w.stopping = []
  faults : ∀ e, w.cluster.store.fault? .getAssociation = some e → ¬e.isNotFound
  keyed : w.cluster.store.Keyed

/-- Every task keeps to its phase, and what it holds it holds alone. -/
structure Crew (w : World) (phase : TaskId → Phase) : Prop where
  steady : w.Steady
  staffed : Staffed w phase
  held : ∀ ⦃i key s⦄, phase i = .holding key s →
    key ∈ w.queue.processing ∧ s.About (fun _ => True) key
  alone : ∀ ⦃i j key s s'⦄, phase i = .holding key s → phase j = .holding key s' → i = j

/-- There is a delayed add of a key that has not fired. -/
def Delayed (w : World) (key : Key) : Prop :=
  ∃ t ∈ w.tasks, ∃ time, t.work = Controller.addAt time key

/-- A key has come in again, or a delayed add will bring it in. -/
def Awaits (w : World) (key : Key) : Prop := key ∈ w.queue.dirty ∨ w.Delayed key

/-- What is on its way to the queue arrives there, and so do the keys that are added. -/
structure Brings (key : Key) (added : List Key) (w w' : World) : Prop where
  dirty : key ∈ added ∨ key ∈ w.queue.dirty → key ∈ w'.queue.dirty
  awaits : w.Awaits key → w'.Awaits key

/-- A key is left to the one who holds it. -/
structure Leaves (key : Key) (added : List Key) (w w' : World) : Prop
    extends Brings key added w w' where
  association : w'.cluster.store.associations.find? key = w.cluster.store.associations.find? key

/-- A key is lent to somebody who is none of the tasks. -/
structure Lent (key : Key) (w : World) (phase : TaskId → Phase) : Prop where
  processing : key ∈ w.queue.processing
  alone : ∀ i s, phase i ≠ .holding key s

variable {w w' w₁ w₂ : World} {phase : TaskId → Phase} {key k : Key} {added added' : List Key}
  {t : Task} {id j : TaskId} {r : Request} {answer : r.Answer} {next : r.Answer → Round}
  {a base : Phase} {s : Stage}

theorem Brings.refl (key : Key) (w : World) : Brings key [] w w :=
  ⟨fun h => h.resolve_left List.not_mem_nil, id⟩

theorem Brings.trans (h : Brings key added w w₁) (h' : Brings key added' w₁ w₂) :
    Brings key (added ++ added') w w₂ where
  dirty hk := by
    rcases hk with hk | hd
    · rcases List.mem_append.1 hk with hk | hk
      · exact h'.dirty (.inr (h.dirty (.inl hk)))
      · exact h'.dirty (.inl hk)
    · exact h'.dirty (.inr (h.dirty (.inr hd)))
  awaits := h'.awaits ∘ h.awaits

theorem Leaves.refl (key : Key) (w : World) : Leaves key [] w w := ⟨.refl key w, rfl⟩

theorem Leaves.trans (h : Leaves key added w w₁) (h' : Leaves key added' w₁ w₂) :
    Leaves key (added ++ added') w w₂ :=
  ⟨h.toBrings.trans h'.toBrings, h'.association.trans h.association⟩

/-! ## One answer -/

theorem Steady.of_eq (h : w.Steady) (hc : w'.cluster = w.cluster) (hq : w'.queue = w.queue)
    (hs : w'.stopping = w.stopping) : w'.Steady :=
  ⟨hq ▸ h.queue, hs.trans h.stopping, hc ▸ h.faults, hc ▸ h.keyed⟩

theorem Steady.answered (h : w.Steady) (hr : r ≠ .shutDown)
    (hback : ∀ k, r = .finish k → k ∈ w.queue.processing)
    (ha : w.attempt id r = some (answer, w₁)) : w₁.Steady := by
  have hf := attempt_framed hr ha
  have hqueue := (attempt_hands hr h.queue ha).sound h.queue hback
  have hstop := hf.stopping.trans h.stopping
  by_cases hcall : ∃ q, r = .call q
  · obtain ⟨q, rfl⟩ := hcall
    cases ha
    exact ⟨hqueue, hstop, fun e he => h.faults e (w.cluster.fault?_answer q he),
      h.keyed.called (w.cluster.answer_called q)⟩
  · have hc := hf.cluster fun q e => hcall ⟨q, e⟩
    exact ⟨hqueue, hstop, hc ▸ h.faults, hc ▸ h.keyed⟩

/-- A key that a request adds has come in. -/
theorem mem_dirty_of_added (hq : w.queue.Sound) (ha : w.attempt id r = some (answer, w₁))
    (hk : key ∈ (Exchange.added? ⟨id, r, answer⟩).toList) : key ∈ w₁.queue.dirty := by
  cases r <;> first | exact absurd hk List.not_mem_nil | skip
  obtain rfl := List.mem_singleton.1 hk
  cases ha
  exact hq.mem_dirty_offer.2 (.inl rfl)

theorem Delayed.mono (h : ∀ t ∈ w.tasks, t ∈ w'.tasks) (hd : w.Delayed key) : w'.Delayed key := by
  obtain ⟨t, ht, time, hw⟩ := hd
  exact ⟨t, h t ht, time, hw⟩

/-- A delayed add is not at the end of its work. -/
theorem awaits_of_done {ending : Option Ending} (hw : t.work = .done ending)
    (hq : w'.queue = w.queue) (hothers : ∀ u ∈ w.tasks, u = t ∨ u ∈ w'.tasks)
    (haw : w.Awaits key) : w'.Awaits key := by
  rcases haw with hd | ⟨u, hu, time, hwork⟩
  · exact .inl (hq ▸ hd)
  · rcases hothers u hu with rfl | hu
    · have hask := hw.symm.trans hwork
      cases time <;> cases hask
    · exact .inr ⟨u, hu, time, hwork⟩

/-! ## A request of a task -/

/-- A task that holds a key after an answer held it before, or nobody did. -/
theorem turn_holding {p : Phase} (hq : w.queue.Sound) (ha : w.attempt id r = some (answer, w₁))
    (h : p.Turn r answer (.holding k s)) :
    (∃ s', p = .holding k s') ∨ k ∉ w.queue.processing := by
  cases h with
  | plain => exact .inl ⟨s, rfl⟩
  | call => exact .inl ⟨_, rfl⟩
  | addLater => exact .inl ⟨_, rfl⟩
  | key => exact .inr (attempt_take hq ha).1

/-- A task that gives a key back holds it. -/
theorem holding_of_finish {p : Phase} {queued : Bool} (h : p.Turn (.finish k) queued a) :
    p = .holding k (.ended (.ok .done)) := by
  cases h with
  | plain hr => exact hr.elim
  | finish => rfl

theorem holding_answered (hstaffed : Staffed w phase) (hg : Grows w w₁ base)
    (h : Function.update (Function.update phase w.nextId base) j a id = .holding k s) :
    id = j ∧ a = .holding k s ∨ id ≠ j ∧ phase id = .holding k s := by
  by_cases e : id = j
  · subst e
    rw [Function.update_self] at h
    exact .inl ⟨rfl, h⟩
  · rw [Function.update_of_ne e] at h
    exact .inr ⟨e, (hg.holding_iff hstaffed id s).1 h⟩

namespace Crew

theorem held_finish (h : Crew w phase) (hturn : (phase id).Turn r answer a) (hk : r = .finish k) :
    k ∈ w.queue.processing := by
  subst hk
  exact (h.held (holding_of_finish hturn)).1

/-- What a task holds after an answer is in work, and its reconcile is about that. -/
theorem held_answered (h : Crew w phase) (ha : w.attempt id r = some (answer, w₁))
    (hturn : (phase id).Turn r answer (.holding k s)) :
    k ∈ w₁.queue.processing ∧ s.About (fun _ => True) k := by
  have kept : k ∈ w.queue.processing → r ≠ .finish k → k ∈ w₁.queue.processing := fun hk =>
    (attempt_hands hturn.ne_shutDown h.steady.queue ha).mem_processing hk
  generalize hp : phase id = p at hturn
  cases hturn with
  | plain hr =>
    refine ⟨kept (h.held hp).1 ?_, (h.held hp).2⟩
    rintro rfl
    exact hr
  | key => exact ⟨(attempt_take h.steady.queue ha).2, rfl⟩
  | addLater => exact ⟨kept (h.held hp).1 (by simp), trivial⟩
  | call hv =>
    refine ⟨kept (h.held hp).1 (by simp), ?_⟩
    cases ha
    have hstep := Stage.step_of_view hv w.cluster
    exact hstep.about h.steady.keyed (fun _ _ => trivial) (h.held hp).2

theorem answered (h : Crew w phase) (ht : t ∈ w.tasks)
    (ha : w.attempt t.id r = some (answer, w₁)) (hturn : (phase t.id).Turn r answer a)
    (hcourse : ∃ base, Controller.IsRound base t.round ∧
      Work.Follows (Controller.Rests base) (next answer) a) :
    Crew (w₁.setWork t.id (next answer))
      (Function.update (Function.update phase w.nextId (recruit r)) t.id a) := by
  have hqueue := h.steady.queue
  have hhands := attempt_hands hturn.ne_shutDown hqueue ha
  have hg := attempt_grows hturn.ne_cancel ha
  have hsteady := h.steady.answered hturn.ne_shutDown (fun k => h.held_finish hturn) ha
  have hstaffed := (h.staffed.grow hg).setWork (hg.mem ht) hcourse
  refine ⟨hsteady.of_eq rfl rfl rfl, hstaffed, fun i k s hi => ?_,
    fun i j k s s' hi hj => ?_⟩
  · rcases holding_answered h.staffed hg hi with ⟨rfl, rfl⟩ | ⟨hne, hold⟩
    · have hheld := h.held_answered ha hturn
      exact hheld
    · obtain ⟨hproc, habout⟩ := h.held hold
      refine ⟨hhands.mem_processing hproc fun e => hne ?_, habout⟩
      subst e
      exact h.alone hold (holding_of_finish hturn)
  · have taken : ∀ {s s' j}, a = .holding k s → phase j = .holding k s' → t.id = j := by
      rintro s s' j rfl hj
      rcases turn_holding hqueue ha hturn with ⟨s'', hp⟩ | hfree
      · exact h.alone hp hj
      · exact absurd (h.held hj).1 hfree
    rcases holding_answered h.staffed hg hi with ⟨rfl, hai⟩ | ⟨hne, hi⟩ <;>
      rcases holding_answered h.staffed hg hj with ⟨rfl, haj⟩ | ⟨hne', hj⟩
    · rfl
    · exact taken hai hj
    · exact (taken haj hi).symm
    · exact h.alone hi hj

/-- Only who holds a key writes its association. -/
theorem association_answered (h : Crew w phase) (hfree : ∀ i s, phase i ≠ .holding key s)
    (hturn : (phase id).Turn r answer a) (ha : w.attempt id r = some (answer, w₁)) :
    w₁.cluster.store.associations.find? key = w.cluster.store.associations.find? key := by
  by_cases hcall : ∃ q, r = .call q
  · obtain ⟨q, rfl⟩ := hcall
    generalize hp : phase id = p at hturn
    cases hturn with
    | plain hr => exact hr.elim
    | call hv =>
      cases ha
      refine (Stage.step_of_view hv w.cluster).find?_of_about (h.held hp).2 ?_
      rintro rfl
      exact hfree _ _ hp
  · rw [(attempt_framed hturn.ne_shutDown ha).cluster fun q e => hcall ⟨q, e⟩]

/-- A delayed add that gets an answer goes on, or has added its key. -/
theorem awaits_answered (h : Crew w phase) (ht : t ∈ w.tasks) (hw : t.work = .ask r next)
    (ha : w.attempt t.id r = some (answer, w₁)) (hg : Grows w w₁ base) (hd : w.Delayed key) :
    (w₁.setWork t.id (next answer)).Awaits key := by
  obtain ⟨u, hu, time, hwork⟩ := hd
  rcases h.staffed.eq_or_mem hg ht (next answer) hu with rfl | hu'
  · cases time with
    | some due =>
      cases hw.symm.trans hwork
      exact .inr ⟨_, mem_setWork_self (hg.mem hu) _, none, rfl⟩
    | none =>
      cases hw.symm.trans hwork
      cases ha
      exact .inl (h.steady.queue.mem_dirty_offer.2 (.inl rfl))
  · exact .inr ⟨u, hu', time, hwork⟩

theorem lent_answered (h : Crew w phase) (ht : t ∈ w.tasks) (hw : t.work = .ask r next)
    (ha : w.attempt t.id r = some (answer, w₁)) (hturn : (phase t.id).Turn r answer a)
    (hl : Lent key w phase) :
    Lent key (w₁.setWork t.id (next answer))
        (Function.update (Function.update phase w.nextId (recruit r)) t.id a) ∧
      Leaves key (Exchange.added? ⟨t.id, r, answer⟩).toList w
        (w₁.setWork t.id (next answer)) := by
  have hqueue := h.steady.queue
  have hg := attempt_grows hturn.ne_cancel ha
  have hassoc := h.association_answered hl.alone hturn ha
  have hhands := attempt_hands hturn.ne_shutDown hqueue ha
  have hdirty := hhands.mem_dirty hl.processing
  refine ⟨⟨hhands.mem_processing hl.processing ?_, fun i s hi => ?_⟩,
    ⟨fun hk => ?_, fun haw => ?_⟩, hassoc⟩
  · rintro rfl
    exact hl.alone _ _ (holding_of_finish hturn)
  · rcases holding_answered h.staffed hg hi with ⟨rfl, rfl⟩ | ⟨-, hold⟩
    · rcases turn_holding hqueue ha hturn with ⟨s', hp⟩ | hno
      · exact hl.alone _ _ hp
      · exact hno hl.processing
    · exact hl.alone _ _ hold
  · have hin := hk.elim (mem_dirty_of_added hqueue ha) hdirty
    exact hin
  · rcases haw with hd | hd
    · exact .inl (hdirty hd)
    · exact h.awaits_answered ht hw ha hg hd

/-! ## A step of a task -/

theorem restarted (h : Crew w phase) (ht : t ∈ w.tasks) (hw : t.work = .done none) :
    Crew (w.setWork t.id t.round) phase := by
  have hstaffed := h.staffed.setWork ht (h.staffed.course_done_none ht hw)
  rw [Function.update_eq_self] at hstaffed
  exact ⟨h.steady.of_eq rfl rfl rfl, hstaffed, h.held, h.alone⟩

theorem ended (h : Crew w phase) (t : Task) (ending : Ending) :
    Crew (w.finish t ending) phase :=
  ⟨h.steady.of_eq rfl rfl rfl, h.staffed.finish t ending, h.held, h.alone⟩

/-- The tasks go on with their work, and leave a key alone that is lent to somebody else. -/
theorem step (h : Crew w phase) (hs : w.step? j = some w') : ∃ phase', Crew w' phase' ∧
    ∀ key, Lent key w phase → Lent key w' phase' ∧
      Leaves key ((w.exchange? j).bind Exchange.added?).toList w w' := by
  obtain ⟨t, ht, rfl, ⟨hw, hx, rfl⟩ | ⟨ending, hw, hx, rfl⟩ |
    ⟨r, next, answer, w₁, hw, ha, hx, rfl⟩⟩ := step?_exchange hs
  all_goals rw [hx]
  · refine ⟨phase, h.restarted ht hw, fun key hl => ⟨⟨hl.processing, hl.alone⟩, ⟨?_, ?_⟩, rfl⟩⟩
    · exact fun hk => hk.resolve_left List.not_mem_nil
    · exact awaits_of_done hw rfl
        fun u hu => h.staffed.eq_or_mem (.same rfl (Nat.le_refl _)) ht t.round hu
  · refine ⟨phase, h.ended t ending, fun key hl => ⟨⟨hl.processing, hl.alone⟩, ⟨?_, ?_⟩, rfl⟩⟩
    · exact fun hk => hk.resolve_left List.not_mem_nil
    · exact awaits_of_done hw rfl fun u hu => h.staffed.eq_or_mem_finish ht ending hu
  · have ho := attempt_ordinary h.steady.stopping h.steady.queue ha
    obtain ⟨a, hturn, -, hcourse⟩ := h.staffed.course_ask ht hw ho
    exact ⟨_, h.answered ht ha hturn hcourse, fun key hl => h.lent_answered ht hw ha hturn hl⟩

end Crew

/-! ## Somebody beside the tasks -/

/-- Somebody who is none of the tasks makes a request. -/
theorem Crew.asked (h : Crew w phase) (ha : w.attempt id r = some (answer, w₁))
    (hshut : r ≠ .shutDown) (hcancel : ∀ task, r ≠ .cancel task)
    (hback : ∀ k, r = .finish k → Lent k w phase) :
    Crew w₁ (Function.update phase w.nextId (recruit r)) := by
  have hg := attempt_grows hcancel ha
  refine ⟨h.steady.answered hshut (fun k e => (hback k e).processing) ha, h.staffed.grow hg,
    fun i k s hi => ?_, fun i j k s s' hi hj => ?_⟩
  · have hi := (hg.holding_iff h.staffed i s).1 hi
    obtain ⟨hproc, habout⟩ := h.held hi
    have hhands := attempt_hands hshut h.steady.queue ha
    refine ⟨hhands.mem_processing hproc fun e => ?_, habout⟩
    exact (hback k e).alone i s hi
  · exact h.alone ((hg.holding_iff h.staffed i s).1 hi) ((hg.holding_iff h.staffed j s').1 hj)

theorem Crew.lent_asked (h : Crew w phase) (ha : w.attempt id r = some (answer, w₁))
    (hshut : r ≠ .shutDown) (hcancel : ∀ task, r ≠ .cancel task) (hfin : r ≠ .finish key)
    (hl : Lent key w phase) :
    Lent key w₁ (Function.update phase w.nextId (recruit r)) ∧
      Brings key (Exchange.added? ⟨id, r, answer⟩).toList w w₁ := by
  have hg := attempt_grows hcancel ha
  have hhands := attempt_hands hshut h.steady.queue ha
  have hdirty := hhands.mem_dirty hl.processing
  refine ⟨⟨hhands.mem_processing hl.processing hfin, fun i s hi => ?_⟩,
    ⟨fun hk => ?_, fun haw => ?_⟩⟩
  · exact hl.alone i s ((hg.holding_iff h.staffed i s).1 hi)
  · exact hk.elim (mem_dirty_of_added h.steady.queue ha) hdirty
  · exact haw.imp hdirty (Delayed.mono fun _ ht => hg.mem ht)

/-- What is neither a task nor in the queue has changed. -/
theorem Crew.of_kept (h : Crew w phase) (hsteady : w'.Steady) (ht : w'.tasks = w.tasks)
    (hn : w'.nextId = w.nextId) (hq : w'.queue = w.queue) : Crew w' phase :=
  ⟨hsteady, h.staffed.of_kept ht hn, hq ▸ h.held, h.alone⟩

theorem Lent.of_kept (hl : Lent key w phase) (ht : w'.tasks = w.tasks) (hq : w'.queue = w.queue)
    (hassoc : w'.cluster.store.associations = w.cluster.store.associations) :
    Lent key w' phase ∧ Leaves key [] w w' := by
  refine ⟨⟨hq ▸ hl.processing, hl.alone⟩, ⟨fun hk => ?_, fun haw => ?_⟩, by rw [hassoc]⟩
  · exact hq ▸ hk.resolve_left List.not_mem_nil
  · exact haw.imp (fun hd => hq ▸ hd) (Delayed.mono fun _ hm => ht ▸ hm)

theorem Crew.beside {key? : Option Key} (h : Crew (w.without id) phase) (hid : w.nextId ≠ id)
    (hb : Beside id key? w w') : ∃ phase', Crew (w'.without id) phase' ∧
      ∀ key, Lent key (w.without id) phase → Lent key (w'.without id) phase' ∧
        Leaves key key?.toList (w.without id) (w'.without id) := by
  have hsteady := h.steady
  cases hb with
  | step hj hs =>
    obtain ⟨hs', hx⟩ := step?_without hid hj hs
    exact hx ▸ h.step hs'
  | own work =>
    rw [without_setWork, setWork_without]
    exact ⟨phase, h, fun key hl => ⟨hl, .refl key _⟩⟩
  | add key =>
    have ha : (w.without id).attempt id (.offer key) = some ((w.queue.offer key).1,
      { w.without id with queue := (w.queue.offer key).2 }) := rfl
    refine ⟨_, h.asked ha nofun nofun nofun, fun k hl => ?_⟩
    obtain ⟨hl', hbrings⟩ := h.lent_asked ha nofun nofun nofun hl
    exact ⟨hl', hbrings, rfl⟩
  | fault hf =>
    exact ⟨phase, h.of_kept ⟨hsteady.queue, hsteady.stopping, hf, hsteady.keyed.withFaults _⟩
      rfl rfl rfl, fun _ hl => hl.of_kept rfl rfl rfl⟩
  | listFault | time | schedule =>
    exact ⟨phase, h.of_kept (hsteady.of_eq rfl rfl rfl) rfl rfl rfl,
      fun _ hl => hl.of_kept rfl rfl rfl⟩
  | hire =>
    have ha : (w.without id).attempt id .startWorker =
        some (w.nextId, (w.spawn none (Controller.worker w.settings)).2.without id) :=
      congrArg some (without_spawn hid ..)
    refine ⟨_, h.asked ha nofun nofun nofun, fun k hl => ?_⟩
    obtain ⟨hl', hbrings⟩ := h.lent_asked ha nofun nofun nofun hl
    exact ⟨hl', hbrings, rfl⟩

end ClusterLink.World

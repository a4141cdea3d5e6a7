import ClusterLink.Proofs.Controller.Attention

/-! No association is left behind. `Attended` is the invariant of a controller at work: somebody
reads the log, every task keeps to its phase, a key that a worker holds is held by it alone and its
reconcile has seen what is current, and every other association is at rest. Each answer to a task
keeps it, request by request, and so does everything that others do in between. -/

namespace ClusterLink.World

open Reconcile Work

/-- The queue is in order, listings succeed, nobody stops the controller, and the associations are
those that are said to occur. -/
structure Sane (Occurs : Key → Prop) (w : World) : Prop where
  queue : w.queue.Sound
  listFault : w.listFault = none
  stopping : w.stopping = []
  faults : ∀ e, w.cluster.store.fault? .getAssociation = some e → ¬e.isNotFound
  keyed : w.cluster.store.Keyed
  occurs : ∀ key a, w.cluster.store.associations.find? key = some a → Occurs key

/-- The main task has not begun yet, or one reader of the log is served. -/
inductive Served (w : World) (phase : TaskId → Phase) : Prop where
  | starting {t next} (hr : w.readers = []) (ht : t ∈ w.tasks) (hw : t.work = .ask .subscribe next)
    (hn : ∀ id, Sweeps (next id) ∧ Starts id (next id)) (hp : ∀ i, phase i = .starting ↔ i = t.id)
  | reading {id place t} (hr : w.readers = [(id, place)])
    (hle : place ≤ w.cluster.store.log.size) (ht : t ∈ w.tasks)
    (hs : t.work.Starts id ∨ t.round = Controller.reader id ∧ phase t.id = .reading)
    (hp : ∀ i, phase i ≠ .starting)

/-- A key is held by one worker whose reconcile has seen what is current, or it is at rest. -/
structure Minded (Occurs : Key → Prop) (w : World) (phase : TaskId → Phase) (key : Key) :
    Prop where
  held : ∀ ⦃i s⦄, phase i = .holding key s →
    key ∈ w.queue.processing ∧ s.About Occurs key ∧ w.Seen key s
  alone : ∀ ⦃i j s s'⦄, phase i = .holding key s → phase j = .holding key s' → i = j
  rest : (∀ i s, phase i ≠ .holding key s) → w.Seen key (.ended (.ok .done))

/-- The invariant of a controller at work, with the phases of its tasks. -/
structure Attended (Occurs : Key → Prop) (w : World) (phase : TaskId → Phase) : Prop where
  sane : Sane Occurs w
  staffed : Staffed w phase
  served : Served w phase
  minded : ∀ key, Minded Occurs w phase key

variable {Occurs : Key → Prop} {w w' w₁ : World} {phase phase' : TaskId → Phase} {key : Key}
  {t : Task} {base a : Phase}

/-! ## Keys -/

/-- A step that leaves a key to itself keeps it minded by the same task. -/
theorem Minded.mono (h : Minded Occurs w phase key)
    (hp : ∀ i s, phase' i = .holding key s ↔ phase i = .holding key s)
    (hq : key ∈ w.queue.processing → key ∈ w'.queue.processing) (hs : Spares key w w') :
    Minded Occurs w' phase' key where
  held i s hi :=
    have ⟨hproc, habout, hseen⟩ := h.held ((hp i s).1 hi)
    ⟨hq hproc, habout, hseen.mono hs⟩
  alone _ _ _ _ hi hj := h.alone ((hp ..).1 hi) ((hp ..).1 hj)
  rest hn := (h.rest fun i s hi => hn i s ((hp i s).2 hi)).mono hs

theorem holding_update {i : TaskId} (hi : ∀ s, phase i ≠ .holding key s)
    (ha : ∀ s, a ≠ .holding key s) (j : TaskId) (s : Stage) :
    Function.update phase i a j = .holding key s ↔ phase j = .holding key s := by
  by_cases e : j = i
  · subst e
    rw [Function.update_self]
    exact ⟨fun h => absurd h (ha s), fun h => absurd h (hi s)⟩
  · rw [Function.update_of_ne e]

/-- The one task that may hold a key does. -/
theorem Minded.of_holding {i : TaskId} (honly : ∀ ⦃j s⦄, phase j = .holding key s → j = i)
    {s : Stage} (hq : key ∈ w.queue.processing) (hs : s.About Occurs key) (hseen : w.Seen key s) :
    Minded Occurs w (Function.update phase i (.holding key s)) key := by
  have only : ∀ {j s'}, Function.update phase i (.holding key s) j = .holding key s' →
      j = i ∧ s' = s := by
    intro j s' hj
    by_cases e : j = i
    · rw [e, Function.update_self] at hj
      cases hj
      exact ⟨e, rfl⟩
    · rw [Function.update_of_ne e] at hj
      exact absurd (honly hj) e
  refine ⟨fun j s' hj => ?_, fun j j' s' s'' hj hj' => ?_, fun hn => ?_⟩
  · obtain ⟨-, rfl⟩ := only hj
    exact ⟨hq, hs, hseen⟩
  · exact (only hj).1.trans (only hj').1.symm
  · exact absurd (Function.update_self ..) (hn i s)

/-- The one task that may hold a key does not. -/
theorem Minded.of_rest {i : TaskId} (honly : ∀ ⦃j s⦄, phase j = .holding key s → j = i)
    (ha : ∀ s, a ≠ .holding key s) (hseen : w.Seen key (.ended (.ok .done))) :
    Minded Occurs w (Function.update phase i a) key := by
  have none : ∀ j s', Function.update phase i a j ≠ .holding key s' := by
    intro j s' hj
    by_cases e : j = i
    · rw [e, Function.update_self] at hj
      exact ha s' hj
    · rw [Function.update_of_ne e] at hj
      exact e (honly hj)
  exact ⟨fun j s' hj => absurd hj (none j s'), fun j _ s' _ hj => absurd hj (none j s'),
    fun _ => hseen⟩

/-! ## What others do -/

/-- If nobody reads the log yet, every key is roused. -/
theorem Served.reads (h : Served w phase) (hp : Passes key w w') (hr : w'.readers = w.readers)
    (hs : w'.Stores key) (hn : ¬w'.Roused key) {kind : Kind} {r : Key}
    (ht : w'.cluster.store.log.Tells w.cluster.store.log.size kind r) : w'.Unread kind r := by
  cases h with
  | @starting t next _ hm hw hnext =>
    have hsweeps : t.work.Sweeps := hw ▸ fun id => (hnext id).1
    exact absurd ((hp.tasks t hm).sweeps hsweeps hs) hn
  | reading hr' hle =>
    exact ⟨_, _, (hr.trans hr') ▸ List.mem_singleton_self _, ht.mono hle⟩

theorem Served.of_kept (h : Served w phase) (hr : w'.readers = w.readers)
    (hlog : w'.cluster.store.log.Extends w.cluster.store.log) (ht : w'.tasks = w.tasks) :
    Served w' phase := by
  cases h with
  | starting hr' hm hw hn hp => exact .starting (hr.trans hr') (ht ▸ hm) hw hn hp
  | reading hr' hle hm hs hp =>
    exact .reading (hr.trans hr') (Nat.le_trans hle hlog.size_le) (ht ▸ hm) hs hp

theorem Staffed.of_kept (h : Staffed w phase) (ht : w'.tasks = w.tasks)
    (hn : w'.nextId = w.nextId) : Staffed w' phase :=
  h.of_subset (fun _ hu => ht ▸ hu) hn

/-- Others change the store, and leave the tasks and the queue alone. -/
theorem Attended.of_kept (h : Attended Occurs w phase) (hsane : Sane Occurs w')
    (ht : w'.tasks = w.tasks) (hid : w'.nextId = w.nextId) (hq : w'.queue = w.queue)
    (hr : w'.readers = w.readers) (hlogs : w.cluster.store.Logs w'.cluster.store)
    (hsecrets : w'.cluster.store.secrets = w.cluster.store.secrets)
    (hwatch : w'.cluster.watches = w.cluster.watches) : Attended Occurs w' phase where
  sane := hsane
  staffed := h.staffed.of_kept ht hid
  served := h.served.of_kept hr hlogs.kept ht
  minded key := by
    have hp : Passes key w w' := .of_kept (fun hd => hq ▸ hd) (fun _ hx => hr ▸ hx)
      hlogs.kept fun _ hm => .of_mem (ht ▸ hm)
    refine (h.minded key).mono (fun _ _ => .rfl) (fun hk => hq ▸ hk) ?_
    exact hp.spares_of_logs hlogs (fun hs hn _ _ => h.served.reads hp hr hs hn) hsecrets
      fun _ _ => hwatch ▸ rfl

theorem Attended.edit (h : Attended Occurs w phase) {e : Edit} (he : e.kind ≠ .secret)
    (hocc : ∀ a, e = .apply (.association a) → Occurs a.key) :
    Attended Occurs { w with cluster := w.cluster.edit e } phase := by
  have hsane := h.sane
  refine h.of_kept ⟨hsane.queue, hsane.listFault, hsane.stopping, fun x hx => ?_,
    hsane.keyed.edit e, fun key a ha => ?_⟩ rfl rfl rfl rfl (w.cluster.store.edit_logs e)
    (w.cluster.store.edit_secrets he) rfl
  · exact hsane.faults x (w.cluster.store.edit_fault? e ▸ hx)
  · have hed := (w.cluster.store.edit_editedAt e key).association
    rw [show (w.cluster.store.edit e).associations.find? key = some a from ha] at hed
    generalize hold : w.cluster.store.associations.find? key = old at hed
    cases hed with
    | same => exact hsane.occurs key a hold
    | created hs hk => exact hk ▸ hocc _ hs
    | replaced hs hk => exact hk ▸ hocc _ hs
    | doomed => exact hsane.occurs key _ hold

theorem Attended.fault (h : Attended Occurs w phase) {fault? : Operation → Option StoreError}
    (hf : ∀ e, fault? .getAssociation = some e → ¬e.isNotFound) :
    Attended Occurs { w with cluster := w.cluster.withFaults fault? } phase := by
  have hsane := h.sane
  exact h.of_kept ⟨hsane.queue, hsane.listFault, hsane.stopping, hf, hsane.keyed.withFaults fault?,
    hsane.occurs⟩ rfl rfl rfl rfl (.of_eq rfl rfl rfl rfl) rfl rfl

/-- A new task makes no difference to the keys. -/
theorem Served.grow (h : Served w phase) (hstaffed : Staffed w phase) (hg : Grows w w₁ base)
    (hr : w₁.readers = w.readers) (hc : w₁.cluster = w.cluster) :
    Served w₁ (Function.update phase w.nextId base) := by
  have old : ∀ {t}, t ∈ w.tasks → Function.update phase w.nextId base t.id = phase t.id :=
    fun ht => Function.update_of_ne (Nat.ne_of_lt (hstaffed.numbered ht)) ..
  have starts : ∀ i, Function.update phase w.nextId base i = .starting ↔ phase i = .starting := by
    intro i
    by_cases e : i = w.nextId
    · rw [e, Function.update_self, hstaffed.unborn (Nat.le_refl _)]
      rcases hg.base with rfl | rfl <;> simp
    · rw [Function.update_of_ne e]
  cases h with
  | starting hr' ht hw hn hp =>
    exact .starting (hr.trans hr') (hg.mem ht) hw hn fun i => (starts i).trans (hp i)
  | reading hr' hle ht hs hp =>
    refine .reading (hr.trans hr') (hc ▸ hle) (hg.mem ht) ?_ fun i hi => hp i ((starts i).1 hi)
    exact hs.imp_right fun hs => ⟨hs.1, (old ht).trans hs.2⟩

theorem Grows.holding_iff (hg : Grows w w₁ base) (hstaffed : Staffed w phase) (i : TaskId)
    (s : Stage) :
    Function.update phase w.nextId base i = .holding key s ↔ phase i = .holding key s := by
  refine holding_update (fun s' => ?_) (fun s' => ?_) i s
  · rw [hstaffed.unborn (Nat.le_refl _)]
    exact nofun
  · rcases hg.base with rfl | rfl <;> exact nofun

theorem Attended.hire (h : Attended Occurs w phase) :
    Attended Occurs (w.spawn none (Controller.worker w.settings)).2
      (Function.update phase w.nextId .free) := by
  have hg := grows_spawn (Controller.isRound_worker w.settings) (.inl rfl) w none
  have hsane := h.sane
  refine ⟨⟨hsane.queue, hsane.listFault, hsane.stopping, hsane.faults, hsane.keyed, hsane.occurs⟩,
    h.staffed.grow hg, h.served.grow h.staffed hg rfl rfl, fun key => ?_⟩
  have hp : Passes key w (w.spawn none (Controller.worker w.settings)).2 :=
    .of_kept (fun hd => hd) (fun _ hx => hx) (.refl _) fun _ ht => .of_mem (hg.mem ht)
  exact (h.minded key).mono (hg.holding_iff h.staffed) (fun hk => hk) (hp.spares rfl)

/-! ## The end of a round -/

/-- A task that starts over, or one that ends, makes no request. -/
theorem Attended.restart (h : Attended Occurs w phase) (ht : t ∈ w.tasks)
    (hw : t.work = .done none) : Attended Occurs (w.setWork t.id t.round) phase := by
  have hsane := h.sane
  have moved := mem_setWork_self ht t.round
  have others : ∀ u ∈ w.tasks, u = t ∨ u ∈ (w.setWork t.id t.round).tasks :=
    fun u hu => h.staffed.eq_or_mem (.same rfl (Nat.le_refl _)) ht t.round hu
  refine ⟨⟨hsane.queue, hsane.listFault, hsane.stopping, hsane.faults, hsane.keyed, hsane.occurs⟩,
    ?_, ?_, fun key => ?_⟩
  · have hset := h.staffed.setWork ht (h.staffed.course_done_none ht hw)
    rwa [Function.update_eq_self] at hset
  · cases h.served with
    | @starting u _ hr hu hwu hn hp =>
      rcases others u hu with rfl | hu'
      · cases hw.symm.trans hwu
      · exact .starting hr hu' hwu hn hp
    | @reading id place u hr hle hu hs hp =>
      rcases others u hu with rfl | hu'
      · refine .reading hr hle moved (.inr (hs.resolve_left fun hs => ?_)) hp
        rw [hw] at hs
        exact hs
      · exact .reading hr hle hu' hs hp
  · have hp : Passes key w (w.setWork t.id t.round) := by
      refine .of_kept (fun hd => hd) (fun _ hx => hx) (.refl _) fun u hu => ?_
      rcases others u hu with rfl | hu'
      · exact hw ▸ .of_done
      · exact .of_mem hu'
    exact (h.minded key).mono (fun _ _ => .rfl) (fun hk => hk) (hp.spares rfl)

theorem Attended.finish (h : Attended Occurs w phase) (ht : t ∈ w.tasks) {ending : Ending}
    (hw : t.work = .done (some ending)) : Attended Occurs (w.finish t ending) phase := by
  have hsane := h.sane
  have hfree := h.staffed.course_done_some ht hw
  have others : ∀ u ∈ w.tasks, u = t ∨ u ∈ (w.finish t ending).tasks :=
    fun u hu => h.staffed.eq_or_mem_finish ht ending hu
  refine ⟨⟨hsane.queue, hsane.listFault, hsane.stopping, hsane.faults, hsane.keyed, hsane.occurs⟩,
    h.staffed.finish t ending, ?_, fun key => ?_⟩
  · cases h.served with
    | @starting u _ hr hu hwu hn hp =>
      rcases others u hu with rfl | hu'
      · cases hw.symm.trans hwu
      · exact .starting hr hu' hwu hn hp
    | @reading id place u hr hle hu hs hp =>
      rcases others u hu with rfl | hu'
      · rcases hs with hs | ⟨-, hs⟩
        · rw [hw] at hs
          exact hs.elim
        · cases hfree.symm.trans hs
      · exact .reading hr hle hu' hs hp
  · have hp : Passes key w (w.finish t ending) := by
      refine .of_kept (fun hd => hd) (fun _ hx => hx) (.refl _) fun u hu => ?_
      rcases others u hu with rfl | hu'
      · exact hw ▸ .of_done
      · exact .of_mem hu'
    exact (h.minded key).mono (fun _ _ => .rfl) (fun hk => hk) (hp.spares rfl)

end ClusterLink.World

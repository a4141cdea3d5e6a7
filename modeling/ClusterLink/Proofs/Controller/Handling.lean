import ClusterLink.Proofs.Controller.Coverage
import ClusterLink.Proofs.Controller.Crew
import ClusterLink.Proofs.Reconcile.Faithful

/-! No key is stranded. Whoever handles a key reconciles it, schedules what is to happen next and
gives it back, and a crew of tasks goes on beside him. Until he gives it back nobody else writes the
association, so what his reconcile carries stays what is stored; and unless it concludes that
nothing is left to be done, a delayed add is started, which stays until it has added the key. -/

namespace ClusterLink

/-- Work starts a delayed add of a key, however it is answered. -/
def Work.Delays (key : Key) : Work α → Prop := Makes fun r => ∃ delay, r = .addLater key delay

theorem Controller.delays_addRateLimited (settings : ControllerSettings) (key : Key) :
    (addRateLimited settings key).Delays key :=
  .inr fun failures _ => .inl ⟨settings.backoff.delay failures, rfl⟩

namespace World

open Reconcile Work

/-- Somebody holds keys and works beside a crew; if he is a task himself, he is not counted. -/
structure Manned (id : TaskId) (held : List Key) (w : World) : Prop where
  born : id < w.nextId
  crew : ∃ phase, Crew (w.without id) phase ∧ ∀ key ∈ held, Lent key (w.without id) phase

/-- Somebody who tries to get a key is handed one, and does with it what a worker does, with the
keys that are added to the queue until he gives it back: the worlds are those at the start, right
after the key was given back, and at the end. -/
inductive Handles (settings : ControllerSettings) (id : TaskId) (key : Key) (outcome : Outcome) :
    List Key → World → World → World → Prop where
  | mk {w w₀ w₁ w₂ w₃ w₄ w₅ w' : World} {queued : Bool}
    {tried taken left reconciled scheduled returned woken : List Key}
    (tries : Does id (request .enable) tried w () w₀)
    (takes : Does id (request .take) taken w₀ (.key key) w₁)
    (leaves : Does id (request .leave) left w₁ () w₂)
    (reconciles : Does id (Controller.reconcileWithDeadline settings key) reconciled w₂ outcome w₃)
    (schedules : Does id (Controller.schedule settings key outcome) scheduled w₃ () w₄)
    (returns : Does id (request (.finish key)) returned w₄ queued w₅)
    (wakes : Does id (if queued then request .notifyOne else .done ()) woken w₅ () w') :
    Handles settings id key outcome (left ++ (reconciled ++ (scheduled ++ returned))) w w₅ w'

/-- A key that was given back after a reconcile, while some keys were added to the queue, is not
stranded: its association is gone, or on its way out and not held back, or established by a
reconcile without an error; or a delayed add of it was started, and has not fired or has put it
back. -/
structure Settled (settings : ControllerSettings) (key : Key) (outcome : Outcome)
    (added : List Key) (w : World) : Prop where
  free : key ∉ w.queue.processing
  queued : key ∈ added → key ∈ w.queue.queue
  attended : w.cluster.store.associations.find? key = none ∨
    (∃ a, w.cluster.store.associations.find? key = some a ∧
      a.metadata.isBeingDeleted ∧ ¬a.metadata.hasFinalizer watchFinalizerName) ∨
    (∃ a, w.cluster.store.associations.find? key = some a ∧
      a.status = .established ∧ outcome.error = none) ∨
    (Controller.schedule settings key outcome).Delays key ∧
      (w.Delayed key ∨ key ∈ w.queue.queue)

variable {w w' w₁ : World} {id : TaskId} {key : Key} {held added : List Key} {r : Request}
  {answer : r.Answer} {settings : ControllerSettings} {outcome : Outcome} {s : Stage}

/-- Whoever gets to process a key has handled one. -/
theorem Handles.of_processNext
    (h : Does id (Controller.processNext settings) added w (some true) w') :
    ∃ key outcome added w₁, Handles settings id key outcome added w w₁ w' := by
  obtain ⟨_, _, taken, _, -, hget, hnext⟩ := h.bind
  obtain ⟨_, _, _, _, -, tries, hget⟩ := hget.bind
  obtain ⟨_, _, answer, _, -, takes, hget⟩ := hget.bind
  cases answer with
  | shutDown | empty =>
    obtain ⟨_, _, _, _, -, -, hget⟩ := hget.bind
    cases hget
    cases hnext
  | key key =>
    obtain ⟨_, _, _, _, -, leaves, hget⟩ := hget.bind
    cases hget
    obtain ⟨_, _, _, _, -, hprocess, hend⟩ := hnext.bind
    cases hend
    obtain ⟨_, _, outcome, _, -, reconciles, hprocess⟩ := hprocess.bind
    obtain ⟨_, _, _, _, -, schedules, hfinish⟩ := hprocess.bind
    obtain ⟨_, _, queued, w₁, -, returns, wakes⟩ := hfinish.bind
    exact ⟨key, outcome, _, w₁, .mk tries takes leaves reconciles schedules returns wakes⟩

/-! ## Who is manned -/

/-- Any store, registries and open queue will do while there are no tasks. -/
theorem Steady.crew (h : w.Steady) (ht : w.tasks = []) : Crew w fun _ => .free :=
  ⟨h, ⟨by simp [ht], by simp [ht], fun _ _ => rfl, by simp [ht]⟩,
    fun _ _ _ e => (nomatch e), fun _ _ _ _ _ e => nomatch e⟩

theorem Attended.crew {phase : TaskId → Phase} (h : Attended (fun _ => True) w phase) :
    Crew w phase where
  steady := ⟨h.sane.queue, h.sane.stopping, h.sane.faults, h.sane.keyed⟩
  staffed := h.staffed
  held _ key _ hi := have ⟨hproc, habout, _⟩ := (h.minded key).held hi; ⟨hproc, habout⟩
  alone _ _ key _ _ hi hj := (h.minded key).alone hi hj

theorem Crew.manned {phase : TaskId → Phase} (h : Crew w phase) (hid : id < w.nextId) :
    Manned id [] w := by
  have hstaffed : Staffed (w.without id) phase :=
    h.staffed.of_subset (fun _ ht => (List.mem_filter.1 ht).1) rfl
  exact ⟨hid, phase, ⟨h.steady.of_eq rfl rfl rfl, hstaffed, h.held, h.alone⟩, nofun⟩

theorem Crew.run {phase : TaskId → Phase} {Occurs : Key → Prop} (h : Crew w phase)
    (hr : Run Occurs w w') : ∃ phase', Crew w' phase' := by
  induction hr with
  | refl => exact ⟨phase, h⟩
  | @tail v w' _ hm ih =>
    obtain ⟨phase, h⟩ := ih
    have hsteady := h.steady
    cases hm with
    | step hs =>
      obtain ⟨phase', h', -⟩ := h.step hs
      exact ⟨phase', h'⟩
    | @edit e =>
      refine ⟨phase, h.of_kept ⟨hsteady.queue, hsteady.stopping, fun x hx => ?_,
        hsteady.keyed.edit e⟩ rfl rfl rfl⟩
      exact hsteady.faults x (v.cluster.store.edit_fault? e ▸ hx)
    | fault hf =>
      exact ⟨phase, h.of_kept ⟨hsteady.queue, hsteady.stopping, hf, hsteady.keyed.withFaults _⟩
        rfl rfl rfl⟩
    | time | schedule =>
      exact ⟨phase, h.of_kept (hsteady.of_eq rfl rfl rfl) rfl rfl rfl⟩
    | hire =>
      have ha : v.attempt driver .startWorker =
        some (v.nextId, (v.spawn none (Controller.worker v.settings)).2) := rfl
      exact ⟨_, h.asked ha nofun nofun nofun⟩

/-- In any run of a controller, any task may try to get a key. -/
theorem manned_of_run {Occurs : Key → Prop} {store : Store} (hkeyed : store.Keyed)
    (hfault : ∀ e, store.fault? .getAssociation = some e → ¬e.isNotFound)
    {wallClock : Instant} {label : String}
    (hr : Run Occurs (start settings store wallClock label) w) (hid : id < w.nextId) :
    Manned id [] w := by
  have hatt : Attended (fun _ => True) (start settings store wallClock label) _ :=
    .start hkeyed hfault (fun _ _ _ => trivial) settings wallClock label
  obtain ⟨phase, h⟩ := hatt.crew.run hr
  exact h.manned hid

namespace Manned

theorem beside {key? : Option Key} (h : Manned id held w) (hb : Beside id key? w w') :
    Manned id held w' ∧
      ∀ key ∈ held, Leaves key key?.toList (w.without id) (w'.without id) := by
  obtain ⟨phase, hcrew, hlent⟩ := h.crew
  obtain ⟨phase', hcrew', hleaves⟩ := hcrew.beside (Nat.ne_of_gt h.born) hb
  exact ⟨⟨hb.born h.born, phase', hcrew', fun key hk => (hleaves key (hlent key hk)).1⟩,
    fun key hk => (hleaves key (hlent key hk)).2⟩

theorem meanwhile (h : Manned id held w) (hm : Meanwhile id added w w') :
    Manned id held w' ∧ ∀ key ∈ held, Leaves key added (w.without id) (w'.without id) := by
  induction hm with
  | refl => exact ⟨h, fun key _ => .refl key _⟩
  | tail _ hb ih =>
    obtain ⟨h, hl⟩ := ih h
    obtain ⟨h', hl'⟩ := h.beside hb
    exact ⟨h', fun key hk => (hl key hk).trans (hl' key hk)⟩

/-- He makes a request that neither takes the crew apart nor gives a key back. -/
theorem asked (h : Manned id held w) (ha : w.attempt id r = some (answer, w₁))
    (hshut : r ≠ .shutDown) (hcancel : ∀ task, r ≠ .cancel task) (hfin : ∀ k, r ≠ .finish k) :
    Manned id held w₁ ∧ ∀ key ∈ held, Brings key [] (w.without id) (w₁.without id) := by
  obtain ⟨phase, hcrew, hlent⟩ := h.crew
  have ha' := attempt_without (Nat.ne_of_gt h.born) ha
  have hcrew' := hcrew.asked ha' hshut hcancel fun k e => absurd e (hfin k)
  have hlent' := fun key hk => hcrew.lent_asked ha' hshut hcancel (hfin key) (hlent key hk)
  refine ⟨⟨Nat.lt_of_lt_of_le h.born (attempt_answered ha).nextId, _, hcrew',
    fun key hk => (hlent' key hk).1⟩, fun key hk => ⟨fun hd => ?_, (hlent' key hk).2.awaits⟩⟩
  exact (hlent' key hk).2.dirty (.inr (hd.resolve_left List.not_mem_nil))

theorem steady (h : Manned id held w) : w.Steady :=
  have ⟨_, hcrew, _⟩ := h.crew
  hcrew.steady.of_eq rfl rfl rfl

/-- He is handed a key. -/
theorem taken (h : Manned id [] w) (ha : w.attempt id .take = some (.key key, w₁)) :
    Manned id [key] w₁ := by
  obtain ⟨phase, hcrew, -⟩ := h.crew
  have ha' := attempt_without (Nat.ne_of_gt h.born) ha
  have hcrew' := hcrew.asked ha' nofun nofun nofun
  refine ⟨Nat.lt_of_lt_of_le h.born (attempt_answered ha).nextId, _, hcrew', fun k hk => ?_⟩
  obtain rfl := List.mem_singleton.1 hk
  have hg := attempt_grows (r := .take) nofun ha'
  obtain ⟨hfree, hproc⟩ := attempt_take hcrew.steady.queue ha'
  exact ⟨hproc, fun i s hi => hfree (hcrew.held ((hg.holding_iff hcrew.staffed i s).1 hi)).1⟩

/-- A request that is about neither the store nor handing out keys leaves the key to him. -/
theorem plain (h : Manned id [key] w) (hd : Does id (request r) added w answer w')
    (hr : r.IsPlain ∨ ∃ delay, r = .addLater key delay) :
    Manned id [key] w' ∧ Leaves key added (w.without id) (w'.without id) := by
  obtain ⟨w₀, hm, ha⟩ := hd.request
  obtain ⟨h₀, hl⟩ := h.meanwhile hm
  have hne : r ≠ .shutDown ∧ (∀ task, r ≠ .cancel task) ∧ (∀ k, r ≠ .finish k) ∧
      ∀ q, r ≠ .call q := by
    rcases hr with hr | ⟨delay, rfl⟩
    · refine ⟨?_, fun _ => ?_, fun _ => ?_, fun _ => ?_⟩ <;> (rintro rfl; exact hr)
    · refine ⟨?_, fun _ => ?_, fun _ => ?_, fun _ => ?_⟩ <;> exact fun e => nomatch e
  obtain ⟨hshut, hcancel, hfin, hcall⟩ := hne
  obtain ⟨h', hb⟩ := h₀.asked ha hshut hcancel hfin
  have hc : w'.cluster = w₀.cluster := (attempt_framed hshut ha).cluster hcall
  have hleft : Leaves key [] (w₀.without id) (w'.without id) :=
    ⟨hb key (List.mem_singleton_self _), congrArg (·.store.associations.find? key) hc⟩
  exact ⟨h', List.append_nil added ▸ (hl key (List.mem_singleton_self _)).trans hleft⟩

/-! ## The reconcile -/

theorem reach (h : Manned id [key] w) {op : Operation} {deadline : Option Nat} {reached : Bool}
    (hd : Does id (reach op deadline) added w reached w') :
    Manned id [key] w' ∧ Leaves key added (w.without id) (w'.without id) := by
  obtain ⟨_, _, time, w₁, rfl, hread, hwait⟩ := hd.bind
  obtain ⟨h₁, hl⟩ := h.plain hread (.inl trivial)
  obtain ⟨h', hl'⟩ := h₁.plain hwait (.inl trivial)
  exact ⟨h', hl.trans hl'⟩

/-- His reconcile makes a call. -/
theorem call (h : Manned id [key] w) (hs : s.Faithful key w.cluster)
    (hc : s.Concludes key w.cluster) {call : Call} {next : call.Answer → Stage}
    (hv : s.view = .inr ⟨call, next⟩) {α : Type} {rest : call.Answer → Work α} {a : α}
    (hd : Does id (.ask (.call call) rest) added w a w') : ∃ before after answer w₁,
      added = before ++ after ∧ Manned id [key] w₁ ∧
      Brings key before (w.without id) (w₁.without id) ∧ (next answer).Faithful key w₁.cluster ∧
      (next answer).Concludes key w₁.cluster ∧ Does id (rest answer) after w₁ a w' := by
  cases hd with
  | @ask _ answer _ before after _ _ w₀ w₁ _ hm ha hd =>
    obtain ⟨h₀, hl⟩ := h.meanwhile hm
    replace hl := hl key (List.mem_singleton_self _)
    replace hs : s.Faithful key w₀.cluster := hs.congr hl.association
    replace hc : s.Concludes key w₀.cluster := hc.congr hl.association
    obtain ⟨h₁, hb⟩ := h₀.asked ha nofun nofun nofun
    have hbrings := hl.toBrings.trans (hb key (List.mem_singleton_self _))
    rw [List.append_nil] at hbrings
    have hsteady := h₀.steady
    cases ha
    have hstep := Stage.step_of_view hv w₀.cluster
    exact ⟨before, after, _, _, rfl, h₁, hbrings, hstep.faithful hsteady.keyed hs,
      hstep.concludes hsteady.keyed hsteady.faults hs hc, hd⟩

/-- His reconcile gets as far as it gets, and concludes nothing that is not so. -/
theorem within (h : Manned id [key] w) {deadline : Option Nat} {o : Option Outcome}
    (hs : s.Faithful key w.cluster) (hc : s.Concludes key w.cluster)
    (hd : Does id (s.program.within deadline) added w o w') :
    Manned id [key] w' ∧ Brings key added (w.without id) (w'.without id) ∧
      ∀ outcome, o = some outcome → Stage.Concludes key (.ended outcome) w'.cluster := by
  induction s using Stage.program.induct generalizing w added with
  | case1 s o hv =>
    rw [Stage.program_eq_done hv] at hd
    cases hd
    cases s <;> cases hv
    exact ⟨h, .refl key _, fun _ e => Option.some.inj e ▸ hc⟩
  | case2 s call next hv ih =>
    rw [Stage.program_eq_ask hv fun _ => rfl, Calls.within] at hd
    split at hd
    next =>
      obtain ⟨_, _, answer, w₁, rfl, h₁, hb, hs, hc, hd⟩ := h.call hs hc hv hd
      obtain ⟨h', hb', ho⟩ := ih answer h₁ hs hc hd
      exact ⟨h', hb.trans hb', ho⟩
    next op _ =>
      obtain ⟨_, _, reached, w₁, rfl, hreach, hd⟩ := hd.bind
      obtain ⟨h₁, hl⟩ := h.reach hreach
      cases reached with
      | false =>
        cases hd
        exact ⟨h₁, (List.append_nil _).symm ▸ hl.toBrings,
          fun _ e => absurd e.symm (Option.some_ne_none _)⟩
      | true =>
        obtain ⟨_, _, answer, w₂, rfl, h₂, hb, hs, hc, hd⟩ :=
          h₁.call (hs.congr hl.association) (hc.congr hl.association) hv hd
        obtain ⟨h', hb', ho⟩ := ih answer h₂ hs hc hd
        exact ⟨h', hl.toBrings.trans (hb.trans hb'), ho⟩

theorem reconcileWithDeadline (h : Manned id [key] w)
    (hd : Does id (Controller.reconcileWithDeadline settings key) added w outcome w') :
    Manned id [key] w' ∧ Brings key added (w.without id) (w'.without id) ∧
      Stage.Concludes key (.ended outcome) w'.cluster := by
  obtain ⟨_, _, now, w₁, rfl, hnow, hd⟩ := hd.bind
  obtain ⟨_, _, _, w₂, rfl, hcount, hd⟩ := hd.bind
  obtain ⟨_, _, o, w₃, rfl, hwithin, hd⟩ := hd.bind
  obtain ⟨h₁, hl₁⟩ := h.plain hnow (.inl trivial)
  obtain ⟨h₂, hl₂⟩ := h₁.plain hcount (.inl trivial)
  rw [reconcile_eq_program] at hwithin
  have hs : (Stage.fetch key).Faithful key w₂.cluster := rfl
  obtain ⟨h₃, hb, ho⟩ := h₂.within hs trivial hwithin
  cases o with
  | some outcome =>
    cases hd
    exact ⟨h₃, (List.append_nil _).symm ▸ hl₁.toBrings.trans (hl₂.toBrings.trans hb), ho _ rfl⟩
  | none =>
    cases hd
    exact ⟨h₃, (List.append_nil _).symm ▸ hl₁.toBrings.trans (hl₂.toBrings.trans hb), nofun⟩

/-! ## What happens next -/

theorem addLater (h : Manned id [key] w) {delay : Duration}
    (hd : Does id (request (.addLater key delay)) added w () w') :
    Manned id [key] w' ∧ Leaves key added (w.without id) (w'.without id) ∧
      (w'.without id).Delayed key := by
  obtain ⟨h', hl⟩ := h.plain hd (.inr ⟨delay, rfl⟩)
  refine ⟨h', hl, ?_⟩
  obtain ⟨w₀, hm, ha⟩ := hd.request
  have ha' := attempt_without (Nat.ne_of_gt (h.meanwhile hm).1.born) ha
  simp only [attempt, Option.some.injEq, Prod.mk.injEq, true_and] at ha'
  exact ha' ▸ ⟨_, List.mem_append_right _ (List.mem_singleton_self _), _, rfl⟩

theorem addRateLimited (h : Manned id [key] w)
    (hd : Does id (Controller.addRateLimited settings key) added w () w') :
    Manned id [key] w' ∧ Leaves key added (w.without id) (w'.without id) ∧
      (w'.without id).Delayed key := by
  obtain ⟨_, _, failures, w₁, rfl, hcount, hadd⟩ := hd.bind
  obtain ⟨h₁, hl⟩ := h.plain hcount (.inl trivial)
  obtain ⟨h', hl', hdelayed⟩ := h₁.addLater hadd
  exact ⟨h', hl.trans hl', hdelayed⟩

/-- He starts a delayed add of the key, unless the outcome says that nothing is left to be done. -/
theorem schedule (h : Manned id [key] w)
    (hd : Does id (Controller.schedule settings key outcome) added w () w') :
    Manned id [key] w' ∧ Leaves key added (w.without id) (w'.without id) ∧
      (outcome.error = none ∧ outcome.decision.isDone ∨
        (Controller.schedule settings key outcome).Delays key ∧ (w'.without id).Delayed key) := by
  unfold Controller.schedule at hd ⊢
  obtain ⟨⟨requeue, after⟩, error⟩ := outcome
  cases error with
  | some e =>
    obtain ⟨h', hl, hdelayed⟩ := h.addRateLimited hd
    exact ⟨h', hl, .inr ⟨Controller.delays_addRateLimited settings key, hdelayed⟩⟩
  | none =>
    obtain ⟨_, _, _, w₁, rfl, hforget, hd⟩ := hd.bind
    obtain ⟨h₁, hl₁⟩ := h.plain hforget (.inl trivial)
    cases after with
    | some delay =>
      obtain ⟨h', hl, hdelayed⟩ := h₁.addLater hd
      exact ⟨h', hl₁.trans hl, .inr ⟨.inr fun _ _ => .inl ⟨delay, rfl⟩, hdelayed⟩⟩
    | none =>
      cases requeue with
      | true =>
        obtain ⟨h', hl, hdelayed⟩ := h₁.addRateLimited hd
        exact ⟨h', hl₁.trans hl,
          .inr ⟨.inr fun _ _ => Controller.delays_addRateLimited settings key, hdelayed⟩⟩
      | false =>
        cases hd
        exact ⟨h₁, (List.append_nil _).symm ▸ hl₁, .inl ⟨rfl, rfl⟩⟩

end Manned

/-- When a key is given back it is settled. -/
theorem Handles.settled (h : Handles settings id key outcome added w w₁ w')
    (hmanned : Manned id [] w) : Settled settings key outcome added w₁ := by
  obtain ⟨tries, takes, leaves, reconciles, schedules, returns, -⟩ := h
  obtain ⟨_, hm, ha⟩ := tries.request
  have h₀ := ((hmanned.meanwhile hm).1.asked ha nofun nofun nofun).1
  obtain ⟨_, hm, ha⟩ := takes.request
  have h₁ := (h₀.meanwhile hm).1.taken ha
  obtain ⟨h₂, hl₂⟩ := h₁.plain leaves (.inl trivial)
  obtain ⟨h₃, hb₃, hconcludes⟩ := h₂.reconcileWithDeadline reconciles
  obtain ⟨h₄, hl₄, hnext⟩ := h₃.schedule schedules
  obtain ⟨w₅, hm, ha⟩ := returns.request
  obtain ⟨h₅, hl₅⟩ := h₄.meanwhile hm
  replace hl₅ := hl₅ key (List.mem_singleton_self _)
  have hbrings := hl₂.toBrings.trans (hb₃.trans (hl₄.toBrings.trans hl₅.toBrings))
  have hqueue := h₅.steady.queue
  cases ha
  have queued : key ∈ w₅.queue.dirty → key ∈ (w₅.queue.finish key).2.queue :=
    fun hd => hqueue.mem_queue_finish.2 (.inr ⟨rfl, hd⟩)
  refine ⟨fun hk => ?_, fun hk => queued (hbrings.dirty (.inl hk)), ?_⟩
  · have hk : key ∈ (w₅.queue.finish key).2.processing := hk
    rw [w₅.queue.finish_processing] at hk
    exact (WorkQueue.mem_unmark.1 hk).2 rfl
  rcases hnext with ⟨herror, hdone⟩ | ⟨hdelays, hdelayed⟩
  · have hdealt := hconcludes herror hdone
    cases ha : w₅.cluster.store.associations.find? key with
    | none => exact .inl rfl
    | some a =>
      rcases hdealt a ((hl₄.trans hl₅).association ▸ ha) with hout | hest
      · exact .inr (.inl ⟨a, rfl, hout⟩)
      · exact .inr (.inr (.inl ⟨a, rfl, hest, herror⟩))
  · refine .inr (.inr (.inr ⟨hdelays, ?_⟩))
    rcases hl₅.awaits (.inr hdelayed) with hd | hd
    · exact .inr (queued hd)
    · exact .inl (hd.mono fun t ht => (List.mem_filter.1 ht).1)

/-- No key is stranded that is processed, whatever goes on beside. -/
theorem not_stranded (hmanned : Manned id [] w)
    (h : Does id (Controller.processNext settings) added w (some true) w') :
    ∃ key outcome added w₁, Handles settings id key outcome added w w₁ w' ∧
      Settled settings key outcome added w₁ := by
  obtain ⟨key, outcome, added, w₁, hhandles⟩ := Handles.of_processNext h
  exact ⟨key, outcome, added, w₁, hhandles, hhandles.settled hmanned⟩

/-- An association is applied whose cluster does not exist, and its key comes in a second time while
it is processed. -/
theorem not_stranded_of_added_meanwhile :
    let a : Association := ⟨.new ⟨"ns", "a"⟩, ⟨⟨"ns", "es"⟩, ⟨"ns", "kb"⟩⟩, .unknown⟩
    let w : World := { World.new {} 4 .epoch with
      cluster := (Cluster.new 4).edit (.apply (.association a))
      queue := (WorkQueue.new.offer a.key).2 }
    ∃ w', Does driver (Controller.processNext {}) [a.key] w (some true) w' ∧
      ∃ key outcome added w₁, Handles {} driver key outcome added w w₁ w' ∧
        Settled {} key outcome added w₁ := by
  intro a w
  have hmanned : Manned driver [] w := by
    have hsteady : w.Steady :=
      ⟨.offer .new a.key, rfl, fun _ he => (nomatch he),
        (Store.Keyed.new 4).edit (.apply (.association a))⟩
    exact (hsteady.crew rfl).manned Nat.one_pos
  let w₀ : World := { w with wakeup := w.wakeup.enable driver }
  let w₁ : World := { w₀ with queue := w₀.queue.take.2 }
  let w₂ : World := { w₁ with queue := (w₁.queue.offer a.key).2 }
  let w₃ : World := { w₂ with wakeup := w₂.wakeup.leave driver }
  have hends : (alone? driver ((Controller.process {} a.key).bind fun _ => .done (some true))
      w₃).map Prod.fst = some (some true) := by decide +kernel
  obtain ⟨⟨_, w'⟩, hprocess, rfl⟩ := Option.map_eq_some_iff.1 hends
  have h : Does driver (Controller.processNext {}) ([] ++ ([] ++ ([] ++ [a.key] ++ []))) w
      (some true) w' :=
    .ask .refl rfl (.ask .refl rfl (.ask (.tail .refl (.add a.key)) rfl (.of_alone? hprocess)))
  exact ⟨w', h, not_stranded hmanned h⟩

end World

end ClusterLink

import ClusterLink.Proofs.Controller.Warrant
import ClusterLink.Proofs.Simulation.Run
import ClusterLink.Proofs.Store.Log
import Mathlib.Data.List.Nodup

/-! Runs of a world with a record of what was asked and answered. Any controllers, workers and
handlers of events are started at any time and take their steps in any order; in between the store
is edited in any way, faults are set, listings made to fail, controllers told to stop, and time
passes. In every history numbers are given out once (`Ordered`) and every task has done only what
its warrant let it (`Warranted`), so what the record says of one task tells what all could do. -/

namespace ClusterLink

/-- A request of a task and its answer. -/
structure Exchange where
  task : TaskId
  request : Request
  answer : request.Answer

/-- A world, and what was asked and answered in it, if a task asked for something. -/
structure Moment where
  world : World
  exchange? : Option Exchange

namespace Controller

/-- The handling of one event. -/
def handleOnce (e : Event) : Round := do
  handleEvent e
  return some .quiet

/-- One listing of all associations. -/
def enqueueOnce : Round := do
  match ← enqueueAll with
  | .error e => return some (.failed (.storage e))
  | .ok () => return some .quiet

/-- What is started from outside. -/
inductive Entry : Round → Prop where
  | run (settings : ControllerSettings) : Entry (run settings)
  | worker (settings : ControllerSettings) : Entry (worker settings)
  | processOnce (settings : ControllerSettings) : Entry (processOnce settings)
  | handleOnce (e : Event) : Entry (handleOnce e)
  | enqueueOnce : Entry enqueueOnce

theorem Entry.isLawful {round : Round} (h : Entry round) : IsLawful .none round := by
  cases h with
  | run settings => exact isLawful_run settings
  | worker settings => exact isLawful_worker settings
  | processOnce settings => exact isLawful_processOnce settings
  | handleOnce e =>
    exact isLawful_of_isRoutine ((isRoutine_handleEvent e).bind fun _ => trivial)
  | enqueueOnce =>
    refine isLawful_of_isRoutine (isRoutine_enqueueAll.bind fun answer => ?_)
    cases answer <;> trivial

end Controller

/-- What a request makes of the queue. -/
def Request.onQueue (q : WorkQueue) : Request → WorkQueue
  | .offer key => (q.offer key).2
  | .take => q.take.2
  | .finish key => (q.finish key).2
  | .countFailure key => (q.countFailure key).2
  | .forget key => q.forget key
  | .shutDown => q.shutDown
  | _ => q

namespace World

/-- What a task asks and is answered in its next step, if it asks. -/
def exchange? (w : World) (id : TaskId) : Option Exchange :=
  match w.tasks.find? (·.id == id) with
  | none => none
  | some t =>
    match t.work with
    | .done _ => none
    | .ask r _ => (w.attempt id r).map fun (answer, _) => ⟨id, r, answer⟩

/-- What can happen between the steps of tasks. -/
inductive Interlude : World → World → Prop where
  | edit {w : World} (e : Edit) : Interlude w { w with cluster := w.cluster.edit e }
  | faults {w : World} (fault? : Operation → Option StoreError) :
    Interlude w { w with cluster := w.cluster.withFaults fault? }
  | listFault {w : World} (listFault : Option StoreError) : Interlude w { w with listFault }
  | time {w : World} {clock : Nat} (h : w.clock ≤ clock) : Interlude w { w with clock }
  | latency {w : World} (latency : Operation → Nat) : Interlude w { w with latency }
  | schedule {w : World} (ready : List TaskId) (waiting : List Waiting)
    (alarms : List (TaskId × Nat × Nat)) (waits : Nat) :
    Interlude w { w with ready, waiting, alarms, waits }
  | stop {w : World} (stopping : List TaskId) : Interlude w { w with stopping }
  | spawn {w : World} (label : Option String) {round : Round} (h : Controller.Entry round) :
    Interlude w (w.spawn label round).2

/-- The worlds that any steps and interludes lead to, each with the moments before it, the latest
first. -/
inductive History : List Moment → World → Prop where
  | new (settings : ControllerSettings) (eventCapacity : Nat) (wallClock : Instant) :
    History [] (.new settings eventCapacity wallClock)
  | step {past : List Moment} {w w' : World} {id : TaskId} (h : History past w)
    (hs : w.step? id = some w') : History (⟨w, w.exchange? id⟩ :: past) w'
  | other {past : List Moment} {w w' : World} (h : History past w) (hi : Interlude w w') :
    History (⟨w, none⟩ :: past) w'

/-- Lets tasks take steps in a given order, as far as they can, and records them. -/
def play : List TaskId → List Moment × World → List Moment × World
  | [], r => r
  | id :: ids, (past, w) =>
    match w.step? id with
    | some w' => play ids (⟨w, w.exchange? id⟩ :: past, w')
    | none => play ids (past, w)

/-- What every recorded step keeps holds after any of them. -/
theorem play_invariant {I : List Moment → World → Prop}
    (hstep : ∀ {past w id w'}, I past w → w.step? id = some w' → I (⟨w, w.exchange? id⟩ :: past) w')
    {r : List Moment × World} (h : I r.1 r.2) (ids : List TaskId) :
    I (play ids r).1 (play ids r).2 := by
  induction ids generalizing r with
  | nil => exact h
  | cons id ids ih =>
    unfold play
    split
    next w' hs => exact ih (hstep h hs)
    next => exact ih h

theorem History.play {r : List Moment × World} (h : History r.1 r.2) (ids : List TaskId) :
    History (play ids r).1 (play ids r).2 :=
  play_invariant .step h ids

/-- A history goes back to every moment of it. -/
theorem History.uncons {m : Moment} {past : List Moment} {w : World} (h : History (m :: past) w) :
    History past m.world := by
  cases h with
  | step h | other h => exact h

/-- The next world of a history. -/
def Next (w w' : World) : Prop := (∃ id, w.step? id = some w') ∨ Interlude w w'

theorem admits_next : Admits Next where
  step h := .inl ⟨_, h⟩
  schedule ready waiting alarms waits := .inr (.schedule ready waiting alarms waits)
  time h := .inr (.time h)

theorem History.reach {past : List Moment} {w w' : World} (h : History past w)
    (hn : Relation.ReflTransGen Next w w') : ∃ later, History (later ++ past) w' := by
  induction hn with
  | refl => exact ⟨[], h⟩
  | tail _ hn ih =>
    obtain ⟨later, h⟩ := ih
    rcases hn with ⟨id, hs⟩ | hi
    · exact ⟨_ :: later, h.step hs⟩
    · exact ⟨_ :: later, h.other hi⟩

/-- The simulation's own schedule is part of a history. -/
theorem History.advance {past : List Moment} {w : World} (h : History past w) (millis : Nat) :
    ∃ later, History (later ++ past) (w.advance millis) :=
  h.reach (admits_next.advance w millis)

variable {past : List Moment} {w w' w₁ : World} {id : TaskId} {t u : Task} {r : Request}
  {answer : r.Answer} {reader : ReaderId} {key : Key}

/-! ## One step -/

/-- A task starts over or ends, without a question, or asks and is answered. -/
theorem step?_exchange (h : w.step? id = some w') : ∃ t ∈ w.tasks, t.id = id ∧
    ((t.work = .done none ∧ w.exchange? id = none ∧ w' = w.setWork id t.round) ∨
      (∃ ending, t.work = .done (some ending) ∧ w.exchange? id = none ∧ w' = w.finish t ending) ∨
      ∃ r next answer w₁, t.work = .ask r next ∧ w.attempt id r = some (answer, w₁) ∧
        w.exchange? id = some ⟨id, r, answer⟩ ∧ w' = w₁.setWork id (next answer)) := by
  cases hf : w.tasks.find? (·.id == id) with
  | none => simp [step?, hf] at h
  | some t =>
    refine ⟨t, List.mem_of_find?_eq_some hf, by simpa using List.find?_some hf, ?_⟩
    match hw : t.work with
    | .done none =>
      simp only [step?, hf, hw] at h
      exact .inl ⟨rfl, by simp [exchange?, hf, hw], (Option.some.inj h).symm⟩
    | .done (some ending) =>
      simp only [step?, hf, hw] at h
      exact .inr (.inl ⟨ending, rfl, by simp [exchange?, hf, hw], (Option.some.inj h).symm⟩)
    | .ask r next =>
      simp only [step?, hf, hw] at h
      obtain ⟨⟨answer, w₁⟩, ha, h⟩ := Option.map_eq_some_iff.1 h
      have hx : w.exchange? id = some ⟨id, r, answer⟩ := by simp [exchange?, hf, hw, ha]
      exact .inr (.inr ⟨r, next, answer, w₁, rfl, ha, hx, h.symm⟩)

/-- The round of the task that a request starts. -/
def recruit? (w : World) : Request → Option Round
  | .addLater key delay =>
    let time := if delay.nanos = 0 then none else some (w.clock + delay.ceilMillis)
    some (Controller.addAt time key)
  | .startReader reader => some (Controller.reader reader)
  | .startWorker => some (Controller.worker w.settings)
  | _ => none

/-- The tasks of a world, or some of them, go on, and one that does a round of `P` may join them. -/
inductive Joins (P : Round → Prop) (w w' : World) : Prop where
  | kept (h : w'.tasks.Sublist w.tasks)
  | joined {label : Option String} {round : Round} (hr : P round)
    (ht : w'.tasks = w.tasks ++ [⟨w.nextId, label, round, round⟩]) (hn : w.nextId < w'.nextId)

theorem Joins.mem {P : Round → Prop} (h : Joins P w w') (hu : u ∈ w'.tasks) : u ∈ w.tasks ∨
    ∃ label round, P round ∧ u = ⟨w.nextId, label, round, round⟩ ∧ w.nextId < w'.nextId := by
  cases h with
  | kept h => exact .inl (h.subset hu)
  | @joined label round hr ht hn =>
    rw [ht] at hu
    refine (List.mem_append.1 hu).imp_right fun hu => ?_
    exact ⟨label, round, hr, List.mem_singleton.1 hu, hn⟩

/-- What an answer leaves as it is, and which tasks there are then. -/
structure Answered (w : World) (r : Request) (w₁ : World) : Prop where
  clock : w₁.clock = w.clock
  nextId : w.nextId ≤ w₁.nextId
  joins : Joins (w.recruit? r = some ·) w w₁

theorem Answered.of_same (hc : w₁.clock = w.clock) (hn : w.nextId ≤ w₁.nextId)
    (ht : w₁.tasks = w.tasks) : Answered w r w₁ :=
  ⟨hc, hn, .kept (ht ▸ List.Sublist.refl _)⟩

theorem attempt_answered (h : w.attempt id r = some (answer, w₁)) : Answered w r w₁ := by
  cases r
  case cancel task =>
    cases h
    exact ⟨rfl, Nat.le_refl _, .kept List.filter_sublist⟩
  case subscribe =>
    cases h
    exact .of_same rfl (Nat.le_succ _) rfl
  case addLater | startReader | startWorker =>
    cases h
    exact ⟨rfl, Nat.le_succ _, .joined rfl rfl (Nat.lt_succ_self _)⟩
  case list | waitUntil | sleep | stopped | join =>
    simp only [attempt] at h
    repeat' split at h
    all_goals cases h
    all_goals exact .of_same rfl (Nat.le_refl _) rfl
  case receive =>
    obtain ⟨place, place', -, -, rfl⟩ := attempt_receive h
    exact .of_same rfl (Nat.le_refl _) rfl
  all_goals
    cases h
    exact .of_same rfl (Nat.le_refl _) rfl

/-- An answer leaves the settings, and does to the queue what the request is for. -/
theorem attempt_queue (h : w.attempt id r = some (answer, w₁)) :
    w₁.settings = w.settings ∧ w₁.queue = r.onQueue w.queue := by
  cases r
  case list | waitUntil | sleep | stopped | join =>
    simp only [attempt] at h
    repeat' split at h
    all_goals cases h
    all_goals exact ⟨rfl, rfl⟩
  case receive =>
    obtain ⟨place, place', -, -, rfl⟩ := attempt_receive h
    exact ⟨rfl, rfl⟩
  all_goals
    cases h
    exact ⟨rfl, rfl⟩

theorem attempt_cluster (hr : ∀ q, r ≠ .call q) (h : w.attempt id r = some (answer, w₁)) :
    w₁.cluster = w.cluster := by
  by_cases hs : r = .shutDown
  · subst hs
    cases h
    rfl
  · exact (attempt_framed hs h).cluster hr

theorem attempt_readers (hr : r ≠ .subscribe) (hr' : ∀ id, r ≠ .receive id)
    (h : w.attempt id r = some (answer, w₁)) : w₁.readers = w.readers := by
  by_cases hs : r = .shutDown
  · subst hs
    cases h
    rfl
  · exact (attempt_framed hs h).readers hr hr'

/-- What every step and every interlude does: it gives out further numbers, never goes back in time,
and has every change of the store in the log. -/
structure Advances (w w' : World) : Prop where
  nextId : w.nextId ≤ w'.nextId
  clock : w.clock ≤ w'.clock
  logs : w.cluster.store.Logs w'.cluster.store
  keyed : w'.cluster.store.Keyed

theorem Advances.of_cluster (hkeyed : w.cluster.store.Keyed) (hn : w.nextId ≤ w'.nextId)
    (hc : w.clock ≤ w'.clock) (h : w'.cluster = w.cluster) : Advances w w' :=
  ⟨hn, hc, .of_eq (h ▸ rfl) (h ▸ rfl) (h ▸ rfl) (h ▸ rfl), h ▸ hkeyed⟩

theorem Advances.setWork (h : Advances w w') (id : TaskId) (p : Round) :
    Advances w (w'.setWork id p) :=
  ⟨h.nextId, h.clock, h.logs, h.keyed⟩

theorem attempt_advances (hkeyed : w.cluster.store.Keyed)
    (h : w.attempt id r = some (answer, w₁)) : Advances w w₁ := by
  have ha := attempt_answered h
  by_cases hr : ∃ q, r = .call q
  · obtain ⟨q, rfl⟩ := hr
    cases h
    have hcalled := w.cluster.answer_called q
    exact ⟨ha.nextId, Nat.le_refl _, hcalled.logs hkeyed, hkeyed.called hcalled⟩
  · exact .of_cluster hkeyed ha.nextId (Nat.le_of_eq ha.clock.symm)
      (attempt_cluster (fun q e => hr ⟨q, e⟩) h)

theorem Interlude.advances (hkeyed : w.cluster.store.Keyed) (h : Interlude w w') :
    Advances w w' := by
  cases h with
  | edit e => exact ⟨Nat.le_refl _, Nat.le_refl _, w.cluster.store.edit_logs e, hkeyed.edit e⟩
  | faults f =>
    exact ⟨Nat.le_refl _, Nat.le_refl _, .of_eq rfl rfl rfl rfl, hkeyed.withFaults f⟩
  | time h => exact .of_cluster hkeyed (Nat.le_refl _) h rfl
  | spawn => exact .of_cluster hkeyed (Nat.le_succ _) (Nat.le_refl _) rfl
  | listFault | latency | schedule | stop =>
    exact .of_cluster hkeyed (Nat.le_refl _) (Nat.le_refl _) rfl

theorem Interlude.joins (h : Interlude w w') : Joins Controller.Entry w w' := by
  cases h with
  | spawn label hr => exact .joined hr rfl (Nat.lt_succ_self _)
  | edit | faults | listFault | time | latency | schedule | stop => exact .kept (.refl _)

theorem Interlude.readers (h : Interlude w w') : w'.readers = w.readers := by
  cases h <;> rfl

theorem Interlude.queue (h : Interlude w w') : w'.queue = w.queue := by
  cases h <;> rfl

theorem Interlude.settings (h : Interlude w w') : w'.settings = w.settings := by
  cases h <;> rfl

/-- What holds of all histories: it holds at the start, and interludes, tasks that start over or end
and every answer to a task keep it. -/
theorem History.invariant {I : List Moment → World → Prop}
    (hnew : ∀ settings eventCapacity wallClock, I [] (.new settings eventCapacity wallClock))
    (hother : ∀ {past w w'}, History past w → I past w → Interlude w w' → I (⟨w, none⟩ :: past) w')
    (hrestart : ∀ {past w t}, History past w → I past w → t ∈ w.tasks → t.work = .done none →
      I (⟨w, none⟩ :: past) (w.setWork t.id t.round))
    (hfinish : ∀ {past w t ending}, History past w → I past w → t ∈ w.tasks →
      t.work = .done (some ending) → I (⟨w, none⟩ :: past) (w.finish t ending))
    (hanswer : ∀ {past w t r next answer w₁}, History past w → I past w → t ∈ w.tasks →
      t.work = .ask r next → w.attempt t.id r = some (answer, w₁) →
      I (⟨w, some ⟨t.id, r, answer⟩⟩ :: past) (w₁.setWork t.id (next answer)))
    (h : History past w) : I past w := by
  induction h with
  | new settings eventCapacity wallClock => exact hnew settings eventCapacity wallClock
  | other h hi ih => exact hother h ih hi
  | step h hs ih =>
    obtain ⟨t, ht, rfl, ⟨hw, hx, rfl⟩ | ⟨ending, hw, hx, rfl⟩ |
      ⟨r, next, answer, w₁, hw, ha, hx, rfl⟩⟩ := step?_exchange hs
    all_goals rw [hx]
    · exact hrestart h ih ht hw
    · exact hfinish h ih ht hw
    · exact hanswer h ih ht hw ha

/-! ## Numbers -/

/-- Numbers are given out in order and each once, and the past lies behind. -/
structure Ordered (past : List Moment) (w : World) : Prop where
  keyed : w.cluster.store.Keyed
  ids : (w.tasks.map Task.id).Nodup
  tasks : ∀ ⦃t⦄, t ∈ w.tasks → t.id < w.nextId
  readers : ∀ ⦃x⦄, x ∈ w.readers → x.1 < w.nextId ∧ x.2 ≤ w.cluster.store.log.size
  moments : ∀ ⦃m⦄, m ∈ past → m.world.nextId ≤ w.nextId ∧ m.world.clock ≤ w.clock ∧
    w.cluster.store.log.Extends m.world.cluster.store.log
  exchanges : ∀ ⦃m⦄, m ∈ past → ∀ x, m.exchange? = some x → x.task < w.nextId

namespace Ordered

theorem unique (h : Ordered past w) (ht : t ∈ w.tasks) (hu : u ∈ w.tasks) (e : t.id = u.id) :
    t = u :=
  List.inj_on_of_nodup_map h.ids ht hu e

/-- When a task starts over the others are as they were. -/
theorem mem_restarted (h : Ordered past w) (ht : t ∈ w.tasks)
    (hu : u ∈ (w.setWork t.id t.round).tasks) :
    u = { t with work := t.round } ∨ u ∈ w.tasks := by
  rcases mem_setWork.1 hu with ⟨x, hx, e, rfl⟩ | ⟨hu, -⟩
  · exact .inl (h.unique hx ht e ▸ rfl)
  · exact .inr hu

theorem joins {P : Round → Prop} (h : Ordered past w) (hj : Joins P w w')
    (hn : w.nextId ≤ w'.nextId) :
    (w'.tasks.map Task.id).Nodup ∧ ∀ t ∈ w'.tasks, t.id < w'.nextId := by
  have old : ∀ t ∈ w.tasks, t.id < w'.nextId := fun t ht => Nat.lt_of_lt_of_le (h.tasks ht) hn
  cases hj with
  | kept hs => exact ⟨h.ids.sublist (hs.map _), fun t ht => old t (hs.subset ht)⟩
  | joined hr ht hlt =>
    rw [ht]
    constructor
    · rw [List.map_append]
      refine h.ids.append (List.nodup_singleton _) fun i hi hi' => ?_
      obtain ⟨t, ht, rfl⟩ := List.mem_map.1 hi
      exact Nat.ne_of_lt (h.tasks ht) (List.mem_singleton.1 hi')
    · intro t ht
      rcases List.mem_append.1 ht with ht | ht
      · exact old t ht
      · rw [List.mem_singleton.1 ht]
        exact hlt

/-- A step or an interlude, which may let a task ask and be answered. -/
theorem advance (h : Ordered past w) (ha : Advances w w') (hids : (w'.tasks.map Task.id).Nodup)
    (htasks : ∀ t ∈ w'.tasks, t.id < w'.nextId)
    (hreaders : ∀ x ∈ w'.readers, x.1 < w'.nextId ∧ x.2 ≤ w'.cluster.store.log.size)
    {x? : Option Exchange} (hx : ∀ x, x? = some x → x.task < w.nextId) :
    Ordered (⟨w, x?⟩ :: past) w' := by
  refine ⟨ha.keyed, hids, htasks, hreaders, fun m hm => ?_, fun m hm x hmx => ?_⟩
  · rcases List.mem_cons.1 hm with rfl | hm
    · exact ⟨ha.nextId, ha.clock, ha.logs.kept⟩
    · obtain ⟨hn, hc, hl⟩ := h.moments hm
      exact ⟨Nat.le_trans hn ha.nextId, Nat.le_trans hc ha.clock, fun _ _ he =>
        ha.logs.kept (hl he)⟩
  · refine Nat.lt_of_lt_of_le ?_ ha.nextId
    rcases List.mem_cons.1 hm with rfl | hm
    · exact hx x hmx
    · exact h.exchanges hm x hmx

theorem readers_of_eq (h : Ordered past w) (ha : Advances w w') (hr : w'.readers = w.readers) :
    ∀ x ∈ w'.readers, x.1 < w'.nextId ∧ x.2 ≤ w'.cluster.store.log.size := by
  intro x hx
  obtain ⟨hn, hle⟩ := h.readers (hr ▸ hx)
  exact ⟨Nat.lt_of_lt_of_le hn ha.nextId, Nat.le_trans hle ha.logs.kept.size_le⟩

theorem readers_attempt (h : Ordered past w) (ha : w.attempt id r = some (answer, w₁)) :
    ∀ x ∈ w₁.readers, x.1 < w₁.nextId ∧ x.2 ≤ w₁.cluster.store.log.size := by
  have hadv := attempt_advances h.keyed ha
  by_cases hs : r = .subscribe
  · subst hs
    cases ha
    intro x hx
    rcases List.mem_append.1 hx with hx | hx
    · obtain ⟨hn, hle⟩ := h.readers hx
      exact ⟨Nat.lt_succ_of_lt hn, hle⟩
    · rw [List.mem_singleton.1 hx]
      exact ⟨Nat.lt_succ_self _, Nat.le_refl _⟩
  by_cases hr : ∃ reader, r = .receive reader
  · obtain ⟨reader, rfl⟩ := hr
    obtain ⟨place, place', -, hn, rfl⟩ := attempt_receive ha
    intro x hx
    obtain ⟨y, hy, rfl⟩ := List.mem_map.1 hx
    have hold := h.readers hy
    split
    next e =>
      refine ⟨e ▸ hold.1, ?_⟩
      rcases EventLog.next?_cases hn with ⟨-, hle⟩ | ⟨e, -, he, rfl⟩
      · exact hle
      · exact EventLog.succ_le_size he
    next => exact hold
  · exact h.readers_of_eq hadv (attempt_readers hs (fun i e => hr ⟨i, e⟩) ha)

theorem map_id_setWork (w : World) (id : TaskId) (p : Round) :
    (w.setWork id p).tasks.map Task.id = w.tasks.map Task.id := by
  simp only [setWork, List.map_map]
  refine List.map_congr_left fun t _ => ?_
  simp only [Function.comp]
  split <;> rfl

theorem tasks_setWork (h : ∀ t ∈ w.tasks, t.id < w.nextId) (p : Round) :
    ∀ t ∈ (w.setWork id p).tasks, t.id < (w.setWork id p).nextId := by
  intro t ht
  rcases mem_setWork.1 ht with ⟨u, hu, -, rfl⟩ | ⟨ht, -⟩
  · have hlt := h u hu
    exact hlt
  · exact h t ht

end Ordered

theorem History.ordered (h : History past w) : Ordered past w := by
  refine h.invariant ?_ ?_ ?_ ?_ ?_
  · intro settings eventCapacity wallClock
    exact ⟨.new _, List.nodup_nil, fun _ h => (nomatch h), fun _ h => (nomatch h),
      fun _ h => (nomatch h), fun _ h => (nomatch h)⟩
  · intro past w w' _ ih hi
    have hadv := hi.advances ih.keyed
    obtain ⟨hids, htasks⟩ := ih.joins hi.joins hadv.nextId
    exact ih.advance hadv hids htasks (ih.readers_of_eq hadv hi.readers)
      fun _ e => nomatch e
  · intro past w t _ ih ht hw
    have hadv : Advances w (w.setWork t.id t.round) :=
      .of_cluster ih.keyed (Nat.le_refl _) (Nat.le_refl _) rfl
    refine ih.advance hadv ?_ (Ordered.tasks_setWork ih.tasks _) ih.readers fun _ e => nomatch e
    exact (Ordered.map_id_setWork w t.id t.round).symm ▸ ih.ids
  · intro past w t ending _ ih ht hw
    have hadv : Advances w (w.finish t ending) :=
      .of_cluster ih.keyed (Nat.le_refl _) (Nat.le_refl _) rfl
    have hsub : (w.finish t ending).tasks.Sublist w.tasks := List.filter_sublist
    exact ih.advance hadv (ih.ids.sublist (hsub.map _)) (fun u hu => ih.tasks (hsub.subset hu))
      ih.readers fun _ e => nomatch e
  · intro past w t r next answer w₁ _ ih ht hw ha
    have hadv := attempt_advances ih.keyed ha
    obtain ⟨hids, htasks⟩ := ih.joins (attempt_answered ha).joins hadv.nextId
    refine ih.advance (hadv.setWork t.id (next answer)) ?_ (Ordered.tasks_setWork htasks _)
      (fun y hy => ih.readers_attempt ha y hy) fun x hx => ?_
    · exact (Ordered.map_id_setWork w₁ t.id _).symm ▸ hids
    · cases hx
      exact ih.tasks ht

end World

end ClusterLink

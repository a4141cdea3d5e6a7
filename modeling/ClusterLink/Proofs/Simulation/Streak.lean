import ClusterLink.Proofs.Controller.Errand
import ClusterLink.Proofs.Simulation.Backing

/-! Failures in a row. The tasks of one controller handle keys in any order; what a task was asked
and answered since it was handed a key tells to which outcome its reconcile came (`CameTo`), and so
the record tells the outcomes of each key (`Outcomes`). The count of failures is the number of
errors since the last success, up to the greatest number that can be counted, and the delay after
an error belongs to the count before it. -/

namespace ClusterLink

/-- What is left of work after the answers to its first requests, the latest first. -/
inductive Work.After (p : Work α) : List Exchange → Work α → Prop where
  | start : After p [] p
  | answer {xs : List Exchange} {task : TaskId} {r : Request} {next : r.Answer → Work α}
    {answer : r.Answer} (h : After p xs (.ask r next)) :
    After p (⟨task, r, answer⟩ :: xs) (next answer)

/-- How many of the outcomes, the latest first, are errors since the last success, up to the
greatest number of 32 bits. -/
def streak (outcomes : List Outcome) : Nat :=
  min (outcomes.takeWhile fun o => o.error.isSome).length (UInt32.size - 1)

/-- What an exchange adds to what its task did since it was handed a key. -/
def Exchange.extend (x : Exchange) (errand? : Option (Key × List Exchange)) :
    Option (Key × List Exchange) :=
  match x.handed?, x.request with
  | some key, _ => some (key, [])
  | none, .leave => errand?
  | none, _ => errand?.map fun (key, xs) => (key, x :: xs)

namespace Controller

/-- What is started from outside, all with the same settings. -/
inductive Staff (settings : ControllerSettings) : Round → Prop where
  | run : Staff settings (run settings)
  | worker : Staff settings (worker settings)
  | processOnce : Staff settings (processOnce settings)
  | handleOnce (e : Event) : Staff settings (handleOnce e)
  | enqueueOnce : Staff settings enqueueOnce

theorem Staff.entry {settings : ControllerSettings} {round : Round} (h : Staff settings round) :
    Entry round := by
  cases h with
  | run => exact .run settings
  | worker => exact .worker settings
  | processOnce => exact .processOnce settings
  | handleOnce e => exact .handleOnce e
  | enqueueOnce => exact .enqueueOnce

theorem Staff.isErrand {settings : ControllerSettings} {round : Round} (h : Staff settings round) :
    IsErrand settings round := by
  cases h with
  | run => exact isErrand_of_isAside (isAside_run settings)
  | worker => exact isErrand_worker settings
  | processOnce => exact isErrand_processOnce settings
  | handleOnce e => exact isErrand_of_isAside ((isAside_handleEvent e).bind fun _ => trivial)
  | enqueueOnce =>
    refine isErrand_of_isAside (isAside_enqueueAll.bind fun answer => ?_)
    cases answer <;> trivial

end Controller

namespace World

/-- The histories of one controller: all that is started from outside has the same settings. -/
inductive Shift (settings : ControllerSettings) : List Moment → World → Prop where
  | new (eventCapacity : Nat) (wallClock : Instant) :
    Shift settings [] (.new settings eventCapacity wallClock)
  | step {past : List Moment} {w w' : World} {id : TaskId} (h : Shift settings past w)
    (hs : w.step? id = some w') : Shift settings (⟨w, w.exchange? id⟩ :: past) w'
  | start {past : List Moment} {w : World} (h : Shift settings past w) (label : Option String)
    {round : Round} (hr : Controller.Staff settings round) :
    Shift settings (⟨w, none⟩ :: past) (w.spawn label round).2
  | other {past : List Moment} {w w' : World} (h : Shift settings past w) (hi : Interlude w w')
    (ht : w'.tasks = w.tasks) : Shift settings (⟨w, none⟩ :: past) w'

/-- The key that a task was handed last, and what it asked and was answered since, the latest
first; that it took its announcement back is left out. -/
def errand? (id : TaskId) : List Moment → Option (Key × List Exchange)
  | [] => none
  | m :: past =>
    match m.exchange? with
    | none => errand? id past
    | some x => if x.task = id then x.extend (errand? id past) else errand? id past

/-- A task came to an outcome of the key that it was handed, and has asked for nothing since. -/
def CameTo (settings : ControllerSettings) (past : List Moment) (id : TaskId) (key : Key)
    (o : Outcome) : Prop :=
  ∃ xs, errand? id past = some (key, xs) ∧
    (Controller.reconcileWithDeadline settings key).After xs (.done o)

/-- The outcomes of a key that a record tells of, the latest first. An outcome is among them as soon
as its task goes on, whatever it asks for then. -/
inductive Outcomes (settings : ControllerSettings) (key : Key) :
    List Moment → List Outcome → Prop where
  | nil : Outcomes settings key [] []
  | other {m : Moment} {past : List Moment} {os : List Outcome}
    (h : Outcomes settings key past os)
    (hx : ∀ x, m.exchange? = some x → ∀ o, ¬CameTo settings past x.task key o) :
    Outcomes settings key (m :: past) os
  | outcome {m : Moment} {past : List Moment} {os : List Outcome} {x : Exchange} {o : Outcome}
    (h : Outcomes settings key past os) (hx : m.exchange? = some x)
    (hc : CameTo settings past x.task key o) : Outcomes settings key (m :: past) (o :: os)

/-- A task that was handed a key got from there to where it stands. -/
inductive Trail (settings : ControllerSettings) (key : Key) : List Exchange → Errand → Prop where
  | start : Trail settings key [] (.reconciling key (Controller.reconcileWithDeadline settings key))
  | use {xs : List Exchange} {e e' : Errand} {task : TaskId} {r : Request} {answer : r.Answer}
    (h : Trail settings key xs e) (hkey : Exchange.handed? ⟨task, r, answer⟩ = none)
    (hleave : r ≠ .leave) (hu : e.Use settings r answer e') :
    Trail settings key (⟨task, r, answer⟩ :: xs) e'

/-- A record says of a task where it stands with the key that it was handed. -/
def Busy (settings : ControllerSettings) (past : List Moment) (id : TaskId) (e : Errand) : Prop :=
  match errand? id past with
  | none => e = .free
  | some (key, xs) => Trail settings key xs e

variable {settings : ControllerSettings} {past : List Moment} {w w' w₁ : World} {id : TaskId}
  {t u : Task} {r : Request} {answer : r.Answer} {key k : Key} {xs : List Exchange} {e e' : Errand}
  {o : Outcome} {os : List Outcome} {x : Exchange} {rest : Work Outcome}

theorem Shift.history (h : Shift settings past w) : History past w := by
  induction h with
  | new eventCapacity wallClock => exact .new settings eventCapacity wallClock
  | step _ hs ih => exact ih.step hs
  | start _ label hr ih => exact ih.other (.spawn label hr.entry)
  | other _ hi _ ih => exact ih.other hi

theorem Shift.play {r : List Moment × World} (h : Shift settings r.1 r.2) (ids : List TaskId) :
    Shift settings (World.play ids r).1 (World.play ids r).2 :=
  play_invariant .step h ids

theorem admits_shift (settings : ControllerSettings) : Admits fun w w' =>
    ∀ past, Shift settings past w → ∃ m, Shift settings (m :: past) w' where
  step hs _ h := ⟨_, h.step hs⟩
  schedule ready waiting alarms waits _ h :=
    ⟨_, h.other (.schedule ready waiting alarms waits) rfl⟩
  time ht _ h := ⟨_, h.other (.time ht) rfl⟩

/-- The simulation's own schedule is part of a shift. -/
theorem Shift.advance (h : Shift settings past w) (millis : Nat) :
    ∃ later, Shift settings (later ++ past) (w.advance millis) := by
  have hadvance := (admits_shift settings).advance w millis
  generalize w.advance millis = w' at hadvance
  induction hadvance with
  | refl => exact ⟨[], h⟩
  | tail _ hstep ih =>
    obtain ⟨later, h⟩ := ih
    obtain ⟨m, h⟩ := hstep _ h
    exact ⟨m :: later, h⟩

/-! ## Counting -/

theorem streak_cons_of_error (h : o.error.isSome) :
    streak (o :: os) = min (streak os + 1) (UInt32.size - 1) := by
  simp only [streak, List.takeWhile_cons, h, if_true, List.length_cons]
  omega

theorem streak_cons_of_success (h : o.error = none) : streak (o :: os) = 0 := by
  simp [streak, h]

/-! ## What a record says of one task -/

namespace Trail

/-- A task that came to the end of some stretch of its reconcile stands there. -/
theorem eq_reconciling (h : Trail settings key xs e)
    (ha : (Controller.reconcileWithDeadline settings key).After xs rest) :
    e = .reconciling key rest := by
  induction ha generalizing e with
  | start =>
    cases h
    rfl
  | answer _ ih =>
    cases h with
    | use h hkey hleave hu =>
      obtain rfl := ih h
      cases hu with
      | service => rfl
      | leave => exact absurd rfl hleave

theorem after (h : Trail settings key xs (.reconciling k rest)) :
    k = key ∧ (Controller.reconcileWithDeadline settings key).After xs rest := by
  generalize he : Errand.reconciling k rest = e at h
  induction h generalizing rest with
  | start =>
    cases he
    exact ⟨rfl, .start⟩
  | use _ hkey hleave hu ih =>
    subst he
    cases hu with
    | key => cases hkey
    | leave => exact absurd rfl hleave
    | service =>
      obtain ⟨hk, ha⟩ := ih rfl
      exact ⟨hk, ha.answer⟩

end Trail

theorem Busy.trail (h : Busy settings past id e) (hx : errand? id past = some (key, xs)) :
    Trail settings key xs e := by
  simpa only [Busy, hx] using h

theorem Busy.eq_free (h : Busy settings past id e) (hx : errand? id past = none) : e = .free := by
  simpa only [Busy, hx] using h

/-- One who has nothing left to reconcile came to an outcome. -/
theorem Busy.cameTo (h : Busy settings past id (.reconciling key (.done o))) :
    CameTo settings past id key o := by
  cases hx : errand? id past with
  | none => cases h.eq_free hx
  | some errand =>
    obtain ⟨k, xs⟩ := errand
    obtain ⟨rfl, ha⟩ := (h.trail hx).after
    exact ⟨xs, hx, ha⟩

theorem Busy.of_cameTo (h : Busy settings past id e) (hc : CameTo settings past id key o) :
    e = .reconciling key (.done o) := by
  obtain ⟨xs, hx, ha⟩ := hc
  exact (h.trail hx).eq_reconciling ha

theorem eq_key_of_handed? (h : Exchange.handed? ⟨id, r, answer⟩ = some key) :
    (⟨id, r, answer⟩ : Exchange) = ⟨id, .take, .key key⟩ := by
  cases r <;> first | cases h | skip
  cases answer <;> cases h
  rfl

theorem extend_of_ne_leave {x : Exchange} (hkey : x.handed? = none) (hleave : x.request ≠ .leave)
    (errand? : Option (Key × List Exchange)) :
    x.extend errand? = errand?.map fun (key, xs) => (key, x :: xs) := by
  unfold Exchange.extend
  rw [hkey]
  split
  next h => cases h
  next h => exact absurd h hleave
  next => rfl

/-- An exchange of a task is one of its errand. -/
theorem Busy.use (h : Busy settings past id e) (hu : e.Use settings r answer e') :
    Busy settings (⟨w, some ⟨id, r, answer⟩⟩ :: past) id e' := by
  have hcons : errand? id (⟨w, some ⟨id, r, answer⟩⟩ :: past) =
      Exchange.extend ⟨id, r, answer⟩ (errand? id past) := if_pos rfl
  unfold Busy
  rw [hcons]
  by_cases hleave : r = .leave
  · subst hleave
    have hsame : e' = e := by
      cases hu with
      | aside | leave => rfl
      | service hs => exact hs.elim
    exact hsame ▸ h
  cases hkey : Exchange.handed? ⟨id, r, answer⟩ with
  | some key =>
    cases eq_key_of_handed? hkey
    cases hu with
    | key => exact .start
    | noKey hno => exact absurd rfl (hno key)
    | aside ha => exact ha.elim
    | service hs => exact hs.elim
  | none =>
    rw [extend_of_ne_leave hkey hleave]
    cases hx : errand? id past with
    | some errand => exact (h.trail hx).use hkey hleave hu
    | none =>
      obtain rfl := h.eq_free hx
      cases hu with
      | aside | noKey => rfl
      | key => cases hkey

theorem Busy.of_ne (h : Busy settings past id e) (hx : x.task ≠ id) :
    Busy settings (⟨w, some x⟩ :: past) id e := by
  have hcons : errand? id (⟨w, some x⟩ :: past) = errand? id past := if_neg hx
  unfold Busy
  rw [hcons]
  exact h

/-- A task that does not exist yet was handed nothing. -/
theorem Ordered.errand?_eq_none (h : Ordered past w) (hid : w.nextId ≤ id) :
    errand? id past = none := by
  have hx (m : Moment) (hm : m ∈ past) (x : Exchange) (hx : m.exchange? = some x) : x.task ≠ id :=
    Nat.ne_of_lt (Nat.lt_of_lt_of_le (h.exchanges hm x hx) hid)
  clear h hid
  induction past with
  | nil => rfl
  | cons m past ih =>
    have ih := ih fun m' hm' => hx m' (List.mem_cons_of_mem _ hm')
    unfold errand?
    split
    next => exact ih
    next x hm => exact (if_neg (hx m List.mem_cons_self x hm)).trans ih

theorem Ordered.busy_free (h : Ordered past w) (hid : w.nextId ≤ id) :
    Busy settings past id .free := by
  simp only [Busy, h.errand?_eq_none hid]

/-! ## The count of failures -/

theorem toNat_countFailure (q : WorkQueue) (key : Key) :
    ((q.countFailure key).2.failureCount key).toNat =
      min ((q.failureCount key).toNat + 1) (UInt32.size - 1) := by
  have hcount : (q.countFailure key).2.failureCount key =
      if (q.failureCount key).toNat = UInt32.size - 1 then q.failureCount key
      else q.failureCount key + 1 := by
    simp [WorkQueue.countFailure, WorkQueue.failureCount]
  have hsize : UInt32.size = 4294967296 := rfl
  have hlt := (q.failureCount key).toNat_lt
  rw [hcount]
  split
  next h => omega
  next h =>
    have hone : (1 : UInt32).toNat = 1 := rfl
    rw [UInt32.toNat_add, hone]
    omega

theorem failureCount_countFailure_of_ne (q : WorkQueue) (h : key ≠ k) :
    (q.countFailure k).2.failureCount key = q.failureCount key := by
  simp [WorkQueue.countFailure, WorkQueue.failureCount, h]

theorem failureCount_forget (q : WorkQueue) (key : Key) : (q.forget key).failureCount key = 0 := by
  simp [WorkQueue.forget, WorkQueue.failureCount]

theorem failureCount_forget_of_ne (q : WorkQueue) (h : key ≠ k) :
    (q.forget k).failureCount key = q.failureCount key := by
  simp [WorkQueue.forget, WorkQueue.failureCount, h]

/-- Only requests that count or forget failures of a key change their count. -/
theorem failureCount_onQueue (q : WorkQueue) (hcount : r ≠ .countFailure key)
    (hforget : r ≠ .forget key) : (r.onQueue q).failureCount key = q.failureCount key := by
  have same {q' : WorkQueue} (h : q'.failures = q.failures) :
      q'.failureCount key = q.failureCount key := by
    rw [WorkQueue.failureCount, h]
    rfl
  cases r
  case countFailure k => exact failureCount_countFailure_of_ne q fun e => hcount (e ▸ rfl)
  case forget k => exact failureCount_forget_of_ne q fun e => hforget (e ▸ rfl)
  case offer k => exact same (q.offer_failures k)
  case finish k => exact same (q.finish_failures k)
  case take => exact same q.take_failures
  all_goals rfl

/-- One who did not come to an outcome of a key does not change its count. -/
theorem Busy.failureCount_eq (hb : Busy settings past id e) (hu : e.Use settings r answer e')
    (hno : ∀ o, ¬CameTo settings past id key o) (ha : w.attempt id r = some (answer, w₁)) :
    w₁.queue.failureCount key = w.queue.failureCount key := by
  rw [(attempt_queue ha).2]
  refine failureCount_onQueue w.queue ?_ ?_
  · rintro rfl
    obtain ⟨-, o, rfl, -⟩ := hu.of_countFailure
    exact hno o hb.cameTo
  · rintro rfl
    obtain ⟨o, rfl, -⟩ := hu.of_forget
    exact hno o hb.cameTo

/-! ## Runs -/

/-- Every task is about the errand that the record tells of, and the failures are counted as the
record tells them. -/
structure Tallied (settings : ControllerSettings) (past : List Moment) (w : World) : Prop where
  configured : w.settings = settings
  tasks : ∀ ⦃t⦄, t ∈ w.tasks → Controller.IsErrand settings t.round ∧
    ∃ e, t.work.Keeps (Errand.Use settings) (fun _ e => e = .free) e ∧ Busy settings past t.id e
  counts : ∀ ⦃key os⦄, Outcomes settings key past os →
    (w.queue.failureCount key).toNat = streak os

namespace Tallied

/-- A step or an interlude without a question. -/
theorem silent (h : Tallied settings past w) (hs : w'.settings = w.settings)
    (hq : w'.queue.failures = w.queue.failures)
    (ht : ∀ u ∈ w'.tasks, Controller.IsErrand settings u.round ∧
      ∃ e, u.work.Keeps (Errand.Use settings) (fun _ e => e = .free) e ∧ Busy settings past u.id e) :
    Tallied settings (⟨w, none⟩ :: past) w' := by
  refine ⟨hs.trans h.configured, ht, fun key os hos => ?_⟩
  cases hos with
  | outcome _ hx => cases hx
  | other hos =>
    rw [WorkQueue.failureCount, hq]
    exact h.counts hos

/-- What a task asks and is answered counts as the record says. -/
theorem count (h : Tallied settings past w) (hb : Busy settings past id e)
    (hu : e.Use settings r answer e') (ha : w.attempt id r = some (answer, w₁))
    (hos : Outcomes settings key (⟨w, some ⟨id, r, answer⟩⟩ :: past) os) :
    (w₁.queue.failureCount key).toNat = streak os := by
  cases hos with
  | other hos hx =>
    rw [hb.failureCount_eq hu (hx _ rfl) ha, h.counts hos]
  | @outcome _ _ os _ o hos hx hc =>
    cases hx
    obtain rfl := hb.of_cameTo hc
    rw [(attempt_queue ha).2]
    cases hu with
    | failure herror =>
      rw [Request.onQueue, toNat_countFailure, h.counts hos, streak_cons_of_error herror]
    | success hnone =>
      rw [Request.onQueue, failureCount_forget, streak_cons_of_success hnone]
      rfl

end Tallied

open Controller in
theorem Shift.tallied (h : Shift settings past w) : Tallied settings past w := by
  induction h with
  | new eventCapacity wallClock =>
    refine ⟨rfl, fun _ ht => (nomatch ht), fun key os hos => ?_⟩
    cases hos
    rfl
  | @start past w h label round hr ih =>
    refine ih.silent rfl rfl fun u hu => ?_
    rcases List.mem_append.1 hu with hu | hu
    · exact ih.tasks hu
    · obtain rfl := List.mem_singleton.1 hu
      exact ⟨hr.isErrand, .free, hr.isErrand, h.history.ordered.busy_free (Nat.le_refl _)⟩
  | other h hi ht ih =>
    refine ih.silent hi.settings (congrArg WorkQueue.failures hi.queue) fun u hu => ?_
    exact ih.tasks (ht ▸ hu)
  | @step past w w' id h hs ih =>
    obtain ⟨t, ht, rfl, ⟨hw, hx, rfl⟩ | ⟨ending, hw, hx, rfl⟩ |
      ⟨r, next, answer, w₁, hw, ha, hx, rfl⟩⟩ := step?_exchange hs
    all_goals rw [hx]
    · refine ih.silent rfl rfl fun u hu => ?_
      rcases h.history.ordered.mem_restarted ht hu with rfl | hu
      · obtain ⟨hround, e, hwork, hb⟩ := ih.tasks ht
        rw [hw] at hwork
        obtain rfl : e = .free := hwork
        exact ⟨hround, .free, hround, hb⟩
      · exact ih.tasks hu
    · exact ih.silent rfl rfl fun u hu => ih.tasks (List.mem_filter.1 hu).1
    · obtain ⟨hround, e, hwork, hb⟩ := ih.tasks ht
      rw [hw] at hwork
      obtain ⟨e', hu, hnext⟩ := hwork answer
      have hcount {key : Key} {os : List Outcome}
          (hos : Outcomes settings key (⟨w, some ⟨t.id, r, answer⟩⟩ :: past) os) :
          (w₁.queue.failureCount key).toNat = streak os := ih.count hb hu ha hos
      refine ⟨(attempt_queue ha).1.trans ih.configured, fun u hmem => ?_,
        fun _ _ hos => hcount hos⟩
      rcases h.history.ordered.mem_answered ht ha hmem with rfl | ⟨hold, hne⟩ |
        ⟨label, round, hr, rfl⟩
      · exact ⟨hround, e', hnext, hb.use hu⟩
      · obtain ⟨hround, e, hwork, hb⟩ := ih.tasks hold
        exact ⟨hround, e, hwork, hb.of_ne hne.symm⟩
      · have hround : Controller.IsErrand settings round := by
          cases r <;> cases hr
          · exact isErrand_of_isAside (isAside_addAt ..)
          · exact isErrand_of_isAside (isAside_reader _)
          · exact ih.configured ▸ isErrand_worker _
        have hb : Busy settings past w.nextId .free :=
          h.history.ordered.busy_free (Nat.le_refl _)
        exact ⟨hround, .free, hround, hb.of_ne (Nat.ne_of_lt (h.history.ordered.tasks ht))⟩

theorem exists_outcomes (settings : ControllerSettings) (key : Key) (past : List Moment) :
    ∃ os, Outcomes settings key past os := by
  induction past with
  | nil => exact ⟨[], .nil⟩
  | cons m past ih =>
    obtain ⟨os, hos⟩ := ih
    by_cases hc : ∃ x o, m.exchange? = some x ∧ CameTo settings past x.task key o
    · obtain ⟨x, o, hx, hc⟩ := hc
      exact ⟨o :: os, hos.outcome hx hc⟩
    · exact ⟨os, hos.other fun x hx o ho => hc ⟨x, o, hx, ho⟩⟩

/-- What came last in a shift: nothing was asked, or a task asked that was on some errand. -/
theorem Shift.last {m : Moment} (h : Shift settings (m :: past) w) :
    Shift settings past m.world ∧ ((m.exchange? = none ∧ w.queue = m.world.queue) ∨
      ∃ id r answer e e' w₁, m.exchange? = some ⟨id, r, answer⟩ ∧
        m.world.attempt id r = some (answer, w₁) ∧ w.queue = w₁.queue ∧
        Busy settings past id e ∧ e.Use settings r answer e') := by
  cases h with
  | start h => exact ⟨h, .inl ⟨rfl, rfl⟩⟩
  | other h hi => exact ⟨h, .inl ⟨rfl, hi.queue⟩⟩
  | step h hs =>
    refine ⟨h, ?_⟩
    obtain ⟨t, ht, rfl, ⟨-, hx, rfl⟩ | ⟨ending, -, hx, rfl⟩ |
      ⟨r, next, answer, w₁, hw, ha, hx, rfl⟩⟩ := step?_exchange hs
    · exact .inl ⟨hx, rfl⟩
    · exact .inl ⟨hx, rfl⟩
    · obtain ⟨-, e, hwork, hb⟩ := h.tallied.tasks ht
      rw [hw] at hwork
      obtain ⟨e', hu, -⟩ := hwork answer
      exact .inr ⟨t.id, r, answer, e, e', w₁, hx, ha, rfl, hb, hu⟩

/-- A task that is not on an errand for a key does not change its count. -/
theorem Shift.failureCount_eq {m : Moment} (h : Shift settings (m :: past) w)
    (hx : ∀ x xs, m.exchange? = some x → errand? x.task past ≠ some (key, xs)) :
    w.queue.failureCount key = m.world.queue.failureCount key := by
  obtain ⟨-, ⟨-, hq⟩ | ⟨id, r, answer, e, e', w₁, hm, ha, hq, hb, hu⟩⟩ := h.last
  · rw [hq]
  · rw [hq]
    refine hb.failureCount_eq hu (fun o ho => ?_) ha
    obtain ⟨xs, hxs, -⟩ := ho
    exact hx _ xs hm hxs

/-- Whoever counted a failure is told how many there had been, and starts an add after the delay
that belongs to that. -/
theorem Trail.eq_failed {task : TaskId} {failures : UInt32}
    (h : Trail settings key (⟨task, .countFailure k, failures⟩ :: xs) e) :
    e = .failed k failures ∧ k = key := by
  cases h with
  | use h _ _ hu =>
    obtain ⟨rfl, o, rfl, -⟩ := hu.of_countFailure
    exact ⟨rfl, h.after.1⟩

/-- The failures in a row are counted. Whatever the tasks of a controller did, the count of a key is
the number of errors since its last success; the delay after an error belongs to the number of
errors before it, a success takes the count back, and who handles other keys leaves it. -/
theorem failures_in_a_row (h : Shift settings past w) (key : Key) :
    (∃ os, Outcomes settings key past os) ∧
    (∀ os, Outcomes settings key past os → (w.queue.failureCount key).toNat = streak os) ∧
    (∀ o os, Outcomes settings key past (o :: os) → o.error = none →
      w.queue.failureCount key = 0) ∧
    ∀ m earlier, past = m :: earlier →
      (∀ id failures, m.exchange? = some ⟨id, .countFailure key, failures⟩ →
        ∀ os, Outcomes settings key earlier os → failures.toNat = streak os) ∧
      (∀ x task failures xs, m.exchange? = some x →
        errand? x.task earlier = some (key, ⟨task, .countFailure key, failures⟩ :: xs) →
          x.request = .addLater key (settings.backoff.delay failures)) ∧
      ((∀ x xs, m.exchange? = some x → errand? x.task earlier ≠ some (key, xs)) →
        w.queue.failureCount key = m.world.queue.failureCount key) := by
  refine ⟨exists_outcomes .., fun os hos => h.tallied.counts hos, fun o os hos ho => ?_, ?_⟩
  · have hcount := h.tallied.counts hos
    rw [streak_cons_of_success ho] at hcount
    exact UInt32.toNat_inj.1 hcount
  rintro m earlier rfl
  refine ⟨fun id failures hm os hos => ?_, fun x task failures xs hm hx => ?_, h.failureCount_eq⟩
  · obtain ⟨hearlier, ⟨hnone, -⟩ | ⟨id, r, answer, e, e', w₁, hsome, ha, -⟩⟩ := h.last
    · cases hm.symm.trans hnone
    · cases hm.symm.trans hsome
      have htold : failures = m.world.queue.failureCount key := by
        cases ha
        rfl
      rw [htold]
      exact hearlier.tallied.counts hos
  · obtain ⟨-, ⟨hnone, -⟩ | ⟨id, r, answer, e, e', w₁, hsome, -, -, hb, hu⟩⟩ := h.last
    · cases hm.symm.trans hnone
    · cases hm.symm.trans hsome
      obtain ⟨rfl, -⟩ := (hb.trail hx).eq_failed
      cases hu
      rfl

/-- An association cannot be read twice, and is gone when it is looked for the third time. -/
theorem failures_in_a_row_of_refused_reads :
    let key : Key := ⟨"ns", "a"⟩
    let refuse (w : World) := { w with cluster := w.cluster.withFaults fun op =>
      if op = .getAssociation then some (.unavailable "down") else none }
    let event (r : List Moment × World) : List Moment × World :=
      (⟨r.2, none⟩ :: r.1, (r.2.spawn none (Controller.handleOnce ⟨.association, key, .applied⟩)).2)
    let w₀ := new {} 4 .epoch
    let w₁ := (w₀.spawn none (Controller.worker {})).2
    let r₁ := event ([⟨w₀, none⟩], w₁)
    let once := play (List.replicate 30 [2, 1]).flatten (⟨r₁.2, none⟩ :: r₁.1, refuse r₁.2)
    let r₂ := event once
    let twice := play (List.replicate 30 [4, 1]).flatten (⟨r₂.2, none⟩ :: r₂.1, refuse r₂.2)
    let r₃ := event twice
    let gone := play (List.replicate 30 [6, 1]).flatten r₃
    (∃ os, Outcomes {} key once.1 os ∧ streak os = 1) ∧
      (∃ os, Outcomes {} key twice.1 os ∧ streak os = 2) ∧
      ∃ os, Outcomes {} key gone.1 os ∧ streak os = 0 := by
  intro key refuse event w₀ w₁ r₁ once r₂ twice r₃ gone
  have hevent {r : List Moment × World} (h : Shift {} r.1 r.2) :
      Shift {} (event r).1 (event r).2 := h.start none (.handleOnce _)
  have hrefuse {r : List Moment × World} (h : Shift {} r.1 r.2) :
      Shift {} (⟨r.2, none⟩ :: r.1) (refuse r.2) := h.other (.faults _) rfl
  have h₁ : Shift {} r₁.1 r₁.2 := hevent (r := ([⟨w₀, none⟩], w₁)) ((Shift.new ..).start none .worker)
  have honce : Shift {} once.1 once.2 := Shift.play (r := (_, refuse r₁.2)) (hrefuse h₁) _
  have htwice : Shift {} twice.1 twice.2 :=
    Shift.play (r := (_, refuse r₂.2)) (hrefuse (hevent honce)) _
  have hgone : Shift {} gone.1 gone.2 := Shift.play (r := r₃) (hevent htwice) _
  have hcounts : (once.2.queue.failureCount key).toNat = 1 ∧
      (twice.2.queue.failureCount key).toNat = 2 ∧ (gone.2.queue.failureCount key).toNat = 0 := by
    decide +kernel
  clear_value gone r₃ twice r₂ once
  obtain ⟨⟨os, hos⟩, hcount, -⟩ := failures_in_a_row honce key
  obtain ⟨⟨os', hos'⟩, hcount', -⟩ := failures_in_a_row htwice key
  obtain ⟨⟨os'', hos''⟩, hcount'', -⟩ := failures_in_a_row hgone key
  exact ⟨⟨os, hos, (hcount os hos).symm.trans hcounts.1⟩,
    ⟨os', hos', (hcount' os' hos').symm.trans hcounts.2.1⟩,
    ⟨os'', hos'', (hcount'' os'' hos'').symm.trans hcounts.2.2⟩⟩

end World

end ClusterLink

import ClusterLink.Proofs.Cluster.Traffic
import ClusterLink.Proofs.Controller.Course
import ClusterLink.Proofs.Queue.Sound
import ClusterLink.Simulation.Actions
import Mathlib.Logic.Function.Basic

/-! Runs of a world. Its tasks take their steps in any order, and between two steps actors from
outside edit the store, faults are set, and time passes; the simulation's own schedule is one of
these orders (`Admits.advance`). `Staffed` is the part of an invariant that is
about one task at a time: each keeps to its phase. -/

namespace ClusterLink.World

/-- What can happen next, if only the associations of some keys occur, secrets stay as they are, and
no fault makes an association look as if it were not there. -/
inductive Move (Occurs : Key → Prop) : World → World → Prop where
  | step {w w' : World} {id : TaskId} (h : w.step? id = some w') : Move Occurs w w'
  | edit {w : World} {e : Edit} (hsecret : e.kind ≠ .secret)
    (hocc : ∀ a, e = .apply (.association a) → Occurs a.key) :
    Move Occurs w { w with cluster := w.cluster.edit e }
  | fault {w : World} {fault? : Operation → Option StoreError}
    (h : ∀ e, fault? .getAssociation = some e → ¬e.isNotFound) :
    Move Occurs w { w with cluster := w.cluster.withFaults fault? }
  | time {w : World} (clock : Nat) (latency : Operation → Nat) :
    Move Occurs w { w with clock, latency }
  | schedule {w : World} (ready : List TaskId) (waiting : List Waiting)
    (alarms : List (TaskId × Nat × Nat)) (waits : Nat) :
    Move Occurs w { w with ready, waiting, alarms, waits }
  | hire {w : World} : Move Occurs w (w.spawn none (Controller.worker w.settings)).2

/-- Any number of moves. -/
abbrev Run (Occurs : Key → Prop) : World → World → Prop := Relation.ReflTransGen (Move Occurs)

/-! ## The schedule of the simulation -/

/-- A relation that steps of tasks, changes of the schedule and the passing of time are in. -/
structure Admits (R : World → World → Prop) : Prop where
  step : ∀ {w w' : World} {id : TaskId}, w.step? id = some w' → R w w'
  schedule : ∀ {w : World} (ready : List TaskId) (waiting : List Waiting)
    (alarms : List (TaskId × Nat × Nat)) (waits : Nat),
    R w { w with ready, waiting, alarms, waits }
  time : ∀ {w : World} {clock : Nat}, w.clock ≤ clock → R w { w with clock }

namespace Admits

open Relation

variable {R : World → World → Prop} (h : Admits R) (w : World)
include h

theorem wake : ReflTransGen R w w.wake := by
  unfold World.wake
  dsimp only
  split
  next => exact .refl
  next => exact .single (h.schedule _ _ w.alarms w.waits)

theorem await (id : TaskId) (r : Request) : ReflTransGen R w (w.await id r) := by
  unfold World.await
  dsimp only
  split
  next =>
    split
    next => exact .single (h.schedule w.ready _ w.alarms _)
    next => exact .single (h.schedule w.ready _ _ _)
  next => exact .single (h.schedule w.ready _ w.alarms _)

theorem awaitTask (id : TaskId) : ReflTransGen R w (w.awaitTask id) := by
  unfold World.awaitTask
  split
  next =>
    split
    next => exact h.await ..
    next => exact .refl
  next => exact .refl

theorem runReady (fuel : Nat) : ReflTransGen R w (runReady fuel w) := by
  induction fuel generalizing w with
  | zero => exact .refl
  | succ fuel ih =>
    unfold World.runReady
    split
    next => exact .refl
    next id rest _ =>
      split
      next => exact .refl
      next =>
        split
        next w' hw' =>
          have hstep : ReflTransGen R w w' := .single (h.step hw')
          exact hstep.trans ((h.wake w').trans (ih _))
        next =>
          have hready : ReflTransGen R w { w with ready := rest } :=
            .single (h.schedule rest w.waiting w.alarms w.waits)
          exact hready.trans ((h.awaitTask _ id).trans (ih _))

theorem moveTo (moment : Nat) : ReflTransGen R w (w.moveTo moment) := by
  have htime : ReflTransGen R w { w with clock := max w.clock moment } :=
    .single (h.time (Nat.le_max_left ..))
  exact htime.trans (h.wake _)

theorem passUntil (fuel target : Nat) : ReflTransGen R w (passUntil fuel target w) := by
  induction fuel generalizing w with
  | zero => exact .refl
  | succ fuel ih =>
    unfold World.passUntil
    dsimp only
    have hsettle := h.runReady w patience
    split
    next =>
      split
      next => exact hsettle.trans ((h.moveTo ..).trans (ih _))
      next => exact hsettle.trans (h.moveTo ..)
    next => exact hsettle.trans (h.moveTo ..)

/-- Letting time pass is one of the orders in which things can happen. -/
theorem advance (millis : Nat) : ReflTransGen R w (w.advance millis) := h.passUntil ..

end Admits

theorem admits_move (Occurs : Key → Prop) : Admits (Move Occurs) where
  step := .step
  schedule := .schedule
  time _ := .time _ _

theorem run_runReady (Occurs : Key → Prop) (w : World) (fuel : Nat) :
    Run Occurs w (runReady fuel w) :=
  (admits_move Occurs).runReady w fuel

/-! ## One step -/

variable {Occurs : Key → Prop} {w w' w₁ : World} {id : TaskId} {r : Request} {answer : r.Answer}

/-- A task starts over, ends, or gets an answer. -/
theorem step?_cases (h : w.step? id = some w') : ∃ t ∈ w.tasks, t.id = id ∧
    ((t.work = .done none ∧ w' = w.setWork id t.round) ∨
      (∃ ending, t.work = .done (some ending) ∧ w' = w.finish t ending) ∨
      ∃ r next answer w₁, t.work = .ask r next ∧ w.attempt id r = some (answer, w₁) ∧
        w' = w₁.setWork id (next answer)) := by
  unfold step? at h
  split at h
  next => cases h
  next t ht =>
    refine ⟨t, List.mem_of_find?_eq_some ht, by simpa using List.find?_some ht, ?_⟩
    split at h
    next hw => exact .inl ⟨hw, (Option.some.inj h).symm⟩
    next ending hw => exact .inr (.inl ⟨ending, hw, (Option.some.inj h).symm⟩)
    next r next hw =>
      obtain ⟨⟨answer, w₁⟩, ha, h⟩ := Option.map_eq_some_iff.1 h
      exact .inr (.inr ⟨r, next, answer, w₁, hw, ha, h.symm⟩)

/-- What an answer says of the world. -/
def Truthful (w : World) : (r : Request) → r.Answer → Prop
  | .list, .ok l => l = w.cluster.store.associations.values
  | .watchersOf kind key, keys => keys = w.cluster.watches.watchersOf kind key
  | _, _ => True

theorem attempt_truthful (h : w.attempt id r = some (answer, w₁)) : w.Truthful r answer := by
  cases r <;> first | trivial | skip
  case list =>
    simp only [attempt] at h
    split at h
    · cases h
      trivial
    · cases h
      rfl
  case watchersOf => cases h; rfl

theorem attempt_not_refused (hlist : w.listFault = none)
    (h : w.attempt id r = some (answer, w₁)) : ¬r.Refused answer := by
  intro hrefused
  cases r <;> first | exact hrefused | skip
  case list =>
    simp only [attempt, hlist] at h
    cases h
    exact hrefused

theorem attempt_ordinary (hstop : w.stopping = []) (hq : w.queue.Sound)
    (h : w.attempt id r = some (answer, w₁)) : r.Ordinary answer := by
  cases r <;> first | trivial | skip
  case take =>
    rcases hq.take_cases with e | ⟨key, rest, -, e⟩
    all_goals
      simp only [attempt, e] at h
      cases h
      trivial
  case stopped =>
    simp only [attempt, hstop] at h
    cases h

theorem attempt_receive {reader : ReaderId} {received : Received}
    (h : w.attempt id (.receive reader) = some (received, w₁)) : ∃ place place',
      w.readers.lookup reader = some place ∧
      w.cluster.store.log.next? place = some (received, place') ∧
      w₁ = w.setReader reader place' := by
  simp only [attempt] at h
  split at h
  next => cases h
  next place hl =>
    obtain ⟨⟨received', place'⟩, hn, h⟩ := Option.map_eq_some_iff.1 h
    cases h
    exact ⟨place, place', hl, hn, rfl⟩

/-- What a request leaves as it is, unless it is one of those that are about that. -/
structure Framed (r : Request) (w w₁ : World) : Prop where
  cluster : (∀ q, r ≠ .call q) → w₁.cluster = w.cluster
  readers : r ≠ .subscribe → (∀ id, r ≠ .receive id) → w₁.readers = w.readers
  listFault : w.listFault = none → w₁.listFault = none
  stopping : w₁.stopping = w.stopping
  queue : r ≠ .take → (∀ key, r ≠ .finish key) → w.queue.Sound → w.queue.Fed w₁.queue

theorem Framed.of_queue (hc : w₁.cluster = w.cluster) (hr : w₁.readers = w.readers)
    (hl : w₁.listFault = w.listFault) (hs : w₁.stopping = w.stopping)
    (hq : r ≠ .take → (∀ key, r ≠ .finish key) → w.queue.Sound → w.queue.Fed w₁.queue) :
    Framed r w w₁ :=
  ⟨fun _ => hc, fun _ _ => hr, fun h => hl.trans h, hs, hq⟩

theorem attempt_framed (hr : r ≠ .shutDown) (h : w.attempt id r = some (answer, w₁)) :
    Framed r w w₁ := by
  have same : w₁.queue = w.queue → w.queue.Sound → w.queue.Fed w₁.queue :=
    fun e hs => e ▸ hs.fed
  cases r
  case shutDown => exact absurd rfl hr
  case call q =>
    cases h
    exact ⟨fun hq => absurd rfl (hq q), fun _ _ => rfl, fun h => h, rfl, fun _ _ => same rfl⟩
  case subscribe =>
    cases h
    exact ⟨fun _ => rfl, fun hs => absurd rfl hs, fun h => h, rfl, fun _ _ => same rfl⟩
  case receive reader =>
    simp only [attempt] at h
    split at h
    · cases h
    · obtain ⟨_, -, h⟩ := Option.map_eq_some_iff.1 h
      cases h
      exact ⟨fun _ => rfl, fun _ hs => absurd rfl (hs reader), fun h => h, rfl, fun _ _ => same rfl⟩
  case list =>
    simp only [attempt] at h
    split at h <;> cases h
    · exact ⟨fun _ => rfl, fun _ _ => rfl, fun _ => rfl, rfl, fun _ _ => same rfl⟩
    · exact .of_queue rfl rfl rfl rfl fun _ _ => same rfl
  case take =>
    cases h
    exact .of_queue rfl rfl rfl rfl fun ht => absurd rfl ht
  case finish key =>
    cases h
    exact .of_queue rfl rfl rfl rfl fun _ hf => absurd rfl (hf key)
  case offer key =>
    cases h
    exact .of_queue rfl rfl rfl rfl fun _ _ hs => hs.fed_offer key
  case countFailure key =>
    cases h
    exact .of_queue rfl rfl rfl rfl fun _ _ hs => hs.fed_countFailure key
  case forget key =>
    cases h
    exact .of_queue rfl rfl rfl rfl fun _ _ hs => hs.fed_forget key
  case waitUntil | sleep | stopped | join =>
    simp only [attempt] at h
    repeat' split at h
    all_goals cases h
    all_goals exact .of_queue rfl rfl rfl rfl fun _ _ => same rfl
  all_goals
    cases h
    exact .of_queue rfl rfl rfl rfl fun _ _ => same rfl

/-- What a request does with the keys in the queue, with its answer. -/
inductive Hands (q : WorkQueue) : WorkQueue → (r : Request) → r.Answer → Prop where
  | out {key : Key} {rest : List Key} (hfree : key ∉ q.processing)
    (htake : q.take = (.key key, { q with
      queue := rest
      dirty := WorkQueue.unmark key q.dirty
      processing := WorkQueue.mark key q.processing })) :
    Hands q { q with
      queue := rest
      dirty := WorkQueue.unmark key q.dirty
      processing := WorkQueue.mark key q.processing } .take (.key key)
  | none : Hands q q .take .empty
  | back {key : Key} {queued : Bool} : Hands q (q.finish key).2 (.finish key) queued
  | fed {q' : WorkQueue} {r : Request} {answer : r.Answer} (htake : r ≠ .take)
    (hfin : ∀ key, r ≠ .finish key) (h : q.Fed q') : Hands q q' r answer

theorem attempt_hands (hr : r ≠ .shutDown) (hq : w.queue.Sound)
    (h : w.attempt id r = some (answer, w₁)) : Hands w.queue w₁.queue r answer := by
  by_cases htake : r = .take
  · subst htake
    rcases hq.take_cases with e | ⟨key, rest, hfree, e⟩
    all_goals
      simp only [attempt, e] at h
      cases h
    · exact .none
    · exact .out hfree e
  by_cases hfin : ∃ key, r = .finish key
  · obtain ⟨key, rfl⟩ := hfin
    cases h
    exact .back
  · have hfin : ∀ key, r ≠ .finish key := fun key e => hfin ⟨key, e⟩
    exact .fed htake hfin ((attempt_framed hr h).queue htake hfin hq)

namespace Hands

variable {q q' : WorkQueue} {key : Key}

/-- A key that is held stays so until it is given back. -/
theorem mem_processing (h : Hands q q' r answer) (hk : key ∈ q.processing)
    (hr : r ≠ .finish key) : key ∈ q'.processing := by
  cases h with
  | out => exact WorkQueue.mem_mark.2 (.inr hk)
  | none => exact hk
  | @back key₀ =>
    rw [q.finish_processing]
    exact WorkQueue.mem_unmark.2 ⟨hk, fun e => hr (congrArg _ e.symm)⟩
  | fed _ _ hfed => exact hfed.processing ▸ hk

/-- A key that came in while it is held is not handed out. -/
theorem mem_dirty (h : Hands q q' r answer) (hk : key ∈ q.processing) (hd : key ∈ q.dirty) :
    key ∈ q'.dirty := by
  cases h with
  | out hfree => exact WorkQueue.mem_unmark.2 ⟨hd, fun e => hfree (e ▸ hk)⟩
  | none => exact hd
  | back => exact (q.finish_dirty _).symm ▸ hd
  | fed _ _ hfed => exact hfed.dirty hd

/-- A key that is in work after a request was so before, or was taken by it. -/
theorem processing_cases (h : Hands q q' r answer) (hk : key ∈ q'.processing) :
    (key ∈ q.processing ∧ r ≠ .finish key) ∨
      ∀ p : Round, Work.Heeds r answer p → p.Returns key := by
  cases h with
  | out =>
    rcases WorkQueue.mem_mark.1 hk with rfl | hk
    · exact .inr fun _ hp => hp
    · exact .inl ⟨hk, fun e => nomatch e⟩
  | none => exact .inl ⟨hk, fun e => nomatch e⟩
  | back =>
    rw [q.finish_processing] at hk
    obtain ⟨hk, hne⟩ := WorkQueue.mem_unmark.1 hk
    exact .inl ⟨hk, fun e => hne (Request.finish.inj e).symm⟩
  | fed _ hfin hfed => exact .inl ⟨hfed.processing ▸ hk, hfin key⟩

theorem sound (h : Hands q q' r answer) (hq : q.Sound)
    (hback : ∀ key, r = .finish key → key ∈ q.processing) : q'.Sound := by
  cases h with
  | out _ htake =>
    have hsound := hq.take
    rw [htake] at hsound
    exact hsound
  | none => exact hq
  | back => exact hq.finish (hback _ rfl)
  | fed _ _ hfed => exact hfed.sound

end Hands

/-- A key that is handed out was not held, and is now. -/
theorem attempt_take {key : Key} (hq : w.queue.Sound)
    (h : w.attempt id .take = some (.key key, w₁)) :
    key ∉ w.queue.processing ∧ key ∈ w₁.queue.processing := by
  have hhands := attempt_hands (r := .take) nofun hq h
  generalize w₁.queue = q at hhands
  cases hhands with
  | out hfree => exact ⟨hfree, WorkQueue.mem_mark.2 (.inl rfl)⟩
  | fed htake => exact absurd rfl htake

/-! ## Tasks -/

/-- A world has the tasks of another, and perhaps a new one, which starts in the given phase. -/
inductive Grows (w w₁ : World) : Phase → Prop where
  | same (ht : w₁.tasks = w.tasks) (hn : w.nextId ≤ w₁.nextId) : Grows w w₁ .free
  | spawned {base round label} (hr : Controller.IsRound base round)
    (hb : base = .free ∨ base = .reading)
    (ht : w₁.tasks = w.tasks ++ [⟨w.nextId, label, round, round⟩])
    (hn : w₁.nextId = w.nextId + 1) : Grows w w₁ base

theorem grows_spawn {base : Phase} {round : Round} (hr : Controller.IsRound base round)
    (hb : base = .free ∨ base = .reading) (w : World) (label : Option String) :
    Grows w (w.spawn label round).2 base :=
  .spawned hr hb rfl rfl

theorem Grows.mem {base : Phase} (h : Grows w w₁ base) {t : Task} (ht : t ∈ w.tasks) :
    t ∈ w₁.tasks := by
  cases h with
  | same h => exact h ▸ ht
  | spawned _ _ h => exact h ▸ List.mem_append_left _ ht

theorem Grows.base {base : Phase} (h : Grows w w₁ base) : base = .free ∨ base = .reading := by
  cases h with
  | same => exact .inl rfl
  | spawned _ hb => exact hb

/-- The phase in which the task begins that a request starts. -/
def recruit : Request → Phase
  | .startReader _ => .reading
  | _ => .free

theorem attempt_grows (hr : ∀ task, r ≠ .cancel task) (h : w.attempt id r = some (answer, w₁)) :
    Grows w w₁ (recruit r) := by
  cases r
  case cancel task => exact absurd rfl (hr task)
  case subscribe =>
    cases h
    exact .same rfl (Nat.le_succ _)
  case addLater key delay =>
    cases h
    exact grows_spawn (Controller.isRound_addAt _ key) (.inl rfl) w none
  case startReader reader =>
    cases h
    exact grows_spawn (Controller.isRound_reader reader) (.inr rfl) w none
  case startWorker =>
    cases h
    exact grows_spawn (Controller.isRound_worker w.settings) (.inl rfl) w none
  case list | waitUntil | sleep | stopped | join =>
    simp only [attempt] at h
    repeat' split at h
    all_goals cases h
    all_goals exact .same rfl (Nat.le_refl _)
  case receive =>
    simp only [attempt] at h
    split at h
    · cases h
    · obtain ⟨_, -, h⟩ := Option.map_eq_some_iff.1 h
      cases h
      exact .same rfl (Nat.le_refl _)
  all_goals
    cases h
    exact .same rfl (Nat.le_refl _)

theorem mem_setWork {w : World} {id : TaskId} {p : Round} {u : Task} :
    u ∈ (w.setWork id p).tasks ↔
      (∃ t ∈ w.tasks, t.id = id ∧ u = { t with work := p }) ∨ u ∈ w.tasks ∧ u.id ≠ id := by
  simp only [setWork, List.mem_map]
  constructor
  · rintro ⟨t, ht, rfl⟩
    split
    next h => exact .inl ⟨t, ht, h, rfl⟩
    next h => exact .inr ⟨ht, h⟩
  · rintro (⟨t, ht, h, rfl⟩ | ⟨hu, h⟩)
    · exact ⟨t, ht, if_pos h⟩
    · exact ⟨u, hu, if_neg h⟩

theorem mem_setWork_self {w : World} {t : Task} (ht : t ∈ w.tasks) (p : Round) :
    { t with work := p } ∈ (w.setWork t.id p).tasks :=
  mem_setWork.2 (.inl ⟨t, ht, rfl, rfl⟩)

/-- Each task has its number and keeps to its phase. -/
structure Staffed (w : World) (phase : TaskId → Phase) : Prop where
  unique : ∀ ⦃t u⦄, t ∈ w.tasks → u ∈ w.tasks → t.id = u.id → t = u
  numbered : ∀ ⦃t⦄, t ∈ w.tasks → t.id < w.nextId
  unborn : ∀ ⦃i⦄, w.nextId ≤ i → phase i = .free
  course : ∀ ⦃t⦄, t ∈ w.tasks → ∃ base, Controller.IsRound base t.round ∧
    t.work.Follows (Controller.Rests base) (phase t.id)

namespace Staffed

variable {phase : TaskId → Phase} {t : Task}

theorem grow (h : Staffed w phase) {base : Phase} (hg : Grows w w₁ base) :
    Staffed w₁ (Function.update phase w.nextId base) := by
  have old : ∀ {t}, t ∈ w.tasks → Function.update phase w.nextId base t.id = phase t.id :=
    fun ht => Function.update_of_ne (Nat.ne_of_lt (h.numbered ht)) ..
  cases hg with
  | same ht hn =>
    refine ⟨?_, fun t hm => ?_, fun i hi => ?_, fun t hm => ?_⟩
    · rw [ht]
      exact h.unique
    · exact Nat.lt_of_lt_of_le (h.numbered (ht ▸ hm)) hn
    · by_cases e : i = w.nextId
      · rw [e, Function.update_self]
      · rw [Function.update_of_ne e, h.unborn (Nat.le_trans hn hi)]
    · rw [ht] at hm
      rw [old hm]
      exact h.course hm
  | @spawned base round label hr _ ht hn =>
    refine ⟨fun t u htm hum e => ?_, fun t hm => ?_, fun i hi => ?_, fun t hm => ?_⟩
    · rw [ht] at htm hum
      rcases List.mem_append.1 htm with htm | htm <;> rcases List.mem_append.1 hum with hum | hum
      · exact h.unique htm hum e
      · obtain rfl := List.mem_singleton.1 hum
        exact absurd e (Nat.ne_of_lt (h.numbered htm))
      · obtain rfl := List.mem_singleton.1 htm
        exact absurd e.symm (Nat.ne_of_lt (h.numbered hum))
      · rw [List.mem_singleton.1 htm, List.mem_singleton.1 hum]
    · rw [ht] at hm
      rw [hn]
      rcases List.mem_append.1 hm with hm | hm
      · exact Nat.lt_succ_of_lt (h.numbered hm)
      · obtain rfl := List.mem_singleton.1 hm
        exact Nat.lt_succ_self _
    · rw [hn] at hi
      rw [Function.update_of_ne (Nat.ne_of_gt hi), h.unborn (Nat.le_of_succ_le hi)]
    · rw [ht] at hm
      rcases List.mem_append.1 hm with hm | hm
      · rw [old hm]
        exact h.course hm
      · obtain rfl := List.mem_singleton.1 hm
        rw [Function.update_self]
        exact ⟨base, hr, hr⟩

theorem setWork (h : Staffed w phase) (ht : t ∈ w.tasks) {p : Round} {a : Phase}
    (hp : ∃ base, Controller.IsRound base t.round ∧ p.Follows (Controller.Rests base) a) :
    Staffed (w.setWork t.id p) (Function.update phase t.id a) := by
  have same : ∀ {u}, u ∈ w.tasks → u.id = t.id → u = t := fun hu e => h.unique hu ht e
  refine ⟨fun u v hu hv e => ?_, fun u hu => ?_, fun i hi => ?_, fun u hu => ?_⟩
  · rcases mem_setWork.1 hu with ⟨x, hx, ex, rfl⟩ | ⟨hu, eu⟩ <;>
      rcases mem_setWork.1 hv with ⟨y, hy, ey, rfl⟩ | ⟨hv, ev⟩
    · rw [same hx ex, same hy ey]
    · exact absurd (e.symm.trans ex) ev
    · exact absurd (e.trans ey) eu
    · exact h.unique hu hv e
  · rcases mem_setWork.1 hu with ⟨x, hx, -, rfl⟩ | ⟨hu, -⟩
    · have hlt := h.numbered hx
      exact hlt
    · exact h.numbered hu
  · have hne : i ≠ t.id := Nat.ne_of_gt (Nat.lt_of_lt_of_le (h.numbered ht) hi)
    rw [Function.update_of_ne hne]
    exact h.unborn hi
  · rcases mem_setWork.1 hu with ⟨x, hx, ex, rfl⟩ | ⟨hu, eu⟩
    · obtain rfl := same hx ex
      simpa only [Function.update_self] using hp
    · rw [Function.update_of_ne eu]
      exact h.course hu

/-- Every task but the one that goes on is the same as before. -/
theorem eq_or_mem (h : Staffed w phase) {base : Phase} (hg : Grows w w₁ base) (ht : t ∈ w.tasks)
    (p : Round) {u : Task} (hu : u ∈ w.tasks) : u = t ∨ u ∈ (w₁.setWork t.id p).tasks := by
  by_cases e : u.id = t.id
  · exact .inl (h.unique hu ht e)
  · exact .inr (mem_setWork.2 (.inr ⟨hg.mem hu, e⟩))

/-- Every task but one that ends is there afterwards. -/
theorem eq_or_mem_finish (h : Staffed w phase) (ht : t ∈ w.tasks) (ending : Ending) {u : Task}
    (hu : u ∈ w.tasks) : u = t ∨ u ∈ (w.finish t ending).tasks := by
  by_cases e : u.id = t.id
  · exact .inl (h.unique hu ht e)
  · exact .inr (List.mem_filter.2 ⟨hu, bne_iff_ne.2 e⟩)

theorem of_subset (h : Staffed w phase) (ht : ∀ u ∈ w'.tasks, u ∈ w.tasks)
    (hn : w'.nextId = w.nextId) : Staffed w' phase :=
  ⟨fun u v hu hv => h.unique (ht u hu) (ht v hv), fun u hu => hn ▸ h.numbered (ht u hu),
    fun _ hi => h.unborn (hn ▸ hi), fun u hu => h.course (ht u hu)⟩

theorem finish (h : Staffed w phase) (t : Task) (ending : Ending) :
    Staffed (w.finish t ending) phase :=
  h.of_subset (fun _ hu => (List.mem_filter.1 hu).1) rfl

/-- A task that starts over does so in the phase in which it is. -/
theorem course_done_none (h : Staffed w phase) (ht : t ∈ w.tasks) (hw : t.work = .done none) :
    ∃ base, Controller.IsRound base t.round ∧
      t.round.Follows (Controller.Rests base) (phase t.id) := by
  obtain ⟨base, hr, hf⟩ := h.course ht
  rw [hw] at hf
  have hf : phase t.id = base := hf
  exact ⟨base, hr, hf ▸ hr⟩

/-- A task that ends is responsible for nothing. -/
theorem course_done_some (h : Staffed w phase) (ht : t ∈ w.tasks) {ending : Ending}
    (hw : t.work = .done (some ending)) : phase t.id = .free := by
  obtain ⟨base, hr, hf⟩ := h.course ht
  rw [hw] at hf
  exact hf

theorem course_ask (h : Staffed w phase) (ht : t ∈ w.tasks) {next : r.Answer → Round}
    (hw : t.work = .ask r next) (ha : r.Ordinary answer) :
    ∃ a, (phase t.id).Turn r answer a ∧ Work.Heeds r answer (next answer) ∧
      ∃ base, Controller.IsRound base t.round ∧
        Work.Follows (Controller.Rests base) (next answer) a := by
  obtain ⟨base, hr, hf⟩ := h.course ht
  rw [hw] at hf
  obtain ⟨a, hturn, hheeds, hnext⟩ := hf answer ha
  exact ⟨a, hturn, hheeds, base, hr, hnext⟩

end Staffed

end ClusterLink.World

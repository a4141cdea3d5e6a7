import ClusterLink.Proofs.Queue.Balance
import ClusterLink.Proofs.Simulation.History

/-! No waking is lost. Any number of tasks get keys, add them, give them back and close the queue,
each section of the queue and each waking a step of its own, in any order. Whatever they do, every
task keeps to where it stands and the keys to be handed out stay in balance with the wakings
(`Poised`); so when nobody can go on, nobody sleeps beside a queued key or a closed queue. -/

namespace ClusterLink

/-- The task is in the course of getting a key. -/
def Task.isGetting (t : Task) : Bool :=
  match t.work with
  | .done none | .ask .enable _ | .ask .take _ | .ask .sleep _ | .ask .leave _ => true
  | _ => false

namespace World

/-- What can happen while tasks that have to do with the queue come and take their steps. -/
inductive Rush : World → World → Prop where
  | step {w w' : World} {id : TaskId} (h : w.step? id = some w') : Rush w w'
  | visit {w : World} (label : Option String) {round : Round} (h : Controller.Visit round) :
    Rush w (w.spawn label round).2
  | other {w w' : World} (h : Interlude w w') (ht : w'.tasks = w.tasks) : Rush w w'

/-- The simulation's own schedule is part of a rush. -/
theorem admits_rush : Admits Rush where
  step := .step
  schedule ready waiting alarms waits := .other (.schedule ready waiting alarms waits) rfl
  time h := .other (.time h) rfl

theorem Rush.play {w₀ : World} {r : List Moment × World}
    (h : Relation.ReflTransGen Rush w₀ r.2) (ids : List TaskId) :
    Relation.ReflTransGen Rush w₀ (World.play ids r).2 :=
  play_invariant (I := fun _ w => Relation.ReflTransGen Rush w₀ w) (fun h hs => h.tail (.step hs)) h
    ids

/-- Every task keeps to where it stands, and the keys and wakings are in balance. -/
structure Poised (w : World) (stand : TaskId → Stand) : Prop where
  ids : (w.tasks.map Task.id).Nodup
  numbered : ∀ ⦃t⦄, t ∈ w.tasks → t.id < w.nextId
  conduct : ∀ ⦃t⦄, t ∈ w.tasks → ∃ again, Controller.Attends again t.round ∧
    t.work.Attends (Controller.Halts again) (stand t.id)
  balanced : Balanced w.queue w.wakeup stand (w.tasks.map Task.id)

variable {w w' w₁ : World} {stand : TaskId → Stand} {id : TaskId} {t : Task} {r : Request}
  {answer : r.Answer} {s : Stand} {key : Key}

theorem Interlude.wakeup (h : Interlude w w') : w'.wakeup = w.wakeup := by
  cases h <;> rfl

theorem Interlude.nextId (h : Interlude w w') (ht : w'.tasks = w.tasks) :
    w'.nextId = w.nextId := by
  cases h with
  | spawn label hr => simp [World.spawn] at ht
  | edit | faults | listFault | time | latency | schedule | stop => rfl

/-- A request that has nothing to do with waking leaves it as it is, and the keys in the queue. -/
theorem attempt_quiet (hr : r.IsQuiet) (h : w.attempt id r = some (answer, w₁)) :
    w₁.tasks = w.tasks ∧ w₁.nextId = w.nextId ∧ w₁.wakeup = w.wakeup ∧
      w₁.queue.queue = w.queue.queue ∧ w₁.queue.shuttingDown = w.queue.shuttingDown := by
  cases r <;> first | exact hr.elim | skip
  case waitUntil =>
    simp only [attempt] at h
    repeat' split at h
    all_goals cases h
    all_goals exact ⟨rfl, rfl, rfl, rfl, rfl⟩
  all_goals
    cases h
    exact ⟨rfl, rfl, rfl, rfl, rfl⟩

/-- An answer moves its task and keeps the balance. -/
theorem attempt_balanced {ids : List TaskId} (hb : Balanced w.queue w.wakeup stand ids)
    (hids : ids.Nodup) (hid : id ∈ ids) (hu : (stand id).Use r answer s)
    (hr : ∀ key delay, r ≠ .addLater key delay) (h : w.attempt id r = some (answer, w₁)) :
    w₁.tasks = w.tasks ∧ w₁.nextId = w.nextId ∧
      Balanced w₁.queue w₁.wakeup (Function.update stand id s) ids := by
  generalize hs : stand id = s₀ at hu
  cases hu with
  | quiet hquiet =>
    obtain ⟨ht, hn, hw, hq, hd⟩ := attempt_quiet hquiet h
    rw [← hs, Function.update_eq_self, hw]
    exact ⟨ht, hn, hb.congr hq hd⟩
  | addLater => exact absurd rfl (hr _ _)
  | enable hfrom =>
    cases h
    exact ⟨rfl, rfl, hb.enable hids hid (hs ▸ hfrom)⟩
  | take =>
    cases h
    exact ⟨rfl, rfl, hb.take hids hid hs⟩
  | sleep =>
    simp only [attempt] at h
    split at h <;> cases h
    exact ⟨rfl, rfl, hb.sleep hids hid hs⟩
  | leave =>
    cases h
    exact ⟨rfl, rfl, hb.leave hids hid hs⟩
  | offer =>
    cases h
    exact ⟨rfl, rfl, hb.push hids hid hs (w.queue.offer_queue _) (w.queue.offer_shuttingDown _)⟩
  | finish =>
    cases h
    exact ⟨rfl, rfl, hb.push hids hid hs (w.queue.finish_queue _) (w.queue.finish_shuttingDown _)⟩
  | notifyOne =>
    cases h
    exact ⟨rfl, rfl, hb.notifyOne hids hid hs⟩
  | shutDown =>
    cases h
    exact ⟨rfl, rfl, hb.shutDown hids hid hs⟩
  | notifyAll =>
    cases h
    exact ⟨rfl, rfl, hb.notifyAll hids hid hs⟩

namespace Poised

theorem unique (h : Poised w stand) {u : Task} (ht : t ∈ w.tasks) (hu : u ∈ w.tasks)
    (e : t.id = u.id) : t = u :=
  List.inj_on_of_nodup_map h.ids ht hu e

theorem spawn (h : Poised w stand) (label : Option String) {round : Round} {again : Prop}
    (hr : Controller.Attends again round) :
    Poised (w.spawn label round).2 (Function.update stand w.nextId .idle) := by
  have hnew : w.nextId ∉ w.tasks.map Task.id := by
    intro hm
    obtain ⟨t, ht, e⟩ := List.mem_map.1 hm
    exact Nat.ne_of_lt (h.numbered ht) e
  have hids : (w.spawn label round).2.tasks.map Task.id = w.tasks.map Task.id ++ [w.nextId] :=
    List.map_append
  refine ⟨?_, fun t ht => ?_, fun t ht => ?_, hids ▸ h.balanced.join hnew⟩
  · rw [hids]
    exact List.nodup_append.2 ⟨h.ids, List.nodup_singleton _, fun i hi j hj e =>
      hnew (List.mem_singleton.1 hj ▸ e ▸ hi)⟩
  · rcases List.mem_append.1 ht with ht | ht
    · exact Nat.lt_succ_of_lt (h.numbered ht)
    · rw [List.mem_singleton.1 ht]
      exact Nat.lt_succ_self _
  · rcases List.mem_append.1 ht with ht | ht
    · rw [Function.update_of_ne (Nat.ne_of_lt (h.numbered ht))]
      exact h.conduct ht
    · obtain rfl := List.mem_singleton.1 ht
      rw [Function.update_self]
      exact ⟨again, hr, hr.first⟩

/-- A task goes on with other work from where it stands then. -/
theorem setWork (h : Poised w stand) (ht : t ∈ w.tasks) (htasks : w₁.tasks = w.tasks)
    (hn : w₁.nextId = w.nextId)
    (hb : Balanced w₁.queue w₁.wakeup (Function.update stand t.id s) (w.tasks.map Task.id))
    {p : Round} {again : Prop} (hr : Controller.Attends again t.round)
    (hp : p.Attends (Controller.Halts again) s) :
    Poised (w₁.setWork t.id p) (Function.update stand t.id s) := by
  have hids : (w₁.setWork t.id p).tasks.map Task.id = w.tasks.map Task.id := by
    rw [Ordered.map_id_setWork, htasks]
  refine ⟨hids ▸ h.ids, ?_, fun u hu => ?_, hids ▸ hb⟩
  · refine Ordered.tasks_setWork ?_ p
    rw [htasks, hn]
    exact h.numbered
  · rcases mem_setWork.1 hu with ⟨x, hx, e, rfl⟩ | ⟨hu, hne⟩
    · obtain rfl := h.unique (htasks ▸ hx) ht e
      simp only [Function.update_self]
      exact ⟨again, hr, hp⟩
    · rw [Function.update_of_ne hne]
      exact h.conduct (htasks ▸ hu)

theorem restart (h : Poised w stand) (ht : t ∈ w.tasks) (hw : t.work = .done none) :
    Poised (w.setWork t.id t.round) stand := by
  obtain ⟨again, hr, hwork⟩ := h.conduct ht
  rw [hw] at hwork
  have hround : t.round.Attends (Controller.Halts again) (stand t.id) := by
    obtain ⟨hagain, e | e⟩ : again ∧ (stand t.id = .idle ∨ stand t.id = .roused) := hwork
    · exact e ▸ hr.first
    · exact e ▸ hr.next hagain
  have hsame : Function.update stand t.id (stand t.id) = stand := Function.update_eq_self ..
  rw [← hsame]
  exact h.setWork ht rfl rfl (hsame.symm ▸ h.balanced) hr hround

theorem finish (h : Poised w stand) (ht : t ∈ w.tasks) {ending : Ending}
    (hw : t.work = .done (some ending)) : Poised (w.finish t ending) stand := by
  obtain ⟨again, -, hwork⟩ := h.conduct ht
  rw [hw] at hwork
  have hids : (w.finish t ending).tasks.map Task.id = (w.tasks.map Task.id).erase t.id := by
    rw [h.ids.erase_eq_filter]
    simp only [World.finish, List.filter_map]
    rfl
  have hsub : (w.finish t ending).tasks.Sublist w.tasks := List.filter_sublist
  exact ⟨h.ids.sublist (hsub.map _), fun u hu => h.numbered (hsub.subset hu),
    fun u hu => h.conduct (hsub.subset hu), hids ▸ h.balanced.part hwork⟩

/-- A task starts another that adds a key, and stays where it stands. -/
theorem addLater (h : Poised w stand) (ht : t ∈ w.tasks) (hs : stand t.id = .idle)
    (time : Option Nat) (key : Key) {p : Round} {again : Prop}
    (hr : Controller.Attends again t.round) (hp : p.Attends (Controller.Halts again) .idle) :
    ∃ stand', Poised ((w.spawn none (Controller.addAt time key)).2.setWork t.id p) stand' := by
  have hspawn := h.spawn none (Controller.attends_addAt time key)
  have hmem : t ∈ (w.spawn none (Controller.addAt time key)).2.tasks := List.mem_append_left _ ht
  have hstand : Function.update stand w.nextId .idle t.id = .idle :=
    (Function.update_of_ne (Nat.ne_of_lt (h.numbered ht)) ..).trans hs
  have hsame := Function.update_eq_self t.id (Function.update stand w.nextId .idle)
  rw [hstand] at hsame
  exact ⟨_, hspawn.setWork hmem rfl rfl (hsame.symm ▸ hspawn.balanced) hr hp⟩

theorem answered (h : Poised w stand) (ht : t ∈ w.tasks) {next : r.Answer → Round}
    (hw : t.work = .ask r next) (ha : w.attempt t.id r = some (answer, w₁)) :
    ∃ stand', Poised (w₁.setWork t.id (next answer)) stand' := by
  obtain ⟨again, hr, hwork⟩ := h.conduct ht
  rw [hw] at hwork
  obtain ⟨s, hu, hnext⟩ := hwork answer
  by_cases hlater : ∃ key delay, r = .addLater key delay
  · obtain ⟨key, delay, rfl⟩ := hlater
    cases ha
    generalize hs : stand t.id = s₀ at hu
    cases hu with
    | quiet hquiet => exact hquiet.elim
    | addLater => exact h.addLater ht hs _ key hr hnext
  · have hid : t.id ∈ w.tasks.map Task.id := List.mem_map_of_mem ht
    obtain ⟨htasks, hn, hb⟩ := attempt_balanced h.balanced h.ids hid hu
      (fun key delay e => hlater ⟨key, delay, e⟩) ha
    exact ⟨_, h.setWork ht htasks hn hb hr hnext⟩

theorem rush (h : Poised w stand) (hr : Rush w w') : ∃ stand', Poised w' stand' := by
  cases hr with
  | visit label hround =>
    obtain ⟨again, hattends⟩ := hround.attends
    exact ⟨_, h.spawn label hattends⟩
  | other hi ht =>
    refine ⟨stand, ht ▸ h.ids, ?_, ?_, ?_⟩
    · rw [ht, hi.nextId ht]
      exact h.numbered
    · rw [ht]
      exact h.conduct
    · rw [ht, hi.queue, hi.wakeup]
      exact h.balanced
  | step hs =>
    obtain ⟨t, ht, rfl, ⟨hw, rfl⟩ | ⟨ending, hw, rfl⟩ | ⟨r, next, answer, w₁, hw, ha, rfl⟩⟩ :=
      step?_cases hs
    · exact ⟨stand, h.restart ht hw⟩
    · exact ⟨stand, h.finish ht hw⟩
    · exact h.answered ht hw ha

end Poised

/-- A world to which tasks came that have to do with the queue, and no others. -/
theorem exists_poised {settings : ControllerSettings} {eventCapacity : Nat} {wallClock : Instant}
    (h : Relation.ReflTransGen Rush (.new settings eventCapacity wallClock) w) :
    ∃ stand, Poised w stand := by
  induction h with
  | refl =>
    exact ⟨fun _ => .idle, List.nodup_nil, fun _ ht => (nomatch ht), fun _ ht => (nomatch ht), .new⟩
  | tail _ hr ih =>
    obtain ⟨stand, ih⟩ := ih
    exact ih.rush hr

/-! ## When nobody can go on -/

/-- A task that cannot go on waits for the answer of a request. -/
theorem Poised.blocked (h : Poised w stand) (hstuck : ∀ id, w.step? id = none)
    (ht : t ∈ w.tasks) : ∃ r next, t.work = .ask r next ∧ w.attempt t.id r = none := by
  have hfind : w.tasks.find? (·.id == t.id) = some t := by
    cases hf : w.tasks.find? (·.id == t.id) with
    | none => simpa using List.find?_eq_none.1 hf t ht
    | some u =>
      have hu : u.id = t.id := by simpa using List.find?_some hf
      rw [h.unique (List.mem_of_find?_eq_some hf) ht hu]
  have hstep := hstuck t.id
  rw [step?, hfind] at hstep
  cases hw : t.work with
  | done ending? => cases ending? <;> simp [hw] at hstep
  | ask r next =>
    simp only [hw, Option.map_eq_none_iff] at hstep
    exact ⟨r, next, rfl, hstep⟩

theorem attempt_eq_none (h : w.attempt id r = none) :
    (∃ time deadline, r = .waitUntil time deadline) ∨ (r = .sleep ∧ ¬w.wakeup.isReady id) ∨
      (∃ reader, r = .receive reader) ∨ r = .stopped ∨ ∃ task, r = .join task := by
  cases r
  case waitUntil time deadline => exact .inl ⟨time, deadline, rfl⟩
  case sleep =>
    refine .inr (.inl ⟨rfl, fun hready => ?_⟩)
    simp [attempt, hready] at h
  case receive reader => exact .inr (.inr (.inl ⟨reader, rfl⟩))
  case stopped => exact .inr (.inr (.inr (.inl rfl)))
  case join task => exact .inr (.inr (.inr (.inr ⟨task, rfl⟩)))
  case list =>
    simp only [attempt] at h
    split at h <;> cases h
  all_goals cases h

/-- One who cannot go on waits for a time and has not announced itself, or sleeps after it did. -/
theorem Poised.waits (h : Poised w stand) (hstuck : ∀ id, w.step? id = none) (ht : t ∈ w.tasks) :
    (∃ time deadline next, t.work = .ask (.waitUntil time deadline) next) ∧ stand t.id = .idle ∨
      stand t.id = .looked ∧ ¬w.wakeup.isReady t.id := by
  obtain ⟨r, next, hw, hnone⟩ := h.blocked hstuck ht
  obtain ⟨again, -, hwork⟩ := h.conduct ht
  rw [hw] at hwork
  generalize stand t.id = s at hwork
  -- No other request that can be left without an answer is made by a task that keeps to its stand.
  rcases attempt_eq_none hnone with ⟨time, deadline, rfl⟩ | ⟨rfl, hready⟩ | ⟨reader, rfl⟩ | rfl |
    ⟨task, rfl⟩
  · obtain ⟨s', hu, -⟩ := hwork true
    cases hu
    exact .inl ⟨⟨time, deadline, next, hw⟩, rfl⟩
  · obtain ⟨s', hu, -⟩ := hwork ()
    cases hu with
    | quiet hquiet => exact hquiet.elim
    | sleep => exact .inr ⟨rfl, hready⟩
  · obtain ⟨s', ⟨hquiet⟩, -⟩ := hwork (.lagged 0)
    exact hquiet.elim
  · obtain ⟨s', ⟨hquiet⟩, -⟩ := hwork ()
    exact hquiet.elim
  · obtain ⟨s', ⟨hquiet⟩, -⟩ := hwork ()
    exact hquiet.elim

/-- One who is getting a key when nobody can go on is asleep. -/
theorem Poised.looked_of_blocked (h : Poised w stand) (hstuck : ∀ id, w.step? id = none)
    (ht : t ∈ w.tasks) (hg : t.isGetting) : stand t.id = .looked := by
  obtain ⟨⟨time, deadline, next, hw⟩, -⟩ | ⟨hlooked, -⟩ := h.waits hstuck ht
  · simp [Task.isGetting, hw] at hg
  · exact hlooked

theorem Poised.empty_of_blocked (h : Poised w stand) (hstuck : ∀ id, w.step? id = none)
    (ht : t ∈ w.tasks) (hg : t.isGetting) :
    w.queue.queue = [] ∧ w.queue.shuttingDown = false := by
  have hstand (i : TaskId) (hi : i ∈ w.tasks.map Task.id) :
      stand i = .idle ∨ stand i = .looked ∧ ¬w.wakeup.isReady i := by
    obtain ⟨u, hu, rfl⟩ := List.mem_map.1 hi
    exact (h.waits hstuck hu).imp_left And.right
  have hlisted (i : TaskId) (hi : i ∈ w.wakeup.listed) : ¬w.wakeup.isReady i := by
    obtain ⟨hid, hl⟩ := h.balanced.listed.1 hi
    rcases hstand i hid with e | ⟨-, hready⟩
    · rw [e] at hl
      exact hl.elim
    · exact hready
  have hlooked := h.looked_of_blocked hstuck ht hg
  -- The sleeper announced itself, and was not woken: it waits.
  have hmem : t.id ∈ w.wakeup.listed :=
    h.balanced.listed.2 ⟨List.mem_map_of_mem ht, hlooked ▸ trivial⟩
  have hwaiting : t.id ∈ w.wakeup.waiting := by
    have hnot := hlisted t.id hmem
    simp only [Wakeup.isReady, Bool.or_eq_true, List.contains_iff_mem, not_or] at hnot
    exact (Wakeup.mem_listed.1 hmem).resolve_right fun hr => hr.elim hnot.1 hnot.2
  have hsleeper : ∃ i ∈ w.wakeup.waiting, stand i = .looked := ⟨t.id, hwaiting, hlooked⟩
  have hopen : w.queue.shuttingDown = false := by
    by_contra hd
    obtain ⟨i, hi, hc⟩ := h.balanced.closing hsleeper (by simpa using hd)
    rcases hstand i hi with e | ⟨e, -⟩ <;> simp [hc] at e
  have hwoken : w.wakeup.woken = [] := List.eq_nil_iff_forall_not_mem.2 fun i hi => by
    refine hlisted i (Wakeup.mem_listed.2 (.inr (.inl hi))) ?_
    simp [Wakeup.isReady, hi]
  have hcredits : credits stand (w.tasks.map Task.id) = 0 := by
    refine List.sum_eq_zero fun n hn => ?_
    obtain ⟨i, hi, rfl⟩ := List.mem_map.1 hn
    rcases hstand i hi with e | ⟨e, -⟩ <;> simp [e, Stand.credit]
  have hle := h.balanced.seen hsleeper hopen
  rw [hcredits, hwoken] at hle
  exact ⟨List.eq_nil_of_length_eq_zero (Nat.le_zero.1 hle), hopen⟩

/-! ## A closed queue -/

/-- No request opens a closed queue. -/
theorem shuttingDown_onQueue (r : Request) {q : WorkQueue} (hd : q.shuttingDown = true) :
    (r.onQueue q).shuttingDown = true := by
  cases r
  case offer key => exact (q.offer_shuttingDown key).trans hd
  case finish key => exact (q.finish_shuttingDown key).trans hd
  case take =>
    rw [Request.onQueue, WorkQueue.take, if_pos hd]
    exact hd
  case shutDown => rfl
  all_goals exact hd

theorem Rush.shuttingDown (h : Rush w w') (hd : w.queue.shuttingDown = true) :
    w'.queue.shuttingDown = true := by
  cases h with
  | visit => exact hd
  | other hi => rw [hi.queue, hd]
  | step hs =>
    obtain ⟨t, ht, rfl, ⟨-, rfl⟩ | ⟨ending, -, rfl⟩ | ⟨r, next, answer, w₁, -, ha, rfl⟩⟩ :=
      step?_cases hs
    · exact hd
    · exact hd
    · show w₁.queue.shuttingDown = true
      rw [(attempt_queue ha).2]
      exact shuttingDown_onQueue r hd

/-- Nobody is handed a key once the queue is closed. -/
theorem exchange?_ne_key (hd : w.queue.shuttingDown = true) (id : TaskId) (key : Key) :
    w.exchange? id ≠ some ⟨id, .take, .key key⟩ := by
  intro h
  unfold exchange? at h
  split at h
  next => cases h
  next t ht =>
    split at h
    next => cases h
    next r next hw =>
      obtain ⟨⟨answer, w₁⟩, ha, h⟩ := Option.map_eq_some_iff.1 h
      cases h
      simp only [attempt, WorkQueue.take, hd] at ha
      cases ha

/-- No waking is lost: when nobody can go on and somebody is still getting a key, no key is queued
and the queue is open. And nobody is handed a key after the queue was closed. -/
theorem no_waking_lost {settings : ControllerSettings} {eventCapacity : Nat} {wallClock : Instant}
    (h : Relation.ReflTransGen Rush (.new settings eventCapacity wallClock) w) :
    ((∀ id, w.step? id = none) → ∀ t ∈ w.tasks, t.isGetting →
      w.queue.queue = [] ∧ w.queue.shuttingDown = false) ∧
    (w.queue.shuttingDown = true → ∀ w', Relation.ReflTransGen Rush w w' →
      w'.queue.shuttingDown = true ∧
        ∀ id key, w'.exchange? id ≠ some ⟨id, .take, .key key⟩) := by
  refine ⟨fun hstuck t ht hg => ?_, fun hd w' hw' => ?_⟩
  · obtain ⟨stand, hpoised⟩ := exists_poised h
    exact hpoised.empty_of_blocked hstuck ht hg
  · have hd' : w'.queue.shuttingDown = true := by
      induction hw' with
      | refl => exact hd
      | tail _ hr ih => exact hr.shuttingDown ih
    exact ⟨hd', exchange?_ne_key hd'⟩

/-- The first of two who wait takes a permit that it does not need, and the second the key; the
first sleeps until the queue is closed. -/
theorem no_waking_lost_of_permit_taken :
    let w₀ := new {} 4 .epoch
    let w₁ := (w₀.spawn (some "first") Controller.getOnce).2
    let w₂ := (w₁.spawn (some "second") Controller.getOnce).2
    let w₃ := (w₂.spawn none (Controller.addAt none ⟨"ns", "a"⟩)).2
    let asleep := (play [3, 3, 3, 1, 2, 2, 2, 2, 1, 1, 1, 1, 1] ([], w₃)).2
    let w₄ := (asleep.spawn none Controller.closeOnce).2
    let closed := (play [4, 4, 1] ([], w₄)).2
    (asleep.finished = [("second", .key ⟨"ns", "a"⟩)] ∧ asleep.tasks.any Task.isGetting ∧
      asleep.queue.queue = [] ∧ asleep.queue.shuttingDown = false) ∧
    (closed.queue.shuttingDown = true ∧
      ∀ id key, closed.exchange? id ≠ some ⟨id, .take, .key key⟩) := by
  intro w₀ w₁ w₂ w₃ asleep w₄ closed
  have h₃ : Relation.ReflTransGen Rush w₀ w₃ :=
    ((Relation.ReflTransGen.refl.tail (.visit _ .get)).tail (.visit _ .get)).tail
      (.visit _ (.add none _))
  have hasleep : Relation.ReflTransGen Rush w₀ asleep := Rush.play (r := ([], w₃)) h₃ _
  have h₄ : Relation.ReflTransGen Rush w₀ w₄ := hasleep.tail (.visit _ .shutDown)
  have hclosed : Relation.ReflTransGen Rush w₀ closed := Rush.play (r := ([], w₄)) h₄ _
  have hids : asleep.tasks.map Task.id = [1] := by decide +kernel
  have hone : (asleep.step? 1).isNone = true := by decide +kernel
  have hfinished : asleep.finished = [("second", .key ⟨"ns", "a"⟩)] := by decide +kernel
  have hany : asleep.tasks.any Task.isGetting = true := by decide +kernel
  have hdown : closed.queue.shuttingDown = true := by decide +kernel
  clear_value closed w₄ asleep
  have hstuck : ∀ id, asleep.step? id = none := by
    intro id
    by_cases e : id = 1
    · exact e ▸ Option.isNone_iff_eq_none.1 hone
    · have hnone : asleep.tasks.find? (·.id == id) = none := by
        refine List.find?_eq_none.2 fun t ht he => e ?_
        have hid : t.id ∈ [1] := hids ▸ List.mem_map_of_mem ht
        exact (beq_iff_eq.1 he).symm.trans (List.mem_singleton.1 hid)
      rw [step?, hnone]
  obtain ⟨t, ht, hg⟩ := List.any_eq_true.1 hany
  exact ⟨⟨hfinished, hany, (no_waking_lost hasleep).1 hstuck t ht hg⟩, hdown,
    ((no_waking_lost hclosed).2 hdown closed .refl).2⟩

end World

end ClusterLink

import ClusterLink.Proofs.Simulation.Backing

/-! Work that somebody does while the world goes on beside it. `Does` follows a piece of work
request by request; between two requests all tasks take their steps in any order, faults are set and
time passes, but nobody edits the store (`Meanwhile`). Who does the work may be a task of the world
itself: what the others do does not depend on it (`step?_without`). -/

namespace ClusterLink.World

/-- The world without one of its tasks. -/
def without (w : World) (id : TaskId) : World :=
  { w with tasks := w.tasks.filter (·.id != id) }

/-- What can happen beside somebody, with the key that it adds to the queue if it adds one. What is
left to do of his own work, if he is a task, is his own affair. -/
inductive Beside (id : TaskId) : Option Key → World → World → Prop where
  | step {w w' : World} {j : TaskId} (hj : j ≠ id) (h : w.step? j = some w') :
    Beside id ((w.exchange? j).bind Exchange.added?) w w'
  | own {w : World} (work : Round) : Beside id none w (w.setWork id work)
  | add {w : World} (key : Key) :
    Beside id (some key) w { w with queue := (w.queue.offer key).2 }
  | fault {w : World} {fault? : Operation → Option StoreError}
    (h : ∀ e, fault? .getAssociation = some e → ¬e.isNotFound) :
    Beside id none w { w with cluster := w.cluster.withFaults fault? }
  | listFault {w : World} (listFault : Option StoreError) : Beside id none w { w with listFault }
  | time {w : World} (clock : Nat) (latency : Operation → Nat) :
    Beside id none w { w with clock, latency }
  | schedule {w : World} (ready : List TaskId) (waiting : List Waiting)
    (alarms : List (TaskId × Nat × Nat)) (waits : Nat) :
    Beside id none w { w with ready, waiting, alarms, waits }
  | hire {w : World} : Beside id none w (w.spawn none (Controller.worker w.settings)).2

/-- Anything that can happen beside somebody, with the keys that are added to the queue. -/
inductive Meanwhile (id : TaskId) : List Key → World → World → Prop where
  | refl {w : World} : Meanwhile id [] w w
  | tail {keys : List Key} {key? : Option Key} {w w' w'' : World} (h : Meanwhile id keys w w')
    (hb : Beside id key? w' w'') : Meanwhile id (keys ++ key?.toList) w w''

/-- Somebody does a piece of work to its end, with the keys that others add to the queue before his
last request. -/
inductive Does {α : Type} (id : TaskId) : Work α → List Key → World → α → World → Prop where
  | done {a : α} {w : World} : Does id (.done a) [] w a w
  | ask {r : Request} {answer : r.Answer} {next : r.Answer → Work α} {before after : List Key}
    {a : α} {w w₀ w₁ w' : World} (hm : Meanwhile id before w w₀)
    (ha : w₀.attempt id r = some (answer, w₁)) (h : Does id (next answer) after w₁ a w') :
    Does id (.ask r next) (before ++ after) w a w'

/-- A piece of work that nobody disturbs; nothing if it has to wait. -/
def alone? {α : Type} (id : TaskId) : Work α → World → Option (α × World)
  | .done a, w => some (a, w)
  | .ask r next, w =>
    match w.attempt id r with
    | none => none
    | some (answer, w₁) => alone? id (next answer) w₁

variable {α β : Type} {w w' w₁ : World} {id j : TaskId} {r : Request} {answer : r.Answer}
  {keys : List Key}

theorem Does.of_alone? {p : Work α} {a : α} (h : alone? id p w = some (a, w')) :
    Does id p [] w a w' := by
  induction p generalizing w with
  | done b =>
    cases h
    exact .done
  | ask r next ih =>
    simp only [alone?] at h
    split at h
    next => cases h
    next answer w₁ ha => exact .ask .refl ha (ih answer h)

theorem Does.bind {p : Work α} {f : α → Work β} {b : β} (h : Does id (p.bind f) keys w b w') :
    ∃ before after a w₁, keys = before ++ after ∧ Does id p before w a w₁ ∧
      Does id (f a) after w₁ b w' := by
  induction p generalizing keys w with
  | done a => exact ⟨[], keys, a, w, rfl, .done, h⟩
  | ask r next ih =>
    cases h with
    | ask hm ha h =>
      obtain ⟨before, after, a, w₁, rfl, hp, hf⟩ := ih _ h
      exact ⟨_, after, a, w₁, (List.append_assoc ..).symm, .ask hm ha hp, hf⟩

theorem Does.request {answer : r.Answer} (h : Does id (request r) keys w answer w') :
    ∃ w₀, Meanwhile id keys w w₀ ∧ w₀.attempt id r = some (answer, w') := by
  cases h with
  | ask hm ha h =>
    cases h
    exact ⟨_, List.append_nil _ ▸ hm, ha⟩

theorem Beside.born {key? : Option Key} (h : Beside id key? w w') (hid : id < w.nextId) :
    id < w'.nextId := by
  cases h with
  | step _ hs =>
    obtain ⟨t, -, -, ⟨-, rfl⟩ | ⟨ending, -, rfl⟩ | ⟨r, next, answer, w₁, -, ha, rfl⟩⟩ :=
      step?_cases hs
    · exact hid
    · exact hid
    · exact Nat.lt_of_lt_of_le hid (attempt_answered ha).nextId
  | hire => exact Nat.lt_succ_of_lt hid
  | _ => exact hid

/-! ## One task less -/

theorem without_setWork (w : World) (id j : TaskId) (p : Round) :
    (w.setWork j p).without id = (w.without id).setWork j p := by
  have hid : ((·.id != id) ∘ fun t : Task => if t.id = j then { t with work := p } else t) =
      (·.id != id) := by
    funext t
    dsimp only [Function.comp_apply]
    split <;> rfl
  simp only [without, setWork, List.filter_map, hid]

theorem setWork_without (w : World) (id : TaskId) (p : Round) :
    (w.without id).setWork id p = w.without id := by
  have h : ∀ t ∈ w.tasks.filter (·.id != id),
      (if t.id = id then { t with work := p } else t) = t := fun t ht =>
    if_neg (bne_iff_ne.1 (List.mem_filter.1 ht).2)
  simp only [without, setWork, List.map_congr_left h, List.map_id']

theorem without_spawn (hn : w.nextId ≠ id) (label : Option String) (round : Round) :
    (w.without id).spawn label round =
      ((w.spawn label round).1, (w.spawn label round).2.without id) := by
  simp [without, spawn, hn]

/-- A request is answered as if the task were not there, and leaves the same otherwise. -/
theorem attempt_without (hn : w.nextId ≠ id) (h : w.attempt j r = some (answer, w₁)) :
    (w.without id).attempt j r = some (answer, w₁.without id) := by
  cases r
  case addLater | startReader | startWorker =>
    cases h
    simp only [attempt, without_spawn hn]
    rfl
  case cancel task =>
    cases h
    simp [attempt, World.cancel, without, Bool.and_comm]
  case join task =>
    simp only [attempt] at h ⊢
    split at h
    next => cases h
    next ht =>
      cases h
      rw [if_neg fun hany => ht ?_]
      obtain ⟨t, hm, he⟩ := List.any_eq_true.1 hany
      exact List.any_eq_true.2 ⟨t, (List.mem_filter.1 hm).1, he⟩
  case receive =>
    obtain ⟨place, place', hl, hnext, rfl⟩ := attempt_receive h
    have hl' : (w.without id).readers.lookup _ = some place := hl
    simp only [attempt, hl']
    exact congrArg (Option.map _) hnext
  case waitUntil =>
    simp only [attempt] at h
    split at h
    next hle =>
      cases h
      exact if_pos hle
    next hlt =>
      split at h
      next hd =>
        cases h
        exact (if_neg hlt).trans (if_pos hd)
      next => cases h
  case list | sleep | stopped =>
    simp only [attempt] at h ⊢
    repeat' split at h
    all_goals cases h
    all_goals simp_all [without]
  all_goals
    cases h
    rfl

theorem step?_without (hn : w.nextId ≠ id) (hj : j ≠ id) (h : w.step? j = some w') :
    (w.without id).step? j = some (w'.without id) ∧
      (w.without id).exchange? j = w.exchange? j := by
  have hfind : (w.without id).tasks.find? (·.id == j) = w.tasks.find? (·.id == j) := by
    simp only [without, List.find?_filter]
    congr 1
    funext t
    by_cases e : t.id = j <;> simp [e, hj]
  cases hf : w.tasks.find? (·.id == j) with
  | none => simp [step?, hf] at h
  | some t =>
    cases hw : t.work with
    | done ending =>
      cases ending with
      | none =>
        simp only [step?, exchange?, hfind, hf, hw, Option.some.injEq, and_true] at h ⊢
        rw [← h, without_setWork]
      | some ending =>
        simp only [step?, exchange?, hfind, hf, hw, Option.some.injEq, and_true] at h ⊢
        rw [← h]
        simp [World.finish, without, Bool.and_comm]
    | ask r next =>
      simp only [step?, exchange?, hfind, hf, hw] at h ⊢
      obtain ⟨⟨answer, w₁⟩, ha, h⟩ := Option.map_eq_some_iff.1 h
      cases h
      simp only [ha, attempt_without hn ha, Option.map_some, without_setWork, and_self]

end ClusterLink.World

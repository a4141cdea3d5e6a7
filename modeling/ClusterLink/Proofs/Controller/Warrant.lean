import ClusterLink.Proofs.Controller.Typestate

/-! What a task may do once, because of an answer that it got: whoever is handed a key may start one
delayed add of it, and whoever subscribes to the event log may start the one task that reads it.
`Work.Obeys` says that a piece of work keeps to that whatever it is answered, so also when listings
fail and the queue is closed; each piece of the controller is checked once. -/

namespace ClusterLink

/-- A request that needs no warrant and gives none. -/
def Request.IsRoutine : Request → Prop
  | .take | .subscribe | .receive _ | .addLater .. | .startReader _ => False
  | _ => True

/-- A request that needs no warrant, gives none, and does not list the associations. -/
def Request.IsListless (r : Request) : Prop := r.IsRoutine ∧ r ≠ .list

theorem Request.IsService.isRoutine {r : Request} (h : r.IsService) : r.IsRoutine := by
  cases r <;> first | exact h.elim | trivial

/-- What a task may do. -/
inductive Warrant where
  /-- Nothing but what any task may. -/
  | none
  /-- It was handed a key, and may start a delayed add of it. -/
  | retry (key : Key)
  /-- It subscribed, and may start the task that reads the events. -/
  | opening (reader : ReaderId)
  /-- It reads the events. -/
  | reading (reader : ReaderId)

/-- What a request does to the warrant of its task. -/
inductive Warrant.Use : Warrant → (r : Request) → r.Answer → Warrant → Prop where
  | routine {v : Warrant} {r answer} (h : r.IsRoutine) : Use v r answer v
  | key {key} : Use .none .take (.key key) (.retry key)
  | noKey {taken} (h : ∀ key, taken ≠ .key key) : Use .none .take taken .none
  | addLater {key delay} : Use (.retry key) (.addLater key delay) () .none
  | subscribe {reader} : Use .none .subscribe reader (.opening reader)
  | startReader {reader task} : Use (.opening reader) (.startReader reader) task .none
  | receive {reader received} : Use (.reading reader) (.receive reader) received (.reading reader)

namespace Work

/-- All requests of work are routine. -/
def IsRoutine : Work α → Prop
  | .done _ => True
  | .ask r next => r.IsRoutine ∧ ∀ answer, IsRoutine (next answer)

/-- The requests of work keep to the warrant of its task, and it ends with a result and a warrant
of `Q`. -/
def Obeys (Q : α → Warrant → Prop) : Work α → Warrant → Prop
  | .done a, v => Q a v
  | .ask r next, v => ∀ answer, ∃ v', v.Use r answer v' ∧ Obeys Q (next answer) v'

variable {α β : Type} {Q : α → Warrant → Prop} {R : β → Warrant → Prop} {p : Work α}
  {f : α → Work β} {v : Warrant} {r : Request}

theorem isRoutine_request (h : r.IsRoutine) : IsRoutine (request r) := ⟨h, fun _ => trivial⟩

theorem Only.isRoutine {P : Request → Prop} (h : p.Only P) (hP : ∀ r, P r → r.IsRoutine) :
    p.IsRoutine := by
  induction p with
  | done => trivial
  | ask r next ih => exact ⟨hP r h.1, fun answer => ih answer (h.2 answer)⟩

theorem IsRoutine.bind (h : p.IsRoutine) (hf : ∀ a, (f a).IsRoutine) : IsRoutine (p.bind f) := by
  induction p with
  | done a => exact hf a
  | ask r next ih => exact ⟨h.1, fun answer => ih answer (h.2 answer)⟩

theorem IsRoutine.obeys (h : p.IsRoutine) (v : Warrant) : p.Obeys (fun _ v' => v' = v) v := by
  induction p with
  | done a => exact rfl
  | ask r next ih => exact fun answer => ⟨v, .routine h.1, ih answer (h.2 answer)⟩

theorem Obeys.mono {Q' : α → Warrant → Prop} (h : p.Obeys Q v) (hQ : ∀ a v, Q a v → Q' a v) :
    p.Obeys Q' v := by
  induction p generalizing v with
  | done a => exact hQ a v h
  | ask r next ih =>
    intro answer
    obtain ⟨v', hu, hnext⟩ := h answer
    exact ⟨v', hu, ih answer hnext⟩

theorem Obeys.bind (h : p.Obeys Q v) (hf : ∀ a v, Q a v → (f a).Obeys R v) :
    Obeys R (p.bind f) v := by
  induction p generalizing v with
  | done a => exact hf a v h
  | ask r next ih =>
    intro answer
    obtain ⟨v', hu, hnext⟩ := h answer
    exact ⟨v', hu, ih answer hnext⟩

/-- After routine work the warrant is as before. -/
theorem IsRoutine.obeys_bind (h : p.IsRoutine) (hf : ∀ a, (f a).Obeys R v) :
    Obeys R (p.bind f) v := by
  refine (h.obeys v).bind ?_
  rintro a _ rfl
  exact hf a

end Work

namespace Controller

open Work

variable {settings : ControllerSettings} {key : Key}

/-! ## Routine pieces -/

theorem isListless_add (key : Key) : (add key).Only Request.IsListless := by
  refine (only_request (r := .offer key) ⟨trivial, nofun⟩).bind fun queued => ?_
  cases queued with
  | false => trivial
  | true => exact only_request (r := .notifyOne) ⟨trivial, nofun⟩

theorem isListless_addAll (keys : List Key) : (addAll keys).Only Request.IsListless := by
  induction keys with
  | nil => trivial
  | cons key keys ih => exact (isListless_add key).bind fun _ => ih

theorem isListless_handleEvent (e : Event) : (handleEvent e).Only Request.IsListless := by
  obtain ⟨kind, key, action⟩ := e
  cases kind with
  | association => exact isListless_add key
  | elasticsearch | kibana =>
    exact (only_request (r := .watchersOf _ key) ⟨trivial, nofun⟩).bind isListless_addAll
  | secret => trivial

theorem isRoutine_add (key : Key) : (add key).IsRoutine :=
  (isListless_add key).isRoutine fun _ => And.left

theorem isRoutine_enqueueAll : enqueueAll.IsRoutine := by
  refine (isRoutine_request (r := .list) trivial).bind fun answer => ?_
  cases answer with
  | error => trivial
  | ok l => exact ((isListless_addAll _).isRoutine fun _ => And.left).bind fun _ => trivial

theorem isRoutine_handleEvent (e : Event) : (handleEvent e).IsRoutine :=
  (isListless_handleEvent e).isRoutine fun _ => And.left

theorem isRoutine_addAt (time : Option Nat) (key : Key) : (addAt time key).IsRoutine := by
  have added := (isRoutine_add key).bind (f := fun _ => .done (some Ending.quiet)) fun _ => trivial
  cases time with
  | none => exact added
  | some time => exact (isRoutine_request (r := .waitUntil time none) trivial).bind fun _ => added

theorem isRoutine_reconcileWithDeadline (settings : ControllerSettings) (key : Key) :
    (reconcileWithDeadline settings key).IsRoutine :=
  (isService_reconcileWithDeadline settings key).isRoutine fun _ h => h.isRoutine

theorem isRoutine_finish (key : Key) : (finish key).IsRoutine := by
  refine (isRoutine_request (r := .finish key) trivial).bind fun queued => ?_
  cases queued with
  | false => trivial
  | true => exact isRoutine_request (r := .notifyOne) trivial

theorem isRoutine_shutDown : shutDown.IsRoutine :=
  (isRoutine_request (r := .shutDown) trivial).bind fun _ =>
    isRoutine_request (r := .notifyAll) trivial

theorem isRoutine_startWorkers (n : Nat) : (startWorkers n).IsRoutine := by
  induction n with
  | zero => trivial
  | succ n ih =>
    exact (isRoutine_request (r := .startWorker) trivial).bind fun _ => ih.bind fun _ => trivial

theorem isRoutine_joinAll (ids : List TaskId) : (joinAll ids).IsRoutine := by
  induction ids with
  | nil => trivial
  | cons id ids ih => exact (isRoutine_request (r := .join id) trivial).bind fun _ => ih

/-! ## Pieces that use a warrant -/

theorem obeys_addLater (key : Key) (delay : Duration) :
    (request (.addLater key delay)).Obeys (fun _ _ => True) (.retry key) :=
  fun _ => ⟨_, .addLater, trivial⟩

theorem obeys_addRateLimited (settings : ControllerSettings) (key : Key) :
    (addRateLimited settings key).Obeys (fun _ _ => True) (.retry key) :=
  (isRoutine_request (r := .countFailure key) trivial).obeys_bind fun _ => obeys_addLater key _

/-- Whatever came out of a reconcile, one delayed add is started at the most. -/
theorem obeys_schedule (settings : ControllerSettings) (key : Key) (outcome : Outcome) :
    (schedule settings key outcome).Obeys (fun _ _ => True) (.retry key) := by
  unfold schedule
  split
  next => exact obeys_addRateLimited settings key
  next =>
    refine (isRoutine_request (r := .forget key) trivial).obeys_bind fun _ => ?_
    obtain ⟨⟨requeue, after⟩, error⟩ := outcome
    cases after with
    | some delay => exact obeys_addLater key delay
    | none =>
      cases requeue with
      | true => exact obeys_addRateLimited settings key
      | false => trivial

theorem obeys_process (settings : ControllerSettings) (key : Key) :
    (process settings key).Obeys (fun _ _ => True) (.retry key) :=
  (isRoutine_reconcileWithDeadline settings key).obeys_bind fun outcome =>
    (obeys_schedule settings key outcome).bind fun _ v _ =>
      ((isRoutine_finish key).obeys v).mono fun _ _ _ => trivial

theorem obeys_processNext (settings : ControllerSettings) :
    (processNext settings).Obeys (fun _ _ => True) .none := by
  refine (isRoutine_request (r := .enable) trivial).obeys_bind fun _ taken => ?_
  cases taken with
  | shutDown =>
    exact ⟨_, .noKey nofun, (isRoutine_request (r := .leave) trivial).obeys_bind fun _ => trivial⟩
  | empty =>
    exact ⟨_, .noKey nofun, (isRoutine_request (r := .sleep) trivial).obeys_bind fun _ => trivial⟩
  | key key =>
    refine ⟨_, .key, (isRoutine_request (r := .leave) trivial).obeys_bind fun _ => ?_⟩
    exact (obeys_process settings key).bind fun _ _ _ => trivial

/-! ## Rounds -/

/-- A round that is done again and again, each time from the same warrant. -/
def IsLawful (base : Warrant) (round : Round) : Prop := round.Obeys (fun _ _ => True) base

theorem isLawful_of_isRoutine {round : Round} (h : round.IsRoutine) : IsLawful .none round :=
  (h.obeys .none).mono fun _ _ _ => trivial

theorem isLawful_worker (settings : ControllerSettings) : IsLawful .none (worker settings) := by
  refine (obeys_processNext settings).bind fun more v _ => ?_
  split <;> trivial

theorem isLawful_processOnce (settings : ControllerSettings) :
    IsLawful .none (processOnce settings) := by
  refine (obeys_processNext settings).bind fun more v _ => ?_
  split <;> trivial

theorem isLawful_addAt (time : Option Nat) (key : Key) : IsLawful .none (addAt time key) :=
  isLawful_of_isRoutine (isRoutine_addAt time key)

/-- One who reads the events does nothing else that needs a warrant. -/
theorem reader_eq (id : ReaderId) : ∃ next : Received → Round,
    reader id = .ask (.receive id) next ∧ ∀ received, (next received).IsRoutine := by
  refine ⟨_, rfl, fun received => ?_⟩
  cases received with
  | event e => exact (isRoutine_handleEvent e).bind fun _ => trivial
  | lagged missed => exact isRoutine_enqueueAll.bind fun _ => trivial

theorem isLawful_reader (id : ReaderId) : IsLawful (.reading id) (reader id) := by
  obtain ⟨next, hnext, hroutine⟩ := reader_eq id
  rw [hnext]
  exact fun received => ⟨_, .receive, ((hroutine received).obeys _).mono fun _ _ _ => trivial⟩

/-- The main task starts the task that reads the events once, for the reader it subscribed. -/
theorem isLawful_run (settings : ControllerSettings) : IsLawful .none (run settings) := by
  refine fun id => ⟨_, .subscribe, isRoutine_enqueueAll.obeys_bind fun answer => ?_⟩
  cases answer with
  | error => trivial
  | ok =>
    refine fun task => ⟨_, .startReader, (isRoutine_startWorkers _).obeys_bind fun ids => ?_⟩
    refine (isRoutine_request (r := .stopped) trivial).obeys_bind fun _ => ?_
    refine (isRoutine_request (r := .cancel task) trivial).obeys_bind fun _ => ?_
    exact isRoutine_shutDown.obeys_bind fun _ => (isRoutine_joinAll ids).obeys_bind fun _ => trivial

end Controller

end ClusterLink

import ClusterLink.Proofs.Controller.Phase

/-! The courses of the tasks that the controller consists of. Every piece keeps to the phase of its
task: a worker gives a key back only if its reconcile asked for nothing more or another look was
arranged for, and the reader does what it reads. -/

namespace ClusterLink.Controller

open Reconcile Work

variable {α : Type} {key : Key} {p : Phase} {settings : ControllerSettings}

/-! ## What is added to the queue -/

theorem offers_add (key : Key) : (add key).Offers key := .inl (.inl rfl)

theorem offers_addAll {keys : List Key} (h : key ∈ keys) : (addAll keys).Offers key := by
  induction keys with
  | nil => cases h
  | cons k keys ih =>
    rcases List.mem_cons.1 h with rfl | h
    · exact (offers_add key).bind _
    · exact makes_bind _ fun _ => ih h

theorem offers_addAt (time : Option Nat) (key : Key) : (addAt time key).Offers key := by
  cases time with
  | none => exact (offers_add key).bind _
  | some time => exact .inr fun _ _ => (offers_add key).bind _

theorem sweeps_enqueueAll : Sweeps enqueueAll :=
  fun _ _ ha => (offers_addAll (List.mem_map_of_mem ha)).bind _

theorem reacts_handleEvent (e : Event) : (handleEvent e).Reacts e := by
  obtain ⟨kind, key, action⟩ := e
  cases kind with
  | association => exact offers_add key
  | elasticsearch | kibana => exact ⟨⟨rfl, rfl⟩, fun _ _ hk => offers_addAll hk⟩
  | secret => trivial

/-- The main task reads the log before it lists the associations, and then starts the reader. -/
theorem run_eq (settings : ControllerSettings) : ∃ next, run settings = .ask .subscribe next ∧
    ∀ id, Sweeps (next id) ∧ Starts id (next id) := by
  refine ⟨_, rfl, fun id => ⟨sweeps_enqueueAll.bind _, .inr fun answer ha => ?_⟩⟩
  cases answer with
  | error => exact (ha trivial).elim
  | ok l =>
    simp only [Program.bind_eq, Program.done_bind, Program.bind_assoc]
    exact makes_bind _ fun _ => .inl rfl

/-! ## Pieces that any task may do -/

theorem follows_add (key : Key) (p : Phase) : (add key).Follows (fun _ p' => p' = p) p := by
  refine (follows_plain (r := .offer key) trivial p).bind ?_
  rintro queued _ ⟨-, rfl⟩
  cases queued with
  | false => rfl
  | true => exact (follows_plain (r := .notifyOne) trivial _).mono fun _ _ h => h.2

theorem follows_addAll (keys : List Key) (p : Phase) :
    (addAll keys).Follows (fun _ p' => p' = p) p := by
  induction keys with
  | nil => rfl
  | cons key keys ih =>
    refine (follows_add key p).bind ?_
    rintro _ _ rfl
    exact ih

theorem follows_enqueueAll (p : Phase) :
    enqueueAll.Follows (fun _ p' => p' = p) p := by
  refine (follows_plain (r := .list) trivial p).bind ?_
  rintro (e | l) _ ⟨-, rfl⟩
  · rfl
  · refine (follows_addAll _ _).bind ?_
    rintro _ _ rfl
    rfl

theorem follows_handleEvent (e : Event) (p : Phase) :
    (handleEvent e).Follows (fun _ p' => p' = p) p := by
  obtain ⟨kind, key, action⟩ := e
  cases kind with
  | association => exact follows_add key p
  | elasticsearch | kibana =>
    refine (follows_plain (r := .watchersOf _ key) trivial p).bind ?_
    rintro keys _ ⟨-, rfl⟩
    exact follows_addAll keys _
  | secret => rfl

theorem follows_reach (op : Operation) (deadline : Option Nat) (p : Phase) :
    (reach op deadline).Follows (fun _ p' => p' = p) p := by
  refine (follows_plain (r := .reachable op) trivial p).bind ?_
  rintro time _ ⟨-, rfl⟩
  exact (follows_plain (r := .waitUntil time deadline) trivial _).mono fun _ _ h => h.2

theorem follows_startWorkers (n : Nat) (p : Phase) :
    (startWorkers n).Follows (fun _ p' => p' = p) p := by
  induction n with
  | zero => rfl
  | succ n ih =>
    refine (follows_plain (r := .startWorker) trivial p).bind ?_
    rintro id _ ⟨-, rfl⟩
    refine ih.bind ?_
    rintro ids _ rfl
    rfl

/-! ## Workers -/

/-- Work on a key that is held, until it is done or dropped. -/
theorem follows_within (deadline : Option Nat) (key : Key) (s : Stage) :
    (s.program.within deadline).Follows
      (fun o p => ∃ s', p = .holding key s' ∧ ∀ outcome, o = some outcome → s' = .ended outcome)
      (.holding key s) := by
  induction s using Stage.program.induct with
  | case1 s o hv =>
    rw [Stage.program_eq_done hv]
    cases s <;> cases hv
    exact ⟨_, rfl, fun _ ho => Option.some.inj ho ▸ rfl⟩
  | case2 s call next hv ih =>
    rw [Stage.program_eq_ask hv fun _ => rfl, Calls.within]
    have go : Follows (fun o p => ∃ s', p = .holding key s' ∧
          ∀ outcome, o = some outcome → s' = .ended outcome)
        (.ask (.call call) fun answer => (next answer).program.within deadline)
        (.holding key s) := fun answer _ => ⟨_, .call hv, trivial, ih answer⟩
    split
    next => exact go
    next op _ =>
      refine (follows_reach op deadline _).bind ?_
      rintro reached _ rfl
      cases reached with
      | false => exact ⟨s, rfl, fun _ ho => nomatch ho⟩
      | true => exact go

/-- What is left of a reconcile that came to an end, however it did. -/
theorem follows_reconcileWithDeadline (settings : ControllerSettings) (key : Key) :
    (reconcileWithDeadline settings key).Follows
      (fun o p => ∃ s, p = .holding key s ∧ (o.error = none → s = .ended o))
      (.holding key (.fetch key)) := by
  refine (follows_plain (r := .now) trivial _).bind ?_
  rintro now _ ⟨-, rfl⟩
  refine (follows_plain (r := .countReconcile) trivial _).bind ?_
  rintro _ _ ⟨-, rfl⟩
  rw [reconcile_eq_program]
  refine (follows_within _ key (.fetch key)).bind ?_
  rintro o _ ⟨s, rfl, ho⟩
  cases o with
  | none => exact ⟨s, rfl, fun h => nomatch h⟩
  | some outcome => exact ⟨s, rfl, fun _ => ho outcome rfl⟩

theorem follows_addLater (key : Key) (delay : Duration) (s : Stage) :
    (request (.addLater key delay)).Follows
      (fun _ p => p = .holding key (.ended (.ok .done))) (.holding key s) :=
  fun _ _ => ⟨_, .addLater, trivial, rfl⟩

theorem follows_addRateLimited (settings : ControllerSettings) (key : Key) (s : Stage) :
    (addRateLimited settings key).Follows
      (fun _ p => p = .holding key (.ended (.ok .done))) (.holding key s) := by
  refine (follows_plain (r := .countFailure key) trivial _).bind ?_
  rintro failures _ ⟨-, rfl⟩
  exact follows_addLater _ _ _

/-- Unless the outcome asks for nothing more, another look is arranged for. -/
theorem follows_schedule {o : Outcome} {s : Stage} (h : o.error = none → s = .ended o) :
    (schedule settings key o).Follows
      (fun _ p => p = .holding key (.ended (.ok .done))) (.holding key s) := by
  unfold schedule
  split
  next => exact follows_addRateLimited _ _ _
  next he =>
    refine (follows_plain (r := .forget key) trivial _).bind ?_
    rintro _ _ ⟨-, rfl⟩
    obtain ⟨⟨requeue, after⟩, error⟩ := o
    cases he
    cases after with
    | some delay => exact follows_addLater _ _ _
    | none =>
      cases requeue with
      | true => exact follows_addRateLimited _ _ _
      | false => exact congrArg (Phase.holding key) (h rfl)

theorem follows_finish (key : Key) :
    (finish key).Follows (fun _ p => p = .free) (.holding key (.ended (.ok .done))) := by
  refine Follows.bind (Q := fun _ p => p = .free) (fun _ _ => ⟨_, .finish, trivial, rfl⟩) ?_
  rintro queued _ rfl
  cases queued with
  | false => rfl
  | true => exact (follows_plain (r := .notifyOne) trivial _).mono fun _ _ h => h.2

theorem follows_process (settings : ControllerSettings) (key : Key) :
    (process settings key).Follows (fun _ p => p = .free) (.holding key (.fetch key)) := by
  refine (follows_reconcileWithDeadline settings key).bind ?_
  rintro o _ ⟨s, rfl, ho⟩
  refine (follows_schedule ho).bind ?_
  rintro _ _ rfl
  exact follows_finish key

theorem returns_process (settings : ControllerSettings) (key : Key) :
    (process settings key).Returns key :=
  makes_bind _ fun _ => makes_bind _ fun _ => .inl rfl

/-- One who gets a key has to give it back. -/
theorem follows_tryGet {f : Taken → Work α} {Q : α → Phase → Prop}
    (hempty : (f .empty).Follows Q .free) (hreturns : ∀ key, (f (.key key)).Returns key)
    (hkey : ∀ key, (f (.key key)).Follows Q (.holding key (.fetch key))) :
    Follows Q (tryGet.bind f) .free := by
  refine fun _ _ => ⟨_, .plain trivial, trivial, fun taken ho => ?_⟩
  cases taken with
  | shutDown => exact ho.elim
  | empty => exact ⟨_, .empty, trivial, fun _ _ => ⟨_, .plain trivial, trivial, hempty⟩⟩
  | key key =>
    have returns : Returns key ((request .leave).bind fun _ => f (.key key)) :=
      makes_bind _ fun _ => hreturns key
    exact ⟨_, .key, returns, fun _ _ => ⟨_, .plain trivial, trivial, hkey key⟩⟩

/-! ## Rounds -/

/-- What is left at the end of a round: the phase of the next one, or nothing. -/
def Rests (base : Phase) (ending : Option Ending) (p : Phase) : Prop :=
  p = if ending.isNone then base else .free

/-- A round that is done again and again, each time from the same phase. -/
def IsRound (base : Phase) (round : Round) : Prop := round.Follows (Rests base) base

theorem isRound_worker (settings : ControllerSettings) : IsRound .free (worker settings) := by
  unfold IsRound worker processNext
  simp only [Program.bind_eq, Program.bind_assoc]
  refine follows_tryGet rfl (fun key => ((returns_process settings key).bind _).bind _)
    fun key => ?_
  simp only [Program.bind_assoc]
  refine (follows_process settings key).bind ?_
  rintro _ _ rfl
  rfl

theorem isRound_addAt (time : Option Nat) (key : Key) : IsRound .free (addAt time key) := by
  have added : Follows (Rests .free) ((add key).bind fun _ => .done (some .quiet)) .free := by
    refine (follows_add key _).bind ?_
    rintro _ _ rfl
    rfl
  cases time with
  | none => exact added
  | some time =>
    refine (follows_plain (r := .waitUntil time none) trivial _).bind ?_
    rintro _ _ ⟨-, rfl⟩
    exact added

theorem isRound_reader (id : ReaderId) : IsRound .reading (reader id) := by
  intro received _
  cases received with
  | event e =>
    refine ⟨_, .receive, (reacts_handleEvent e).bind _, (follows_handleEvent e _).bind ?_⟩
    rintro _ _ rfl
    rfl
  | lagged missed =>
    refine ⟨_, .receive, sweeps_enqueueAll.bind _, (follows_enqueueAll _).bind ?_⟩
    rintro _ _ rfl
    rfl

theorem isRound_run (settings : ControllerSettings) : IsRound .starting (run settings) := by
  intro id _
  refine ⟨_, .subscribe, trivial, (follows_enqueueAll _).bind ?_⟩
  rintro (e | _) _ rfl
  · rfl
  refine (follows_plain (r := .startReader id) trivial _).bind ?_
  rintro readerTask _ ⟨-, rfl⟩
  refine (follows_startWorkers _ _).bind ?_
  rintro workers _ rfl
  exact fun _ ho => ho.elim

end ClusterLink.Controller

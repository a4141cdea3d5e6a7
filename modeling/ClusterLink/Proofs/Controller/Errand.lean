import ClusterLink.Proofs.Controller.Typestate
import ClusterLink.Proofs.Reconcile.Stage

/-! What a task does with a key that it was handed: it reconciles the key, and right after the
outcome it counts a failure, if there was an error, or forgets the failures. A counted failure is
followed by an add after the delay that belongs to the count. No other work counts or forgets
failures. -/

namespace ClusterLink

/-- All results of a program are as `P` says, whatever it is answered. -/
def Program.Yields {Q : Type} {A : Q → Type} (P : α → Prop) : Program A α → Prop
  | .done a => P a
  | .ask _ next => ∀ answer, Yields P (next answer)

theorem Program.Yields.bind {Q : Type} {A : Q → Type} {P : α → Prop} {P' : β → Prop}
    {p : Program A α} {f : α → Program A β} (h : p.Yields P) (hf : ∀ a, P a → (f a).Yields P') :
    (p.bind f).Yields P' := by
  induction p with
  | done a => exact hf a h
  | ask q next ih => exact fun answer => ih answer (h answer)

/-- If a key is to be looked at again, and not because of an error, then after a given time. -/
def Outcome.IsDated (o : Outcome) : Prop := o.error = none → o.decision ≠ ⟨true, none⟩

/-! ## Outcomes of a reconcile -/

theorem Decision.ofStatus_ne (s : Status) : ofStatus s ≠ ⟨true, none⟩ := by
  cases s <;> decide

namespace Outcome

theorem isDated_failed (d : Decision) (e : ReconcileError) : (failed d e).IsDated := by
  simp [IsDated, failed]

theorem isDated_done : (ok .done).IsDated := fun _ => by decide

theorem isDated_paused : (ok .paused).IsDated := fun _ => by decide

theorem isDated_ofStatus (s : Status) (error : Option ReconcileError) :
    IsDated ⟨.ofStatus s, error⟩ :=
  fun _ => Decision.ofStatus_ne s

end Outcome

namespace Reconcile.Stage

/-- The outcome of a reconcile that ended is dated. -/
def IsDated : Stage → Prop
  | .ended o => o.IsDated
  | _ => True

theorem isDated_reported (a : Association) (new : Status) (error : Option ReconcileError) :
    (reported a new error).IsDated := by
  unfold reported
  split
  next => exact Outcome.isDated_ofStatus new error
  next => trivial

theorem isDated_opened (key : Key) (a : Association) : (opened key a).IsDated := by
  unfold opened
  repeat' split
  case isTrue => exact Outcome.isDated_paused
  case isFalse.isTrue.isFalse => exact Outcome.isDated_done
  all_goals trivial

theorem isDated_finalized (a : Association) : (finalized a).IsDated := by
  unfold finalized
  split
  next => exact Outcome.isDated_done
  next => trivial

theorem isDated_of_view {s : Stage} {call : Call} {next : call.Answer → Stage}
    (h : s.view = .inr ⟨call, next⟩) (answer : call.Answer) : (next answer).IsDated := by
  cases s <;> simp only [view, reduceCtorEq, Sum.inr.injEq, Sigma.mk.injEq] at h
  all_goals obtain ⟨rfl, h⟩ := h; cases h
  case fetch key =>
    cases answer with
    | ok a => exact isDated_opened key a
    | error e =>
      simp only
      split
      · exact Outcome.isDated_done
      · exact Outcome.isDated_failed _ _
  case register | release =>
    cases answer with
    | ok stored => exact isDated_finalized stored
    | error => exact Outcome.isDated_failed _ _
  case unwatchKibana | unwatchElasticsearch => trivial
  case storeStatus new error =>
    cases answer with
    | ok => exact Outcome.isDated_ofStatus new error
    | error => exact Outcome.isDated_failed _ _
  all_goals
    cases answer <;> simp only <;> repeat' split
    all_goals first | trivial | exact isDated_reported ..

theorem yields_program (s : Stage) (h : s.IsDated) : s.program.Yields Outcome.IsDated := by
  induction s using Stage.program.induct with
  | case1 s o hv =>
    rw [program_eq_done hv]
    cases s <;> cases hv
    exact h
  | case2 s call next hv ih =>
    rw [program_eq_ask hv fun _ => rfl]
    exact fun answer => ih answer (isDated_of_view hv answer)

end Reconcile.Stage

theorem Reconcile.yields_reconcile (key : Key) : (reconcile key).Yields Outcome.IsDated := by
  rw [reconcile_eq_program]
  exact Stage.yields_program (.fetch key) trivial

theorem Calls.yields_within {P : α → Prop} {p : Calls α} (h : p.Yields P)
    (deadline : Option Nat) : (p.within deadline).Yields fun a? => ∀ a, a? = some a → P a := by
  induction p with
  | done a => exact fun b e => Option.some.inj e ▸ h
  | ask call next ih =>
    have go : Program.Yields (fun a? => ∀ a, a? = some a → P a)
        (.ask (.call call) fun answer => within deadline (next answer) : Work (Option α)) :=
      fun answer => ih answer (h answer)
    rw [within]
    split
    next => exact go
    next =>
      intro time reached
      cases reached with
      | false => exact fun _ e => absurd e (Option.some_ne_none _).symm
      | true => exact go

theorem Controller.yields_reconcileWithDeadline (settings : ControllerSettings) (key : Key) :
    (reconcileWithDeadline settings key).Yields Outcome.IsDated := by
  intro now _
  refine (Calls.yields_within (Reconcile.yields_reconcile key) _).bind fun o? h => ?_
  cases o? with
  | none => exact nofun
  | some o => exact h o rfl

/-! ## Errands -/

/-- A request that hands out no key and has nothing to do with failures. -/
def Request.IsAside : Request → Prop
  | .take | .countFailure _ | .forget _ => False
  | _ => True

/-- Where a task stands with the key that it was handed. -/
inductive Errand where
  | free
  /-- It reconciles the key, and this is left of it. -/
  | reconciling (key : Key) (rest : Work Outcome)
  /-- It counted a failure, and was told how many there had been. -/
  | failed (key : Key) (failures : UInt32)

/-- What a request of a task does to its errand. -/
inductive Errand.Use (settings : ControllerSettings) :
    Errand → (r : Request) → r.Answer → Errand → Prop where
  | aside {r answer} (h : r.IsAside) : Use settings .free r answer .free
  | noKey {taken} (h : ∀ key, taken ≠ .key key) : Use settings .free .take taken .free
  | key {key} : Use settings .free .take (.key key)
    (.reconciling key (Controller.reconcileWithDeadline settings key))
  | leave {key r next} : Use settings (.reconciling key (.ask r next)) .leave ()
    (.reconciling key (.ask r next))
  | service {key r next answer} (h : r.IsService) :
    Use settings (.reconciling key (.ask r next)) r answer (.reconciling key (next answer))
  | failure {key o failures} (h : o.error.isSome) :
    Use settings (.reconciling key (.done o)) (.countFailure key) failures (.failed key failures)
  | success {key o} (h : o.error = none) :
    Use settings (.reconciling key (.done o)) (.forget key) () .free
  | retry {key failures} :
    Use settings (.failed key failures) (.addLater key (settings.backoff.delay failures)) () .free

/-- Only who came to an error counts a failure. -/
theorem Errand.Use.of_countFailure {settings : ControllerSettings} {e e' : Errand} {key : Key}
    {failures : UInt32} (h : e.Use settings (.countFailure key) failures e') :
    e' = .failed key failures ∧ ∃ o, e = .reconciling key (.done o) ∧ o.error.isSome := by
  cases h with
  | failure herror => exact ⟨rfl, _, rfl, herror⟩
  | aside ha => exact ha.elim
  | service hs => exact hs.elim

/-- Only who came to a success forgets the failures. -/
theorem Errand.Use.of_forget {settings : ControllerSettings} {e e' : Errand} {key : Key}
    {answer : Unit} (h : e.Use settings (.forget key) answer e') :
    ∃ o, e = .reconciling key (.done o) ∧ o.error = none := by
  cases h with
  | success hnone => exact ⟨_, rfl, hnone⟩
  | aside ha => exact ha.elim
  | service hs => exact hs.elim

namespace Controller

open Work

variable {settings : ControllerSettings} {key : Key}

/-- A round of a task that is free before it and after it. -/
def IsErrand (settings : ControllerSettings) (round : Round) : Prop :=
  round.Keeps (Errand.Use settings) (fun _ e => e = .free) .free

theorem isErrand_of_isAside {round : Round} (h : round.Only Request.IsAside) :
    IsErrand settings round :=
  h.keeps fun _ _ h => .aside h

/-! ## Work beside -/

theorem isAside_add (key : Key) : (add key).Only Request.IsAside := by
  refine (only_request (r := .offer key) trivial).bind fun queued => ?_
  cases queued with
  | false => trivial
  | true => exact only_request (r := .notifyOne) trivial

theorem isAside_finish (key : Key) : (finish key).Only Request.IsAside := by
  refine (only_request (r := .finish key) trivial).bind fun queued => ?_
  cases queued with
  | false => trivial
  | true => exact only_request (r := .notifyOne) trivial

theorem isAside_addAll (keys : List Key) : (addAll keys).Only Request.IsAside := by
  induction keys with
  | nil => trivial
  | cons key keys ih => exact (isAside_add key).bind fun _ => ih

theorem isAside_enqueueAll : enqueueAll.Only Request.IsAside := by
  refine (only_request (r := .list) trivial).bind fun answer => ?_
  cases answer with
  | error => trivial
  | ok l => exact (isAside_addAll _).bind fun _ => trivial

theorem isAside_handleEvent (e : Event) : (handleEvent e).Only Request.IsAside := by
  obtain ⟨kind, key, action⟩ := e
  cases kind with
  | association => exact isAside_add key
  | elasticsearch | kibana =>
    exact (only_request (r := .watchersOf _ key) trivial).bind isAside_addAll
  | secret => trivial

theorem isAside_addAt (time : Option Nat) (key : Key) :
    (addAt time key).Only Request.IsAside := by
  have added := (isAside_add key).bind (f := fun _ => .done (some Ending.quiet)) fun _ => trivial
  cases time with
  | none => exact added
  | some time => exact (only_request (r := .waitUntil time none) trivial).bind fun _ => added

theorem isAside_reader (id : ReaderId) : (reader id).Only Request.IsAside := by
  refine (only_request (r := .receive id) trivial).bind fun received => ?_
  cases received with
  | event e => exact (isAside_handleEvent e).bind fun _ => trivial
  | lagged missed => exact isAside_enqueueAll.bind fun _ => trivial

theorem isAside_startWorkers (n : Nat) : (startWorkers n).Only Request.IsAside := by
  induction n with
  | zero => trivial
  | succ n ih =>
    exact (only_request (r := .startWorker) trivial).bind fun _ => ih.bind fun _ => trivial

theorem isAside_joinAll (ids : List TaskId) : (joinAll ids).Only Request.IsAside := by
  induction ids with
  | nil => trivial
  | cons id ids ih => exact (only_request (r := .join id) trivial).bind fun _ => ih

theorem isAside_run (settings : ControllerSettings) : (run settings).Only Request.IsAside := by
  refine (only_request (r := .subscribe) trivial).bind fun id => isAside_enqueueAll.bind fun e => ?_
  cases e with
  | error => trivial
  | ok =>
    refine (only_request (r := .startReader id) trivial).bind fun task => ?_
    refine (isAside_startWorkers _).bind fun ids => ?_
    refine (only_request (r := .stopped) trivial).bind fun _ => ?_
    refine (only_request (r := .cancel task) trivial).bind fun _ => ?_
    refine (only_request (r := .shutDown) trivial).bind fun _ => ?_
    refine (only_request (r := .notifyAll) trivial).bind fun _ => ?_
    exact (isAside_joinAll ids).bind fun _ => trivial

/-! ## Work on a key -/

/-- What is left of a reconcile is what it has not yet asked. -/
theorem keeps_reconciling {P : Outcome → Prop} {p : Work Outcome}
    (hs : p.Only Request.IsService) (hp : p.Yields P) : p.Keeps (Errand.Use settings)
      (fun o e => P o ∧ e = .reconciling key (.done o)) (.reconciling key p) := by
  induction p with
  | done o => exact ⟨hp, rfl⟩
  | ask r next ih => exact fun answer => ⟨_, .service hs.1, ih answer (hs.2 answer) (hp answer)⟩

theorem keeps_schedule {o : Outcome} (ho : o.IsDated) :
    (schedule settings key o).Keeps (Errand.Use settings) (fun _ e => e = .free)
      (.reconciling key (.done o)) := by
  obtain ⟨⟨requeue, after⟩, error⟩ := o
  cases error with
  | some e => exact fun failures => ⟨_, .failure rfl, fun _ => ⟨_, .retry, rfl⟩⟩
  | none =>
    refine fun _ => ⟨_, .success rfl, ?_⟩
    cases after with
    | some delay => exact fun _ => ⟨_, .aside trivial, rfl⟩
    | none =>
      cases requeue with
      | false => exact rfl
      | true => exact absurd rfl (ho rfl)

theorem keeps_process (settings : ControllerSettings) (key : Key) :
    (process settings key).Keeps (Errand.Use settings) (fun _ e => e = .free)
      (.reconciling key (reconcileWithDeadline settings key)) := by
  refine (keeps_reconciling (isService_reconcileWithDeadline settings key)
    (yields_reconcileWithDeadline settings key)).bind ?_
  rintro o _ ⟨ho, rfl⟩
  refine (keeps_schedule ho).bind ?_
  rintro _ _ rfl
  exact (isAside_finish key).keeps fun _ _ h => .aside h

theorem keeps_processNext (settings : ControllerSettings) :
    (processNext settings).Keeps (Errand.Use settings) (fun _ e => e = .free) .free := by
  refine fun _ => ⟨_, .aside trivial, fun taken => ?_⟩
  cases taken with
  | shutDown => exact ⟨_, .noKey nofun, fun _ => ⟨_, .aside trivial, rfl⟩⟩
  | empty => exact ⟨_, .noKey nofun, fun _ => ⟨_, .aside trivial, rfl⟩⟩
  | key key =>
    refine ⟨_, .key, fun _ => ⟨_, .leave, ?_⟩⟩
    refine (keeps_process settings key).bind ?_
    rintro _ _ rfl
    exact rfl

theorem isErrand_worker (settings : ControllerSettings) : IsErrand settings (worker settings) := by
  refine (keeps_processNext settings).bind ?_
  rintro more _ rfl
  split <;> exact rfl

theorem isErrand_processOnce (settings : ControllerSettings) :
    IsErrand settings (processOnce settings) := by
  refine (keeps_processNext settings).bind ?_
  rintro more _ rfl
  split <;> exact rfl

end Controller

end ClusterLink

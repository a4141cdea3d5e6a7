import ClusterLink.Proofs.Controller.Typestate

/-! Where a task stands in the waking of those who wait for a key. Whoever asks for a key announces
itself first, then looks, and sleeps only after it saw an empty queue; whoever queued a key wakes
one, and whoever closed the queue wakes all. Each piece of work that has to do with the queue is
checked to keep to that. -/

namespace ClusterLink

/-- A request that has nothing to do with waking. -/
def Request.IsQuiet : Request → Prop
  | .call _ | .countReconcile | .now | .reachable _ | .waitUntil .. | .countFailure _ | .forget _ =>
    True
  | _ => False

theorem Request.IsService.isQuiet {r : Request} (h : r.IsService) : r.IsQuiet := by
  cases r <;> trivial

/-- Where a task stands. -/
inductive Stand where
  | idle
  /-- It announced itself and is about to look into the queue. -/
  | announced
  /-- It saw an empty queue and is about to sleep, or asleep. -/
  | looked
  /-- It was handed a key or saw the queue closed, and is about to take its announcement back. -/
  | leaving
  /-- It was woken, and is about to announce itself again. -/
  | roused
  /-- It queued a key, and is about to wake one who waits. -/
  | owing
  /-- It closed the queue, and is about to wake all who wait. -/
  | closing
  deriving DecidableEq

namespace Stand

/-- Whether a task counts among those who announced themselves. -/
def IsListed : Stand → Prop
  | .announced | .looked | .leaving => True
  | .idle | .roused | .owing | .closing => False

/-- How many keys are seen to by a task that stands there: it is about to look into the queue, or
to wake one who will. -/
def credit : Stand → Nat
  | .announced | .roused | .owing => 1
  | .idle | .looked | .leaving | .closing => 0

/-- What a request of a task does to where it stands. -/
inductive Use : Stand → (r : Request) → r.Answer → Stand → Prop where
  | quiet {r answer} (h : r.IsQuiet) : Use .idle r answer .idle
  | addLater {key delay} : Use .idle (.addLater key delay) () .idle
  | enable {s} (h : s = .idle ∨ s = .roused) : Use s .enable () .announced
  | take {taken} : Use .announced .take taken (if taken = .empty then .looked else .leaving)
  | sleep : Use .looked .sleep () .roused
  | leave : Use .leaving .leave () .idle
  | offer {key} {queued : Bool} : Use .idle (.offer key) queued (if queued then .owing else .idle)
  | finish {key} {queued : Bool} : Use .idle (.finish key) queued (if queued then .owing else .idle)
  | notifyOne : Use .owing .notifyOne () .idle
  | shutDown : Use .idle .shutDown () .closing
  | notifyAll : Use .closing .notifyAll () .idle

end Stand

/-- Work keeps to where its task stands, and ends with a result and a stand of `Q`. -/
abbrev Work.Attends (Q : α → Stand → Prop) (p : Work α) (s : Stand) : Prop := p.Keeps Stand.Use Q s

namespace Controller

open Work

/-! ## Rounds -/

/-- Gives a key back once. -/
def finishOnce (key : Key) : Round := do
  finish key
  return some .quiet

/-- Closes the queue once. -/
def closeOnce : Round := do
  shutDown
  return some .quiet

/-- A task that has to do with the queue: it waits for a key, adds one now or later, gives one back,
closes the queue, or handles keys as a worker does. -/
inductive Visit : Round → Prop
  | get : Visit getOnce
  | add (time : Option Nat) (key : Key) : Visit (addAt time key)
  | done (key : Key) : Visit (finishOnce key)
  | shutDown : Visit closeOnce
  | worker (settings : ControllerSettings) : Visit (worker settings)
  | processOnce (settings : ControllerSettings) : Visit (processOnce settings)

/-- Where a task stands after a round; another follows only if it can start where this one ends. -/
def Halts (again : Prop) : Option Ending → Stand → Prop
  | none, s => again ∧ (s = .idle ∨ s = .roused)
  | some _, s => s = .idle

/-- A round keeps to where its task stands, from the first time on and whenever it is done again. -/
structure Attends (again : Prop) (round : Round) : Prop where
  first : round.Attends (Halts again) .idle
  next : again → round.Attends (Halts again) .roused

variable {settings : ControllerSettings} {key : Key} {s : Stand}

/-! ## Pieces -/

theorem attends_add (key : Key) : (add key).Attends (fun _ s => s = .idle) .idle := by
  intro queued
  refine ⟨_, .offer, ?_⟩
  cases queued with
  | false => exact rfl
  | true => exact fun _ => ⟨_, .notifyOne, rfl⟩

theorem attends_finish (key : Key) : (finish key).Attends (fun _ s => s = .idle) .idle := by
  intro queued
  refine ⟨_, .finish, ?_⟩
  cases queued with
  | false => exact rfl
  | true => exact fun _ => ⟨_, .notifyOne, rfl⟩

theorem attends_shutDown : shutDown.Attends (fun _ s => s = .idle) .idle :=
  fun _ => ⟨_, .shutDown, fun _ => ⟨_, .notifyAll, rfl⟩⟩

/-- One who got no key was woken, and otherwise nothing is left of its announcement. -/
theorem attends_tryGet (hs : s = .idle ∨ s = .roused) :
    tryGet.Attends (fun taken s => s = if taken = .empty then .roused else .idle) s := by
  refine fun _ => ⟨_, .enable hs, fun taken => ⟨_, .take, ?_⟩⟩
  cases taken with
  | empty => exact fun _ => ⟨_, .sleep, rfl⟩
  | shutDown | key => exact fun _ => ⟨_, .leave, rfl⟩

theorem attends_reconcileWithDeadline (settings : ControllerSettings) (key : Key) :
    (reconcileWithDeadline settings key).Attends (fun _ s => s = .idle) .idle :=
  (isService_reconcileWithDeadline settings key).keeps fun _ _ h => .quiet h.isQuiet

theorem attends_addRateLimited (settings : ControllerSettings) (key : Key) :
    (addRateLimited settings key).Attends (fun _ s => s = .idle) .idle :=
  fun _ => ⟨_, .quiet trivial, fun _ => ⟨_, .addLater, rfl⟩⟩

theorem attends_schedule (settings : ControllerSettings) (key : Key) (outcome : Outcome) :
    (schedule settings key outcome).Attends (fun _ s => s = .idle) .idle := by
  unfold schedule
  split
  next => exact attends_addRateLimited settings key
  next =>
    refine fun _ => ⟨_, .quiet trivial, ?_⟩
    obtain ⟨⟨requeue, after⟩, error⟩ := outcome
    cases after with
    | some delay => exact fun _ => ⟨_, .addLater, rfl⟩
    | none =>
      cases requeue with
      | true => exact attends_addRateLimited settings key
      | false => exact rfl

theorem attends_process (settings : ControllerSettings) (key : Key) :
    (process settings key).Attends (fun _ s => s = .idle) .idle := by
  refine (attends_reconcileWithDeadline settings key).bind ?_
  rintro outcome _ rfl
  refine (attends_schedule settings key outcome).bind ?_
  rintro _ _ rfl
  exact attends_finish key

theorem attends_processNext (settings : ControllerSettings) (hs : s = .idle ∨ s = .roused) :
    (processNext settings).Attends
      (fun more s => s = if more = none then .roused else .idle) s := by
  refine (attends_tryGet hs).bind ?_
  rintro taken _ rfl
  cases taken with
  | shutDown | empty => exact rfl
  | key key =>
    refine (attends_process settings key).bind ?_
    rintro _ _ rfl
    exact rfl

theorem attends_addAt (time : Option Nat) (key : Key) : Attends False (addAt time key) := by
  have added : Work.Attends (Halts False) ((add key).bind fun _ => .done (some .quiet)) .idle :=
    (attends_add key).bind fun _ _ h => h
  refine ⟨?_, False.elim⟩
  cases time with
  | none => exact added
  | some time => exact fun _ => ⟨_, .quiet trivial, added⟩

theorem Visit.attends {round : Round} (h : Visit round) : ∃ again, Attends again round := by
  have again (round : Round)
      (h : ∀ s, s = Stand.idle ∨ s = .roused → round.Attends (Halts True) s) :
      ∃ again, Attends again round :=
    ⟨True, h _ (.inl rfl), fun _ => h _ (.inr rfl)⟩
  cases h with
  | get =>
    refine again _ fun s hs => (attends_tryGet hs).bind ?_
    rintro taken _ rfl
    cases taken with
    | empty => exact ⟨trivial, .inr rfl⟩
    | shutDown | key => exact rfl
  | add time key => exact ⟨False, attends_addAt time key⟩
  | done key => exact ⟨False, (attends_finish key).bind fun _ _ h => h, False.elim⟩
  | shutDown => exact ⟨False, attends_shutDown.bind fun _ _ h => h, False.elim⟩
  | worker settings =>
    refine again _ fun s hs => (attends_processNext settings hs).bind ?_
    rintro (_ | _ | _) _ rfl
    · exact ⟨trivial, .inr rfl⟩
    · exact rfl
    · exact ⟨trivial, .inl rfl⟩
  | processOnce settings =>
    refine again _ fun s hs => (attends_processNext settings hs).bind ?_
    rintro (_ | more) _ rfl
    · exact ⟨trivial, .inr rfl⟩
    · exact rfl

end Controller

end ClusterLink

import ClusterLink.Controller.Dispatch
import ClusterLink.Proofs.Reconcile.Stage

/-! The course of a task. `Work.Makes` and what is built on it say which keys a piece of work is
going to add to the queue. `Phase` says what a task is responsible for and `Work.Follows` that its
requests keep to that, whatever they are answered while the queue stays open;
so each task of the controller is checked once, piece by piece, and not together with the others. -/

namespace ClusterLink

open Reconcile

namespace Request

/-- The answer of a listing that fails. -/
def Refused : (r : Request) → r.Answer → Prop
  | .list, .error _ => True
  | _, _ => False

/-- An answer that can be got while nobody shuts the controller down. -/
def Ordinary : (r : Request) → r.Answer → Prop
  | .take, .shutDown | .stopped, _ => False
  | _, _ => True

/-- A request that any task may make at any time. -/
def IsPlain : Request → Prop
  | .call _ | .take | .finish _ | .shutDown | .subscribe | .receive _ | .addLater .. | .stopped
  | .cancel _ => False
  | .list | .countReconcile | .now | .reachable _ | .waitUntil .. | .enable | .sleep | .leave
  | .offer _ | .notifyOne | .countFailure _ | .forget _ | .notifyAll | .watchersOf ..
  | .startReader _ | .startWorker | .join _ => True

end Request

/-! ## What work is going to do -/

namespace Work

/-- Work makes a request of a sort before it ends, as long as listings succeed. -/
def Makes (P : Request → Prop) : Work α → Prop
  | .done _ => False
  | .ask r next => P r ∨ ∀ answer, ¬r.Refused answer → Makes P (next answer)

/-- Work adds a key to the queue, now or after a delay. -/
def Offers (key : Key) : Work α → Prop :=
  Makes fun r => r = .offer key ∨ ∃ delay, r = .addLater key delay

/-- Work gives a key back to the queue. -/
def Returns (key : Key) : Work α → Prop := Makes (· = .finish key)

/-- Work starts the task that reads the events of a reader. -/
def Starts (reader : ReaderId) : Work α → Prop := Makes (· = .startReader reader)

/-- Work lists the associations and adds the keys of all. -/
def Sweeps : Work α → Prop
  | .ask .list next => ∀ l, ∀ a ∈ l, Offers a.key (next (.ok l))
  | .ask .subscribe next => ∀ id, Sweeps (next id)
  | _ => False

/-- Work looks up whom an object concerns and adds their keys. -/
def Maps (kind : Kind) (key : Key) : Work α → Prop
  | .ask (.watchersOf kind' key') next =>
    (kind' = kind ∧ key' = key) ∧ ∀ keys, ∀ k ∈ keys, Offers k (next keys)
  | _ => False

/-- Work does what an event asks for. -/
def Reacts (e : Event) (p : Work α) : Prop :=
  match e.kind with
  | .association => p.Offers e.key
  | .elasticsearch | .kibana => p.Maps e.kind e.key
  | .secret => True

/-- Work does what was read from the event log asks for, and gives back what it took. -/
def Heeds : (r : Request) → r.Answer → Work α → Prop
  | .receive _, .event e, p => p.Reacts e
  | .receive _, .lagged _, p => p.Sweeps
  | .take, .key key, p => p.Returns key
  | _, _, _ => True

variable {α β : Type} {P : Request → Prop} {key : Key} {kind : Kind} {p : Work α}
  {f : α → Work β} {e : Event} {r : Request} {next : r.Answer → Work α}

theorem Makes.step (h : Makes P (.ask r next)) (hr : ¬P r) {answer : r.Answer}
    (ha : ¬r.Refused answer) : Makes P (next answer) :=
  h.resolve_left hr answer ha

theorem Makes.bind (h : p.Makes P) (f : α → Work β) : Makes P (p.bind f) := by
  induction p with
  | done => exact h.elim
  | ask r next ih => exact h.imp_right fun h answer ha => ih answer (h answer ha)

theorem makes_bind (p : Work α) (h : ∀ a, (f a).Makes P) : Makes P (p.bind f) := by
  induction p with
  | done a => exact h a
  | ask r next ih => exact .inr fun answer _ => ih answer

theorem Offers.bind (h : p.Offers key) (f : α → Work β) : Offers key (p.bind f) := Makes.bind h f

theorem Returns.bind (h : p.Returns key) (f : α → Work β) : Returns key (p.bind f) :=
  Makes.bind h f

theorem Sweeps.bind (h : p.Sweeps) (f : α → Work β) : Sweeps (p.bind f) := by
  induction p with
  | done => exact h.elim
  | ask r next ih =>
    cases r with
    | list => exact fun l a ha => Offers.bind (h l a ha) f
    | subscribe => exact fun id => ih id (h id)
    | _ => exact h.elim

theorem Maps.bind (h : p.Maps kind key) (f : α → Work β) : Maps kind key (p.bind f) := by
  cases p with
  | done => exact h.elim
  | ask r next =>
    cases r with
    | watchersOf => exact ⟨h.1, fun keys k hk => Offers.bind (h.2 keys k hk) f⟩
    | _ => exact h.elim

theorem Reacts.bind (h : p.Reacts e) (f : α → Work β) : Reacts e (p.bind f) := by
  obtain ⟨kind, key, action⟩ := e
  cases kind with
  | association => exact Offers.bind h f
  | elasticsearch | kibana => exact Maps.bind h f
  | secret => trivial

theorem Heeds.bind {answer : r.Answer} (h : Heeds r answer p) (f : α → Work β) :
    Heeds r answer (Program.bind p f) := by
  cases r <;> first | trivial | skip
  case take =>
    cases answer with
    | key => exact Returns.bind h f
    | shutDown | empty => trivial
  case receive =>
    cases answer with
    | event e => exact Reacts.bind h f
    | lagged => exact Sweeps.bind h f

end Work

/-! ## What a task is responsible for -/

/-- Where a task stands. -/
inductive Phase where
  /-- It has not started to read the event log. -/
  | starting
  /-- It reads the event log. -/
  | reading
  | free
  /-- It holds a key, which it is reconciling. -/
  | holding (key : Key) (stage : Stage)

/-- What a request of a task does to its phase. A key is given back after a reconcile that asked for
nothing more, or after another look was arranged for. -/
inductive Phase.Turn : Phase → (r : Request) → r.Answer → Phase → Prop where
  | plain {p : Phase} {r answer} (h : r.IsPlain) : Turn p r answer p
  | subscribe {id} : Turn .starting .subscribe id .free
  | receive {id received} : Turn .reading (.receive id) received .reading
  | key {key} : Turn .free .take (.key key) (.holding key (.fetch key))
  | empty : Turn .free .take .empty .free
  | call {k} {s : Stage} {q next answer} (h : s.view = .inr ⟨q, next⟩) :
    Turn (.holding k s) (.call q) answer (.holding k (next answer))
  | addLater {k s delay} :
    Turn (.holding k s) (.addLater k delay) () (.holding k (.ended (.ok .done)))
  | finish {k queued} : Turn (.holding k (.ended (.ok .done))) (.finish k) queued .free

namespace Phase.Turn

variable {p p' : Phase} {r : Request} {answer : r.Answer}

theorem ne_cancel (h : Turn p r answer p') (task : TaskId) : r ≠ .cancel task := by
  rintro rfl
  cases h
  contradiction

theorem ne_shutDown (h : Turn p r answer p') : r ≠ .shutDown := by
  rintro rfl
  cases h
  contradiction

/-- Nothing starts again, and the reader of the log goes on reading. -/
theorem of_starting (h : Turn p r answer .starting) : p = .starting := by
  cases h
  rfl

theorem of_reading (h : Turn .reading r answer p') : p' = .reading := by
  cases h <;> rfl

end Phase.Turn

namespace Work

/-- The requests of work keep to the phase of its task, and it ends with a result and in a phase
of `Q`. -/
def Follows (Q : α → Phase → Prop) : Work α → Phase → Prop
  | .done a, p => Q a p
  | .ask r next, p => ∀ answer, r.Ordinary answer →
    ∃ p', p.Turn r answer p' ∧ Heeds r answer (next answer) ∧ Follows Q (next answer) p'

variable {α β : Type} {Q Q' : α → Phase → Prop} {R : β → Phase → Prop} {w : Work α} {p : Phase}
  {f : α → Work β} {r : Request}

theorem Follows.mono (h : w.Follows Q p) (hQ : ∀ a p, Q a p → Q' a p) : w.Follows Q' p := by
  induction w generalizing p with
  | done a => exact hQ a p h
  | ask r next ih =>
    intro answer ha
    obtain ⟨p', ht, hheeds, hnext⟩ := h answer ha
    exact ⟨p', ht, hheeds, ih answer hnext⟩

theorem Follows.bind (h : w.Follows Q p) (hf : ∀ a p, Q a p → (f a).Follows R p) :
    Follows R (w.bind f) p := by
  induction w generalizing p with
  | done a => exact hf a p h
  | ask r next ih =>
    intro answer ha
    obtain ⟨p', ht, hheeds, hnext⟩ := h answer ha
    exact ⟨p', ht, hheeds.bind f, ih answer hnext⟩

theorem heeds_of_isPlain (h : r.IsPlain) {answer : r.Answer} (w : Work α) : Heeds r answer w := by
  cases r <;> trivial

theorem follows_plain (h : r.IsPlain) (p : Phase) :
    Follows (fun answer p' => r.Ordinary answer ∧ p' = p) (request r) p :=
  fun _ ha => ⟨p, .plain h, heeds_of_isPlain h _, ha, rfl⟩

end Work

end ClusterLink

import ClusterLink.Controller.Dispatch

/-! Typestates of work. Each request takes its task from one state to another, as its answer says,
and a piece of work keeps to that if it does so whatever it is answered. Work that makes requests of
one sort only keeps to a state in which they leave it. -/

namespace ClusterLink

/-- What reconciling asks for. -/
def Request.IsService : Request → Prop
  | .call _ | .countReconcile | .now | .reachable _ | .waitUntil .. => True
  | _ => False

namespace Work

/-- All requests of work are of a sort. -/
def Only (P : Request → Prop) : Work α → Prop
  | .done _ => True
  | .ask r next => P r ∧ ∀ answer, Only P (next answer)

/-- Every request of work is a use of the state of its task, and it ends with a result and in a
state of `Q`. -/
def Keeps (Use : S → (r : Request) → r.Answer → S → Prop) (Q : α → S → Prop) : Work α → S → Prop
  | .done a, s => Q a s
  | .ask r next, s => ∀ answer, ∃ s', Use s r answer s' ∧ Keeps Use Q (next answer) s'

variable {S α β : Type} {P : Request → Prop} {Use : S → (r : Request) → r.Answer → S → Prop}
  {Q : α → S → Prop} {R : β → S → Prop} {p : Work α} {f : α → Work β} {s : S}

theorem only_request {r : Request} (h : P r) : Only P (request r) := ⟨h, fun _ => trivial⟩

theorem Only.bind (h : p.Only P) (hf : ∀ a, (f a).Only P) : Only P (p.bind f) := by
  induction p with
  | done a => exact hf a
  | ask r next ih => exact ⟨h.1, fun answer => ih answer (h.2 answer)⟩

theorem Keeps.bind (h : p.Keeps Use Q s) (hf : ∀ a s, Q a s → (f a).Keeps Use R s) :
    Keeps Use R (p.bind f) s := by
  induction p generalizing s with
  | done a => exact hf a s h
  | ask r next ih =>
    intro answer
    obtain ⟨s', hu, hnext⟩ := h answer
    exact ⟨s', hu, ih answer hnext⟩

theorem Only.keeps (h : p.Only P) (hP : ∀ r answer, P r → Use s r answer s) :
    p.Keeps Use (fun _ s' => s' = s) s := by
  induction p with
  | done a => exact rfl
  | ask r next ih => exact fun answer => ⟨s, hP r answer h.1, ih answer (h.2 answer)⟩

end Work

namespace Controller

open Work

theorem isService_reach (op : Operation) (deadline : Option Nat) :
    (reach op deadline).Only Request.IsService :=
  (only_request (r := .reachable op) trivial).bind fun time =>
    only_request (r := .waitUntil time deadline) trivial

theorem isService_within (deadline : Option Nat) (p : Calls α) :
    (p.within deadline).Only Request.IsService := by
  induction p with
  | done => trivial
  | ask call next ih =>
    have go : Only Request.IsService
        (.ask (.call call) fun answer => Calls.within deadline (next answer)) := ⟨trivial, ih⟩
    rw [Calls.within]
    split
    next => exact go
    next op _ =>
      refine (isService_reach op deadline).bind fun reached => ?_
      cases reached with
      | false => trivial
      | true => exact go

theorem isService_reconcileWithDeadline (settings : ControllerSettings) (key : Key) :
    (reconcileWithDeadline settings key).Only Request.IsService := by
  refine (only_request (r := .now) trivial).bind fun now => ?_
  refine (only_request (r := .countReconcile) trivial).bind fun _ => ?_
  refine (isService_within _ (reconcile key)).bind fun outcome => ?_
  cases outcome <;> trivial

end Controller

end ClusterLink

/-! Finite programs that act by asking: a program is its result, or a question with the program that
goes on from each answer. Whoever answers decides what happens between two questions, so one and
the same program runs alone, between the steps of others, or is dropped halfway. -/

namespace ClusterLink

/-- A program with questions `q : Q`, each answered by an `A q`, and a result in `α`. -/
inductive Program {Q : Type} (A : Q → Type) (α : Type) where
  | done (result : α)
  | ask (q : Q) (next : A q → Program A α)

namespace Program

variable {Q : Type} {A : Q → Type} {α β σ : Type}

/-- The program that goes on with `f` from the result of another. -/
def bind : Program A α → (α → Program A β) → Program A β
  | .done a, f => f a
  | .ask q next, f => .ask q fun answer => (next answer).bind f

instance : Monad (Program A) where
  pure := .done
  bind := bind

def request (q : Q) : Program A (A q) := .ask q .done

@[simp] theorem done_bind (a : α) (f : α → Program A β) : (done a).bind f = f a := rfl

@[simp] theorem ask_bind (q : Q) (next : A q → Program A α) (f : α → Program A β) :
    (ask q next).bind f = .ask q fun answer => (next answer).bind f := rfl

@[simp] theorem pure_eq (a : α) : (pure a : Program A α) = .done a := rfl

@[simp] theorem bind_eq (p : Program A α) (f : α → Program A β) : p >>= f = p.bind f := rfl

theorem bind_assoc (p : Program A α) (f : α → Program A β) (g : β → Program A γ) :
    (p.bind f).bind g = p.bind fun a => (f a).bind g := by
  induction p with
  | done => rfl
  | ask q next ih => simp [ih]

/-- Runs a program alone: each question is answered from a state, which the answer may change. -/
def run (answer : (q : Q) → σ → A q × σ) : Program A α → σ → α × σ
  | .done a, s => (a, s)
  | .ask q next, s => (next (answer q s).1).run answer (answer q s).2

@[simp] theorem run_done (answer : (q : Q) → σ → A q × σ) (a : α) (s : σ) :
    (done a : Program A α).run answer s = (a, s) := rfl

theorem run_bind (answer : (q : Q) → σ → A q × σ) (p : Program A α) (f : α → Program A β)
    (s : σ) : (p.bind f).run answer s = (f (p.run answer s).1).run answer (p.run answer s).2 := by
  induction p generalizing s with
  | done => rfl
  | ask q next ih => simp [run, ih]

end Program

end ClusterLink

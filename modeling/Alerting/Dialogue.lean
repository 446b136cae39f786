/-!
# Dialogues

A computation that depends on collaborators is a tree: it is done, or it asks a question and goes on
with the answer.  The tree says which questions are asked in which order, for all answers at once,
and nothing about who answers.  Who cannot answer reports a failure: a message, and the messages of
what caused it.
-/

namespace Alerting

/-- A failure with its causes, outermost first. -/
structure Failure where
  message : String
  causes : List String
deriving DecidableEq, Repr, Inhabited

namespace Failure

def ofMessage (message : String) : Failure :=
  ⟨message, []⟩

def within (failure : Failure) (context : String) : Failure :=
  ⟨context, failure.message :: failure.causes⟩

def full (failure : Failure) : String :=
  ": ".intercalate (failure.message :: failure.causes)

end Failure

/-- A computation of an `α` that may ask questions `q : Q` and is told answers of type `A q`. -/
inductive Dialogue (Q : Type) (A : Q → Type) (α : Type) where
  | done (result : α)
  | ask (question : Q) (next : A question → Dialogue Q A α)

namespace Dialogue

variable {Q R : Type} {A : Q → Type} {B : R → Type} {α β σ : Type}

def bind (d : Dialogue Q A α) (f : α → Dialogue Q A β) : Dialogue Q A β :=
  match d with
  | done a => f a
  | ask q next => ask q fun answer => (next answer).bind f

instance : Monad (Dialogue Q A) where
  pure := done
  bind := bind

def put (q : Q) : Dialogue Q A (A q) :=
  ask q done

/-- The result when the questions are answered by someone who may remember what was asked. -/
def run (answer : (q : Q) → σ → A q × σ) : Dialogue Q A α → σ → α × σ
  | done a, s => (a, s)
  | ask q next, s => (next (answer q s).1).run answer (answer q s).2

def perform {m : Type → Type} [Monad m] (answer : (q : Q) → m (A q)) : Dialogue Q A α → m α
  | done a => pure a
  | ask q next => do
    let reply ← answer q
    (next reply).perform answer

/-- The questions that are asked, with this answerer. -/
def asked (answer : (q : Q) → σ → A q × σ) : Dialogue Q A α → σ → List Q
  | done _, _ => []
  | ask q next, s => q :: (next (answer q s).1).asked answer (answer q s).2

/-- The dialogue in which someone who asks questions of another kind answers this one. -/
def relay (answer : (q : Q) → σ → Dialogue R B (A q × σ)) :
    Dialogue Q A α → σ → Dialogue R B (α × σ)
  | done a, s => done (a, s)
  | ask q next, s => (answer q s).bind fun reply => (next reply.1).relay answer reply.2

/-- The same dialogue among people who know more questions. -/
def embed (question : Q → R) (answer : (q : Q) → B (question q) → A q) :
    Dialogue Q A α → Dialogue R B α
  | done a => done a
  | ask q next => ask (question q) fun b => (next (answer q b)).embed question answer

@[simp] theorem bind_done (a : α) (f : α → Dialogue Q A β) : (done a).bind f = f a := rfl

@[simp] theorem bind_ask (q : Q) (next : A q → Dialogue Q A α) (f : α → Dialogue Q A β) :
    (ask q next).bind f = ask q fun answer => (next answer).bind f := rfl

theorem bind_done_right (d : Dialogue Q A α) : d.bind done = d := by
  induction d with
  | done => rfl
  | ask q next ih => simp [ih]

theorem bind_assoc {γ : Type} (d : Dialogue Q A α) (f : α → Dialogue Q A β)
    (g : β → Dialogue Q A γ) : (d.bind f).bind g = d.bind fun a => (f a).bind g := by
  induction d with
  | done => rfl
  | ask q next ih => simp [ih]

instance : LawfulMonad (Dialogue Q A) :=
  LawfulMonad.mk' _ bind_done_right (fun _ _ => rfl) bind_assoc

@[simp] theorem run_done (answer : (q : Q) → σ → A q × σ) (a : α) (s : σ) :
    (done a : Dialogue Q A α).run answer s = (a, s) := rfl

theorem run_bind (answer : (q : Q) → σ → A q × σ) (d : Dialogue Q A α) (f : α → Dialogue Q A β)
    (s : σ) : (d.bind f).run answer s = (f (d.run answer s).1).run answer (d.run answer s).2 := by
  induction d generalizing s with
  | done => rfl
  | ask q next ih => simp [run, ih]

end Dialogue

end Alerting

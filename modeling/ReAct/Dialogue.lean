/-!
# Dialogues

A dialogue is a computation that asks the world outside one question after another and goes on with
the answers. It says nothing about how a question is answered: the same dialogue can be carried out
against a network, a script, or any state that a proof may think of.

## Main definitions

* `Dialogue`: a finite tree of questions, with a result at every leaf
* `Dialogue.run`: carrying a dialogue out in a monad that answers questions

Dialogues satisfy the laws of a monad.
-/

namespace ReAct

/-- A computation that asks questions; the type of an answer depends on its question. -/
inductive Dialogue (Question : Type) (Answer : Question → Type) (α : Type) where
  /-- Nothing is left to be asked. -/
  | done (result : α)
  /-- One question, and how to go on with its answer. -/
  | ask (question : Question) (next : Answer question → Dialogue Question Answer α)

namespace Dialogue

variable {Question : Type} {Answer : Question → Type} {α β γ : Type}

/-- One dialogue, and then another one that depends on its result. -/
def bind : Dialogue Question Answer α → (α → Dialogue Question Answer β) →
    Dialogue Question Answer β
  | .done a, f => f a
  | .ask question next, f => .ask question fun answer => bind (next answer) f

instance : Monad (Dialogue Question Answer) where
  pure := .done
  bind := bind

/-- The dialogue of a single question. -/
def question (q : Question) : Dialogue Question Answer (Answer q) :=
  .ask q .done

/-- Carries a dialogue out. -/
def run {m : Type → Type} [Monad m] (answer : (q : Question) → m (Answer q)) :
    Dialogue Question Answer α → m α
  | .done a => pure a
  | .ask q next => answer q >>= fun r => run answer (next r)

@[simp] theorem bind_done (a : α) (f : α → Dialogue Question Answer β) :
    (Dialogue.done a >>= f) = f a := rfl

@[simp] theorem bind_ask (q : Question) (next : Answer q → Dialogue Question Answer α)
    (f : α → Dialogue Question Answer β) :
    (Dialogue.ask q next >>= f) = .ask q fun r => next r >>= f := rfl

theorem bind_pure_self (d : Dialogue Question Answer α) : d >>= Dialogue.done = d := by
  induction d with
  | done a => rfl
  | ask q next ih => simp [ih]

theorem bind_bind (d : Dialogue Question Answer α) (f : α → Dialogue Question Answer β)
    (g : β → Dialogue Question Answer γ) : d >>= f >>= g = d >>= fun a => f a >>= g := by
  induction d with
  | done a => rfl
  | ask q next ih => simp [ih]

instance : LawfulMonad (Dialogue Question Answer) :=
  LawfulMonad.mk' _ (fun d => bind_pure_self d) (fun _ _ => rfl) (fun d f g => bind_bind d f g)

end Dialogue

end ReAct

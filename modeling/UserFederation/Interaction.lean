/-! Programs that ask questions. A program is a finite tree: it ends with a result, or asks a
question and goes on with the answer, whose type depends on the question. -/

namespace UserFederation

/-- A program that asks questions of one kind. -/
inductive Interaction (Question : Type) (Answer : Question → Type) (α : Type)
  | done (result : α)
  | ask (question : Question) (next : Answer question → Interaction Question Answer α)

namespace Interaction

variable {Question : Type} {Answer : Question → Type} {α β σ : Type}

/-- Goes on with the result of a program. -/
def bind : Interaction Question Answer α → (α → Interaction Question Answer β) →
    Interaction Question Answer β
  | .done a, f => f a
  | .ask question next, f => .ask question fun answer => (next answer).bind f

instance : Monad (Interaction Question Answer) where
  pure := .done
  bind := bind

/-- Asks one question. -/
def question (q : Question) : Interaction Question Answer (Answer q) := .ask q .done

/-- Runs a program whose questions are answered in a state. -/
def run (answer : (q : Question) → σ → Answer q × σ) : Interaction Question Answer α → σ → α × σ
  | .done a, s => (a, s)
  | .ask q next, s =>
    let (reply, s) := answer q s
    (next reply).run answer s

/-- Runs a program whose questions are answered by actions. -/
def perform {m : Type → Type} [Monad m] (answer : (q : Question) → m (Answer q)) :
    Interaction Question Answer α → m α
  | .done a => pure a
  | .ask q next => do (next (← answer q)).perform answer

@[simp] theorem run_bind (answer : (q : Question) → σ → Answer q × σ)
    (p : Interaction Question Answer α) (f : α → Interaction Question Answer β) (s : σ) :
    (p.bind f).run answer s = (f (p.run answer s).1).run answer (p.run answer s).2 := by
  induction p generalizing s with
  | done a => rfl
  | ask q next ih => simp only [bind, run, ih]

end Interaction

end UserFederation

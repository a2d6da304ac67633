import UserFederation.Component.Basic
import UserFederation.Failure

/-! Programs that talk to a component service. A program is a finite tree: it ends with a value or
a failure, or makes a call and goes on with the reply. A call that fails ends the program. -/

namespace UserFederation

/-- A call of a component service. -/
inductive Call
  /-- The components of a type and a name. -/
  | find (realm type name : String)
  | get (id realm : String)
  /-- Replies with the component as it is stored. -/
  | create (component : Component) (realm : String)
  /-- Replaces the component of the same id. -/
  | update (component : Component) (realm : String)
  /-- Deletes a component and those below it. -/
  | delete (id realm : String)
  /-- The components right below one. -/
  | children (parent realm : String)
  deriving DecidableEq

namespace Call

/-- What a call is answered with. -/
abbrev Reply : Call → Type
  | .find .. => List Component
  | .get .. => Option Component
  | .create .. => Component
  | .update .. => Unit
  | .delete .. => Unit
  | .children .. => List Component

/-- Whether a call changes what is stored. -/
def isMutation : Call → Bool
  | .create .. | .update .. | .delete .. => true
  | .find .. | .get .. | .children .. => false

/-- The realm that a call is about. -/
def realm : Call → String
  | .find realm .. | .get _ realm | .create _ realm | .update _ realm | .delete _ realm
  | .children _ realm => realm

end Call

/-- A program with a result. -/
inductive Dialogue (α : Type)
  | done (result : α)
  | fail (failure : Failure)
  | ask (call : Call) (next : call.Reply → Dialogue α)

namespace Dialogue

variable {α β σ : Type}

/-- Goes on with the result of a program. -/
def bind : Dialogue α → (α → Dialogue β) → Dialogue β
  | .done a, f => f a
  | .fail e, _ => .fail e
  | .ask call next, f => .ask call fun reply => (next reply).bind f

instance : Monad Dialogue where
  pure := .done
  bind := Dialogue.bind

instance : MonadExceptOf Failure Dialogue where
  throw := .fail
  tryCatch := fun p handle => match p with
    | .fail e => handle e
    | p => p

/-- One call. -/
def call (c : Call) : Dialogue c.Reply := .ask c .done

/-- A result or a failure that needs no call. -/
def lift : Except Failure α → Dialogue α
  | .ok a => .done a
  | .error e => .fail e

/-- How a service answers calls in a state. -/
abbrev Service (σ : Type) := (call : Call) → σ → Except Failure call.Reply × σ

/-- Runs a program against a service. -/
def run (service : Service σ) : Dialogue α → σ → Except Failure α × σ
  | .done a, s => (.ok a, s)
  | .fail e, s => (.error e, s)
  | .ask call next, s =>
    match service call s with
    | (.ok reply, s) => (next reply).run service s
    | (.error e, s) => (.error e, s)

/-- A service that also writes down the calls that it gets. -/
def Service.logged (service : Service σ) : Service (σ × List Call) := fun call (s, calls) =>
  let (reply, s) := service call s
  (reply, s, calls ++ [call])

/-- Runs a program against a service; also gives the calls it made, in order. -/
def runLogged (service : Service σ) (p : Dialogue α) (s : σ) : Except Failure α × σ × List Call :=
  p.run service.logged (s, [])

end Dialogue

end UserFederation

import UserFederation.Run.Dialogue

/-! A component service that answers from a script, whatever it is asked. -/

namespace UserFederation

/-- A scripted reply. -/
inductive ScriptedReply
  | failure (text : String)
  | components (found : List Component)
  | component (found : Component)
  | nothing
  deriving DecidableEq

/-- The scripted replies that are left. -/
abbrev Script := List ScriptedReply

namespace ScriptedReply

/-- What a scripted reply says to a call; one of the wrong form is a failure. -/
def answer (call : Call) (reply : ScriptedReply) : Except Failure call.Reply :=
  match reply, call with
  | .failure text, _ => .error (.remote (.reported text))
  | .components found, .find .. => .ok found
  | .components found, .children .. => .ok found
  | .component found, .get .. => .ok (some found)
  | .nothing, .get .. => .ok none
  | .component found, .create .. => .ok found
  | _, .update .. => .ok ()
  | _, .delete .. => .ok ()
  | _, .find .. | _, .children .. | _, .get .. | _, .create .. =>
    .error (.remote (.reported "unexpected reply"))

end ScriptedReply

/-- Answers a call with the next reply. -/
def Script.answer : Dialogue.Service Script := fun call script =>
  match script with
  | [] => (.error (.remote (.reported "script exhausted")), [])
  | reply :: rest => (reply.answer call, rest)

end UserFederation

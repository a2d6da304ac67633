import UserFederation.Command.Hosted
import UserFederation.Display.Report
import UserFederation.Http.Client
import UserFederation.Json.Reader
import UserFederation.Run.Reconcile

/-! The commands on federations: to bring one to its declared state, and to show one. -/

namespace UserFederation

/-- The name of the file at a path. -/
def fileName? (path : String) : Option String :=
  match ((path.splitOn "/").filter fun name => name ≠ "" && name ≠ ".").getLast? with
  | some ".." => none
  | name => name

/-- What follows the last dot of a file's name, unless the name starts with that dot. -/
def extension? (path : String) : Option String := do
  let name := (← fileName? path).toList
  let extension := (name.reverse.takeWhile (· ≠ '.')).reverse
  if extension.length + 1 < name.length then some (String.ofList extension) else none

namespace Declaration

/-- Whether a path says that its file is written in TOML. -/
def isToml (path : String) : Bool := (extension? path).map (·.map Char.toLower) = some "toml"

/-- Reads a declaration that is written in TOML or in JSON. -/
def ofText (toml : Bool) (text : String) : Except CommandError Declaration :=
  let read :=
    if toml then (Toml.read? text).bind (read? Toml.recordRules)
    else (Json.read? text).bind (read? Json.recordRules)
  match read with
  | some d => .ok d
  | none => .error (.declaration "it cannot be read")

/-- Reads the declaration in a file. -/
def load (path : String) : ExceptT CommandError Hosted Declaration := do
  ofText (isToml path) (← demand (Effect.ask (.readFile path)))

/-- A declaration about another realm, if one is given. -/
def inRealm (d : Declaration) (realm : Option String) : Declaration :=
  { d with realm := realm.getD d.realm }

end Declaration

namespace Federate

/-- Runs a dialogue with a server from a host. -/
def converse {α : Type} (client : Http.Client) (p : Dialogue α) : ExceptT CommandError Hosted α :=
  ExceptT.mk do
    match ← Http.Exchange.hosted (client.converse p).run with
    | .ok a => return .ok a
    | .error e => return .error (.run e)

/-- What is printed before a run that changes nothing. -/
def dryRunNotice (style : Style) : Transcript :=
  Tone.warning.say style "Dry run: nothing will be changed."

/-- Brings a federation to the state that a file declares. -/
def apply (style : Style) (format : Format) (client : Http.Client) (realm : Option String)
    (path : String) (mode : RunMode) : ExceptT CommandError Hosted Unit := do
  let d := (← Declaration.load path).inRealm realm
  if mode.dryRun ∧ format = .table then printed (dryRunNotice style)
  let outcome ← converse client (reconcile d mode)
  printed (Report.outcome style format outcome)

/-- The federation of an id or a name, which has to exist. -/
def find (realm : String) (id name : Option String) : Dialogue Federation := do
  match ← Federation.resolve realm id name with
  | some f => return f.undoEcho
  | none => throw (.notFound .federation ((id.or name).getD ""))

/-- Shows a federation. -/
def get (style : Style) (format : Format) (client : Http.Client) (realm : String)
    (id name : Option String) : ExceptT CommandError Hosted Unit := do
  let f ← converse client (find realm id name)
  printed (Report.federation style format f.render)

/-- The realm that a federation is shown from. -/
def realmToShow (s : Settings) (argument : Option String) : String :=
  (s.realm? argument).getD defaultRealm

end Federate

end UserFederation

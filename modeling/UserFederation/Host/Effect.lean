import UserFederation.Display.Transcript
import UserFederation.Host.Files
import UserFederation.Http.Message

/-! What commands need from outside. -/

namespace UserFederation

/-- Something that a command asks for. -/
inductive Effect
  | readFile (path : String)
  /-- The text of the settings, if there is one. -/
  | readSettings
  | writeSettings (text : String)
  /-- A line of the input with its line break; at the end, the empty text. -/
  | readLine
  | print (text : Transcript)
  | send (request : Http.Request)

namespace Effect

/-- What a command gets. -/
abbrev Reply : Effect → Type
  | .readFile _ => Except FileFault String
  | .readSettings => Except FileFault (Option String)
  | .writeSettings _ => Except FileFault Unit
  | .readLine => String
  | .print _ => Unit
  | .send _ => Option Http.Response

end Effect

/-- A program that runs on a host. -/
abbrev Hosted (α : Type) := Interaction Effect Effect.Reply α

/-- Asks the host for something. -/
def Effect.ask (effect : Effect) : Hosted effect.Reply := Interaction.question effect

/-- Runs an exchange of requests on a host. -/
def Http.Exchange.hosted {α : Type} : Http.Exchange α → Hosted α
  | .done a => .done a
  | .ask request next => .ask (.send request) fun reply => hosted (next reply)

end UserFederation

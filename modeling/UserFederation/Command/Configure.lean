import UserFederation.Command.Hosted
import UserFederation.Text.Blank

/-! The commands that show and change the settings. The access token is never printed. -/

namespace UserFederation.Configure

/-- What is printed for a secret. -/
def secret : String := "****"

/-- Shows the settings of a file. -/
def describe (style : Style) (file : String) (s : Settings) : Transcript :=
  Tone.info.say style ("Configuration file: " ++ file) ++ .line "" ++
    .line ("server_url: " ++ s.serverUrl) ++
    (match s.defaultRealm with
      | some realm => .line ("default_realm: " ++ realm)
      | none => {}) ++
    .line ("output_format: " ++ s.format.title) ++
    if s.accessToken.isSome then .line ("access_token: " ++ secret) else {}

/-- What is printed after a setting was changed and saved. -/
def confirmation (style : Style) (name value : String) : Transcript :=
  let shown := if Setting.ofName? name = some .accessToken then secret else value
  Tone.success.say style ("Set " ++ name ++ " = " ++ shown)

/-- What is asked for when settings are made from scratch. -/
inductive Question
  | server
  | realm
  | format
  | token
  deriving DecidableEq

namespace Question

/-- The questions in the order in which they are asked. -/
def all : List Question := [.server, .realm, .format, .token]

/-- The text of a question. -/
def text (s : Settings) : Question → String
  | .server => "Server URL [" ++ s.serverUrl ++ "]: "
  | .realm => "Default realm [" ++ s.defaultRealm.getD "(none)" ++ "]: "
  | .format => "Output format (table/json/yaml/quiet) [" ++ s.format.title ++ "]: "
  | .token => "Access token (leave empty to keep): "

/-- The settings after an answer. An empty answer keeps what is there, and so does a word that is no
format. -/
def accept (s : Settings) (question : Question) (answer : String) : Settings :=
  match question with
  | .server => if answer = "" then s else { s with serverUrl := answer }
  | .realm => if answer = "" ∨ answer = "(none)" then s else { s with defaultRealm := some answer }
  | .format => { s with format := (Format.ofWord? answer).getD s.format }
  | .token => if answer = "" then s else (s.put .accessToken answer).toOption.getD s

end Question

/-- What is printed before the questions. -/
def introduction (style : Style) : Transcript :=
  Tone.info.say style "Initializing Keycloak CLI configuration..." ++ .line ""

/-- What is printed when the answers are saved. -/
def conclusion (style : Style) (file : String) : Transcript :=
  .line "" ++ Tone.success.say style ("Configuration saved to: " ++ file)

/-- Asks some questions, each answered by a line of the input. -/
def interview : List Question → Settings → Hosted Settings
  | [], s => return s
  | question :: rest, s => do
    Effect.ask (.print (.print (question.text s)))
    let line ← Effect.ask .readLine
    interview rest (question.accept s (Text.trim line))

/-- Makes settings from answers. -/
def setup (style : Style) (file : String) (s : Settings) :
    ExceptT CommandError Hosted Settings := do
  printed (introduction style)
  let s ← interview Question.all s
  s.save
  printed (conclusion style file)
  return s

/-- Changes a setting and keeps the change. -/
def set (style : Style) (s : Settings) (name value : String) :
    ExceptT CommandError Hosted Settings := do
  let s ← s.set name value
  s.save
  printed (confirmation style name value)
  return s

end UserFederation.Configure

import UserFederation.Host.Effect
import UserFederation.Settings.File

/-! What all commands do on their host. -/

namespace UserFederation

/-- Prints a text. -/
def printed (text : Transcript) : ExceptT CommandError Hosted Unit :=
  ExceptT.lift (Effect.ask (.print text))

/-- Ends a command unless the host did what it was asked. -/
def demand {α : Type} (action : Hosted (Except FileFault α)) : ExceptT CommandError Hosted α :=
  ExceptT.mk do
    match ← action with
    | .ok a => return .ok a
    | .error fault => return .error (.file fault.message)

namespace Settings

/-- The settings that the host keeps. -/
def load : ExceptT CommandError Hosted Settings := do
  ofFile (← demand (Effect.ask .readSettings))

/-- Lets the host keep settings. -/
def save (s : Settings) : ExceptT CommandError Hosted Unit :=
  demand (Effect.ask (.writeSettings s.text))

end Settings

end UserFederation

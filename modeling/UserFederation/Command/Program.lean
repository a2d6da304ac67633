import UserFederation.Arguments.Reader
import UserFederation.Command.Configure
import UserFederation.Command.Federate

/-! The whole program. -/

namespace UserFederation.Program

/-- What is printed for arguments that do not say what to do. -/
def usage (reason : UsageStop) : Transcript :=
  let text := "Usage: kc [OPTIONS] <COMMAND>\n"
  if reason.isError then ⟨"", text⟩ else ⟨text, ""⟩

/-- The exit code for arguments that do not say what to do. -/
def usageCode (reason : UsageStop) : Nat := if reason.isError then 2 else 0

/-- Does what the arguments say. -/
def execute (style : Style) (file : String) (s : Settings) (invocation : Invocation) :
    ExceptT CommandError Hosted Unit := do
  let client := Http.Client.ofSettings s invocation.server
  match invocation.command with
  | .apply path dryRun diff =>
    Federate.apply style invocation.format client invocation.realm path { dryRun, diff }
  | .get id name =>
    let realm := Federate.realmToShow s invocation.realm
    Federate.get style invocation.format client realm id name
  | .show => printed (Configure.describe style file s)
  | .set key value => discard (Configure.set style s key value)
  | .init => discard (Configure.setup style file s)

/-- Tells of an error. -/
def complain (style : Style) (text : String) : Hosted Nat := do
  Effect.ask (.print (Tone.error.say style text))
  return 1

/-- The variables of the environment that matter. -/
def relevantVariables : List String :=
  ["KC_SERVER_URL", "KC_REALM", "CLICOLOR_FORCE", "NO_COLOR", "CLICOLOR"]

/-- Runs the program. The settings are read before anything is done; a file of settings that cannot
be read stops every command. -/
def run (terminal : Bool) (file : String) (environment : String → Option String)
    (arguments : List String) : Hosted Nat := do
  let style := Style.ofEnvironment environment terminal
  match Arguments.read environment arguments with
  | .error reason =>
    Effect.ask (.print (usage reason))
    return usageCode reason
  | .ok invocation =>
    match ← Settings.load.run with
    | .error e => complain style ("Failed to load configuration: " ++ e.message)
    | .ok s =>
      match ← (execute style file s invocation).run with
      | .error e => complain style e.message
      | .ok _ => return 0

end UserFederation.Program

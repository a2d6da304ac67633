import UserFederation.Settings.Basic

/-! The arguments of the command line: what can be said, and where. -/

namespace UserFederation

/-- What the program is told to do. -/
inductive Command
  | apply (file : String) (dryRun diff : Bool)
  | get (id name : Option String)
  | show
  | set (key value : String)
  | init
  deriving DecidableEq

/-- What the arguments say. -/
structure Invocation where
  server : Option String
  realm : Option String
  format : Format
  verbose : Bool
  command : Command
  deriving DecidableEq

/-- Why the arguments do not say what to do. -/
inductive UsageStop
  /-- Help was asked for. -/
  | help
  | version
  /-- Nothing was said where something has to be. -/
  | nothingSaid
  | missingCommand
  | missingArgument
  | unknownCommand
  | unknownArgument
  | badValue
  | surplusValue
  | conflict
  deriving DecidableEq

/-- Whether the arguments are wrong. -/
def UsageStop.isError : UsageStop → Bool
  | .help | .version => false
  | _ => true

namespace Arguments

/-- A level of the command line: the program, or a command in it. -/
inductive Level
  | program
  | federation
  | apply
  | get
  | config
  | show
  | set
  | init
  deriving DecidableEq

/-- An argument. -/
inductive Argument
  | server
  | realm
  | output
  | verbose
  | file
  | dryRun
  | diff
  | id
  | name
  | key
  | value
  deriving DecidableEq

namespace Argument

/-- The name after two dashes. -/
def long : Argument → String
  | .server => "server"
  | .realm => "realm"
  | .output => "output"
  | .verbose => "verbose"
  | .file => "file"
  | .dryRun => "dry-run"
  | .diff => "diff"
  | .id => "id"
  | .name => "name"
  | .key => "key"
  | .value => "value"

/-- The letter after one dash. -/
def short? : Argument → Option Char
  | .server => some 's'
  | .realm => some 'r'
  | .output => some 'o'
  | .verbose => some 'v'
  | _ => none

/-- Whether an option is a mere flag. -/
def isFlag : Argument → Bool
  | .verbose | .dryRun | .diff => true
  | _ => false

/-- Whether a value is allowed. -/
def accepts : Argument → String → Bool
  | .output, text => (Format.words.lookup text).isSome
  | .file, text => text ≠ ""
  | _, _ => true

/-- The variable of the environment that an option falls back on. -/
def fallback? : Argument → Option String
  | .server => some "KC_SERVER_URL"
  | .realm => some "KC_REALM"
  | _ => none

end Argument

namespace Level

/-- The options of a level. -/
def options : Level → List Argument
  | .program => [.server, .realm, .output, .verbose]
  | .apply => [.dryRun, .diff]
  | .get => [.id, .name]
  | _ => []

/-- The arguments of a level that are known by their position; all have to be given. -/
def positionals : Level → List Argument
  | .apply => [.file]
  | .set => [.key, .value]
  | _ => []

/-- The commands of a level. -/
def commands : Level → List (String × Level)
  | .program => [("federation", .federation), ("config", .config)]
  | .federation => [("apply", .apply), ("get", .get)]
  | .config => [("show", .show), ("set", .set), ("init", .init)]
  | _ => []

/-- Whether a level is not complete without one of its commands. -/
def needsCommand (level : Level) : Bool := !level.commands.isEmpty

end Level

/-- The arguments that were given, each with its value. -/
abbrev Given := List (Argument × String)

end Arguments

end UserFederation

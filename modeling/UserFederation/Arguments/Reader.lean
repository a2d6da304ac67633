import UserFederation.Arguments.Basic

/-! Reading the command line. An option and its value are taken into account when the next argument
is met, or at the end of the level; a fault that is met before comes first. -/

namespace UserFederation.Arguments

/-- What was read of a level. -/
structure State where
  given : Given := []
  /-- An argument that is not yet taken into account, and its value, which may be missing. -/
  pending : Option (Argument × Option String) := none
  /-- Whether two dashes stood alone; after them there are no options. -/
  trailing : Bool := false
  /-- The positional arguments that are left. -/
  left : List Argument

namespace State

/-- Takes an argument into account. -/
def take (given : Given) (a : Argument) (value : String) : Except UsageStop Given :=
  if (given.lookup a).isSome then .error .conflict
  else if a.accepts value then .ok (given ++ [(a, value)])
  else .error .badValue

/-- Takes the pending argument into account. -/
def resolve (s : State) : Except UsageStop State :=
  match s.pending with
  | none => .ok s
  | some (_, none) => .error .badValue
  | some (a, some value) => (take s.given a value).map ({ s with given := ·, pending := none })

/-- The option that waits for its value. -/
def awaiting? (s : State) : Option Argument :=
  match s.pending with
  | some (a, none) => if s.trailing then none else some a
  | _ => none

/-- Takes an argument into account at once, after the pending one. -/
def add (s : State) (a : Argument) (value : String) : Except UsageStop State := do
  let s ← s.resolve
  return { s with given := ← take s.given a value }

/-- Waits for the value of an option. -/
def await (s : State) (a : Argument) : Except UsageStop State := do
  return { ← s.resolve with pending := some (a, none) }

/-- Stops after the pending argument is taken into account. -/
def stop {α : Type} (s : State) (reason : UsageStop) : Except UsageStop α := do
  let _ ← s.resolve
  throw reason

end State

/-- The flags that every level has. -/
def stopFlag? : String → Option UsageStop
  | "help" => some .help
  | "version" => some .version
  | _ => none

/-- The letters of these flags. -/
def stopLetter? : Char → Option UsageStop
  | 'h' => some .help
  | 'V' => some .version
  | _ => none

/-- Divides a text at the first equals sign. -/
def splitValue (cs : List Char) : String × Option String :=
  let name := String.ofList (cs.takeWhile (· ≠ '='))
  match cs.dropWhile (· ≠ '=') with
  | _ :: value => (name, some (String.ofList value))
  | [] => (name, none)

/-- Reads an argument after its two dashes. -/
def readLong (level : Level) (s : State) (cs : List Char) : Except UsageStop State :=
  let (name, value) := splitValue cs
  match stopFlag? name, level.options.find? (·.long = name), value with
  | some _, _, some _ => .error .surplusValue
  | some reason, _, none => s.stop reason
  | none, none, _ => .error .unknownArgument
  | none, some a, some value => if a.isFlag then .error .surplusValue else s.add a value
  | none, some a, none => if a.isFlag then s.add a "" else s.await a

/-- Reads letters after one dash: flags, or an option, whose value may follow at once. -/
def readLetters (level : Level) (s : State) : List Char → Except UsageStop State
  | [] => .ok s
  | c :: rest =>
    match stopLetter? c, level.options.find? (·.short? = some c) with
    | some reason, _ => s.stop reason
    | none, none => .error .unknownArgument
    | none, some a =>
      if a.isFlag then do readLetters level (← s.add a "") rest
      else match rest with
        | [] => s.await a
        | '=' :: value => s.add a (String.ofList value)
        | value => s.add a (String.ofList value)

/-- Whether a text is a command of a level, or the one that asks for help. -/
def isCommand (level : Level) (text : String) : Bool :=
  (level.commands.lookup text).isSome || (level.needsCommand && text = "help")

/-- Takes a value that stands by itself: of the option that waits for one, or by its position. -/
def readValue (level : Level) (s : State) (text : String) : Except UsageStop State :=
  match s.awaiting?, s.left with
  | some a, _ => .ok { s with pending := some (a, some text) }
  | none, a :: left => do return { ← s.resolve with pending := some (a, some text), left }
  | none, [] =>
    if level.needsCommand ∧ !(s.trailing && isCommand level text) then .error .unknownCommand
    else .error .unknownArgument

/-- Takes an argument that is no command. -/
def readArgument (level : Level) (s : State) (text : String) : Except UsageStop State :=
  if s.trailing then readValue level s text
  else match text.toList with
    | ['-', '-'] => .ok { s with trailing := true }
    | '-' :: '-' :: cs => readLong level s cs
    | '-' :: c :: cs => readLetters level s (c :: cs)
    | _ => readValue level s text

/-- What a request for help about some command comes to. -/
def helpAbout (level : Option Level) : List String → UsageStop
  | [] => .help
  | text :: rest =>
    match level.bind (·.commands.lookup text) with
    | some next => helpAbout (some next) rest
    | none =>
      if (level.map (isCommand · text)).getD false then helpAbout none rest else .unknownCommand

/-- Adds what the environment says of options that were not given. -/
def addVariables (environment : String → Option String) (level : Level) (given : Given) : Given :=
  level.options.foldl (fun given a =>
    match (given.lookup a), a.fallback?.bind environment with
    | none, some value => given ++ [(a, value)]
    | _, _ => given) given

/-- Checks that what was given at a level is enough and fits together. -/
def check (level : Level) (given : Given) (commandGiven : Bool) : Except UsageStop Unit := do
  if level.needsCommand ∧ !commandGiven then
    throw (if given.isEmpty then .nothingSaid else .missingCommand)
  let isGiven := fun a => (given.lookup a).isSome
  if isGiven .id ∧ isGiven .name then throw .conflict
  if !level.positionals.all isGiven then throw .missingArgument
  if level = .get ∧ !isGiven .id ∧ !isGiven .name then throw .missingArgument

/-- Ends a level. -/
def finish (environment : String → Option String) (level : Level) (s : State)
    (command : Option (Level × Given)) : Except UsageStop (Level × Given) := do
  let given := addVariables environment level (← s.resolve).given
  check level given command.isSome
  match command with
  | some (last, more) => return (last, given ++ more)
  | none => return (level, given)

/-- Reads the arguments of a level and of the commands in it. -/
def readLevel (environment : String → Option String) (level : Level) (s : State) :
    List String → Except UsageStop (Level × Given)
  | [] => finish environment level s none
  | text :: rest =>
    if !s.trailing && s.awaiting?.isNone && isCommand level text then
      match level.commands.lookup text with
      | some next => do
        let command ← readLevel environment next { left := next.positionals } rest
        finish environment level s (some command)
      | none => .error (helpAbout (some level) rest)
    else do
      readLevel environment level (← readArgument level s text) rest

/-- The command that the arguments of a level say. -/
def command? (level : Level) (given : Given) : Option Command :=
  match level with
  | .apply => (given.lookup .file).map fun file =>
    .apply file (given.lookup .dryRun).isSome (given.lookup .diff).isSome
  | .get => some (.get (given.lookup .id) (given.lookup .name))
  | .show => some .show
  | .set => do return .set (← given.lookup .key) (← given.lookup .value)
  | .init => some .init
  | _ => none

/-- Reads a command line. -/
def read (environment : String → Option String) (arguments : List String) :
    Except UsageStop Invocation := do
  let (level, given) ← readLevel environment .program { left := [] } arguments
  match command? level given with
  | none => throw .missingCommand
  | some command =>
    return {
      server := given.lookup .server
      realm := given.lookup .realm
      format := ((given.lookup .output).bind fun word => Format.words.lookup word).getD .table
      verbose := (given.lookup .verbose).isSome
      command }

end UserFederation.Arguments

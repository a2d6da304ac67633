import UserFederation.Command.Program

/-! The program `kc` on a real host. -/

namespace UserFederation

/-- What is wrong with a file. -/
def FileFault.ofError : IO.Error → FileFault
  | .noFileOrDirectory .. => .missing
  | .inappropriateType _ 20 _ => .notDirectory
  | .inappropriateType _ 21 _ => .isDirectory
  | e => .other (toString e)

/-- Does something with a file. -/
def guarded {α : Type} (action : IO α) : IO (Except FileFault α) :=
  try return .ok (← action) catch e => return .error (.ofError e)

/-- Gives a command what it asks for. There is no network: no request is answered. -/
def Effect.perform (home : String) : (effect : Effect) → IO effect.Reply
  | .readFile path => guarded (IO.FS.readFile path)
  | .readSettings => do
    match ← guarded (IO.FS.readFile (settingsPath home)) with
    | .ok text => return .ok (some text)
    | .error .missing => return .ok none
    | .error .notDirectory => return .ok none
    | .error fault => return .error fault
  | .writeSettings text => guarded do
    IO.FS.createDirAll (home ++ "/" ++ settingsDirectory)
    IO.FS.writeFile (settingsPath home) text
  | .readLine => do (← IO.getStdin).getLine
  | .print text => do
    let output ← IO.getStdout
    output.putStr text.stdout
    output.flush
    (← IO.getStderr).putStr text.stderr
  | .send _ => return none

end UserFederation

open UserFederation in
def main (arguments : List String) : IO UInt32 := do
  let home := (← IO.getEnv "HOME").getD ""
  let environment ← Program.relevantVariables.filterMapM fun name => do
    return (← IO.getEnv name).map (name, ·)
  let program := Program.run (← (← IO.getStdout).isTty) (settingsPath home)
    (fun name => environment.lookup name) arguments
  return (← program.perform (Effect.perform home)).toUInt32

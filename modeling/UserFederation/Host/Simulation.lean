import UserFederation.Host.Effect
import UserFederation.Http.Playback

/-! A host in memory. -/

namespace UserFederation

/-- A host in memory: its files, the input that is left, what was printed, and the server. Without a
server, no request is answered. -/
structure Simulation where
  files : Files := {}
  input : List Char := []
  printed : Transcript := {}
  server : Option Http.Playback := none

namespace Simulation

/-- Divides a text after its first line break. -/
def nextLine (input : List Char) : List Char × List Char :=
  let line := input.takeWhile (· ≠ '\n')
  match input.dropWhile (· ≠ '\n') with
  | c :: rest => (line ++ [c], rest)
  | [] => (line, [])

/-- Gives a command what it asks for. -/
def answer : (effect : Effect) → Simulation → effect.Reply × Simulation
  | .readFile path, s => (s.files.read path, s)
  | .readSettings, s => (s.files.readSettings, s)
  | .writeSettings text, s =>
    match s.files.writeSettings text with
    | .ok files => (.ok (), { s with files })
    | .error fault => (.error fault, s)
  | .readLine, s =>
    let (line, input) := nextLine s.input
    (String.ofList line, { s with input })
  | .print text, s => ((), { s with printed := s.printed ++ text })
  | .send request, s =>
    match s.server with
    | none => (none, s)
    | some server =>
      let (response, server) := server.answer request
      (response, { s with server := some server })

/-- The text of the settings file. -/
def settingsText (s : Simulation) : Option String := s.files.get? settingsPlace

end Simulation

end UserFederation

import UserFederation.Command.Program

/-! Runs of commands on hosts. `Hosted.events` lists what a command asks its host for, with the
replies, in order; what was printed and which requests were sent is read off from there. The parts
of a command follow one another (`Hosted.events_bind`). What the commands on settings ask for is
written out at the end. -/

namespace UserFederation

/-- How a host replies to what commands ask for. -/
abbrev Host (σ : Type) := (effect : Effect) → σ → effect.Reply × σ

/-- What a command asks for, and the reply. -/
structure Event where
  effect : Effect
  reply : effect.Reply

namespace Event

def text? (e : Event) : Option Transcript :=
  match e.effect with
  | .print text => some text
  | _ => none

/-- All that was printed. -/
def printed (xs : List Event) : Transcript := (xs.filterMap text?).foldr (· ++ ·) {}

/-- Whether a response sends its request on to another place. -/
def isSentOn : Event → Bool
  | ⟨.send request, some response⟩ =>
    match request.continuation response with
    | .send _ => true
    | _ => false
  | _ => false

/-- The requests that a command made by itself: all but those that a response sent on. -/
def requests : (sentOn : Bool) → List Event → List Http.Request
  | _, [] => []
  | sentOn, ⟨.send request, reply⟩ :: rest =>
    let later := requests (isSentOn ⟨.send request, reply⟩) rest
    if sentOn then later else request :: later
  | sentOn, _ :: rest => requests sentOn rest

theorem requests_cons {effect : Effect} {reply : effect.Reply} {sentOn : Bool} {rest : List Event}
    (other : ∀ request, effect ≠ .send request) :
    requests sentOn (⟨effect, reply⟩ :: rest) = requests sentOn rest := by
  cases effect with
  | send request => exact absurd rfl (other request)
  | readFile | readSettings | writeSettings | readLine | print => rfl

end Event

namespace Hosted

variable {α β ε σ : Type} {host : Host σ}

/-- What happens in a run. -/
def events (host : Host σ) : Hosted α → σ → List Event
  | .done _, _ => []
  | .ask effect next, s =>
    ⟨effect, (host effect s).1⟩ :: events host (next (host effect s).1) (host effect s).2

theorem events_bind (p : Hosted α) (f : α → Hosted β) (s : σ) : events host (p.bind f) s =
    events host p s ++ events host (f (p.run host s).1) (p.run host s).2 := by
  induction p generalizing s with
  | done a => rfl
  | ask effect next ih => exact congrArg _ (ih _ _)

end Hosted

/-! ### Commands -/

theorem Declaration.load_run (path : String) : (Declaration.load path).run =
    .ask (.readFile path) fun
      | .ok text => .done (Declaration.ofText (Declaration.isToml path) text)
      | .error fault => .done (.error (.file fault.message)) :=
  congrArg (Interaction.ask _) (funext fun reply => by cases reply <;> rfl)

theorem Settings.load_run : Settings.load.run = .ask .readSettings fun
    | .ok text => .done (ofFile text)
    | .error fault => .done (.error (.file fault.message)) :=
  congrArg (Interaction.ask _) (funext fun reply => by cases reply <;> rfl)

/-- Writes settings, and prints a text if that succeeds. -/
def Settings.saving (s : Settings) (text : Transcript) : Hosted (Except CommandError Unit) :=
  .ask (.writeSettings s.text) fun
    | .ok _ => .ask (.print text) fun _ => .done (.ok ())
    | .error fault => .done (.error (.file fault.message))

namespace Program

variable {path name value : String} {environment : String → Option String}
  {arguments : List String} {i : Invocation} {s : Settings} {style : Style}

theorem execute_set (command : i.command = .set name value) : (execute style path s i).run =
    match s.set name value with
    | .error e => .done (.error e)
    | .ok s' => s'.saving (Configure.confirmation style name value) := by
  unfold execute Configure.set
  rw [command]
  dsimp only
  cases s.set name value with
  | error e => rfl
  | ok s' => exact congrArg (Interaction.ask _) (funext fun reply => by cases reply <;> rfl)

theorem execute_show (command : i.command = .show) : (execute style path s i).run =
    .ask (.print (Configure.describe style path s)) fun _ => .done (.ok ()) := by
  unfold execute
  rw [command]
  rfl

theorem execute_init (command : i.command = .init) : (execute style path s i).run =
    .ask (.print (Configure.introduction style)) fun _ =>
      (Configure.interview Configure.Question.all s).bind fun s =>
        s.saving (Configure.conclusion style path) := by
  unfold execute Configure.setup
  rw [command]
  refine congrArg (Interaction.ask _) (funext fun _ => ?_)
  generalize Configure.interview Configure.Question.all s = answered
  induction answered with
  | ask effect next ih => exact congrArg (Interaction.ask effect) (funext ih)
  | done s => exact congrArg (Interaction.ask _) (funext fun reply => by cases reply <;> rfl)

theorem run_said (terminal : Bool) (path : String)
    (said : Arguments.read environment arguments = .ok i) :
    let style := Style.ofEnvironment environment terminal
    run terminal path environment arguments = Settings.load.run.bind fun
      | .error e => complain style ("Failed to load configuration: " ++ e.message)
      | .ok s => (execute style path s i).run.bind fun
        | .error e => complain style e.message
        | .ok _ => .done 0 := by
  unfold run
  rw [said]
  rfl

end Program

end UserFederation

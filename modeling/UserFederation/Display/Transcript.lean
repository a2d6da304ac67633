/-! What commands print. Standard output and standard error are kept apart; a message starts with
a sign that says what kind it is. -/

namespace UserFederation

/-- What was printed. -/
structure Transcript where
  stdout : String := ""
  stderr : String := ""
  deriving DecidableEq

namespace Transcript

/-- One transcript after another. -/
def append (a b : Transcript) : Transcript := ⟨a.stdout ++ b.stdout, a.stderr ++ b.stderr⟩

instance : Append Transcript := ⟨append⟩

/-- A text on standard output. -/
def print (text : String) : Transcript := ⟨text, ""⟩

/-- A line on standard output. -/
def line (text : String) : Transcript := print (text ++ "\n")

end Transcript

/-- How text stands out, if it does. -/
structure Style where
  colored : Bool := false
  deriving DecidableEq

/-- Puts a text into the graphic mode of a code. -/
def Style.emphasize (style : Style) (code text : String) : String :=
  if style.colored then "\x1b[" ++ code ++ "m" ++ text ++ "\x1b[0m" else text

/-- The bold form of a text. -/
def Style.bold (style : Style) (text : String) : String := style.emphasize "1" text

/-- A kind of message. -/
inductive Tone
  | success
  | error
  | warning
  | info
  deriving DecidableEq

/-- The value of a variable as a switch: only `0` is off. -/
def isOn (value : String) : Bool := value ≠ "0"

/-- Whether text stands out: on a terminal, unless the environment forbids or forces it. -/
def Style.ofEnvironment (environment : String → Option String) (terminal : Bool) : Style where
  colored :=
    if ((environment "CLICOLOR_FORCE").map isOn).getD false then true
    else if (environment "NO_COLOR").isSome then false
    else terminal && ((environment "CLICOLOR").map isOn).getD true

namespace Tone

/-- The sign in front of a message. -/
def sign : Tone → String
  | .success => "✓"
  | .error => "✗"
  | .warning => "⚠"
  | .info => "ℹ"

/-- The color of a sign: bold green, red, yellow or blue. -/
def code : Tone → String
  | .success => "1;32"
  | .error => "1;31"
  | .warning => "1;33"
  | .info => "1;34"

/-- Prints a message; errors and warnings go to standard error. -/
def say (style : Style) (tone : Tone) (text : String) : Transcript :=
  let line := style.emphasize tone.code tone.sign ++ " " ++ text ++ "\n"
  match tone with
  | .success | .info => ⟨line, ""⟩
  | .error | .warning => ⟨"", line⟩

end Tone

end UserFederation

import UserFederation.Document.Record
import UserFederation.Settings.Basic
import UserFederation.Toml.Printer
import UserFederation.Toml.Reader

/-! The file that keeps the settings. -/

namespace UserFederation

namespace Credentials

/-- Reads credentials. Written as a sequence, they may not be empty. -/
def read? : Document → Option Credentials
  | .seq [] => none
  | d => do
    let part ← d.record? Toml.recordRules 1
    return { accessToken := ← (part 0 ["access_token"]).bind (Document.optional? Document.text?) }

end Credentials

namespace Settings

/-- Reads settings. -/
def read? (d : Document) : Option Settings := do
  let part ← d.record? Toml.recordRules 4
  let default : Settings := {}
  return {
    serverUrl := ← (← part 0 ["server_url"])
      |> Document.withDefault? default.serverUrl Document.text?
    defaultRealm := ← (← part 1 ["default_realm"]) |> Document.optional? Document.text?
    format := ← (← part 2 ["output_format"])
      |> Document.withDefault? default.format (Document.word? Toml.recordRules Format.words)
    credentials := ← (← part 3 ["auth"]) |> Document.optional? Credentials.read? }

/-- The settings that a text says. -/
def ofText (text : String) : Except CommandError Settings :=
  match (Toml.read? text).bind read? with
  | some s => .ok s
  | none => .error (.settings "failed to parse config")

/-- The settings that a file holds; without a file they are the default ones. -/
def ofFile : Option String → Except CommandError Settings
  | some text => ofText text
  | none => .ok {}

/-- The text that is written for settings. -/
def text (s : Settings) : String :=
  Toml.line "server_url" s.serverUrl ++
    (s.defaultRealm.map (Toml.line "default_realm")).getD "" ++
    Toml.line "output_format" s.format.word ++
    match s.credentials with
    | none => ""
    | some c => "\n[auth]\n" ++ (c.accessToken.map (Toml.line "access_token")).getD ""

end Settings

end UserFederation

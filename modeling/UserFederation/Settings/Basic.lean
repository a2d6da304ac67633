import UserFederation.Command.Error

/-! The settings of the command line: the server, the realm and the access token that are used when
the arguments name none. -/

namespace UserFederation

/-- How results are printed. -/
inductive Format
  | table
  | json
  | yaml
  | quiet
  deriving DecidableEq, Inhabited

namespace Format

/-- All formats. -/
def all : List Format := [.table, .json, .yaml, .quiet]

def word : Format → String
  | .table => "table"
  | .json => "json"
  | .yaml => "yaml"
  | .quiet => "quiet"

/-- The name of a format as a heading. -/
def title : Format → String
  | .table => "Table"
  | .json => "Json"
  | .yaml => "Yaml"
  | .quiet => "Quiet"

/-- The format of each word. -/
def words : List (String × Format) := all.map fun f => (f.word, f)

/-- The format of a word in any case. -/
def ofWord? (word : String) : Option Format := words.lookup (word.map Char.toLower)

/-- Reads a format, in any case. -/
def read (word : String) : Except CommandError Format :=
  match ofWord? word with
  | some format => .ok format
  | none =>
    .error (.argument ("Unknown output format: " ++ word ++
      ". Supported: " ++ ", ".intercalate (all.map Format.word)))

end Format

/-- What the service knows a caller by. -/
structure Credentials where
  accessToken : Option String := none
  deriving DecidableEq

/-- Settings. -/
structure Settings where
  serverUrl : String := "http://localhost:8080"
  defaultRealm : Option String := none
  format : Format := .table
  credentials : Option Credentials := none
  deriving DecidableEq

/-- A setting that can be changed by itself. -/
inductive Setting
  | serverUrl
  | defaultRealm
  | format
  | accessToken
  deriving DecidableEq

namespace Setting

/-- The names of the settings: each has a full and a short one. -/
def names : List (String × Setting) :=
  [("server_url", .serverUrl), ("server", .serverUrl),
    ("default_realm", .defaultRealm), ("realm", .defaultRealm),
    ("output_format", .format), ("output", .format),
    ("access_token", .accessToken), ("token", .accessToken)]

/-- The setting of a name. -/
def ofName? (name : String) : Option Setting := names.lookup name

end Setting

namespace Settings

/-- The access token, if there is one. -/
def accessToken (s : Settings) : Option String := s.credentials.bind Credentials.accessToken

/-- The realm of an argument, else the default one. -/
def realm? (s : Settings) (argument : Option String) : Option String := argument.or s.defaultRealm

/-- The value of a setting that can be taken away by an empty value or by `none`. -/
def given? (value : String) : Option String :=
  if value = "" ∨ value = "none" then none else some value

/-- Changes a setting. -/
def put (s : Settings) (setting : Setting) (value : String) : Except CommandError Settings :=
  match setting with
  | .serverUrl => .ok { s with serverUrl := value }
  | .defaultRealm => .ok { s with defaultRealm := given? value }
  | .format => (Format.read value).map ({ s with format := · })
  | .accessToken => .ok { s with credentials := (given? value).map fun token => ⟨some token⟩ }

/-- Changes the setting of a name. -/
def set (s : Settings) (name value : String) : Except CommandError Settings :=
  match Setting.ofName? name with
  | some setting => s.put setting value
  | none =>
    .error (.argument ("Unknown configuration key: " ++ name ++
      ". Known keys: server_url, default_realm, output_format, access_token"))

end Settings

end UserFederation

import UserFederation.Component.Basic
import UserFederation.Decimal.Shortest
import UserFederation.Document

/-! Config values as they are declared, and the text in which a server keeps them. -/

namespace UserFederation

/-- A declared config value. -/
inductive Scalar
  | bool (b : Bool)
  /-- An integer of 64 bits. -/
  | integer (n : Int)
  | float (x : Double)
  | text (s : String)
  deriving DecidableEq, Inhabited

namespace Scalar

/-- Floats from `1e-4` up to `1e16` are sent with a point, and so with at least one digit after
it. -/
def floatLayout : Decimal.Layout := ⟨-3, 16, .up, false, 1, "inf", "NaN"⟩

/-- The text that a value is sent as. -/
def encode : Scalar → String
  | .bool b => if b then "true" else "false"
  | .integer n => toString n
  | .float x => floatLayout.write x
  | .text s => s

/-- Integers are those of 64 bits with sign. -/
def isInteger (n : Int) : Bool := -Int.pow 2 63 ≤ n ∧ n < Int.pow 2 63

/-- Reads a value. An integer beyond 64 bits with sign is a float. -/
def read? : Document → Option Scalar
  | .bool b => some (.bool b)
  | .int n => some (if isInteger n then .integer n else .float (Double.ofInt n))
  | .float x => some (.float x)
  | .text s => some (.text s)
  | _ => none

/-- The JSON value of a value; a float that is no number is `null`. -/
def json : Scalar → Json
  | .bool b => .bool b
  | .integer n => .int n
  | .float x => if x.isFinite then .float x else .null
  | .text s => .str s

end Scalar

/-- A declared config. A key without a value is not specified. -/
abbrev DeclaredConfig := SortedMap (Option Scalar)

namespace DeclaredConfig

/-- The config as it is sent: every specified key with one text. -/
def encode (config : DeclaredConfig) : WireConfig :=
  config.filterMap fun _ value => value.map fun v => [v.encode]

/-- Reads a config. -/
def read? : Document → Option DeclaredConfig
  | .map entries =>
    (entries.mapM fun (e : String × Document) =>
      match e.2 with
      | .null => some (e.1, none)
      | d => (Scalar.read? d).map fun v => (e.1, some v)).map .ofList
  | _ => none

/-- The JSON value of a config. -/
def json (config : DeclaredConfig) : Json :=
  .ofMap (config.mapValues fun value => (value.map Scalar.json).getD .null)

end DeclaredConfig

/-- The first text of every config key, `null` where there is none. -/
def WireConfig.firstValues (config : WireConfig) : SortedMap Json :=
  config.mapValues fun values => .ofOption values.head?

end UserFederation

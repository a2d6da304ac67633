import UserFederation.Json.Basic
import UserFederation.Decimal.Shortest
import UserFederation.Text.Units

/-! JSON texts of values, compact and indented. -/

namespace UserFederation.Json

/-- Numbers from `1e-5` up to `1e16` are written with a point; an exponent has a sign and at least
two digits. -/
def numberLayout : Decimal.Layout := ⟨-4, 16, .even, true, 2, "null", "null"⟩

/-- The text of a character inside quotes. -/
def escape (c : Char) : List Char :=
  match c with
  | '"' => ['\\', '"']
  | '\\' => ['\\', '\\']
  | '\n' => ['\\', 'n']
  | '\r' => ['\\', 'r']
  | '\t' => ['\\', 't']
  | '\x08' => ['\\', 'b']
  | '\x0c' => ['\\', 'f']
  | c =>
    if c.toNat < 0x20 then
      ['\\', 'u', '0', '0', Text.hexDigit false (c.toNat / 16), Text.hexDigit false (c.toNat % 16)]
    else [c]

/-- A text in quotes. -/
def quote (s : String) : String := "\"" ++ String.ofList (s.toList.flatMap escape) ++ "\""

/-- Text between the parts of a container. -/
def joined (before separator after : String) : List String → String
  | [] => before ++ after
  | x :: xs => before ++ xs.foldl (fun t y => t ++ separator ++ y) x ++ after

mutual

/-- The text of a value without blanks. -/
def compact : Json → String
  | .null => "null"
  | .bool b => if b then "true" else "false"
  | .int n => toString n
  | .float x => numberLayout.write x
  | .str s => quote s
  | .arr items => joined "[" "," "]" (compactItems items)
  | .obj fields => joined "\x7b" "," "\x7d" (compactFields fields)

def compactItems : List Json → List String
  | [] => []
  | x :: xs => compact x :: compactItems xs

def compactFields : List (String × Json) → List String
  | [] => []
  | (k, x) :: xs => (quote k ++ ":" ++ compact x) :: compactFields xs

end

/-- A line break and an indentation by two spaces per level. -/
def newline (level : Nat) : String := "\n" ++ String.ofList (List.replicate (2 * level) ' ')

/-- The lines of a container, one part per line. -/
def block (before after : String) (level : Nat) (parts : List String) : String :=
  if parts.isEmpty then before ++ after
  else
    let inner := newline (level + 1)
    joined (before ++ inner) ("," ++ inner) (newline level ++ after) parts

mutual

/-- The text of a value with one part of a container per line. -/
def indented (level : Nat) : Json → String
  | .null => "null"
  | .bool b => if b then "true" else "false"
  | .int n => toString n
  | .float x => numberLayout.write x
  | .str s => quote s
  | .arr items => block "[" "]" level (indentedItems (level + 1) items)
  | .obj fields => block "\x7b" "\x7d" level (indentedFields (level + 1) fields)

def indentedItems (level : Nat) : List Json → List String
  | [] => []
  | x :: xs => indented level x :: indentedItems level xs

def indentedFields (level : Nat) : List (String × Json) → List String
  | [] => []
  | (k, x) :: xs => (quote k ++ ": " ++ indented level x) :: indentedFields level xs

end

/-- The indented text of a value. -/
def pretty (j : Json) : String := indented 0 j

end UserFederation.Json

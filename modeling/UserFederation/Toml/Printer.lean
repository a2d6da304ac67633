import UserFederation.Text.Units

/-! TOML texts of strings. A string with line breaks stands in three quotes, after a line break.
Single quotes, in which nothing is escaped, are used for strings with a double quote or a backslash
if everything else in the string allows it. -/

namespace UserFederation.Toml

/-- Control characters but the tab cannot stand in a text as they are. -/
def isControl (c : Char) : Bool := (c.toNat < 0x20 && c ≠ '\t') || c.toNat = 0x7F

/-- Whether a text has three single quotes in a row. -/
def hasThreeQuotes : List Char → Bool
  | '\'' :: '\'' :: '\'' :: _ => true
  | _ :: rest => hasThreeQuotes rest
  | [] => false

/-- Whether a string is better written in single quotes, and can be. -/
def isLiteral (cs : List Char) : Bool :=
  cs.any (fun c => c = '"' || c = '\\') && cs.all (fun c => !isControl c || c = '\n') &&
    !hasThreeQuotes cs && cs.getLast? ≠ some '\''

/-- The text of a character in double quotes. -/
def escape (multiline : Bool) (c : Char) : List Char :=
  match c with
  | '\x08' => ['\\', 'b']
  | '\t' => ['\\', 't']
  | '\n' => if multiline then ['\n'] else ['\\', 'n']
  | '\x0c' => ['\\', 'f']
  | '\r' => ['\\', 'r']
  | '"' => ['\\', '"']
  | '\\' => ['\\', '\\']
  | c =>
    if isControl c then
      ['\\', 'u', '0', '0', Text.hexDigit true (c.toNat / 16), Text.hexDigit true (c.toNat % 16)]
    else [c]

/-- The text of a string in the quotes that fit it. -/
def quote (s : String) : String :=
  let cs := s.toList
  let multiline := cs.contains '\n'
  if isLiteral cs then
    if multiline then "'''\n" ++ s ++ "'''"
    else if cs.contains '\'' then "'''" ++ s ++ "'''"
    else "'" ++ s ++ "'"
  else
    let text := String.ofList (cs.flatMap (escape multiline))
    if multiline then "\"\"\"\n" ++ text ++ "\"\"\"" else "\"" ++ text ++ "\""

/-- A line that gives a key a string. -/
def line (key value : String) : String := key ++ " = " ++ quote value ++ "\n"

end UserFederation.Toml

import UserFederation.Text.Units

/-! Percent encoding: a byte is written as a percent sign and two hexadecimal digits, upper case. -/

namespace UserFederation.Percent

/-- A byte, written as a percent sign and two digits. -/
def escape (byte : Nat) : List Char :=
  ['%', Text.hexDigit true (byte / 16), Text.hexDigit true (byte % 16)]

/-- Characters that stand for themselves everywhere. -/
def isUnreserved (c : Char) : Bool := c.isAlphanum || c = '-' || c = '_' || c = '.' || c = '~'

/-- Writes the characters that a test picks out, byte by byte. -/
def encodeWhere (escaped : Char → Bool) (cs : List Char) : List Char :=
  cs.flatMap fun c => if escaped c then (Text.utf8 c).flatMap escape else [c]

/-- A text that can stand in any part of a path or a query. -/
def encode (s : String) : String :=
  String.ofList (encodeWhere (fun c => !isUnreserved c) s.toList)

/-- The bytes of a percent-encoded text. A percent sign without two digits stands for itself. -/
def decodeBytes : List Char → List Nat
  | '%' :: a :: b :: rest =>
    match Text.hexNumber? [a, b] with
    | some n => n :: decodeBytes rest
    | none => Text.utf8 '%' ++ decodeBytes (a :: b :: rest)
  | c :: rest => Text.utf8 c ++ decodeBytes rest
  | [] => []

end UserFederation.Percent

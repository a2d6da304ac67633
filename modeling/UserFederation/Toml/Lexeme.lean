import UserFederation.Document
import UserFederation.Text.Units

/-! The smallest parts of TOML texts: blanks, strings, numbers and dates. A reader takes its part
from the start of a text and gives what follows. -/

namespace UserFederation.Toml

/-- Reads a part of a text. -/
abbrev Reader (α : Type) := List Char → Option (α × List Char)

def isBlank (c : Char) : Bool := c = ' ' || c = '\t'

/-- Characters that may stand in comments: no control characters but the tab. -/
def isPrintable (c : Char) : Bool := c = '\t' || (0x20 ≤ c.toNat && c.toNat ≠ 0x7F)

def skipBlank (cs : List Char) : List Char := cs.dropWhile isBlank

/-- Reads a fixed text. -/
def word? (word cs : List Char) : Option (List Char) :=
  if word.isPrefixOf cs then some (cs.drop word.length) else none

/-- Reads a line break. -/
def newline? : List Char → Option (List Char)
  | '\n' :: rest => some rest
  | '\r' :: '\n' :: rest => some rest
  | _ => none

/-- Skips a comment, if there is one. -/
def skipComment : List Char → List Char
  | '#' :: rest => rest.dropWhile isPrintable
  | cs => cs

/-- Reads the end of a line, or of the text. -/
def lineEnd? (cs : List Char) : Option (List Char) :=
  match skipComment (skipBlank cs) with
  | [] => some []
  | cs => newline? cs

/-- Skips blanks, line breaks and comments, as between the values of an array. -/
def skipSpace? (inComment : Bool) : List Char → Option (List Char)
  | [] => if inComment then none else some []
  | '\n' :: rest => skipSpace? false rest
  | '\r' :: '\n' :: rest => skipSpace? false rest
  | c :: rest =>
    if inComment then if isPrintable c then skipSpace? true rest else none
    else if c = '#' then skipSpace? true rest
    else if isBlank c then skipSpace? false rest
    else some (c :: rest)

/-- The character of an escape that is a letter. -/
def escaped? : Char → Option Char
  | 'b' => some '\x08'
  | 't' => some '\t'
  | 'n' => some '\n'
  | 'f' => some '\x0c'
  | 'r' => some '\r'
  | '"' => some '"'
  | '\\' => some '\\'
  | _ => none

/-- The character of a code point in hexadecimal. -/
def codePoint? (digits : List Char) : Option Char := do
  let n ← Text.hexNumber? digits
  if n.isValidChar then some (Char.ofNat n) else none

/-- Puts a character before a text that was read. -/
def push (c : Char) : Option (List Char × List Char) → Option (List Char × List Char) :=
  Option.map fun (text, rest) => (c :: text, rest)

/-- The rest of a text in double quotes, on one line. -/
def basic? : Reader (List Char)
  | [] => none
  | '"' :: rest => some ([], rest)
  | '\\' :: 'u' :: a :: b :: c :: d :: rest => do
    push (← codePoint? [a, b, c, d]) (basic? rest)
  | '\\' :: 'U' :: a :: b :: c :: d :: e :: f :: g :: h :: rest => do
    push (← codePoint? [a, b, c, d, e, f, g, h]) (basic? rest)
  | '\\' :: c :: rest => do push (← escaped? c) (basic? rest)
  | c :: rest => if isPrintable c ∧ c ≠ '\\' then push c (basic? rest) else none

/-- The rest of a text in three double quotes. A backslash before a line break takes away the line
break and all blanks and line breaks after it, which are skipped while `skipping`. -/
def multilineBasic? (skipping : Bool) : Reader (List Char)
  | [] => none
  | '"' :: '"' :: '"' :: '"' :: '"' :: rest => some (['"', '"'], rest)
  | '"' :: '"' :: '"' :: '"' :: rest => some (['"'], rest)
  | '"' :: '"' :: '"' :: rest => some ([], rest)
  | '\n' :: rest =>
    if skipping then multilineBasic? true rest else push '\n' (multilineBasic? false rest)
  | '\r' :: '\n' :: rest =>
    if skipping then multilineBasic? true rest else push '\n' (multilineBasic? false rest)
  | '\\' :: 'u' :: a :: b :: c :: d :: rest => do
    push (← codePoint? [a, b, c, d]) (multilineBasic? false rest)
  | '\\' :: 'U' :: a :: b :: c :: d :: e :: f :: g :: h :: rest => do
    push (← codePoint? [a, b, c, d, e, f, g, h]) (multilineBasic? false rest)
  | '\\' :: c :: rest =>
    if (newline? (skipBlank (c :: rest))).isSome then multilineBasic? true (c :: rest)
    else do push (← escaped? c) (multilineBasic? false rest)
  | c :: rest =>
    if skipping && isBlank c then multilineBasic? true rest
    else if isPrintable c ∧ c ≠ '\\' then push c (multilineBasic? false rest)
    else none

/-- The rest of a text in single quotes, on one line. -/
def literal? : Reader (List Char)
  | [] => none
  | '\'' :: rest => some ([], rest)
  | c :: rest => if isPrintable c then push c (literal? rest) else none

/-- The rest of a text in three single quotes. -/
def multilineLiteral? : Reader (List Char)
  | [] => none
  | '\'' :: '\'' :: '\'' :: '\'' :: '\'' :: rest => some (['\'', '\''], rest)
  | '\'' :: '\'' :: '\'' :: '\'' :: rest => some (['\''], rest)
  | '\'' :: '\'' :: '\'' :: rest => some ([], rest)
  | '\n' :: rest => push '\n' (multilineLiteral? rest)
  | '\r' :: '\n' :: rest => push '\n' (multilineLiteral? rest)
  | c :: rest => if isPrintable c then push c (multilineLiteral? rest) else none

/-- Skips the line break that may follow three opening quotes. -/
def skipFirstNewline (cs : List Char) : List Char := (newline? cs).getD cs

/-- Reads a text in quotes of any kind. -/
def string? : Reader String
  | '"' :: '"' :: '"' :: rest =>
    (multilineBasic? false (skipFirstNewline rest)).map (Prod.map String.ofList id)
  | '"' :: rest => (basic? rest).map (Prod.map String.ofList id)
  | '\'' :: '\'' :: '\'' :: rest =>
    (multilineLiteral? (skipFirstNewline rest)).map (Prod.map String.ofList id)
  | '\'' :: rest => (literal? rest).map (Prod.map String.ofList id)
  | _ => none

/-- Reads more digits; an underscore may stand between two of them. -/
def moreDigits? (value? : Char → Option Nat) : Reader (List Nat)
  | [] => some ([], [])
  | ['_'] => none
  | '_' :: c :: rest => do
    let d ← value? c
    let (ds, rest) ← moreDigits? value? rest
    return (d :: ds, rest)
  | c :: rest =>
    match value? c with
    | none => some ([], c :: rest)
    | some d => (moreDigits? value? rest).map fun (ds, rest) => (d :: ds, rest)

/-- Reads at least one digit. -/
def digits? (value? : Char → Option Nat) : Reader (List Nat)
  | [] => none
  | c :: rest => do
    let d ← value? c
    let (ds, rest) ← moreDigits? value? rest
    return (d :: ds, rest)

/-- The number of some digits. -/
def ofDigits (base : Nat) (digits : List Nat) : Nat := digits.foldl (fun n d => n * base + d) 0

/-- Reads a sign, which may be missing. -/
def sign : List Char → Bool × List Char
  | '-' :: rest => (true, rest)
  | '+' :: rest => (false, rest)
  | cs => (false, cs)

/-- Reads the digits of a decimal integer: a zero stands alone. -/
def wholeDigits? : Reader (List Nat)
  | '0' :: rest => some ([0], rest)
  | cs => digits? Text.digitValue? cs

/-- An integer of 64 bits. -/
def integerOf? (n : Int) : Option Document :=
  if -Int.pow 2 63 ≤ n ∧ n < Int.pow 2 63 then some (.int n) else none

/-- A digit of a base up to sixteen. -/
def baseDigit? (base : Nat) (c : Char) : Option Nat := (Text.hexValue? c).filter (· < base)

/-- Reads an integer. -/
def integer? (cs : List Char) : Option (Document × List Char) :=
  let based := fun (base : Nat) (rest : List Char) => do
    let (ds, rest) ← digits? (baseDigit? base) rest
    return (← integerOf? (ofDigits base ds), rest)
  match cs with
  | '0' :: 'x' :: rest => based 16 rest
  | '0' :: 'o' :: rest => based 8 rest
  | '0' :: 'b' :: rest => based 2 rest
  | cs => do
    let (negative, rest) := sign cs
    let (ds, rest) ← wholeDigits? rest
    let n : Int := ofDigits 10 ds
    return (← integerOf? (if negative then -n else n), rest)

/-- Reads an exponent, which may be missing. -/
def exponent? : Reader (Option Int)
  | c :: rest =>
    if c = 'e' ∨ c = 'E' then do
      let (negative, rest) := sign rest
      let (ds, rest) ← digits? Text.digitValue? rest
      let e : Int := ofDigits 10 ds
      return (some (if negative then -e else e), rest)
    else some (none, c :: rest)
  | [] => some (none, [])

/-- Reads a number with a fraction or an exponent. One that is too large is refused. -/
def decimal? (cs : List Char) : Option (Document × List Char) := do
  let (negative, rest) := sign cs
  let (whole, rest) ← wholeDigits? rest
  let (fraction, rest) ← match rest with
    | '.' :: rest => digits? Text.digitValue? rest
    | rest => some ([], rest)
  let (exponent, rest) ← exponent? rest
  if fraction.isEmpty ∧ exponent.isNone then none
  let x := Double.ofDecimal negative (ofDigits 10 (whole ++ fraction))
    (exponent.getD 0 - fraction.length)
  if x = Double.infinity false then none
  return (.float x, rest)

/-- Reads a float that is no number. -/
def special? (cs : List Char) : Option (Document × List Char) :=
  let (negative, rest) := sign cs
  match rest with
  | 'i' :: 'n' :: 'f' :: rest => some (.float (Double.infinity negative), rest)
  | 'n' :: 'a' :: 'n' :: rest => some (.float (Double.nan negative), rest)
  | _ => none

/-- Reads a number of two digits up to a bound. -/
def twoDigits? (least greatest : Nat) : Reader Nat
  | a :: b :: rest => do
    let n := (← Text.digitValue? a) * 10 + (← Text.digitValue? b)
    if least ≤ n ∧ n ≤ greatest then some (n, rest) else none
  | _ => none

/-- The number of days of a month. -/
def daysOf (year month : Nat) : Nat :=
  if month = 2 then
    if year % 4 = 0 ∧ (year % 100 ≠ 0 ∨ year % 400 = 0) then 29 else 28
  else if month = 4 ∨ month = 6 ∨ month = 9 ∨ month = 11 then 30
  else 31

/-- Reads a day of the calendar. -/
def date? (cs : List Char) : Option (List Char) := do
  let (century, rest) ← twoDigits? 0 99 cs
  let (year, rest) ← twoDigits? 0 99 rest
  let rest ← word? ['-'] rest
  let (month, rest) ← twoDigits? 1 12 rest
  let rest ← word? ['-'] rest
  let (_, rest) ← twoDigits? 1 (daysOf (century * 100 + year) month) rest
  return rest

/-- Reads a time of day. -/
def time? (cs : List Char) : Option (List Char) := do
  let (_, rest) ← twoDigits? 0 23 cs
  let rest ← word? [':'] rest
  let (_, rest) ← twoDigits? 0 59 rest
  let rest ← word? [':'] rest
  let (_, rest) ← twoDigits? 0 60 rest
  match rest with
  | '.' :: c :: rest => if c.isDigit then return rest.dropWhile Char.isDigit else none
  | rest => return rest

/-- Skips the offset of a time, if there is one. -/
def skipOffset? : List Char → Option (List Char)
  | c :: rest =>
    if c = 'Z' ∨ c = 'z' then some rest
    else if c = '+' ∨ c = '-' then do
      let (_, rest) ← twoDigits? 0 23 rest
      let rest ← word? [':'] rest
      let (_, rest) ← twoDigits? 0 59 rest
      return rest
    else some (c :: rest)
  | [] => some []

/-- What a date, a time or both say: a map with an entry that stands for no value. -/
def moment : Document := .map [("", .unreadable)]

/-- Reads a date, a time or both. -/
def dateTime? (cs : List Char) : Option (Document × List Char) :=
  match date? cs with
  | none => (time? cs).map (moment, ·)
  | some rest =>
    match rest with
    | c :: after =>
      if c = 'T' ∨ c = 't' ∨ c = ' ' then
        match time? after with
        | none => some (moment, rest)
        | some rest => (skipOffset? rest).map (moment, ·)
      else some (moment, rest)
    | [] => some (moment, [])

/-- Reads a value that is no container. -/
def scalar? (cs : List Char) : Option (Document × List Char) :=
  match cs with
  | 't' :: 'r' :: 'u' :: 'e' :: rest => some (.bool true, rest)
  | 'f' :: 'a' :: 'l' :: 's' :: 'e' :: rest => some (.bool false, rest)
  | c :: _ =>
    if c = '"' ∨ c = '\'' then (string? cs).map fun (s, rest) => (.text s, rest)
    else (dateTime? cs).or ((decimal? cs).or ((special? cs).or (integer? cs)))
  | [] => none

end UserFederation.Toml

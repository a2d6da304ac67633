import UserFederation.Json.Number
import UserFederation.Text.Units

/-! The tokens of a JSON text. -/

namespace UserFederation.Json

/-- A token. A text whose escapes are no characters has no value. -/
inductive Token
  | openSeq
  | closeSeq
  | openMap
  | closeMap
  | colon
  | comma
  | text (value : Option String)
  | scalar (value : Document)

/-- What is left of a text after a part of it. -/
abbrev Rest (cs : List Char) := { rest : List Char // rest.length < cs.length }

/-- What is left of a text after a part of it that may be empty. -/
abbrev Remainder (cs : List Char) := { rest : List Char // rest.length ≤ cs.length }

/-- Lets a later rest stand for the rest of a longer text. -/
def Rest.weaken {cs ds : List Char} (h : ds.length ≤ cs.length) (r : Rest ds) : Rest cs :=
  ⟨r.1, Nat.lt_of_lt_of_le r.2 h⟩

namespace Token

/-- The unit that an escape of one character stands for. -/
def escaped? : Char → Option Nat
  | '"' => some 0x22
  | '\\' => some 0x5C
  | '/' => some 0x2F
  | 'b' => some 0x08
  | 'f' => some 0x0C
  | 'n' => some 0x0A
  | 'r' => some 0x0D
  | 't' => some 0x09
  | _ => none

/-- The units of 16 bits of a character. -/
def units (c : Char) : List Nat :=
  if c.toNat < 0x10000 then [c.toNat]
  else [0xD800 + (c.toNat - 0x10000) / 0x400, 0xDC00 + (c.toNat - 0x10000) % 0x400]

/-- The units of a text up to its closing quote. Control characters have to be escaped. -/
def quoted? : (cs : List Char) → Option (List Nat × Rest cs)
  | [] => none
  | '"' :: rest => some ([], ⟨rest, by simp⟩)
  | '\\' :: 'u' :: a :: b :: c :: d :: rest => do
    let unit ← Text.hexNumber? [a, b, c, d]
    let (us, r) ← quoted? rest
    return (unit :: us, r.weaken (by simp; omega))
  | '\\' :: c :: rest => do
    let unit ← escaped? c
    let (us, r) ← quoted? rest
    return (unit :: us, r.weaken (by simp; omega))
  | c :: rest => do
    if c.toNat < 0x20 ∨ c = '\\' then none
    let (us, r) ← quoted? rest
    return (units c ++ us, r.weaken (by simp))

/-- The digits at the start of a text, and what follows them. -/
def digits (cs : List Char) : List Nat × List Char :=
  ((cs.takeWhile Char.isDigit).map fun c => c.toNat - '0'.toNat, cs.dropWhile Char.isDigit)

theorem length_digits (cs : List Char) : (digits cs).2.length ≤ cs.length :=
  (List.dropWhile_sublist _).length_le

/-- What follows the sign of an exponent, or the exponent itself if it has none. -/
def unsigned (cs : List Char) : List Char :=
  if cs.head? = some '-' ∨ cs.head? = some '+' then cs.drop 1 else cs

theorem length_unsigned (cs : List Char) : (unsigned cs).length ≤ cs.length := by
  unfold unsigned
  split
  · exact (List.drop_sublist 1 cs).length_le
  · exact Nat.le_refl _

theorem length_exponent (e : Char) {rest : List Char} {ds : List Nat} {after : List Char}
    (h : digits (unsigned rest) = (ds, after)) : after.length ≤ (e :: rest).length := by
  have bound : (digits (unsigned rest)).2.length ≤ (unsigned rest).length := length_digits _
  rw [h] at bound
  exact Nat.le_trans bound (Nat.le_trans (length_unsigned rest) (Nat.le_succ _))

/-- The exponent at the start of a text, if there is one; `none` if it lacks digits. -/
def exponent? (cs : List Char) : Option (Option (Bool × List Nat) × Remainder cs) :=
  match cs with
  | [] => some (none, ⟨[], Nat.le_refl _⟩)
  | e :: rest =>
    if e = 'e' ∨ e = 'E' then
      let negative := rest.head? = some '-'
      match h : digits (unsigned rest) with
      | ([], _) => none
      | (ds, after) => some (some (decide negative, ds), ⟨after, length_exponent e h⟩)
    else some (none, ⟨e :: rest, Nat.le_refl _⟩)

/-- The fraction at the start of a text, empty if there is none; `none` if it lacks digits. -/
def fraction? (cs : List Char) : Option (List Nat × Remainder cs) :=
  match cs with
  | '.' :: rest =>
    match h : digits rest with
    | ([], _) => none
    | (ds, after) => some (ds, ⟨after, by
        have : after.length ≤ rest.length := by
          have := length_digits rest
          rwa [h] at this
        simp
        omega⟩)
  | cs => some ([], ⟨cs, Nat.le_refl _⟩)

/-- A number without its sign. A leading zero is the whole of the digits before the point. -/
def number? (negative : Bool) (cs : List Char) : Option (Document × Rest cs) :=
  match h : digits cs with
  | ([], _) => none
  | (d :: ds, after) => do
    if d = 0 ∧ ds ≠ [] then none
    let (fraction, ⟨r₁, h₁⟩) ← fraction? after
    let (exponent, ⟨r₂, h₂⟩) ← exponent? r₁
    let text : NumberText := ⟨negative, d :: ds, fraction, exponent⟩
    return (text.document, ⟨r₂, by
      have h₃ : after.length < cs.length := by
        have hd : (digits cs).1 ≠ [] := by rw [h]; simp
        have ha : (digits cs).2 = after := by rw [h]
        rw [← ha]
        cases cs with
        | nil => simp [digits] at hd
        | cons c cs =>
          simp only [digits, List.takeWhile_cons, List.dropWhile_cons] at hd ⊢
          split at hd
          · rename_i hc
            simp only [hc, if_true]
            exact Nat.lt_succ_of_le (length_digits cs)
          · simp at hd
      omega⟩)

/-- The word of a literal at the start of a text. -/
def word? (word : List Char) (value : Document) (cs : List Char) (h : 0 < word.length) :
    Option (Token × Rest cs) :=
  if hp : word.isPrefixOf cs then
    some (.scalar value, ⟨cs.drop word.length, by
      have := (List.isPrefixOf_iff_prefix.1 hp).length_le
      simp
      omega⟩)
  else none

def isBlank (c : Char) : Bool := c = ' ' ∨ c = '\n' ∨ c = '\t' ∨ c = '\r'

/-- The token that a text starts with. -/
def next? : (cs : List Char) → Option (Token × Rest cs)
  | [] => none
  | '[' :: rest => some (.openSeq, ⟨rest, by simp⟩)
  | ']' :: rest => some (.closeSeq, ⟨rest, by simp⟩)
  | '\x7b' :: rest => some (.openMap, ⟨rest, by simp⟩)
  | '\x7d' :: rest => some (.closeMap, ⟨rest, by simp⟩)
  | ':' :: rest => some (.colon, ⟨rest, by simp⟩)
  | ',' :: rest => some (.comma, ⟨rest, by simp⟩)
  | '"' :: rest => do
    let (us, r) ← quoted? rest
    return (.text ((Text.ofUnits? us).map String.ofList), r.weaken (by simp))
  | '-' :: rest => do
    let (d, r) ← number? true rest
    return (.scalar d, r.weaken (by simp))
  | 'n' :: rest => word? ['n', 'u', 'l', 'l'] .null ('n' :: rest) (by simp)
  | 't' :: rest => word? ['t', 'r', 'u', 'e'] (.bool true) ('t' :: rest) (by simp)
  | 'f' :: rest => word? ['f', 'a', 'l', 's', 'e'] (.bool false) ('f' :: rest) (by simp)
  | c :: rest => do
    let (d, r) ← number? false (c :: rest)
    return (.scalar d, r)

/-- All tokens of a text. Blanks between tokens mean nothing. -/
def scan? (cs : List Char) : Option (List Token) :=
  match cs with
  | [] => some []
  | c :: rest =>
    if isBlank c then scan? rest
    else
      match next? (c :: rest) with
      | none => none
      | some (t, r) => (scan? r.1).map (t :: ·)
termination_by cs.length
decreasing_by
  · simp
  · exact r.2

end Token

end UserFederation.Json

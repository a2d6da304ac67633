/-! Doubles by their 64 bits, and the rounding of an exact ratio to the nearest double. All
arithmetic is on naturals and integers; a result is the double nearest to the exact one, of two
equally near ones the one with the even significand. -/

namespace UserFederation

/-- A floating point number of 64 bits: sign, eleven bits of exponent, 52 bits of fraction. -/
structure Double where
  bits : UInt64
  deriving DecidableEq, Inhabited

namespace Double

/-- What the bits of a double stand for; `finite` is `± significand * 2 ^ exponent`. -/
inductive Meaning
  | finite (negative : Bool) (significand : Nat) (exponent : Int)
  | infinite (negative : Bool)
  | nan
  deriving DecidableEq

/-- Reads the three fields of a double. -/
def meaning (x : Double) : Meaning :=
  let word := x.bits.toNat
  let negative := decide (Nat.pow 2 63 ≤ word)
  let exponent : Nat := word / Nat.pow 2 52 % Nat.pow 2 11
  let fraction := word % Nat.pow 2 52
  if exponent = 2047 then if fraction = 0 then .infinite negative else .nan
  else if exponent = 0 then .finite negative fraction (-1074)
  else .finite negative (Nat.pow 2 52 + fraction) ((exponent : Int) - 1075)

/-- The double of a magnitude's bits and a sign. -/
def ofMagnitude (negative : Bool) (word : Nat) : Double :=
  ⟨UInt64.ofNat (if negative then Nat.pow 2 63 + word else word)⟩

def infinity (negative : Bool) : Double := ofMagnitude negative (2047 * Nat.pow 2 52)

def nan (negative : Bool) : Double := ofMagnitude negative (2047 * Nat.pow 2 52 + Nat.pow 2 51)

def zero (negative : Bool) : Double := ofMagnitude negative 0

/-- The natural number nearest to `num / den`; a half goes to the even neighbour. -/
def roundRatio (num den : Nat) : Nat :=
  let whole := num / den
  let twice := 2 * (num % den)
  if twice < den then whole
  else if den < twice then whole + 1
  else whole + whole % 2

/-- Divides a ratio by a power of two. -/
def shiftRatio (num den : Nat) (exponent : Int) : Nat × Nat :=
  match exponent with
  | .ofNat e => (num, den * Nat.pow 2 e)
  | .negSucc e => (num * Nat.pow 2 (e + 1), den)

/-- The double nearest to `± num / den`, infinite beyond the largest one. The significand of a
normal double has 53 bits; the least exponent is -1074. -/
def ofRatio (negative : Bool) (num den : Nat) : Double :=
  if num = 0 then zero negative
  else
    let guess : Int := (Nat.log2 num : Int) - (Nat.log2 den : Int) - 53
    let (n, d) := shiftRatio num den guess
    let exponent := max (if Nat.pow 2 53 ≤ n / d then guess + 1 else guess) (-1074)
    let (n, d) := shiftRatio num den exponent
    let word := (exponent + 1074).toNat * Nat.pow 2 52 + roundRatio n d
    if 2047 * Nat.pow 2 52 ≤ word then infinity negative else ofMagnitude negative word

/-- The double nearest to an integer. -/
def ofInt (n : Int) : Double := ofRatio (decide (n < 0)) n.natAbs 1

/-- The double nearest to `± digits * 10 ^ exponent`. From `10 ^ 310` on this is infinite, below
`10 ^ -330` it is zero, so that no larger powers need be computed. -/
def ofDecimal (negative : Bool) (digits : Nat) (exponent : Int) : Double :=
  if digits = 0 ∨ exponent + Nat.log2 digits + 1 < -330 then zero negative
  else if 310 < exponent then infinity negative
  else
    match exponent with
    | .ofNat e => ofRatio negative (digits * Nat.pow 10 e) 1
    | .negSucc e => ofRatio negative digits (Nat.pow 10 (e + 1))

/-- A power of two as a ratio. -/
def twoPow (exponent : Int) : Nat × Nat :=
  match exponent with
  | .ofNat e => (Nat.pow 2 e, 1)
  | .negSucc e => (1, Nat.pow 2 (e + 1))

/-- The magnitude of a finite double as a ratio. -/
def ratio? (x : Double) : Option (Bool × Nat × Nat) :=
  match x.meaning with
  | .finite negative m q => let (a, b) := twoPow q; some (negative, m * a, b)
  | _ => none

/-- The product of two finite doubles, rounded. -/
def mul (x y : Double) : Double :=
  match x.ratio?, y.ratio? with
  | some (s, a, b), some (t, c, d) => ofRatio (s != t) (a * c) (b * d)
  | _, _ => nan false

/-- The quotient of two finite doubles, rounded; the divisor is not zero. -/
def div (x y : Double) : Double :=
  match x.ratio?, y.ratio? with
  | some (s, a, b), some (t, c, d) => ofRatio (s != t) (a * d) (b * c)
  | _, _ => nan false

/-- Changes the sign. -/
def neg (x : Double) : Double := ⟨x.bits ^^^ 0x8000000000000000⟩

def isZero (x : Double) : Bool := x.bits <<< 1 == 0

def isFinite (x : Double) : Bool := x.ratio?.isSome

/-- One representative of the doubles of equal value: the two zeros are equal. -/
def canonical (x : Double) : Double := if x.isZero then zero false else x

end Double

end UserFederation

import UserFederation.Decimal.Double

/-! Decimal text of doubles: the fewest digits that read back as the same double, laid out with a
point or with an exponent as a record says. -/

namespace UserFederation

/-- Which of two equally near decimals is taken. -/
inductive Tie
  | up
  | even
  deriving DecidableEq

namespace Decimal

/-- A power of ten as a ratio. -/
def tenPow (exponent : Int) : Nat × Nat :=
  match exponent with
  | .ofNat e => (Nat.pow 10 e, 1)
  | .negSucc e => (1, Nat.pow 10 (e + 1))

/-- The number `p` with `10 ^ (p - 1) ≤ num / den < 10 ^ p`, searched upward from a lower bound. -/
def magnitude (num den : Nat) : Nat → Int → Int
  | 0, p => p
  | fuel + 1, p =>
    let (a, b) := tenPow p
    if num * b < a * den then p else magnitude num den fuel (p + 1)

/-- The digits nearest to a value on the grid of spacing `10 ^ k`, if a point of the grid next to
the value reads back as it. The value is `v * u`, the numbers that read back as it lie between
`lo * u` and `hi * u`, where `u = num / den`; the bounds belong to them if `closed`. -/
def onGrid (tie : Tie) (closed : Bool) (lo v hi num den : Nat) (k : Int) : Option Nat :=
  let (a, b) := tenPow k
  let scale := a * den
  let at' := fun (x : Nat) => x * num * b
  let below := at' v / scale
  let inside := fun (c : Nat) =>
    if closed then at' lo ≤ c * scale && c * scale ≤ at' hi
    else at' lo < c * scale && c * scale < at' hi
  match inside below, inside (below + 1) with
  | true, false => some below
  | false, true => some (below + 1)
  | false, false => none
  | true, true =>
    let twice := 2 * (at' v - below * scale)
    if twice < scale then some below
    else if scale < twice then some (below + 1)
    else match tie with
      | .up => some (below + 1)
      | .even => some (below + below % 2)

/-- Drops trailing zeros of the digits, raising the exponent. -/
def dropZeros : Nat → Nat → Int → Nat × Int
  | 0, digits, k => (digits, k)
  | fuel + 1, digits, k =>
    if digits ≠ 0 ∧ digits % 10 = 0 then dropZeros fuel (digits / 10) (k + 1) else (digits, k)

/-- The fewest digits `d` and the exponent `k` such that `d * 10 ^ k` is read as the double
`significand * 2 ^ exponent`; of several such the nearest one. Seventeen digits always suffice. -/
def shortest (tie : Tie) (significand : Nat) (exponent : Int) : Nat × Int :=
  let narrow := significand = Nat.pow 2 52 ∧ exponent > -1074
  let v := 4 * significand
  let lo := if narrow then v - 1 else v - 2
  let hi := v + 2
  let closed := significand % 2 = 0
  let (num, den) := Double.twoPow (exponent - 2)
  let start : Int := ((Nat.log2 (v * num) : Int) - (Nat.log2 den : Int)) * 30103 / 100000 - 1
  let p := magnitude (v * num) den 8 start
  let found := (List.range 17).findSome? fun n =>
    let k := p - (n + 1 : Nat)
    (onGrid tie closed lo v hi num den k).map fun d => dropZeros 20 d k
  found.getD (significand, 0)

/-- How numbers are written. A number `0.d₁d₂… * 10 ^ point` is written with a point if `point`
lies between the two bounds, otherwise as `d₁.d₂…e(point - 1)`. -/
structure Layout where
  leastPoint : Int
  greatestPoint : Int
  tie : Tie
  /-- Whether an exponent that is not negative has a sign too. -/
  signed : Bool
  /-- How many digits an exponent has at least. -/
  exponentDigits : Nat
  infinite : String
  nan : String

/-- Digits with a point: at least one digit stands on either side of it. -/
def withPoint (digits : List Char) (point : Int) : List Char :=
  let zeros := fun (n : Nat) => List.replicate n '0'
  if point ≤ 0 then '0' :: '.' :: (zeros (-point).toNat ++ digits)
  else
    let n := point.toNat
    if digits.length ≤ n then digits ++ zeros (n - digits.length) ++ ['.', '0']
    else digits.take n ++ '.' :: digits.drop n

/-- The text of an exponent. -/
def Layout.exponent (layout : Layout) (e : Int) : List Char :=
  let digits := Nat.toDigits 10 e.natAbs
  (if e < 0 then ['-'] else if layout.signed then ['+'] else []) ++
    List.replicate (layout.exponentDigits - digits.length) '0' ++ digits

/-- Digits with an exponent: the point stands after the first digit if another one follows. -/
def Layout.withExponent (layout : Layout) (digits : List Char) (point : Int) : List Char :=
  let rest := digits.drop 1
  digits.take 1 ++ (if rest.isEmpty then [] else '.' :: rest) ++ 'e' :: layout.exponent (point - 1)

/-- The text of a double. -/
def Layout.write (layout : Layout) (x : Double) : String :=
  match x.meaning with
  | .nan => layout.nan
  | .infinite negative => (if negative then "-" else "") ++ layout.infinite
  | .finite negative m q =>
    let body :=
      if m = 0 then ['0', '.', '0']
      else
        let (d, k) := shortest layout.tie m q
        let digits := Nat.toDigits 10 d
        let point := (digits.length : Int) + k
        if layout.leastPoint ≤ point ∧ point ≤ layout.greatestPoint then withPoint digits point
        else layout.withExponent digits point
    (if negative then "-" else "") ++ String.ofList body

end Decimal

end UserFederation

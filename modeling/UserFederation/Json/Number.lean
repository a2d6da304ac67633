import UserFederation.Document

/-! Numbers of JSON texts. An integer keeps its value while it fits 64 bits. Every other number is
a double, computed from a significand of 64 bits and a power of ten: digits that no longer fit the
significand only count for the power, and the product is rounded twice, so that the result may be
the neighbour of the nearest double. -/

namespace UserFederation.Json

/-- The parts of a written number. -/
structure NumberText where
  negative : Bool
  /-- The digits before the point. -/
  whole : List Nat
  /-- The digits after the point. -/
  fraction : List Nat
  /-- The sign and the digits of the exponent. -/
  exponent : Option (Bool × List Nat)

namespace NumberText

/-- Appends digits to a significand while it stays below `2 ^ 64`; also gives the digits that no
longer fit. -/
def gather : Nat → List Nat → Nat × List Nat
  | significand, [] => (significand, [])
  | significand, d :: ds =>
    if significand * 10 + d < Nat.pow 2 64 then gather (significand * 10 + d) ds
    else (significand, d :: ds)

/-- Divides by `10 ^ 308` a number of times, until nothing is left. -/
def scaleDown (x : Double) : Nat → Double
  | 0 => x
  | n + 1 => if x.isZero then x else scaleDown (x.div (Double.ofDecimal false 1 308)) n

/-- The double of `significand * 10 ^ exponent`, unless it is too large. -/
def scale? (significand : Nat) (exponent : Int) : Option Double :=
  let x := Double.ofInt significand
  match exponent with
  | .ofNat e =>
    if e ≤ 308 then
      let y := x.mul (Double.ofDecimal false 1 e)
      if y.isFinite then some y else none
    else if x.isZero then some x
    else none
  | .negSucc n =>
    let steps := n / 308
    let y := scaleDown x steps
    if y.isZero then some y
    else some (y.div (Double.ofDecimal false 1 (n + 1 - 308 * steps : Nat)))

/-- The written exponent; one beyond 32 bits counts as `none`. -/
def exponentValue? (digits : List Nat) : Option Nat :=
  let e := digits.foldl (fun e d => e * 10 + d) 0
  if e < Nat.pow 2 31 then some e else none

/-- The magnitude of a number with a point, an exponent or too many digits. -/
def magnitude? (t : NumberText) : Option Double :=
  let (high, dropped) := gather 0 t.whole
  let (significand, rest) := gather high t.fraction
  let point : Int := (dropped.length : Int) - (t.fraction.length - rest.length : Nat)
  match t.exponent with
  | none => scale? significand point
  | some (negative, digits) =>
    match exponentValue? digits with
    | some e => scale? significand (if negative then point - e else point + e)
    | none => if negative || significand = 0 then some (Double.zero false) else none

/-- The number that the text stands for; none that is too large. -/
def document (t : NumberText) : Document :=
  let plain := t.fraction.isEmpty && t.exponent.isNone
  match plain, gather 0 t.whole with
  | true, (n, []) =>
    if !t.negative then .int n
    else if n = 0 || Nat.pow 2 63 < n then .float (Double.ofInt n).neg
    else .int (-n)
  | _, _ =>
    match t.magnitude? with
    | some x => .float (if t.negative then x.neg else x)
    | none => .unreadable

end NumberText

end UserFederation.Json

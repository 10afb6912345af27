import SchemaGraph.Double.Basic

set_option autoImplicit false

/-! # Rounding to the nearest double

One function rounds everything: `Double.ofRatio` takes an exact quotient of natural numbers to
the nearest double, a tie going to the even significand. Integers, decimal literals and
quotients of doubles are all brought into that form first.
-/

namespace SchemaGraph

/-- The whole number nearest to `num / den`; a half goes to the even neighbour. -/
def roundHalfEven (num den : Nat) : Nat :=
  let down := num / den
  let rest := num % den
  if 2 * rest < den then down
  else if den < 2 * rest then down + 1
  else if down % 2 == 0 then down else down + 1

namespace Double

/-- The double nearest to `± num / den`, for `den > 0`. Beyond the largest double it is
infinite. -/
def ofRatio (negative : Bool) (num den : Nat) : Double :=
  let scaled := num * unitsPerOne
  let shift := Nat.log2 (scaled / den) - 52
  let m := roundHalfEven scaled (den * Nat.pow 2 shift)
  let (m, shift) := if m == Nat.pow 2 53 then (Nat.pow 2 52, shift + 1) else (m, shift)
  if 2045 < shift then infinity negative else finite negative m shift

/-- The double nearest to an integer. -/
def ofInt (n : Int) : Double := ofRatio (n < 0) n.natAbs 1

/-- The double nearest to `± digits · 10^exponent`.

A magnitude below `10⁻⁴⁰⁰` is zero and one from `10⁴⁰⁰` on is infinite, so no power larger than
the number of digits allows is ever computed. -/
def ofDecimal (negative : Bool) (digits : Nat) (exponent : Int) : Double :=
  if digits == 0 then finite negative 0 0
  else
    let magnitude : Int := exponent + (Nat.log2 digits / 4 : Nat)
    let bound : Int := exponent + (Nat.log2 digits + 1 : Nat)
    if 400 < magnitude then infinity negative
    else if bound < -400 then finite negative 0 0
    else if 0 ≤ exponent then ofRatio negative (digits * Nat.pow 10 exponent.toNat) 1
    else ofRatio negative digits (Nat.pow 10 (-exponent).toNat)

/-- The sign of a double. NaN counts as positive. -/
def isNegative : Double → Bool
  | nan => false
  | infinity s => s
  | finite s _ _ => s

/-- The quotient of two doubles, rounded to the nearest double. -/
def divide (a b : Double) : Double :=
  let negative := a.isNegative != b.isNegative
  match a, b with
  | nan, _ => nan
  | _, nan => nan
  | infinity _, infinity _ => nan
  | infinity _, finite .. => infinity negative
  | finite .., infinity _ => finite negative 0 0
  | finite _ m q, finite _ n r =>
    if n == 0 then (if m == 0 then nan else infinity negative)
    else ofRatio negative (m * Nat.pow 2 q) (n * Nat.pow 2 r)

end Double

end SchemaGraph

set_option autoImplicit false

/-! # Doubles as exact numbers

A double (IEEE 754 binary64) is kept as its sign, its integer significand `m` and a shift `q`:
the finite double `(m, q)` has the value `m · 2^q · 2⁻¹⁰⁷⁴`. Every finite double is a whole
number of units `2⁻¹⁰⁷⁴`, so comparisons, truncation and divisibility are integer arithmetic
on `Double.units?` and no rounding is ever hidden in them.

The operations that make doubles (`Double.ofRatio`, `Double.ofBits`) give the canonical pair:
`m < 2^53`, and `2^52 ≤ m` unless `q = 0`.
-/

namespace SchemaGraph

/-- A double. The value of `finite neg m q` is `± m · 2^q` units of `2⁻¹⁰⁷⁴`. -/
inductive Double where
  | nan
  | infinity (negative : Bool)
  | finite (negative : Bool) (significand shift : Nat)
  deriving DecidableEq, Repr, Inhabited

namespace Double

/-- How many units make one. -/
def unitsPerOne : Nat := Nat.pow 2 1074

/-- Positive zero. -/
def zero : Double := finite false 0 0

/-- `true` for every double but the infinities and NaN. -/
def isFinite : Double → Bool
  | finite .. => true
  | _ => false

/-- The exact value of a finite double in units of `2⁻¹⁰⁷⁴`. -/
def units? : Double → Option Int
  | finite false m q => some (m * Nat.pow 2 q : Nat)
  | finite true m q => some (-(m * Nat.pow 2 q : Nat))
  | _ => none

/-! ## Order

Zeros compare equal whatever their sign, and NaN compares with nothing. -/

/-- The order of two doubles, `none` if one of them is NaN. -/
def compare? : Double → Double → Option Ordering
  | nan, _ => none
  | _, nan => none
  | infinity a, infinity b => some (compare b.toNat a.toNat)
  | infinity a, finite .. => some (if a then .lt else .gt)
  | finite .., infinity b => some (if b then .gt else .lt)
  | a@(finite ..), b@(finite ..) => some (compare (a.units?.getD 0) (b.units?.getD 0))

/-- The two doubles are the same number. -/
def sameNumber (a b : Double) : Bool := compare? a b == some .eq

/-- The first double is the smaller one. -/
def below (a b : Double) : Bool := compare? a b == some .lt

/-- The first double is not the greater one. NaN is neither above nor below anything. -/
def atMost (a b : Double) : Bool := a.below b || a.sameNumber b

/-! ## Whole part -/

/-- The double is a whole number. -/
def isWhole (d : Double) : Bool :=
  match d.units? with
  | some u => u % unitsPerOne == 0
  | none => false

/-- The whole part, with the fraction dropped. -/
def truncate? (d : Double) : Option Int :=
  d.units?.map (Int.tdiv · unitsPerOne)

/-- The magnitude is below `2⁶³`. -/
def fitsWord (d : Double) : Bool :=
  match d.units? with
  | some u => decide (u.natAbs < Nat.pow 2 63 * unitsPerOne)
  | none => false

/-! ## Bit patterns

Sign, eleven bits of exponent, fifty-two bits of fraction. -/

/-- The bit pattern as a number below `2⁶⁴`. NaN is written as the quiet NaN. -/
def toBits : Double → Nat
  | nan => 0x7ff8000000000000
  | infinity s => s.toNat * Nat.pow 2 63 + 0x7ff * Nat.pow 2 52
  | finite s m q =>
    if m < Nat.pow 2 52 then s.toNat * Nat.pow 2 63 + m
    else s.toNat * Nat.pow 2 63 + (q + 1) * Nat.pow 2 52 + (m - Nat.pow 2 52)

/-- The double of a bit pattern. -/
def ofBits (bits : Nat) : Double :=
  let negative := bits / Nat.pow 2 63 % 2 == 1
  let exponent := bits / Nat.pow 2 52 % Nat.pow 2 11
  let fraction := bits % Nat.pow 2 52
  if exponent == 0x7ff then
    if fraction == 0 then infinity negative else nan
  else if exponent == 0 then finite negative fraction 0
  else finite negative (Nat.pow 2 52 + fraction) (exponent - 1)

end Double

end SchemaGraph

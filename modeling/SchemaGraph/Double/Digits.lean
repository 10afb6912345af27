import SchemaGraph.Double.Rounding

set_option autoImplicit false

/-! # Shortest decimal digits

The shortest text of a double is the decimal with the fewest digits that still rounds to it,
and of those the nearest one. All reals that round to the double form an interval around it
(with its ends exactly if the significand is even). For one digit, two digits, … the two
neighbours of the value on that decimal grid are tested in exact arithmetic; the first grid
with a hit wins. Seventeen digits always suffice.

`NumberFormat` holds the decisions that are not arithmetic: where positional notation ends,
whether a whole number keeps a fraction, and which way an exact tie goes.
-/

namespace SchemaGraph

/-- Where an exact tie between two decimals goes. -/
inductive Tie where
  | toEven
  | up
  deriving DecidableEq, Repr

/-- A positive decimal `d₁.d₂d₃… · 10^exponent` given by its digits. -/
structure Decimal where
  digits : List Char
  exponent : Int
  deriving DecidableEq, Repr

namespace Decimal

/-- `c` counts units of the last place of a number with `n` digits and leading exponent `e`. -/
def ofGrid (c n : Nat) (e : Int) : Decimal :=
  let text := Nat.toDigits 10 c
  let kept := (text.reverse.dropWhile (· == '0')).reverse
  ⟨kept, e + ((text.length : Int) - n)⟩

end Decimal

namespace Double

/-- `10^e` as a quotient of natural numbers. -/
def powerOfTen (e : Int) : Nat × Nat :=
  if 0 ≤ e then (Nat.pow 10 e.toNat, 1) else (1, Nat.pow 10 (-e).toNat)

/-- The `e` with `10^e ≤ num / den < 10^(e+1)`, for a positive quotient. -/
def leadingExponent (num den : Nat) : Int :=
  let log := ((num.log2 : Int) - den.log2 - 1) * 30103 / 100000 - 1
  let reached (e : Int) : Bool :=
    let (p, q) := powerOfTen e
    decide (p * den ≤ num * q)
  ([log + 1, log + 2, log + 3, log + 4].filter reached).getLast?.getD log

/-- The fewest digits that round to the positive double `m · 2^q` units. -/
def shortestDecimal (tie : Tie) (m q : Nat) : Decimal :=
  -- everything in quarters of a unit
  let value := 4 * m * Nat.pow 2 q
  let above := value + 2 * Nat.pow 2 q
  let under := value - (if m == Nat.pow 2 52 && 0 < q then Nat.pow 2 q else 2 * Nat.pow 2 q)
  let den := 4 * unitsPerOne
  let closed := m % 2 == 0
  let e := leadingExponent value den
  let onGrid (n : Nat) : Option Decimal :=
    let (p, r) := powerOfTen (e - (n : Int) + 1)
    -- `c` grid steps are `c * p * den` of `value * r`
    let step := p * den
    let target := value * r
    let inside (c : Nat) : Bool :=
      if closed then decide (under * r ≤ c * step) && decide (c * step ≤ above * r)
      else decide (under * r < c * step) && decide (c * step < above * r)
    let low := target / step
    let downDistance := target - low * step
    let upDistance := (low + 1) * step - target
    let pick : Option Nat :=
      match inside low && low != 0, inside (low + 1) with
      | true, true =>
        if downDistance < upDistance then some low
        else if upDistance < downDistance then some (low + 1)
        else match tie with
          | .toEven => some (if low % 2 == 0 then low else low + 1)
          | .up => some (low + 1)
      | true, false => some low
      | false, true => some (low + 1)
      | false, false => none
    pick.map fun c => Decimal.ofGrid c n e
  ((List.range 17).findSome? fun i => onGrid (i + 1)).getD (Decimal.ofGrid 0 1 0)

end Double

/-- How a double is written. -/
structure NumberFormat where
  /-- The leading exponents written in positional notation. -/
  positional : Int → Bool
  /-- A whole number keeps the fraction `.0`. -/
  wholeFraction : Bool
  tie : Tie

namespace NumberFormat

/-- Digits with the point after position `e`, zeros filling the gaps. -/
def placePoint (wholeFraction : Bool) (digits : List Char) (e : Int) : List Char :=
  if e < 0 then
    '0' :: '.' :: (List.replicate (-e - 1).toNat '0' ++ digits)
  else
    let width := e.toNat + 1
    if digits.length ≤ width then
      digits ++ List.replicate (width - digits.length) '0' ++ (if wholeFraction then ['.', '0'] else [])
    else digits.take width ++ '.' :: digits.drop width

/-- One digit, the fraction if there is one, and the signed exponent. -/
def scientific (digits : List Char) (e : Int) : List Char :=
  let fraction := match digits with
    | d :: [] => [d]
    | d :: rest => d :: '.' :: rest
    | [] => []
  let sign := if e < 0 then '-' else '+'
  fraction ++ 'e' :: sign :: Nat.toDigits 10 e.natAbs

/-- The text of a double. -/
def write (format : NumberFormat) : Double → String
  | .nan => "NaN"
  | .infinity negative => if negative then "-inf" else "inf"
  | .finite negative m q =>
    let sign := if negative then ['-'] else []
    if m == 0 then String.ofList (sign ++ placePoint format.wholeFraction ['0'] 0)
    else
      let d := Double.shortestDecimal format.tie m q
      if format.positional d.exponent then
        String.ofList (sign ++ placePoint format.wholeFraction d.digits d.exponent)
      else String.ofList (sign ++ scientific d.digits d.exponent)

end NumberFormat

end SchemaGraph

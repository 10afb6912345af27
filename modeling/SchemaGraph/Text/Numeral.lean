import SchemaGraph.Double.Rounding
import SchemaGraph.Text.Basic

set_option autoImplicit false

/-! # Numerals

Reading of the numbers people write in texts: whole numbers with an optional sign, indexes,
and decimal fractions with an optional exponent. Each reader accepts the whole text or nothing.
-/

namespace SchemaGraph

/-- The integers of a signed 64-bit word. -/
def FitsSigned (n : Int) : Prop := -0x8000000000000000 ≤ n ∧ n < 0x8000000000000000

instance (n : Int) : Decidable (FitsSigned n) := inferInstanceAs (Decidable (_ ∧ _))

/-- The integers of a signed or an unsigned 64-bit word. -/
def FitsWord (n : Int) : Prop := -0x8000000000000000 ≤ n ∧ n < 0x10000000000000000

instance (n : Int) : Decidable (FitsWord n) := inferInstanceAs (Decidable (_ ∧ _))

namespace Numeral

/-- A sign, if the text starts with one, and the rest. -/
def takeSign : List Char → Bool × List Char
  | '-' :: rest => (true, rest)
  | '+' :: rest => (false, rest)
  | rest => (false, rest)

/-- The number a nonempty run of digits writes. -/
def readDigits? (text : List Char) : Option Nat :=
  if text.isEmpty || !text.all Ascii.isDigit then none else some (Ascii.decimalValue text)

/-- A signed 64-bit integer: an optional sign, then digits. -/
def readSigned? (text : List Char) : Option Int := do
  let (negative, digits) := takeSign text
  let n ← readDigits? digits
  let value : Int := if negative then -n else n
  if FitsSigned value then some value else none

/-- An index into a list: digits, with an optional plus sign, below `2⁶⁴`. -/
def readIndex? (text : List Char) : Option Nat := do
  let digits := match text with
    | '+' :: rest => rest
    | rest => rest
  let n ← readDigits? digits
  if n < 0x10000000000000000 then some n else none

/-- The exponent after a significand: nothing, or `e` and a signed whole number. -/
def readExponent? : List Char → Option Int
  | [] => some 0
  | c :: rest =>
    if c == 'e' || c == 'E' then
      let (negative, digits) := takeSign rest
      (readDigits? digits).map fun n => if negative then -(n : Int) else n
    else none

/-- Digits with an optional point and an optional exponent; one digit at least. -/
def readUnsignedDouble? (negative : Bool) (text : List Char) : Option Double := do
  let whole := text.takeWhile Ascii.isDigit
  let rest := text.dropWhile Ascii.isDigit
  let (fraction, rest) := match rest with
    | '.' :: rest => (rest.takeWhile Ascii.isDigit, rest.dropWhile Ascii.isDigit)
    | rest => ([], rest)
  if whole.isEmpty && fraction.isEmpty then none
  else
    let exponent ← readExponent? rest
    some (Double.ofDecimal negative (Ascii.decimalValue (whole ++ fraction))
      (exponent - fraction.length))

/-- A double: an optional sign, then a decimal, or one of the words for the infinities and NaN
in any case. -/
def readDouble? (text : List Char) : Option Double :=
  let (negative, rest) := takeSign text
  let word := String.ofList (rest.map Ascii.toLower)
  if word == "inf" || word == "infinity" then some (.infinity negative)
  else if word == "nan" then some .nan
  else readUnsignedDouble? negative rest

end Numeral

end SchemaGraph

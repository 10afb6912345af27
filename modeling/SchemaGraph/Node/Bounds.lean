import SchemaGraph.Double.Digits
import SchemaGraph.Error
import SchemaGraph.Value.Basic

set_option autoImplicit false

/-! # Bounds on numbers and sizes

A number is compared with its bounds as a double. Divisibility is exact where value and divisor
are both integers; otherwise the rounded quotient must be whole.
-/

namespace SchemaGraph

/-- Range and divisibility of a number. -/
structure NumericBounds where
  minimum : Option Double
  maximum : Option Double
  /-- The minimum itself is not allowed. -/
  exclusiveMinimum : Bool
  /-- The maximum itself is not allowed. -/
  exclusiveMaximum : Bool
  multipleOf : Option Double
  deriving DecidableEq, Repr, Inhabited

namespace NumericBounds

/-- No bounds at all. -/
def free : NumericBounds := ⟨none, none, false, false, none⟩

/-- Bounds in messages are never written with an exponent, whole ones without a fraction. -/
def boundFormat : NumberFormat where
  positional _ := true
  wholeFraction := false
  tie := .up

/-- The divisor as an integer, if it is one of a signed word. -/
def integerDivisor? (divisor : Double) : Option Int :=
  if divisor.isWhole && divisor.fitsWord then divisor.truncate? else none

/-- The divisor does not divide the number. A divisor of zero divides everything. -/
def failsDivision (value : Value) (number divisor : Double) : Bool :=
  if divisor.sameNumber .zero then false
  else match value.asInteger?, integerDivisor? divisor with
    | some n, some d => n % d != 0
    | _, _ => !(number.divide divisor).isWhole

/-- The message of a broken lower bound. -/
def breachOfMinimum? (bounds : NumericBounds) (number : Double) : Option (MessageKey × Double) :=
  match bounds.minimum with
  | none => none
  | some least =>
    if bounds.exclusiveMinimum then
      if number.atMost least then some (.exclusiveMinimum, least) else none
    else if number.below least then some (.minimum, least) else none

/-- The message of a broken upper bound. -/
def breachOfMaximum? (bounds : NumericBounds) (number : Double) : Option (MessageKey × Double) :=
  match bounds.maximum with
  | none => none
  | some most =>
    if bounds.exclusiveMaximum then
      if most.atMost number then some (.exclusiveMaximum, most) else none
    else if most.below number then some (.maximum, most) else none

/-- The message of a failed division. -/
def breachOfDivision? (bounds : NumericBounds) (value : Value) (number : Double) :
    Option (MessageKey × Double) :=
  match bounds.multipleOf with
  | none => none
  | some divisor =>
    if failsDivision value number divisor then some (.multipleOf, divisor) else none

/-- Everything wrong with a number. Other values have no bounds. -/
def violations (bounds : NumericBounds) (messages : Messages) (value : Value) : List Violation :=
  match value.asDouble? with
  | none => []
  | some number =>
    ([bounds.breachOfMinimum? number, bounds.breachOfMaximum? number,
        bounds.breachOfDivision? value number].filterMap id).map fun (key, bound) =>
      Violation.ofKey messages key [boundFormat.write bound]

end NumericBounds

/-- How few and how many there may be of something. -/
structure CountBounds where
  least : Option Nat
  most : Option Nat
  deriving DecidableEq, Repr, Inhabited

namespace CountBounds

def free : CountBounds := ⟨none, none⟩

/-- The bound a count breaks: the lower one comes first. -/
def breach? (bounds : CountBounds) (count : Nat) (tooFew tooMany : MessageKey) :
    Option (MessageKey × Nat) :=
  match bounds.least.filter fun least => decide (count < least) with
  | some least => some (tooFew, least)
  | none =>
    (bounds.most.filter fun most => decide (most < count)).map fun most => (tooMany, most)

/-- The violation of a length, which tells the bound. -/
def lengthViolations (bounds : CountBounds) (messages : Messages) (count : Nat)
    (tooFew tooMany : MessageKey) : List Violation :=
  ((bounds.breach? count tooFew tooMany).map fun (key, bound) =>
    Violation.ofKey messages key [toString bound]).toList

/-- The violation of a number of parts, which tells the bound and the number. -/
def countViolations (bounds : CountBounds) (messages : Messages) (count : Nat)
    (tooFew tooMany : MessageKey) : List Violation :=
  ((bounds.breach? count tooFew tooMany).map fun (key, bound) =>
    Violation.ofKey messages key [toString bound, toString count]).toList

end CountBounds

end SchemaGraph

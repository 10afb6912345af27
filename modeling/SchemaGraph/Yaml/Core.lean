import SchemaGraph.Json.Basic
import SchemaGraph.Text.Numeral
import SchemaGraph.Text.Utf8

set_option autoImplicit false

/-! # What plain scalars mean

A plain scalar is null, a boolean, a number or a text, as its writing tells: the core schema of
YAML 1.2, with binary integers besides. A tag of that schema asks for one of these and refuses
any other writing.
-/

namespace SchemaGraph

namespace Yaml

/-- The words for null. -/
def isNullWord (text : String) : Bool := ["null", "Null", "NULL", "~"].contains text

/-- The boolean a word stands for. -/
def bool? (text : String) : Option Bool :=
  if ["true", "True", "TRUE"].contains text then some true
  else if ["false", "False", "FALSE"].contains text then some false
  else none

/-- The value of a digit of a radix up to sixteen. -/
def digit? (radix : Nat) (c : Char) : Option Nat := do
  let value ← Ascii.hexValue? c
  if value < radix then some value else none

/-- The number a nonempty run of digits writes. -/
def digits? (radix : Nat) (digits : List Char) : Option Nat :=
  if digits.isEmpty then none
  else digits.foldlM (fun n c => (digit? radix c).map (radix * n + ·)) 0

/-- Decimal digits that begin with a zero for no reason: such a writing is a text. -/
def hasLeadingZero (digits : List Char) : Bool :=
  1 < digits.length && digits.head? == some '0' && digits.all Ascii.isDigit

/-- The natural number a text without a sign writes. -/
def natural? : List Char → Option Nat
  | '0' :: 'x' :: digits => digits? 16 digits
  | '0' :: 'o' :: digits => digits? 8 digits
  | '0' :: 'b' :: digits => digits? 2 digits
  | digits => if hasLeadingZero digits then none else digits? 10 digits

/-- The integer a text writes, if 128 bits hold it. -/
def integer? (text : List Char) : Option Int := do
  let (negative, body) := Numeral.takeSign text
  let n ← natural? body
  if negative then if n ≤ Nat.pow 2 127 then some (-n) else none
  else if n < Nat.pow 2 128 then some n else none

/-- An integer is a number if a 64-bit word holds it; a larger one is refused. -/
def integerValue? (n : Int) : Option Json :=
  if h : FitsWord n then some (.num (.integer n h)) else none

/-- The words for numbers that are not finite; no word is a number that is too large. -/
def double? (text : List Char) : Option Double :=
  let word := String.ofList text
  if [".inf", ".Inf", ".INF", "+.inf", "+.Inf", "+.INF"].contains word then
    some (.infinity false)
  else if ["-.inf", "-.Inf", "-.INF"].contains word then some (.infinity true)
  else if [".nan", ".NaN", ".NAN"].contains word then some .nan
  else (Numeral.readDouble? text).filter Double.isFinite

/-- JSON has finite numbers only. -/
def doubleValue (d : Double) : Json := if d.isFinite then .num (.double d) else .null

/-- The value of a plain scalar without a tag; an integer beyond 64 bits is refused, unless it is
so large that only a double comes near it. -/
def plainValue? (text : List Char) : Option Json :=
  let word := String.ofList text
  if text.isEmpty || isNullWord word then some .null
  else match bool? word with
    | some b => some (.bool b)
    | none =>
      match integer? text with
      | some n => integerValue? n
      | none =>
        if hasLeadingZero (Numeral.takeSign text).2 then some (.str word)
        else match double? text with
          | some d => some (doubleValue d)
          | none => some (.str word)

/-- The kinds of scalars that tags ask for. -/
inductive ScalarKind where
  | bool
  | integer
  | double
  | null
  deriving DecidableEq, Repr

/-- The kind a tag of the core schema asks for. -/
def ScalarKind.ofTag? (tag : List UInt8) : Option ScalarKind :=
  let names (name : String) : Bool := tag == Utf8.encode ("tag:yaml.org,2002:" ++ name).toList
  if names "bool" then some .bool
  else if names "int" then some .integer
  else if names "float" then some .double
  else if names "null" then some .null
  else none

/-- The value of a scalar of a kind. -/
def ScalarKind.value? (kind : ScalarKind) (text : List Char) : Option Json :=
  match kind with
  | .bool => (bool? (String.ofList text)).map Json.bool
  | .integer => (integer? text).bind integerValue?
  | .double => (double? text).map doubleValue
  | .null => if isNullWord (String.ofList text) then some .null else none

/-- The tag starts with an exclamation mark. -/
def isLocalTag (tag : List UInt8) : Bool := tag.head? == (Utf8.encode ['!']).head?

/-- The tag names a type that is not one of the core schema: a local tag that is well-formed
text. No value here is of such a type. -/
def namesForeignType (tag : List UInt8) : Bool :=
  isLocalTag tag && Utf8.encode (Utf8.decodeLossy tag) == tag

/-- The value of a scalar. Tags of no concern make it a text. -/
def scalarValue? (tag : Option (List UInt8)) (text : List Char) (plain : Bool) : Option Json :=
  let asText := some (Json.str (String.ofList text))
  match tag with
  | none => if plain then plainValue? text else asText
  | some tag =>
    if namesForeignType tag then none
    else match ScalarKind.ofTag? tag with
      | some kind => kind.value? text
      | none => if plain && isLocalTag tag then plainValue? text else asText

end Yaml

end SchemaGraph

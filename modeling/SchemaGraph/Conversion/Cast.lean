import SchemaGraph.Json.Text
import SchemaGraph.Mode
import SchemaGraph.Node.Basic
import SchemaGraph.Text.Basic

set_option autoImplicit false

/-! # Casting

In a lenient mode a payload of another type is coerced before its type is checked: numbers and
booleans to text, text to numbers, integers and booleans, fractions to integers by dropping the
fraction. What has the right type already is left alone, and so are booleans where a number is
wanted; the type check refuses them.
-/

namespace SchemaGraph

namespace Cast

/-- The text of a number or a boolean. -/
def toText? : Json → Option Json
  | .num n => some (.str (Json.numberText n))
  | .bool b => some (.str (if b then "true" else "false"))
  | _ => none

/-- The number a text writes, with blanks around it. -/
def toNumber? : Json → Option Json
  | .str s =>
    match Numeral.readDouble? (trimBlank s.toList) with
    | some d => if d.isFinite then some (.num (.double d)) else none
    | none => none
  | _ => none

/-- The integer a text writes, with blanks around it, or a double without its fraction. It must
fit a signed word. -/
def toInteger? : Json → Option Json
  | .str s => (Numeral.readSigned? (trimBlank s.toList)).map Json.ofInt
  | .num n => if n.toDouble.fitsWord then n.toDouble.truncate?.map Json.ofInt else none
  | _ => none

/-- The truth value a text spells. -/
def readTruth? (text : List Char) : Option Bool :=
  let word := String.ofList ((trimBlank text).map Ascii.toLower)
  if ["y", "yes", "t", "true", "on", "1"].contains word then some true
  else if ["n", "no", "f", "false", "off", "0"].contains word then some false
  else none

/-- The truth value of a text, or of a number that is zero or not. -/
def toBoolean? : Json → Option Json
  | .str s => (readTruth? s.toList).map Json.bool
  | .num n => some (.bool (!n.toDouble.sameNumber .zero))
  | _ => none

end Cast

namespace Json

def isStr : Json → Bool
  | str _ => true
  | _ => false

def isBool : Json → Bool
  | bool _ => true
  | _ => false

def isNum : Json → Bool
  | num _ => true
  | _ => false

/-- A number that is an integer of a word. -/
def isInteger : Json → Bool
  | num n => n.isInteger
  | _ => false

def isArr : Json → Bool
  | arr _ => true
  | _ => false

def isObj : Json → Bool
  | obj _ => true
  | _ => false

end Json

namespace Shape

variable {ι : Type}

/-- What a lenient conversion does first: `none` leaves the payload alone; a coercion may fail,
which is reported by its message. -/
def coercion? (shape : Shape ι) (payload : Json) : Option (MessageKey × Option Json) :=
  match shape with
  | string _ | text .. =>
    if payload.isStr then none else some (.stringCast, Cast.toText? payload)
  | number _ =>
    if payload.isNum || payload.isBool then none else some (.numberCast, Cast.toNumber? payload)
  | integer _ =>
    if payload.isInteger || payload.isBool then none
    else some (.integerCast, Cast.toInteger? payload)
  | boolean => if payload.isBool then none else some (.booleanCast, Cast.toBoolean? payload)
  | _ => none

/-- The payload has the type the node is for. -/
def admits (shape : Shape ι) (payload : Json) : Bool :=
  match shape with
  | string _ | text .. => payload.isStr
  | number _ => payload.isNum
  | integer _ => payload.isInteger
  | boolean => payload.isBool
  | array .. => payload.isArr
  | map .. | object _ | discriminated .. => payload.isObj
  | _ => true

end Shape

end SchemaGraph

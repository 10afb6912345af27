import SchemaGraph.Calendar.Timestamp
import SchemaGraph.Path
import SchemaGraph.Uuid
import SchemaGraph.Value.Buckets

set_option autoImplicit false

/-! # Converted values

What a conversion produces: JSON-like data with the typed values of the formats, objects whose
properties are sorted into buckets, and links to values that are converted elsewhere.
-/

namespace SchemaGraph

/-- A converted value. The entries of a `map` are in increasing order of their keys. -/
inductive Value where
  | null
  | bool (value : Bool)
  | integer (value : Int) (fits : FitsSigned value)
  | number (value : Double)
  | string (value : String)
  | date (value : Date)
  | timestamp (value : Timestamp)
  | uuid (value : Uuid)
  | bytes (value : List UInt8)
  | array (items : List Value)
  | map (entries : List (String × Value))
  | object (buckets : Buckets Value)
  /-- A value that was still being converted when it was referenced again. -/
  | link (path : Path)
  deriving Repr, Inhabited

namespace Value

def isNull : Value → Bool
  | null => true
  | _ => false

/-- `true` for maps and objects. -/
def isMapping : Value → Bool
  | map _ => true
  | object _ => true
  | _ => false

def isArray : Value → Bool
  | array _ => true
  | _ => false

def asString? : Value → Option String
  | string s => some s
  | _ => none

def asInteger? : Value → Option Int
  | integer n _ => some n
  | _ => none

/-- The number as a double; an integer goes to the nearest one. -/
def asDouble? : Value → Option Double
  | integer n _ => some (Double.ofInt n)
  | number d => some d
  | _ => none

def asBool? : Value → Option Bool
  | bool b => some b
  | _ => none

def asArray? : Value → Option (List Value)
  | array items => some items
  | _ => none

def asObject? : Value → Option (Buckets Value)
  | object buckets => some buckets
  | _ => none

/-- The value under a key of a map or an object. -/
def get? (value : Value) (key : String) : Option Value :=
  match value with
  | map entries => Entries.find? key entries
  | object buckets => buckets.find? key
  | _ => none

end Value

end SchemaGraph

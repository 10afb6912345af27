import SchemaGraph.Base64
import SchemaGraph.Json.Text
import SchemaGraph.Value.Basic

set_option autoImplicit false

/-! # Values and JSON

`Value.ofJson` takes JSON over as it is. `Value.toJson` renders a value back: typed values
become their text, bytes their Base64, and a link an object with a `$ref`. `Value.inOrder` does
the same but keeps the entries of an object in the order of its buckets.
-/

namespace SchemaGraph

namespace Value

/-- A number is an integer if a signed word holds it, else the nearest double. -/
def ofNumber : Number → Value
  | .integer n _ => if h : FitsSigned n then integer n h else number (Double.ofInt n)
  | .double d => number d

mutual

/-- Take a JSON value over as it is. -/
def ofJson : Json → Value
  | .null => null
  | .bool b => bool b
  | .num n => ofNumber n
  | .str s => string s
  | .arr items => array (ofItems items)
  | .obj entries => map (ofEntries entries)

def ofItems : List Json → List Value
  | [] => []
  | item :: rest => ofJson item :: ofItems rest

def ofEntries : List (String × Json) → List (String × Value)
  | [] => []
  | (key, item) :: rest => (key, ofJson item) :: ofEntries rest

end

/-- A double as JSON; there is no number for one that is not finite. -/
def jsonOfDouble (d : Double) : Json := if d.isFinite then .num (.double d) else .null

/-- The JSON of a value that has no parts. -/
def scalarJson : Value → Json
  | null => .null
  | bool b => .bool b
  | integer n _ => Json.ofInt n
  | number d => jsonOfDouble d
  | string s => .str s
  | date d => .str d.text
  | timestamp t => .str t.text
  | uuid u => .str u.text
  | bytes b => .str (String.ofList (Base64.encode b))
  | link path => .obj [("$ref", .str path.text)]
  | _ => .null

mutual

/-- The JSON of a value, with entries put together by `join`. -/
def jsonBy (join : List (String × Json) → Json) : Value → Json
  | array items => .arr (jsonItemsBy join items)
  | map entries => join (jsonEntriesBy join entries)
  | object ⟨declared, pattern, additional⟩ =>
    join (jsonEntriesBy join declared ++ jsonEntriesBy join pattern ++ jsonEntriesBy join additional)
  | scalar => scalarJson scalar

def jsonItemsBy (join : List (String × Json) → Json) : List Value → List Json
  | [] => []
  | item :: rest => jsonBy join item :: jsonItemsBy join rest

def jsonEntriesBy (join : List (String × Json) → Json) :
    List (String × Value) → List (String × Json)
  | [] => []
  | (key, item) :: rest => (key, jsonBy join item) :: jsonEntriesBy join rest

end

/-- The JSON of a value, objects ordered by key. -/
def toJson (value : Value) : Json := jsonBy Json.object value

/-- The JSON of a value, the entries of an object in the order of its buckets. -/
def inOrder (value : Value) : Json := jsonBy Json.obj value

/-- The text of a value, objects in the order of their buckets. -/
def text (value : Value) : String := value.inOrder.compact

end Value

end SchemaGraph

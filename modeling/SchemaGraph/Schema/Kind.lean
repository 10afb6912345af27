import SchemaGraph.Error
import SchemaGraph.Json.Text

set_option autoImplicit false

/-! # Types of schemas

The `type` of a schema, declared or implied: a keyword that makes sense for one type only
implies that type where `type` is absent. Keywords of two types leave the type ambiguous.
-/

namespace SchemaGraph

/-- The `type` of a schema. -/
inductive SchemaKind where
  | string
  | number
  | integer
  | boolean
  | array
  | object
  deriving DecidableEq, Repr, Inhabited

namespace SchemaKind

def all : List SchemaKind := [string, number, integer, boolean, array, object]

def name : SchemaKind → String
  | string => "string"
  | number => "number"
  | integer => "integer"
  | boolean => "boolean"
  | array => "array"
  | object => "object"

def ofName? (text : String) : Option SchemaKind := all.find? fun kind => kind.name == text

/-- Types whose values have no parts. -/
def isPrimitive (kind : SchemaKind) : Bool := kind != array && kind != object

def isNumeric (kind : SchemaKind) : Bool := kind == number || kind == integer

/-- The keywords that imply a type. -/
def impliedBy : List (SchemaKind × List String) := [
  (string, ["minLength", "maxLength", "pattern"]),
  (number, ["minimum", "maximum", "exclusiveMinimum", "exclusiveMaximum", "multipleOf"]),
  (object, ["properties", "required", "additionalProperties", "minProperties", "maxProperties"]),
  (array, ["items", "minItems", "maxItems", "uniqueItems"])]

/-- The types that the keywords of a schema imply. -/
def implied (schema : List (String × Json)) : List SchemaKind :=
  (impliedBy.filter fun (_, keywords) => keywords.any fun name => Entries.contains name schema).map
    Prod.fst

/-- The type of a schema: the declared one, else the one implied, if any. -/
def ofSchema (schema : List (String × Json)) (messages : Messages) :
    Except Violation (Option SchemaKind) :=
  match Entries.find? "type" schema with
  | some declared =>
    let name := match declared with
      | .str name => name
      | other => other.render
    match ofName? name with
    | some kind => .ok (some kind)
    | none => .error (Violation.ofKey messages .unknownType [name])
  | none =>
    match implied schema with
    | [] => .ok none
    | [kind] => .ok (some kind)
    | _ => .error (Violation.ofKey messages .ambiguousType [])

end SchemaKind

end SchemaGraph

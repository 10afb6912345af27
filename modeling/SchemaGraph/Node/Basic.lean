import SchemaGraph.Node.Bounds
import SchemaGraph.Node.Check

set_option autoImplicit false

/-! # Nodes of a schema graph

A node says how one value converts. Nodes refer to each other by their index in the graph, so a
recursive schema is a graph with a cycle in it. `Node.children` lists the nodes a node converts
through.

What names the children of a node is a parameter: in a graph it is their index, and a node that
is read off a schema alone names them by where they stand in the document.
-/

namespace SchemaGraph

/-- The index of a node in its graph. -/
abbrev NodeId := Nat

/-- What every node that judges values has. -/
structure Common where
  messages : Messages
  /-- The default value, which takes the place of a missing one: the JSON that the default yields
  when a conversion asks for it, a literal as it stands and a computed one as it comes out. -/
  default : Option Json
  nullable : Bool
  /-- The closed set of payloads allowed; an empty one allows everything. -/
  allowed : Option (List Json)
  checks : List Check
  deriving Repr, Inhabited

namespace Common

/-- Nothing set but the messages. -/
def plain (messages : Messages) : Common := ⟨messages, none, false, none, []⟩

def withCheck (common : Common) (check : Check) : Common :=
  { common with checks := common.checks ++ [check] }

/-- The error a message reports at a location. -/
def error (common : Common) (path : Path) (key : MessageKey) (args : List String) :
    LocatedError :=
  LocatedError.ofKey common.messages path key args

end Common

/-- Restrictions of a text. -/
structure TextBounds where
  length : CountBounds
  /-- Must match at the start of the text. -/
  pattern : Option Pattern
  deriving Repr, Inhabited

namespace TextBounds

def free : TextBounds := ⟨.free, none⟩

end TextBounds

/-- Formats that parse a text. -/
inductive TextFormat where
  | date
  | timestamp
  /-- The text is a regular expression. -/
  | pattern
  | uuid
  /-- Bytes, as Base64: decoded in requests, encoded in responses. -/
  | bytes
  deriving DecidableEq, Repr, Inhabited

/-- What happens to keys that are neither declared nor matched by a pattern. -/
inductive Additional (ι : Type := NodeId) where
  /-- They are kept as they are. -/
  | allow
  /-- They are reported, all in one error. -/
  | deny
  /-- They convert through a node. -/
  | schema (node : ι)
  deriving DecidableEq, Repr, Inhabited

/-- How the properties of an object convert. -/
structure ObjectShape (ι : Type := NodeId) where
  properties : List (String × ι)
  /-- In increasing order. -/
  required : List String
  /-- Tried in their order. -/
  patterns : List (Pattern × ι)
  additional : Additional ι
  /-- Declared properties that requests must not have, in increasing order. -/
  readOnly : List String
  /-- Declared properties that responses must not have, in increasing order. -/
  writeOnly : List String
  size : CountBounds
  deriving Repr, Inhabited

/-- What a node that judges values accepts. -/
inductive Shape (ι : Type := NodeId) where
  | any
  | string (bounds : TextBounds)
  | text (format : TextFormat) (bounds : TextBounds)
  | number (bounds : NumericBounds)
  | integer (bounds : NumericBounds)
  | boolean
  /-- A list of items. `distinctBy` compares items by the named properties only. -/
  | array (items : ι) (size : CountBounds) (unique : Bool) (distinctBy : Option (List String))
  /-- An object with free keys. -/
  | map (values : ι) (size : CountBounds)
  | object (shape : ObjectShape ι)
  /-- The node under the text of one property of the payload. -/
  | discriminated (property : String) (mapping : List (String × ι))
  | allOf (subtypes : List ι)
  | anyOf (subtypes : List ι)
  | oneOf (subtypes : List ι)
  | not (subtypes : List ι)
  deriving Repr, Inhabited

/-- A node of a graph. -/
inductive Node (ι : Type := NodeId) where
  /-- Converts as another node does. -/
  | forward (target : ι)
  /-- Follows references in the payload and converts the rest as another node does. -/
  | reference (messages : Messages) (target : ι)
  | typed (common : Common) (shape : Shape ι)
  deriving Repr, Inhabited

variable {ι : Type}

namespace Additional

def children : Additional ι → List ι
  | schema node => [node]
  | _ => []

end Additional

namespace Shape

/-- The nodes that parts of a value, or the value itself, convert through. -/
def children : Shape ι → List ι
  | array items .. => [items]
  | map values _ => [values]
  | object shape =>
    shape.properties.map Prod.snd ++ shape.patterns.map Prod.snd ++ shape.additional.children
  | discriminated _ mapping => mapping.map Prod.snd
  | allOf subtypes => subtypes
  | anyOf subtypes => subtypes
  | oneOf subtypes => subtypes
  | not subtypes => subtypes
  | _ => []

/-- What is reported for a value of the wrong type. -/
def typeMessage : Shape ι → MessageKey
  | string _ => .stringType
  | text .. => .stringType
  | number _ => .numberType
  | integer _ => .integerType
  | boolean => .booleanType
  | array .. => .arrayType
  | map .. => .mappingType
  | object _ => .mappingType
  | discriminated .. => .mappingType
  | _ => .unexpectedType

end Shape

namespace Node

def children : Node ι → List ι
  | forward target => [target]
  | reference _ target => [target]
  | typed _ shape => shape.children

end Node

end SchemaGraph

import SchemaGraph.Graph.Basic
import SchemaGraph.Schema.Kind

set_option autoImplicit false

/-! # The model of a schema

What a valid schema looks like, as a graph of the same nodes that schemas compile to. Converting
a schema by it checks every keyword, follows references, and runs the authoring rules on every
schema found. Every nested schema is entered through `Model.entry`, a node that follows
references.
-/

namespace SchemaGraph

namespace Model

/-- The names that start with `x-`, which are free for extensions. -/
def extensionPattern : Pattern :=
  .seq (.seq (.look .start) (.one (.single 'x'))) (.one (.single '-'))

/-! ## Indexes -/

def schema : NodeId := 0
def schemaAgain : NodeId := 1
/-- The entry of the model: a schema or a reference to one. -/
def entry : NodeId := 2
def anything : NodeId := 3
def string : NodeId := 4
def boolean : NodeId := 5
def number : NodeId := 6
def count : NodeId := 7
def divisor : NodeId := 8
def kind : NodeId := 9
def pattern : NodeId := 10
def enumeration : NodeId := 11
def required : NodeId := 12
def schemaList : NodeId := 13
def schemaMap : NodeId := 14
def negation : NodeId := 15
def additional : NodeId := 16
def stringMap : NodeId := 17
def discriminator : NodeId := 18
def externalDocs : NodeId := 19
def xml : NodeId := 20

/-- The keywords of a schema and the nodes of their values. -/
def keywords : List (String × NodeId) := [
  ("type", kind),
  ("format", string),
  ("title", string),
  ("description", string),
  ("default", anything),
  ("nullable", boolean),
  ("enum", enumeration),
  ("readOnly", boolean),
  ("writeOnly", boolean),
  ("xml", xml),
  ("externalDocs", externalDocs),
  ("example", anything),
  ("deprecated", boolean),
  ("multipleOf", divisor),
  ("minimum", number),
  ("maximum", number),
  ("exclusiveMinimum", boolean),
  ("exclusiveMaximum", boolean),
  ("minLength", count),
  ("maxLength", count),
  ("pattern", pattern),
  ("discriminator", discriminator),
  ("allOf", schemaList),
  ("anyOf", schemaList),
  ("oneOf", schemaList),
  ("not", negation),
  ("items", entry),
  ("minItems", count),
  ("maxItems", count),
  ("uniqueItems", boolean),
  ("required", required),
  ("properties", schemaMap),
  ("minProperties", count),
  ("maxProperties", count),
  ("additionalProperties", additional),
  ("x-patternProperties", schemaMap),
  ("$ref", string)]

/-! ## Nodes -/

/-- An object that allows its properties and nothing else. -/
def closedObject (properties : List (String × NodeId)) (required : List String)
    (patterns : List (Pattern × NodeId)) : Shape :=
  .object {
    properties, required, patterns, additional := .deny
    readOnly := [], writeOnly := [], size := .free }

/-- The nodes of the model, in the order of their indexes. -/
def nodes (messages : Messages) : List Node :=
  let plain := Common.plain messages
  let extensions := [(extensionPattern, anything)]
  let oneOrMore : CountBounds := ⟨some 1, none⟩
  [ .typed { plain with checks := Rule.all.map fun rule => .rule rule messages }
      (closedObject keywords [] extensions),
    .forward schema,
    .reference messages schemaAgain,
    .typed plain .any,
    .typed plain (.string .free),
    .typed plain .boolean,
    .typed plain (.number .free),
    .typed plain (.integer { NumericBounds.free with minimum := some .zero }),
    .typed plain (.number
      { NumericBounds.free with minimum := some .zero, exclusiveMinimum := true }),
    .typed { plain with allowed := some (SchemaKind.all.map fun kind => .str kind.name) }
      (.string .free),
    .typed plain (.text .pattern ⟨oneOrMore, none⟩),
    .typed plain (.array anything oneOrMore true none),
    .typed plain (.array string oneOrMore true none),
    .typed plain (.array entry oneOrMore false none),
    .typed plain (.map entry .free),
    .typed plain (.oneOf [entry, schemaList]),
    .typed plain (.oneOf [boolean, entry]),
    .typed plain (.map string .free),
    .typed plain (closedObject [("propertyName", string), ("mapping", stringMap)]
      ["propertyName"] []),
    .typed plain (closedObject [("description", string), ("url", string)] ["url"] extensions),
    .typed plain (closedObject
      [("name", string), ("namespace", string), ("prefix", string), ("attribute", boolean),
        ("wrapped", boolean)]
      [] extensions)]

/-- The model with the messages it reports. -/
def graph (messages : Messages) : Graph where
  nodes := nodes messages
  closed := by
    simp [nodes, Node.children, Shape.children, closedObject, Additional.children, keywords,
      schema, schemaAgain, entry, anything, string, boolean, number, count, divisor, kind, pattern,
      enumeration, required, schemaList, schemaMap, negation, additional, stringMap, discriminator,
      externalDocs, xml]

end Model

end SchemaGraph

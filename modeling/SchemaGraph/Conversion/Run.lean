import SchemaGraph.Conversion.Cast
import SchemaGraph.Conversion.Parts
import SchemaGraph.Conversion.Reference
import SchemaGraph.Conversion.Text
import SchemaGraph.Graph.Basic
import SchemaGraph.Value.Equality

set_option autoImplicit false

/-! # Running a graph

Every node that judges values goes through the same steps:

1. A missing value is replaced by the default, never in a response.
2. `null` passes if the node is nullable and is refused otherwise.
3. A lenient mode coerces the payload.
4. The payload must have the type of the node.
5. The parts convert, or the text is taken.
6. The enumeration, the bounds and the extra checks of the node run, and all that fail are
   reported together; a text with a format is parsed after that.

`Graph.convertWithin` runs a node with a depth to which conversions may nest.
-/

namespace SchemaGraph

namespace Conversion

variable {ι : Type}

/-- The payload after the default took the place of a missing one. -/
def present? (mode : Mode) (common : Common) (input : Option Json) : Option Json :=
  match input with
  | some payload => some payload
  | none => if mode.entity == .response then none else common.default

/-- The payload after coercion in a lenient mode. -/
def coerced (mode : Mode) (common : Common) (shape : Shape ι) (payload : Json) (path : Path) :
    Conversion Json :=
  if mode.strict then pure payload
  else match shape.coercion? payload with
    | none => pure payload
    | some (_, some cast) => pure cast
    | some (key, none) => failWith common.messages path key []

/-- The result for a payload of the right type, from its parts. -/
def result (convert : Converting ι) (mode : Mode) (common : Common) (shape : Shape ι)
    (payload : Json) (path : Path) : Conversion Value :=
  match shape with
  | .any => pure (Value.ofJson payload)
  | .string _ => pure (Value.ofJson payload)
  | .text _ _ => pure (Value.ofJson payload)
  | .number _ => pure (Value.ofJson payload)
  | .boolean => pure (Value.ofJson payload)
  | .integer _ =>
    match Value.ofJson payload with
    | .integer n h => pure (.integer n h)
    | _ => failWith common.messages path .int64Format []
  | .array node .. => do
    let (values, errors) ← items (fun item here => convert node (some item) here) path 0
      (payload.asArr?.getD [])
    failOn errors
    pure (.array values)
  | .map node _ => do
    let (values, errors) ← entries (fun item here => convert node (some item) here) path
      (payload.asObj?.getD [])
    failOn errors
    pure (.map values)
  | .object shape => object convert mode common shape (payload.asObj?.getD []) path
  | .discriminated property mapping =>
    discriminated convert common property mapping payload path
  | .allOf subtypes => allOf convert common subtypes payload path
  | .anyOf subtypes => anyOf convert common payload path 0 [] subtypes
  | .oneOf subtypes => oneOf convert common subtypes payload path
  | .not subtypes => noneOf convert common payload path 0 subtypes

end Conversion

namespace Shape

/-- Two items of a list hold the same content. -/
def hasDuplicates : List Value → Bool
  | [] => false
  | item :: rest => rest.any item.loosely || hasDuplicates rest

/-- What is wrong with a list whose items must differ. Items compared by properties must be
objects or maps. -/
def breachOfUniqueness? (distinctBy : Option (List String)) (items : List Value) :
    Option MessageKey :=
  match distinctBy with
  | none => if hasDuplicates items then some .uniqueItems else none
  | some names =>
    if !items.all Value.isMapping then some .uniqueItemProperties
    else
      let projected := items.map fun item =>
        Value.array (names.map fun name => (item.get? name).getD .null)
      if hasDuplicates projected then some .uniqueItems else none

/-- What the bounds of a node find wrong with a result and its payload. -/
def violations {ι : Type} (shape : Shape ι) (messages : Messages) (result : Value) (payload : Json) :
    List Violation :=
  match shape with
  | string bounds | text _ bounds =>
    match result.asString? with
    | some written => bounds.violations messages written
    | none => []
  | number bounds | integer bounds => bounds.violations messages result
  | array _ size unique distinctBy =>
    match result.asArray? with
    | none => []
    | some items =>
      size.countViolations messages items.length .minItems .maxItems ++
        if unique then
          ((breachOfUniqueness? distinctBy items).map fun key =>
            Violation.ofKey messages key []).toList
        else []
  | map _ size =>
    match result with
    | .map entries => size.countViolations messages entries.length .minValues .maxValues
    | _ => []
  | object shape =>
    match payload.asObj? with
    | some entries =>
      shape.size.countViolations messages entries.length .minProperties .maxProperties
    | none => []
  | _ => []

end Shape

namespace Common

/-- The payload is not one of those allowed. -/
def enumViolations (common : Common) (payload : Json) : List Violation :=
  match common.allowed with
  | none => []
  | some allowed =>
    if allowed.isEmpty || allowed.any fun one => one.same payload then []
    else [Violation.ofKey common.messages .enum [commaDelimited (allowed.map Json.render)]]

end Common

namespace Conversion

variable {ι : Type}

/-- Everything wrong with a result. -/
def violations (common : Common) (shape : Shape ι) (result : Value) (payload : Json) :
    List Violation :=
  common.enumViolations payload ++ shape.violations common.messages result payload ++
    common.checks.filterMap fun check => check.violation? result payload

/-- The steps from a payload that is not `null` to a checked result. -/
def checked (convert : Converting ι) (mode : Mode) (common : Common) (shape : Shape ι)
    (payload : Json) (path : Path) : Conversion Value := do
  let payload ← coerced mode common shape payload path
  if !shape.admits payload then failWith common.messages path shape.typeMessage []
  else
    let value ← result convert mode common shape payload path
    failOn ((violations common shape value payload).map fun violation => violation.located path)
    pure value

/-- All steps of a node that judges values, up to its checks. -/
def judged (convert : Converting ι) (mode : Mode) (common : Common) (shape : Shape ι)
    (input : Option Json) (path : Path) : Conversion Value :=
  match present? mode common input with
  | none => fail .undefined
  | some payload =>
    if payload.isNull then
      if common.nullable then pure .null else failWith common.messages path .nullable []
    else checked convert mode common shape payload path

/-- Parse a text that passed its checks. -/
def parsed (mode : Mode) (common : Common) (format : TextFormat) (value : Value) (path : Path) :
    Conversion Value :=
  match value with
  | .string text =>
    match format.finish? mode.entity text with
    | some value => pure value
    | none => failWith common.messages path format.message []
  | other => pure other

/-- Convert by one node, given how the nodes it refers to convert. -/
def step (convert : Converting ι) (mode : Mode) (self : ι) (node : Node ι)
    (input : Option Json) (path : Path) : Conversion Value :=
  match node with
  | .forward target => convert target input path
  | .reference messages target => reference convert self messages target input path
  | .typed common (.text format bounds) => do
    let input := input.map (format.encoded mode.entity)
    let value ← judged convert mode common (.text format bounds) input path
    parsed mode common format value path
  | .typed common shape => judged convert mode common shape input path

end Conversion

namespace Graph

/-- Convert by a node, with nodes nested at most `fuel` deep. -/
def convertWithin (graph : Graph) (mode : Mode) (fuel : Nat) : Converting :=
  match fuel with
  | 0 => fun _ _ _ => Conversion.fail .outOfFuel
  | fuel + 1 => fun id input path =>
    match graph.get? id with
    | none => Conversion.fail .noNode
    | some node => Conversion.step (graph.convertWithin mode fuel) mode id node input path

end Graph

end SchemaGraph

import SchemaGraph.Conversion.Run

set_option autoImplicit false

/-! # Results of conversions

A conversion from the outside: it starts with an empty registry and ends with a value and the
values of the links inside it, with no value, or with errors.
-/

namespace SchemaGraph

/-- A value, and the values of the locations that stand as links inside it, in increasing
order. -/
structure Converted where
  value : Value
  links : List (Path × Value)
  deriving Repr, Inhabited

namespace Converted

/-- Follow a link; any other value stands for itself. -/
def resolve (converted : Converted) (value : Value) : Value :=
  match value with
  | .link path => (converted.links.lookup path).getD value
  | other => other

/-- The result with its links, objects in the order of their buckets. -/
def toJson (converted : Converted) : Json :=
  .obj (("value", converted.value.inOrder) ::
    if converted.links.isEmpty then []
    else [("links", .obj (converted.links.map fun (path, value) => (path.text, value.inOrder)))])

end Converted

/-- How a conversion ends. -/
inductive Outcome where
  | converted (result : Converted)
  /-- The value is missing and nothing takes its place. -/
  | nothing
  | failed (errors : SchemaErrors)
  /-- The conversion nests deeper than was allowed. -/
  | outOfFuel
  /-- The entry does not exist. -/
  | noNode
  deriving Repr, Inhabited

namespace Graph

/-- How deep conversions may nest unless told otherwise. -/
def defaultFuel : Nat := 0x2000

/-- Convert from an entry node on, and give the resolver back. -/
def convertAt (graph : Graph) (fuel : Nat) (entry : NodeId) (input : Option Json) (path : Path)
    (mode : Mode) (resolver : Option Resolver) : Outcome × Option Resolver :=
  let (result, state) := graph.convertWithin mode fuel entry input path (.start resolver)
  let outcome := match result with
    | .ok value => .converted ⟨value, state.registry.links⟩
    | .error .undefined => .nothing
    | .error (.errors errors) => .failed errors
    | .error .recursive =>
      .failed (.single (LocatedError.ofKey .builtIn path .recursiveReference []))
    | .error .outOfFuel => .outOfFuel
    | .error .noNode => .noNode
  (outcome, state.resolver)

/-- Convert a payload at the root location, without a resolver. No value counts as `null`. -/
def convert (graph : Graph) (fuel : Nat) (entry : NodeId) (payload : Json) (mode : Mode) :
    Outcome :=
  match (graph.convertAt fuel entry (some payload) .root mode none).1 with
  | .nothing => .converted ⟨.null, []⟩
  | outcome => outcome

end Graph

end SchemaGraph

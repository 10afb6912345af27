import SchemaGraph.Conversion.Basic

set_option autoImplicit false

/-! # References in a payload

An object with `$ref` stands for the value that the reference points at. Every location is
converted once: the registry remembers its value or its failure, and a location that is
referenced while it is still being converted becomes a link. A chain of references that comes
back to itself without a value between is refused.
-/

namespace SchemaGraph

namespace Conversion

variable {α ι : Type}

/-- What stands under `$ref`. -/
def referenceOf? (payload : Json) : Option Json := payload.get? "$ref"

/-- Run a part with a chain of references of its own. -/
def withOwnChain (part : Conversion α) : Conversion α :=
  fun state =>
    let (result, after) := part { state with visited := [] }
    (result, { after with visited := state.visited })

/-- Run a part while a location is in the chain of references. -/
def following (path : Path) (part : Conversion α) : Conversion α :=
  fun state =>
    let (result, after) := part { state with visited := path :: state.visited }
    (result, { after with visited := after.visited.filter (· != path) })

/-- Run a part inside a scope. -/
def inScope (url : String) (part : Conversion α) : Conversion α :=
  fun state =>
    let (result, after) :=
      part { state with resolver := state.resolver.map fun resolver => resolver.pushScope url }
    (result, { after with resolver := after.resolver.map Resolver.leaveScope })

/-- Resolve a reference with the resolver of the conversion. -/
def resolve? (reference : String) : Conversion (Option (String × Json)) :=
  fun state =>
    match state.resolver with
    | none => (.ok none, state)
    | some resolver =>
      let (resolved, resolver) := resolver.resolve reference
      (.ok resolved.toOption, { state with resolver := some resolver })

/-- Convert a location for the first time, or once more if it failed before. -/
def enter (convert : Converting ι) (target : ι) (input : Option Json) (path : Path) :
    Conversion Value := do
  match ← progress path with
  | some (.done value) => pure value
  | some .pending =>
    update fun registry => registry.link path
    pure (.link path)
  | _ =>
    update fun registry => registry.start path
    match ← outcome (withOwnChain (convert target input path)) with
    | .ok value =>
      update fun registry => registry.finish path value
      pure value
    | .error (.errors errors) =>
      update fun registry => registry.poison path
      fail (.errors errors)
    | .error failure =>
      update fun registry => registry.remove path
      fail failure

/-- Convert the target of a reference, which may be a reference again. -/
def deeper (convert : Converting ι) (self target : ι) (value : Json) (path : Path) :
    Conversion Value :=
  match referenceOf? value with
  | some _ => convert self (some value) path
  | none => withOwnChain (convert target (some value) path)

/-- Convert the location a reference resolved to. Its failure is reported behind the error of
the reference itself. -/
def arrive (convert : Converting ι) (self : ι) (messages : Messages) (target : ι)
    (value : Json) (location path : Path) : Conversion Value := do
  if (← get).visited.contains location then fail .recursive
  else match ← progress location with
    | some .poisoned => failWith messages path .badReference []
    | some (.done value) => pure value
    | some .pending =>
      update fun registry => registry.link location
      pure (.link location)
    | none =>
      update fun registry => registry.start location
      match ← outcome (following location (deeper convert self target value location)) with
      | .ok value =>
        update fun registry => registry.finish location value
        pure value
      | .error (.errors errors) =>
        update fun registry => registry.poison location
        fail (.errors (errors.leading (LocatedError.ofKey messages path .badReference [])))
      | .error .recursive =>
        update fun registry => registry.poison location
        failWith messages path .recursiveReference []
      | .error failure =>
        update fun registry => registry.remove location
        fail failure

/-- Follow what stands under `$ref`. -/
def follow (convert : Converting ι) (self : ι) (messages : Messages) (target : ι)
    (reference : Json) (path : Path) : Conversion Value :=
  let unresolvable := failWith messages path .unresolvableReference []
  match reference with
  | .str text => do
    match ← resolve? text with
    | none => unresolvable
    | some (url, value) =>
      inScope url (arrive convert self messages target value (Path.ofUri url) path)
  | _ => unresolvable

/-- Convert by a node that follows references; `self` is its index. -/
def reference (convert : Converting ι) (self : ι) (messages : Messages) (target : ι)
    (input : Option Json) (path : Path) : Conversion Value :=
  match input.bind referenceOf? with
  | some found => follow convert self messages target found path
  | none => enter convert target input path

end Conversion

end SchemaGraph

import SchemaGraph.Compiler.Assembly
import SchemaGraph.Conversion.Converted
import SchemaGraph.Schema.Model

set_option autoImplicit false

/-! # Compilation

* A schema that is only a reference compiles to the node of its target.
* Any other schema reserves its node before its parts compile, so that a part that refers back
  to it closes the cycle.
* A chain of references that comes back to itself without passing through such a schema is
  refused.

Everything found wrong is reported together, and a failed compilation leaves no node behind.
-/

namespace SchemaGraph

namespace Compiling

variable {ι : Type}

/-- Assemble a schema by its type. -/
def assemble (compile : CompilingValue ι) (fuel : Nat) (keywords : Keywords) (common : Common)
    (kind : Option SchemaKind) (polymorphic : Bool) : Compiling (Assembly ι) := do
  match kind with
  | some .string =>
    let bounds := keywords.textBounds
    primitive keywords .string common ⟨.string bounds.value, bounds.errors⟩
  | some .number =>
    let bounds := keywords.numericBounds
    primitive keywords .number common ⟨.number bounds.value, bounds.errors⟩
  | some .integer =>
    let bounds := keywords.numericBounds
    primitive keywords .integer common ⟨.integer bounds.value, bounds.errors⟩
  | some .boolean => primitive keywords .boolean common ⟨.boolean, []⟩
  | some .array => array compile keywords common
  | some .object =>
    let discriminator := keywords.mapping "discriminator"
    let extensions := participants (← get) keywords polymorphic discriminator.value
    let assembly ← structured compile fuel keywords common discriminator.value extensions
    pure { assembly with own := discriminator.errors ++ assembly.own }
  | none => untyped compile keywords common

/-- The node of a schema that is no reference. -/
def node (compile : CompilingValue ι) (fuel : Nat) (schema : List (String × Json)) (path : Path)
    (polymorphic : Bool) : Compiling (Node ι) := do
  let messages := (← get).messages
  match SchemaKind.ofSchema schema messages with
  | .error violation => fail (.errors (.single (violation.located path)))
  | .ok kind =>
    let keywords : Keywords := ⟨schema, path, messages⟩
    let deprecated := keywords.flag "deprecated"
    let common := keywords.common
    let assembly ← assemble compile fuel keywords common.value kind polymorphic
    match SchemaErrors.ofList?
        (deprecated.errors ++ common.errors ++ assembly.own ++ assembly.parts), assembly.node with
    | some errors, _ => fail (.errors errors)
    | none, some node => pure node
    | none, none =>
      fail (.errors (.single ⟨path, .invalidSchema, "Schema could not be compiled"⟩))

/-- The node that is known for a location. The location of a failure is bad. -/
def reuse (known : Option Compiled) (referencing : Path) (otherwise : Compiling NodeId) :
    Compiling NodeId :=
  match known with
  | some (.reserved node) => pure node
  | some (.defined node) => pure node
  | some .poisoned => failWith referencing .badReference
  | none => otherwise

/-- Compile the target of a reference in its scope. Its errors lead with that of the reference. -/
def follow (compile : CompilingValue) (url : String) (value : Json) (chain : List Path)
    (referencing : Path) (key : CompileKey) : Compiling NodeId := do
  let result ← outcome (inScope url (withChain (key.path :: chain)
    (compile value key.path key.path key.polymorphic)))
  match result with
  | .ok node => pure node
  | .error (.errors errors) =>
    fail (.errors (errors.leading ((← get).error referencing .badReference)))
  | .error .recursive =>
    remember fun memory => memory.poison key
    failWith referencing .recursiveReference
  | .error .outOfFuel => fail .outOfFuel

/-- The node of the target of a reference. -/
def target (compile : CompilingValue) (reference : String) (referencing : Path)
    (polymorphic : Bool) : Compiling NodeId := do
  match ← resolve reference with
  | .error _ => failWith referencing .unresolvableReference
  | .ok (url, value) =>
    let location := Path.ofUri url
    let chain := (← get).chain
    if chain.contains location then fail .recursive
    else
      let key : CompileKey := ⟨location, polymorphic⟩
      reuse (← known key) referencing (follow compile url value chain referencing key)

/-- The node of what stands under `$ref`, which has to be a text. -/
def referenced (compile : CompilingValue) (reference : Json) (key : CompileKey) :
    Compiling NodeId :=
  match reference with
  | .str text => target compile text key.path key.polymorphic
  | _ => do
    fail (.errors (.single (LocatedError.ofKey (← get).messages (key.path.child "$ref")
      .invalidKeyword ["$ref"])))

/-- A schema that is only a reference. -/
def referenceOnly (compile : CompilingValue) (reference : Json) (key : CompileKey) :
    Compiling NodeId := do
  match ← outcome (referenced compile reference key) with
  | .ok node =>
    remember fun memory => memory.define key node
    pure node
  | .error failure =>
    remember fun memory => memory.poison key
    fail failure

/-- A schema of its own: its node is reserved first and defined last. -/
def schema (compile : CompilingValue) (fuel : Nat) (entries : List (String × Json))
    (key : CompileKey) : Compiling NodeId := do
  let id := (← get).draft.next
  modify fun compiler => { compiler with
    draft := compiler.draft.reserve, memory := compiler.memory.reserve key id }
  match ← outcome (withChain [] (node compile fuel entries key.path key.polymorphic)) with
  | .error failure =>
    remember fun memory => memory.poison key
    fail failure
  | .ok node =>
    match (← get).draft.define id node with
    | .error e =>
      remember fun memory => memory.poison key
      fail (.errors (.single ⟨key.path, .invalidSchema, e.message⟩))
    | .ok draft =>
      modify fun compiler => { compiler with draft, memory := compiler.memory.define key id }
      pure id

/-- Compile the value at a location, with schemas nested at most `fuel` deep. -/
def value (fuel : Nat) : CompilingValue :=
  match fuel with
  | 0 => fun _ _ _ _ => fail .outOfFuel
  | fuel + 1 => fun written path referencing polymorphic => do
    let key : CompileKey := ⟨path, polymorphic⟩
    reuse (← known key) referencing do
      match written with
      | .obj entries =>
        match Entries.find? "$ref" entries with
        | some reference => referenceOnly (value fuel) reference key
        | none => schema (value fuel) fuel entries key
      | _ => failWith path .mappingType

/-- Resolve a pointer of the document: the URL and the value. -/
def pointer (reference : String) : Compiling (String × Json) := do
  match ← resolve reference with
  | .ok found => pure found
  | .error _ =>
    failWith (Path.ofUri (Uri.join (← get).resolver.scope reference)) .unresolvableReference

/-- Check the schema at a pointer, and all it refers to, by the model of a schema. -/
def check (fuel : Nat) (reference : String) : Compiling Unit := do
  let (url, written) ← pointer reference
  let compiler ← get
  let mode := (Options.ofEntity .specification).mode
  inScope url do
    let (outcome, resolver) := (Model.graph compiler.messages).convertAt fuel Model.entry
      (some written) (Path.ofUri url) mode (some (← get).resolver)
    modify fun compiler => { compiler with resolver := resolver.getD compiler.resolver }
    match outcome with
    | .failed errors => fail (.errors errors)
    | .outOfFuel => fail .outOfFuel
    | _ => pure ()

/-- Check the schema at a pointer if the settings say so. -/
def checkIfAsked (fuel : Nat) (reference : String) : Compiling Unit := do
  if (← get).config.checkSchemas then check fuel reference

/-- Compile the schema at a pointer. -/
def compilePointer (fuel : Nat) (reference : String) : Compiling NodeId := do
  let (url, written) ← pointer reference
  let path := Path.ofUri url
  let polymorphic := (← get).config.allowPolymorphism
  match ← outcome (inScope url (withChain [path] (value fuel written path path polymorphic))) with
  | .ok node => pure node
  | .error .recursive =>
    remember fun memory => memory.poison ⟨path, polymorphic⟩
    failWith path .recursiveReference
  | .error failure => fail failure

/-- Compile the schema at a pointer and take back everything if that fails. -/
def undoOnFailure (part : Compiling NodeId) : Compiling NodeId := do
  let length := (← get).length
  match ← outcome part with
  | .ok node => pure node
  | .error failure =>
    modify fun compiler => { compiler with
      draft := compiler.draft.truncate length, memory := compiler.memory.forgetFrom length }
    fail failure

end Compiling

namespace Compiler

/-- Check the schema at a pointer. -/
def check (compiler : Compiler) (fuel : Nat) (pointer : String) :
    Except CompileFailure Unit × Compiler :=
  Compiling.check fuel pointer compiler

/-- Compile the schema at a pointer to a node, after checking it if the settings say so. The
pointer resolves like a reference in the document. -/
def compile (compiler : Compiler) (fuel : Nat) (pointer : String) :
    Except CompileFailure NodeId × Compiler :=
  let steps : Compiling NodeId := do
    Compiling.checkIfAsked fuel pointer
    Compiling.undoOnFailure (Compiling.compilePointer fuel pointer)
  steps compiler

/-- The graph of everything compiled, to be entered at a node. -/
def graph (compiler : Compiler) (entry : NodeId) : Except BuildError Graph := do
  let graph ← compiler.draft.build
  if entry < graph.length then pure graph else throw (.unknownNode entry)

/-- Compile the schema at a pointer of a document: its graph and the entry of the graph. -/
def compileDocument (retrievers : List (String × Retriever)) (document : Json) (config : Config)
    (fuel : Nat) (pointer : String) : Except CompileFailure (Graph × NodeId) := do
  let (result, compiler) := (ofDocument retrievers document config).compile fuel pointer
  let entry ← result
  match compiler.graph entry with
  | .ok graph => pure (graph, entry)
  | .error e => throw (.errors (.single ⟨Path.ofUri pointer, .invalidSchema, e.message⟩))

end Compiler

end SchemaGraph

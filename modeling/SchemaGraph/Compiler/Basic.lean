import SchemaGraph.Compiler.Memory
import SchemaGraph.Graph.Basic
import SchemaGraph.Resolver.Basic
import SchemaGraph.Schema.Format
import SchemaGraph.Schema.Keywords

set_option autoImplicit false

/-! # The state of a compiler

A compiler owns a resolver for its document and the draft of the graph that every compiled
schema goes into. What happens to them while a schema compiles stays, also if it fails; what a
failed compilation added to the graph is taken back at its end.
-/

namespace SchemaGraph

structure Compiler where
  config : Config
  formats : Formats
  resolver : Resolver
  draft : GraphDraft
  memory : CompileMemory
  /-- The locations of the chain of references being followed, last one first. -/
  chain : List Path

/-- Why a schema does not compile. -/
inductive CompileFailure where
  | errors (errors : SchemaErrors)
  /-- A chain of references came back to itself. -/
  | recursive
  /-- Schemas nest deeper than was allowed. -/
  | outOfFuel
  deriving DecidableEq, Repr

/-- A step of compilation. -/
abbrev Compiling (α : Type) := ExceptT CompileFailure (StateM Compiler) α

namespace Compiler

/-- A compiler that resolves references with the given resolver. -/
def withResolver (resolver : Resolver) (config : Config) : Compiler :=
  ⟨config, .builtIn, resolver, .empty, .empty, []⟩

/-- A compiler of one document. -/
def ofDocument (retrievers : List (String × Retriever)) (document : Json) (config : Config) :
    Compiler :=
  withResolver (.ofConfig retrievers document config) config

/-- Register a format in place of the one before. -/
def registerFormat (compiler : Compiler) (kind : SchemaKind) (name : String) (format : Format) :
    Compiler :=
  { compiler with formats := compiler.formats.register kind name format }

/-- How many nodes are compiled. -/
def length (compiler : Compiler) : Nat := compiler.draft.length

/-- The texts that errors and nodes report. -/
def messages (compiler : Compiler) : Messages := compiler.config.messages

/-- The error a message reports at a location. -/
def error (compiler : Compiler) (path : Path) (key : MessageKey) : LocatedError :=
  LocatedError.ofKey compiler.messages path key []

end Compiler

namespace Compiling

variable {α : Type}

def fail (failure : CompileFailure) : Compiling α := throw failure

/-- Fail with the one error a message reports. -/
def failWith (path : Path) (key : MessageKey) : Compiling α := do
  fail (.errors (.single ((← get).error path key)))

/-- Run a part and keep its failure as a value. -/
def outcome (part : Compiling α) : Compiling (Except CompileFailure α) :=
  fun compiler =>
    let (result, compiler) := part compiler
    (.ok result, compiler)

/-- Run a part and keep its errors as a value. The other failures go on. -/
def attempt (part : Compiling α) : Compiling (Except SchemaErrors α) := do
  match ← outcome part with
  | .ok value => pure (.ok value)
  | .error (.errors errors) => pure (.error errors)
  | .error failure => fail failure

/-- Change what is known about schema locations. -/
def remember (change : CompileMemory → CompileMemory) : Compiling Unit :=
  modify fun compiler => { compiler with memory := change compiler.memory }

/-- What is known about a schema location. -/
def known (key : CompileKey) : Compiling (Option Compiled) := do
  return (← get).memory.find? key

/-- Resolve a reference in the current scope. -/
def resolve (reference : String) : Compiling (Except ResolveError (String × Json)) :=
  fun compiler =>
    let (resolved, resolver) := compiler.resolver.resolve reference
    (.ok resolved, { compiler with resolver })

/-- Run a part inside a scope. -/
def inScope (url : String) (part : Compiling α) : Compiling α :=
  fun compiler =>
    let (result, after) := part { compiler with resolver := compiler.resolver.pushScope url }
    (result, { after with resolver := after.resolver.leaveScope })

/-- Run a part with a chain of references of its own. -/
def withChain (chain : List Path) (part : Compiling α) : Compiling α :=
  fun compiler =>
    let (result, after) := part { compiler with chain }
    (result, { after with chain := compiler.chain })

end Compiling

/-- How a schema compiles: its value, its location, where the failure to reuse an earlier result
is reported, and whether schemas that extend it take part. -/
abbrev CompilingValue (ι : Type := NodeId) := Json → Path → Path → Bool → Compiling ι

end SchemaGraph

import SchemaGraph.Node.Basic
import SchemaGraph.Path

set_option autoImplicit false

/-! # Memory of a compiler

Every schema location compiles at most once, with and without polymorphism apart. A schema
reserves its node before its parts are compiled, so that a part that refers back to it finds
that node and closes the cycle.
-/

namespace SchemaGraph

/-- The location of a schema and whether schemas that extend it take part. -/
structure CompileKey where
  path : Path
  polymorphic : Bool
  deriving DecidableEq, Repr, Inhabited

/-- What is known about a schema location. -/
inductive Compiled where
  /-- It is being compiled; its node is not defined yet. -/
  | reserved (node : NodeId)
  | defined (node : NodeId)
  /-- It failed; references to it are bad. -/
  | poisoned
  deriving DecidableEq, Repr, Inhabited

namespace Compiled

/-- The node of a location, defined or not. -/
def node? : Compiled → Option NodeId
  | reserved node => some node
  | defined node => some node
  | poisoned => none

end Compiled

/-- What is known about schema locations, one entry for a key. -/
structure CompileMemory where
  entries : List (CompileKey × Compiled)
  deriving DecidableEq, Repr, Inhabited

namespace CompileMemory

def empty : CompileMemory := ⟨[]⟩

def find? (memory : CompileMemory) (key : CompileKey) : Option Compiled :=
  memory.entries.lookup key

def set (memory : CompileMemory) (key : CompileKey) (state : Compiled) : CompileMemory :=
  ⟨(key, state) :: memory.entries.filter fun (k, _) => k != key⟩

def reserve (memory : CompileMemory) (key : CompileKey) (node : NodeId) : CompileMemory :=
  memory.set key (.reserved node)

def define (memory : CompileMemory) (key : CompileKey) (node : NodeId) : CompileMemory :=
  memory.set key (.defined node)

def poison (memory : CompileMemory) (key : CompileKey) : CompileMemory :=
  memory.set key .poisoned

/-- Forget every location whose node is not below `length`. Failures are kept. -/
def forgetFrom (memory : CompileMemory) (length : Nat) : CompileMemory :=
  ⟨memory.entries.filter fun (_, state) => state.node?.all fun node => decide (node < length)⟩

def length (memory : CompileMemory) : Nat := memory.entries.length

def isEmpty (memory : CompileMemory) : Bool := memory.entries.isEmpty

end CompileMemory

end SchemaGraph

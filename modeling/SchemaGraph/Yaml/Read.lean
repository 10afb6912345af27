import SchemaGraph.Yaml.Core
import SchemaGraph.Yaml.Layout
import SchemaGraph.Yaml.Tree

set_option autoImplicit false

/-! # Reading YAML text

The value of a text that holds one document, or none, which reads as null. Keys have to be
scalars and are taken as they are written, so no two writings of a key are one. What an alias
stands for is read again wherever the alias is; how often that may happen in all, and how deep
collections may nest on the way, is bounded.
-/

namespace SchemaGraph

namespace Yaml

/-- How deep collections may nest. -/
def depthLimit : Nat := 128

/-- How many aliases are followed for every mark of a text. -/
def aliasesPerMark : Nat := 100

/-- Reading of values; the state is how many more aliases may be followed. -/
abbrev Reading (α : Type) := StateT Nat Option α

/-- The node itself, or the one of all `nodes` that an alias stands for. -/
def follow (nodes : List Tree) : Tree → Reading Tree
  | .aliasOf anchor => fun budget =>
    match budget, Tree.find? nodes anchor with
    | budget + 1, some node => some (node, budget)
    | _, _ => none
  | node => pure node

/-- A collection may not be of a foreign type. -/
def guardCollection (properties : Properties) : Reading Unit :=
  if properties.tag.any namesForeignType then failure else pure ()

/-- The text of a key. -/
def readKey (nodes : List Tree) (node : Tree) : Reading String := do
  match ← follow nodes node with
  | .scalar _ text _ => pure (String.ofList text)
  | _ => failure

/-- Read a node, with `inner` to read the nodes in a collection, if it may hold any. -/
def valueWith (nodes : List Tree) (inner : Option (Tree → Reading Json)) (node : Tree) :
    Reading Json := do
  match ← follow nodes node with
  | .aliasOf _ => failure
  | .scalar properties text plain => StateT.lift (scalarValue? properties.tag text plain)
  | .sequence properties items => do
    guardCollection properties
    let read ← StateT.lift inner
    return .arr (← items.mapM read)
  | .mapping properties entries => do
    guardCollection properties
    let read ← StateT.lift inner
    let members ← entries.mapM fun (key, value) => do
      let key ← readKey nodes key
      return (key, ← read value)
    return .object members

/-- Read a node whose collections nest to the given depth. -/
def valueToDepth (nodes : List Tree) : Nat → Tree → Reading Json
  | 0 => valueWith nodes none
  | depth + 1 => valueWith nodes (some (valueToDepth nodes depth))

/-- The value of a tree. -/
def Tree.value? (tree : Tree) : Option Json :=
  let nodes := tree.nodes
  (valueToDepth nodes depthLimit tree).run' (aliasesPerMark * Tree.marks nodes)

/-- The value a text writes. -/
def read? (text : String) : Option Json :=
  if !text.toList.all isWritable then none
  else do
    let tokens ← tokensOf? text.toList
    if tokens.isEmpty then some .null else (treeOf? tokens).bind Tree.value?

end Yaml

end SchemaGraph

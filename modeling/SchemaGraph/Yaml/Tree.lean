import SchemaGraph.Json.Basic
import SchemaGraph.Yaml.Token

set_option autoImplicit false

/-! # YAML trees

The nodes of a document as its tokens nest them. Anchors are numbered: the number of an anchor
is how many names were in use when it was set, and an alias has the number its name got last.
A name set once more gets a number but is no new name, so two anchors may share a number; it then
stands for the later one, wherever the alias is.
-/

namespace SchemaGraph

namespace Yaml

/-- What may be written before a node. -/
structure Properties where
  anchor : Option Nat
  tag : Option (List UInt8)
  deriving DecidableEq, Repr

def Properties.none : Properties := ⟨.none, .none⟩

/-- A node of a document. -/
inductive Tree where
  | aliasOf (anchor : Nat)
  | scalar (properties : Properties) (text : List Char) (plain : Bool)
  | sequence (properties : Properties) (items : List Tree)
  | mapping (properties : Properties) (entries : List (Tree × Tree))
  deriving Repr, Inhabited

namespace Tree

/-- The node that is written by nothing. -/
def empty : Tree := scalar Properties.none [] true

/-- The number of an anchor set at this node. -/
def anchor? : Tree → Option Nat
  | aliasOf _ => none
  | scalar properties .. => properties.anchor
  | sequence properties _ => properties.anchor
  | mapping properties _ => properties.anchor

mutual

/-- All nodes of a tree, in the order of the text. -/
def nodes : Tree → List Tree
  | aliasOf n => [aliasOf n]
  | scalar properties text plain => [scalar properties text plain]
  | sequence properties items => sequence properties items :: nodesOfItems items
  | mapping properties entries => mapping properties entries :: nodesOfEntries entries

def nodesOfItems : List Tree → List Tree
  | [] => []
  | item :: rest => nodes item ++ nodesOfItems rest

def nodesOfEntries : List (Tree × Tree) → List Tree
  | [] => []
  | (key, value) :: rest => nodes key ++ nodes value ++ nodesOfEntries rest

end

/-- The node an anchor's number stands for: the last of all nodes with that number. -/
def find? (nodes : List Tree) (anchor : Nat) : Option Tree :=
  nodes.reverse.find? fun node => node.anchor? == some anchor

/-- How many marks a text needs for nodes: a start and an end for a collection, and one for
every other node. -/
def marks : List Tree → Nat
  | [] => 0
  | (sequence _ _) :: rest | (mapping _ _) :: rest => 2 + marks rest
  | _ :: rest => 1 + marks rest

end Tree

/-! ## Nodes from tokens -/

/-- The tokens that are left, and the names of the anchors with their numbers. -/
structure Stream where
  tokens : List Token
  names : List (List Char × Nat)

namespace Stream

def goOn (tokens : List Token) (stream : Stream) : Stream := { stream with tokens := tokens }

/-- Set an anchor. -/
def setAnchor (name : List Char) (stream : Stream) : Nat × Stream :=
  let others := stream.names.filter fun (known, _) => known != name
  (stream.names.length, { stream with names := (name, stream.names.length) :: others })

/-- The number an alias stands for. -/
def number? (name : List Char) (stream : Stream) : Option Nat := stream.names.lookup name

end Stream

/-- The handles of tags with what they stand for. -/
abbrev Handles := List (List Char × List UInt8)

namespace Handles

/-- The handles every document has unless it sets them anew. -/
def builtIn : Handles :=
  [("!".toList, Utf8.encode "!".toList), ("!!".toList, Utf8.encode "tag:yaml.org,2002:".toList)]

/-- The bytes of a tag. -/
def expand? (handles : Handles) (handle : List Char) (suffix : List UInt8) :
    Option (List UInt8) :=
  if handle.isEmpty then some suffix else (handles.lookup handle).map (· ++ suffix)

end Handles

/-- Take an anchor and a tag, in either order. -/
def takeProperties : List Token → Option (List Char) × Option (List Char × List UInt8) × List Token
  | .anchor name :: .tag handle suffix :: rest => (some name, some (handle, suffix), rest)
  | .tag handle suffix :: .anchor name :: rest => (some name, some (handle, suffix), rest)
  | .anchor name :: rest => (some name, none, rest)
  | .tag handle suffix :: rest => (none, some (handle, suffix), rest)
  | rest => (none, none, rest)

/-- Read the properties of a node. -/
def readProperties? (handles : Handles) (stream : Stream) : Option (Properties × Stream) := do
  let (name, tag, rest) := takeProperties stream.tokens
  let tag ← match tag with
    | none => some none
    | some (handle, suffix) => (handles.expand? handle suffix).map some
  let stream := stream.goOn rest
  match name with
  | none => some (⟨none, tag⟩, stream)
  | some name =>
    let (number, stream) := stream.setAnchor name
    some (⟨some number, tag⟩, stream)

/-- The tag that is an exclamation mark alone says nothing about a scalar. -/
def Properties.ofScalar (properties : Properties) : Properties :=
  if properties.tag == some (Utf8.encode ['!']) then { properties with tag := .none }
  else properties

/-- A reader of one piece of a document. -/
abbrev Reader (α : Type) := Stream → Option (α × Stream)

/-- Read a node, which is empty where one of the tokens of `ends` comes next. -/
def readUnless (ends : List Token) (read : Reader Tree) : Reader Tree := fun stream =>
  match stream.tokens with
  | next :: _ => if ends.contains next then some (Tree.empty, stream) else read stream
  | [] => read stream

/-- Read what follows a colon; without the colon it is empty. -/
def readValue (ends : List Token) (read : Reader Tree) : Reader Tree := fun stream =>
  match stream.tokens with
  | .value :: rest => readUnless ends read (stream.goOn rest)
  | _ => some (Tree.empty, stream)

/-- Read a marked key within square brackets. Where the key is missing, the token after its mark
is passed over. -/
def readPairKey (read : Reader Tree) : Reader Tree := fun stream =>
  match stream.tokens with
  | .value :: rest | .flowEntry :: rest | .flowSequenceEnd :: rest =>
    some (Tree.empty, stream.goOn rest)
  | _ => read stream

/-- Read a single entry of a mapping that stands within square brackets for itself. -/
def readPair (read : Reader Tree) : Reader Tree := fun stream => do
  let (key, stream) ← readPairKey read stream
  let (value, stream) ← readValue [.flowEntry, .flowSequenceEnd] read stream
  some (.mapping Properties.none [(key, value)], stream)

/-- Read an entry of a mapping within braces, whose key need not be marked. -/
def readFlowEntry (read : Reader Tree) : Reader (Tree × Tree) := fun stream =>
  match stream.tokens with
  | .key :: rest => do
    let (key, stream) ←
      readUnless [.value, .flowEntry, .flowMappingEnd] read (stream.goOn rest)
    let (value, stream) ← readValue [.flowEntry, .flowMappingEnd] read stream
    some ((key, value), stream)
  | _ => (read stream).map fun (key, stream) => ((key, Tree.empty), stream)

/-- Read an item within square brackets. -/
def readFlowItem (read : Reader Tree) : Reader Tree := fun stream =>
  match stream.tokens with
  | .key :: rest => readPair read (stream.goOn rest)
  | _ => read stream

/-- Read the parts of a collection in brackets, with commas between them and perhaps one after
the last. -/
def readFlow? {α : Type} (closing : Token) (read : Reader α) : Nat → Bool → Reader (List α)
  | 0, _, _ => none
  | steps + 1, first, stream =>
    let goOn (tokens : List Token) : Option (List α × Stream) :=
      match tokens with
      | [] => none
      | next :: rest =>
        if next == closing then some ([], stream.goOn rest)
        else do
          let (part, stream) ← read (stream.goOn tokens)
          let (parts, stream) ← readFlow? closing read steps false stream
          some (part :: parts, stream)
    match stream.tokens with
    | .flowEntry :: rest => if first then goOn stream.tokens else goOn rest
    | next :: rest =>
      if first then goOn stream.tokens
      else if next == closing then some ([], stream.goOn rest)
      else none
    | [] => none

/-- Read the items of a block. -/
def readBlockItems? (read : Reader Tree) : Nat → Reader (List Tree)
  | 0, _ => none
  | steps + 1, stream =>
    match stream.tokens with
    | .blockEntry :: rest => do
      let (item, stream) ← readUnless [.blockEntry, .blockEnd] read (stream.goOn rest)
      let (items, stream) ← readBlockItems? read steps stream
      some (item :: items, stream)
    | .blockEnd :: rest => some ([], stream.goOn rest)
    | _ => none

/-- Read items that are indented no further than the mapping they stand in. -/
def readInnerItems? (read : Reader Tree) : Nat → Reader (List Tree)
  | 0, _ => none
  | steps + 1, stream =>
    match stream.tokens with
    | .blockEntry :: rest => do
      let (item, stream) ←
        readUnless [.blockEntry, .key, .value, .blockEnd] read (stream.goOn rest)
      let (items, stream) ← readInnerItems? read steps stream
      some (item :: items, stream)
    | _ => some ([], stream)

/-- Read the entries of a block. -/
def readBlockEntries? (read : Reader Tree) : Nat → Reader (List (Tree × Tree))
  | 0, _ => none
  | steps + 1, stream =>
    match stream.tokens with
    | .key :: rest => do
      let ends := [Token.key, Token.value, Token.blockEnd]
      let (key, stream) ← readUnless ends read (stream.goOn rest)
      let (value, stream) ← readValue ends read stream
      let (entries, stream) ← readBlockEntries? read steps stream
      some ((key, value) :: entries, stream)
    | .blockEnd :: rest => some ([], stream.goOn rest)
    | _ => none

/-- Where a node stands: within brackets, in a block, or in an entry of a block, where the items
of a sequence need no indentation of their own. -/
inductive Position where
  | flow
  | block
  | entry
  deriving DecidableEq, Repr

/-- Read a node that is no alias, its properties read, with `inner` to read the nodes in it. -/
def readContent? (inner : Position → Reader Tree) (position : Position)
    (properties : Properties) : Reader Tree := fun stream =>
  let steps := stream.tokens.length + 1
  let sequence (result : Option (List Tree × Stream)) : Option (Tree × Stream) :=
    result.map fun (items, stream) => (.sequence properties items, stream)
  let mapping (result : Option (List (Tree × Tree) × Stream)) : Option (Tree × Stream) :=
    result.map fun (entries, stream) => (.mapping properties entries, stream)
  match position, stream.tokens with
  | _, .scalar text plain :: rest => some (.scalar properties.ofScalar text plain, stream.goOn rest)
  | _, .flowSequenceStart :: rest =>
    sequence (readFlow? .flowSequenceEnd (readFlowItem (inner .flow)) steps true (stream.goOn rest))
  | _, .flowMappingStart :: rest =>
    mapping (readFlow? .flowMappingEnd (readFlowEntry (inner .flow)) steps true (stream.goOn rest))
  | .entry, .blockEntry :: _ => sequence (readInnerItems? (inner .block) steps stream)
  | .block, .blockSequenceStart :: rest | .entry, .blockSequenceStart :: rest =>
    sequence (readBlockItems? (inner .block) steps (stream.goOn rest))
  | .block, .blockMappingStart :: rest | .entry, .blockMappingStart :: rest =>
    mapping (readBlockEntries? (inner .entry) steps (stream.goOn rest))
  | _, _ =>
    if properties == Properties.none then none else some (.scalar properties [] true, stream)

/-- Read a node with others in it to the given depth. -/
def readNode? (handles : Handles) : Nat → Position → Reader Tree
  | 0, _, _ => none
  | depth + 1, position, stream =>
    match stream.tokens with
    | .aliasOf name :: rest =>
      (stream.number? name).map fun number => (.aliasOf number, stream.goOn rest)
    | _ => do
      let (properties, stream) ← readProperties? handles stream
      readContent? (readNode? handles depth) position properties stream

/-! ## Documents -/

/-- Read the directives before a document: the version, once at most, and handles of tags, each
once at most. -/
def readDirectives? : Bool → Handles → List Token → Option (Handles × List Token)
  | versioned, handles, .version major minor :: rest =>
    if versioned || major != 1 || (minor != 1 && minor != 2) then none
    else readDirectives? true handles rest
  | versioned, handles, .tagHandle handle start :: rest =>
    if (handles.lookup handle).isSome then none
    else readDirectives? versioned ((handle, start) :: handles) rest
  | _, handles, rest => some (handles, rest)

/-- The tree of a text's only document. Directives need the mark of its start. -/
def treeOf? (tokens : List Token) : Option Tree := do
  let read (handles : Handles) (tokens : List Token) : Option (Tree × Stream) :=
    readNode? handles (tokens.length + 1) .block ⟨tokens, []⟩
  let (handles, rest) ← readDirectives? false [] tokens
  let (tree, stream) ← match rest with
    | .documentStart :: rest =>
      match rest with
      | [] => some (Tree.empty, ⟨[], []⟩)
      | .documentEnd :: _ => some (Tree.empty, ⟨rest, []⟩)
      | _ => read (handles ++ Handles.builtIn) rest
    | _ => if handles.isEmpty && rest.length == tokens.length then read Handles.builtIn rest else none
  if stream.tokens.all (· == .documentEnd) then some tree else none

end Yaml

end SchemaGraph

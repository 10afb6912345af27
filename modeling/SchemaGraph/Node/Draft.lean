import SchemaGraph.Node.Basic

set_option autoImplicit false

/-! # Drafts of objects

The shape of an object is put together as a draft and then checked: a property must not be both
read-only and write-only, such properties must be declared, and patterns must be regular
expressions.
-/

namespace SchemaGraph

/-- Names in increasing order, each once. -/
def distinctNames (names : List String) : List String :=
  (Entries.sorted (names.map fun name => (name, ()))).map Prod.fst

/-- An object being put together. Names may stand in any order and more than once. -/
structure ObjectDraft (ι : Type := NodeId) where
  properties : List (String × ι)
  required : List String
  patterns : List (String × ι)
  additional : Additional ι
  readOnly : List String
  writeOnly : List String
  size : CountBounds
  deriving Repr, Inhabited

namespace ObjectDraft

variable {ι : Type}

def empty : ObjectDraft ι := ⟨[], [], [], .allow, [], [], .free⟩

/-- Declare a property; a repeated name keeps its place and takes the new node. -/
def property (draft : ObjectDraft ι) (name : String) (node : ι) : ObjectDraft ι :=
  { draft with properties := Entries.insertLast name node draft.properties }

/-- Read every pattern, in order. The first that is none is reported. -/
def readPatterns : List (String × ι) → Except BuildError (List (Pattern × ι))
  | [] => .ok []
  | (text, node) :: rest =>
    match Pattern.read? text with
    | none => .error (.invalidPattern text)
    | some pattern => (readPatterns rest).map fun done => (pattern, node) :: done

/-- The shape of a draft, if nothing is wrong with it. -/
def build (draft : ObjectDraft ι) : Except BuildError (ObjectShape ι) :=
  let readOnly := distinctNames draft.readOnly
  let writeOnly := distinctNames draft.writeOnly
  let both := readOnly.filter writeOnly.contains
  let unknown := (readOnly ++ writeOnly).filter fun name => !Entries.contains name draft.properties
  if !both.isEmpty then .error (.readWriteOverlap (commaDelimited both))
  else if !unknown.isEmpty then .error (.unknownProperty (commaDelimited unknown))
  else (readPatterns draft.patterns).map fun patterns => {
    properties := draft.properties
    required := distinctNames draft.required
    patterns, additional := draft.additional, readOnly, writeOnly, size := draft.size }

end ObjectDraft

end SchemaGraph

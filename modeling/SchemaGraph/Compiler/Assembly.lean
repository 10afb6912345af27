import SchemaGraph.Compiler.Basic
import SchemaGraph.Node.Draft
import SchemaGraph.Schema.Rule

set_option autoImplicit false

/-! # Assembly of nodes

How the node of a schema is put together from its keywords and the nodes of its parts, given how
the parts compile. Errors of the keywords and errors of the parts are kept apart, because those
of the keywords are reported first.
-/

namespace SchemaGraph

/-- What became of a schema: its node, if all parts are there, what is wrong with its own
keywords, and what is wrong with its parts. -/
structure Assembly (ι : Type := NodeId) where
  node : Option (Node ι)
  own : List LocatedError
  parts : List LocatedError

namespace Assembly

variable {ι : Type}

/-- No node, because of the keywords. -/
def refused (own : List LocatedError) : Assembly ι := ⟨none, own, []⟩

/-- No node, because of the parts. -/
def incomplete (parts : List LocatedError) : Assembly ι := ⟨none, [], parts⟩

def ofNode (node : Node ι) : Assembly ι := ⟨some node, [], []⟩

end Assembly

namespace Compiling

variable {ι : Type}

/-! ## Types without parts -/

/-- Apply the format of a schema to a plain node. An unknown format is an error if the settings
say so. -/
def applyFormat (keywords : Keywords) (kind : SchemaKind) (common : Common) (shape : Shape ι) :
    Compiling (Assembly ι) := do
  let compiler ← get
  let name := keywords.string "format"
  match name.value with
  | none => pure ⟨some (.typed common shape), name.errors, []⟩
  | some name =>
    match compiler.formats.find? kind name with
    | some format => pure (.ofNode (format.apply common shape))
    | none =>
      let unknown := LocatedError.ofKey compiler.messages (keywords.path.child "format")
        .unknownFormat [name, kind.name]
      pure ⟨some (.typed common shape), if compiler.config.strictFormats then [unknown] else [], []⟩

/-- A node whose shape is read from keywords alone. -/
def primitive (keywords : Keywords) (kind : SchemaKind) (common : Common) (shape : Reading (Shape ι)) :
    Compiling (Assembly ι) := do
  let assembly ← applyFormat keywords kind common shape.value
  pure { assembly with own := shape.errors ++ assembly.own }

/-! ## Lists -/

/-- A list. Without its items, nothing more is read. -/
def array (compile : CompilingValue ι) (keywords : Keywords) (common : Common) :
    Compiling (Assembly ι) := do
  match keywords.raw? "items" with
  | none => pure (.refused [(← get).error keywords.path .itemsRequired])
  | some items =>
    let path := keywords.path.child "items"
    match ← attempt (compile items path path true) with
    | .error errors => pure (.incomplete errors.toList)
    | .ok node =>
      let shape := keywords.arrayShape node
      pure ⟨some (.typed common shape.value), shape.errors, []⟩

/-! ## Objects -/

/-- Named schemas compiled at locations below a path: the nodes of those that compile, and the
errors of the others. -/
def named (compile : CompilingValue ι) (path : Path) :
    List (String × Json) → Compiling (List (String × ι) × List LocatedError)
  | [] => pure ([], [])
  | (name, schema) :: rest => do
    let here ← attempt (compile schema (path.child name) (path.child name) true)
    let (nodes, errors) ← named compile path rest
    match here with
    | .ok node => pure ((name, node) :: nodes, errors)
    | .error found => pure (nodes, found.toList ++ errors)

/-- Follow the references of a schema to the first that is none, does not resolve or comes back,
entering their scopes, and run a part on it. -/
def atEnd {α : Type} (part : Json → Compiling α) :
    Nat → List String → Json → Compiling α
  | 0, _, _ => fail .outOfFuel
  | fuel + 1, seen, schema =>
    match (schema.get? "$ref").bind Json.asStr? with
    | none => part schema
    | some reference => do
      match ← resolve reference with
      | .error _ => part schema
      | .ok (url, target) =>
        if seen.contains url then part schema
        else inScope url (atEnd part fuel (url :: seen) target)

/-- Whether a property is read-only and whether it is write-only. -/
structure Access where
  readOnly : Bool
  writeOnly : Bool
  deriving DecidableEq, Repr

/-- The access of a property schema, at the end of its references. -/
def access (fuel : Nat) (schema : Json) : Compiling Access :=
  atEnd (fun schema =>
    let entries := schema.asObj?.getD []
    pure ⟨Rule.isSet entries "readOnly", Rule.isSet entries "writeOnly"⟩) fuel [] schema

/-- What the properties of an object contribute to its draft. -/
structure Declared (ι : Type := NodeId) where
  properties : List (String × ι)
  readOnly : List String
  writeOnly : List String
  errors : List LocatedError

/-- Compile the properties of an object. -/
def declared (compile : CompilingValue ι) (fuel : Nat) (path : Path) :
    List (String × Json) → Compiling (Declared ι)
  | [] => pure ⟨[], [], [], []⟩
  | (name, schema) :: rest => do
    let access ← access fuel schema
    let here ← attempt (compile schema (path.child name) (path.child name) true)
    let more ← declared compile fuel path rest
    let more := { more with
      readOnly := if access.readOnly then name :: more.readOnly else more.readOnly
      writeOnly := if access.writeOnly then name :: more.writeOnly else more.writeOnly }
    match here with
    | .ok node => pure { more with properties := (name, node) :: more.properties }
    | .error found => pure { more with errors := found.toList ++ more.errors }

/-- The policy for other keys, with the errors of its keyword and of its schema. -/
def additional (compile : CompilingValue ι) (keywords : Keywords) :
    Compiling (Additional ι × List LocatedError × List LocatedError) := do
  match keywords.raw? "additionalProperties" with
  | none => pure (.allow, [], [])
  | some (.bool true) => pure (.allow, [], [])
  | some (.bool false) => pure (.deny, [], [])
  | some (.obj schema) =>
    let path := keywords.path.child "additionalProperties"
    match ← attempt (compile (.obj schema) path path true) with
    | .ok node => pure (.schema node, [], [])
    | .error found => pure (.allow, [], found.toList)
  | some _ => pure (.allow, [keywords.invalid "additionalProperties"], [])

/-- What objects report for keys they refuse, unless the settings replace it. -/
def refusedText : String :=
  "When `additionalProperties` is False, no unspecified properties are allowed. The following " ++
    "unspecified properties were found: \x7b0\x7d"

/-- The messages of an object. -/
def objectMessages (messages : Messages) : Messages :=
  (Messages.builtIn.override .additionalProperties refusedText).merged messages

/-- The error of a draft that is no object. -/
def draftError (compiler : Compiler) (path : Path) : BuildError → LocatedError
  | .invalidPattern pattern =>
    compiler.error ((path.child "x-patternProperties").child pattern) .regexFormat
  | .readWriteOverlap _ => compiler.error path .readOnlyAndWriteOnly
  | other => ⟨path, .invalidSchema, other.message⟩

/-- An object. -/
def object (compile : CompilingValue ι) (fuel : Nat) (keywords : Keywords) (common : Common) :
    Compiling (Assembly ι) := do
  let path := keywords.path
  let properties := keywords.mapping "properties"
  let declared ← declared compile fuel (path.child "properties") (properties.value.getD [])
  let required := keywords.names "required"
  let (additional, policyErrors, additionalErrors) ← additional compile keywords
  let patterns := keywords.mapping "x-patternProperties"
  let (patternNodes, patternErrors) ←
    named compile (path.child "x-patternProperties") (patterns.value.getD [])
  let least := keywords.count "minProperties"
  let most := keywords.count "maxProperties"
  let own := properties.errors ++ required.errors ++ policyErrors ++ patterns.errors ++
    least.errors ++ most.errors
  let parts := declared.errors ++ additionalErrors ++ patternErrors
  if !parts.isEmpty then pure ⟨none, own, parts⟩
  else
    let draft : ObjectDraft ι := {
      properties := declared.properties
      required := required.value.getD []
      patterns := patternNodes
      additional
      readOnly := declared.readOnly
      writeOnly := declared.writeOnly
      size := ⟨least.value, most.value⟩ }
    let compiler ← get
    match draft.build with
    | .ok shape =>
      let common := { common with messages := objectMessages compiler.messages }
      pure ⟨some (.typed common (.object shape)), own, []⟩
    | .error e => pure ⟨none, own, [draftError compiler path e]⟩

/-! ## Unions by a discriminator -/

/-- The value at a location, if its document is stored. -/
def stored? (compiler : Compiler) (path : Path) : Option Json :=
  (compiler.resolver.document? path.base).bind fun document => document.walk? path.parts

/-- The first part of a combination of all, if it is a reference. -/
def extended? (schema : List (String × Json)) : Option String := do
  let parts ← (Entries.find? "allOf" schema).bind Json.asArr?
  let first ← parts.head?
  (first.get? "$ref").bind Json.asStr?

/-- A schema without a type extends the one at a location if its first part refers to it. -/
def extendsSchema (compiler : Compiler) (path : Path) (schema : Json) : Bool :=
  match schema with
  | .obj entries =>
    match SchemaKind.ofSchema entries compiler.messages, extended? entries with
    | .ok none, some reference => Path.ofUri (Uri.join path.base reference) == path
    | _, _ => false
  | _ => false

/-- The schemas beside the one at a location that extend it. -/
def extensions (compiler : Compiler) (path : Path) : List (String × Json) :=
  if path.isRoot then []
  else (((stored? compiler path.parent).bind Json.asObj?).getD []).filter fun (_, schema) =>
    extendsSchema compiler path schema

/-- The text after the last slash. -/
def lastPiece (text : String) : String :=
  String.ofList (((splitOn '/' text.toList).getLast?).getD [])

/-- The name of the target of a reference: the last piece without its extension. -/
def referenceName (reference : String) : String :=
  let base := lastPiece reference
  match cutAtLast? '.' base.toList with
  | some (stem, _) => if stem.isEmpty then base else String.ofList stem
  | none => base

/-- The nodes under the values of the discriminating property: the given ones, and those that
the explicit mapping finds. -/
def mappingOf (discriminator : List (String × Json)) (given : List (String × ι))
    (find : String → Option ι) : List (String × ι) :=
  let explicit := ((Entries.find? "mapping" discriminator).bind Json.asObj?).getD []
  explicit.foldl (fun mapping (value, target) =>
    match target.asStr?.bind find with
    | some node => Entries.insertLast value node mapping
    | none => mapping) given

/-- The name of the discriminating property. -/
def propertyOf? (discriminator : List (String × Json)) : Option String :=
  (Entries.find? "propertyName" discriminator).bind Json.asStr?

/-- An object that other schemas extend: the union of these. -/
def polymorphic (compile : CompilingValue ι) (keywords : Keywords) (common : Common)
    (discriminator : List (String × Json)) (extensions : List (String × Json)) :
    Compiling (Assembly ι) := do
  match propertyOf? discriminator with
  | none => pure (.refused [keywords.invalid "discriminator"])
  | some property =>
    let (nodes, errors) ← named compile keywords.path.parent extensions
    if !errors.isEmpty then pure (.incomplete errors)
    else
      let find (target : String) : Option ι :=
        match Entries.find? target nodes with
        | some node => some node
        | none => Entries.find? (lastPiece target) nodes
      pure (.ofNode (.typed common (.discriminated property (mappingOf discriminator nodes find))))

/-- Compile those variants of a union that are references, from an index on: the nodes under
their references, and the errors. -/
def variants (compile : CompilingValue ι) (path : Path) :
    Nat → List Json → Compiling (List (String × ι) × List LocatedError)
  | _, [] => pure ([], [])
  | index, variant :: rest =>
    match (variant.get? "$ref").bind Json.asStr? with
    | none => variants compile path (index + 1) rest
    | some reference => do
      let here ← attempt (compile variant (path.item index) (path.item index) true)
      let (nodes, errors) ← variants compile path (index + 1) rest
      match here with
      | .ok node => pure ((reference, node) :: nodes, errors)
      | .error found => pure (nodes, found.toList ++ errors)

/-- The nodes in their order; a repeated name keeps its place and takes the last node. -/
def distinct (nodes : List (String × ι)) : List (String × ι) :=
  nodes.foldl (fun done (name, node) => Entries.insertLast name node done) []

/-- A union of references, selected by the name of their target. -/
def discriminatedUnion (compile : CompilingValue ι) (keywords : Keywords) (common : Common)
    (discriminator : List (String × Json)) (keyword : String) (alternatives : List Json) :
    Compiling (Assembly ι) := do
  match propertyOf? discriminator with
  | none => pure (.refused [keywords.invalid "discriminator"])
  | some property =>
    let (nodes, errors) ← variants compile (keywords.path.child keyword) 0 alternatives
    if !errors.isEmpty then pure (.incomplete errors)
    else
      let byReference := distinct nodes
      let byName := distinct (byReference.map fun (reference, node) => (referenceName reference, node))
      pure (.ofNode (.typed common (.discriminated property
        (mappingOf discriminator byName fun target => Entries.find? target byReference))))

/-! ## Combinations -/

/-- Compile every schema of a list from an index on: the nodes, and the errors. -/
def each (compile : CompilingValue ι) (path : Path) (polymorphic : Nat → Bool) :
    Nat → List Json → Compiling (List ι × List LocatedError)
  | _, [] => pure ([], [])
  | index, schema :: rest => do
    let here ← attempt (compile schema (path.item index) (path.item index) (polymorphic index))
    let (nodes, errors) ← each compile path polymorphic (index + 1) rest
    match here with
    | .ok node => pure (node :: nodes, errors)
    | .error found => pure (nodes, found.toList ++ errors)

/-- A combination of the schemas in a list. -/
def combination (compile : CompilingValue ι) (keywords : Keywords) (common : Common)
    (keyword : String) (polymorphic : Nat → Bool) (schemas : List Json)
    (combine : List ι → Shape ι) : Compiling (Assembly ι) := do
  let (nodes, errors) ← each compile (keywords.path.child keyword) polymorphic 0 schemas
  if errors.isEmpty then pure (.ofNode (.typed common (combine nodes)))
  else pure (.incomplete errors)

/-- What a schema without any type and combination forbids: one schema or a list of them. -/
def negation (compile : CompilingValue ι) (keywords : Keywords) (common : Common) :
    Compiling (Assembly ι) := do
  match keywords.raw? "not" with
  | none => pure (.ofNode (.typed common .any))
  | some (.obj schema) =>
    let path := keywords.path.child "not"
    match ← attempt (compile (.obj schema) path path true) with
    | .ok node => pure (.ofNode (.typed common (.not [node])))
    | .error found => pure (.incomplete found.toList)
  | some (.arr (first :: rest)) =>
    combination compile keywords common "not" (fun _ => true) (first :: rest) .not
  | some _ => pure (.refused [keywords.invalid "not"])

/-- The schemas of a combination, if there are any. -/
def listOf? (keywords : Keywords) (name : String) : Option (List Json) :=
  match (keywords.raw? name).bind Json.asArr? with
  | some (first :: rest) => some (first :: rest)
  | _ => none

/-- The combination that counts: the first that is there, in the order all, any, one, none. The
first schema of a combination of all is the one being extended, so it compiles without those that
extend it. -/
def governing (compile : CompilingValue ι) (keywords : Keywords) (common : Common) :
    Compiling (Assembly ι) :=
  match listOf? keywords "allOf", listOf? keywords "anyOf", listOf? keywords "oneOf" with
  | some schemas, _, _ =>
    combination compile keywords common "allOf" (fun index => index != 0) schemas .allOf
  | none, some schemas, _ =>
    combination compile keywords common "anyOf" (fun _ => true) schemas .anyOf
  | none, none, some schemas =>
    combination compile keywords common "oneOf" (fun _ => true) schemas .oneOf
  | none, none, none => negation compile keywords common

/-- The alternatives that a discriminator selects from, and their keyword. -/
def alternatives? (keywords : Keywords) : Option (String × List Json) :=
  match listOf? keywords "anyOf" with
  | some schemas => some ("anyOf", schemas)
  | none => (listOf? keywords "oneOf").map fun schemas => ("oneOf", schemas)

/-- A schema without a type: a union if a discriminator has alternatives, else a combination. -/
def union (compile : CompilingValue ι) (keywords : Keywords) (common : Common)
    (discriminator : Option (List (String × Json))) : Compiling (Assembly ι) :=
  match discriminator, alternatives? keywords with
  | some discriminator, some (keyword, schemas) =>
    discriminatedUnion compile keywords common discriminator keyword schemas
  | _, _ => governing compile keywords common

def untyped (compile : CompilingValue ι) (keywords : Keywords) (common : Common) :
    Compiling (Assembly ι) := do
  let discriminator := keywords.mapping "discriminator"
  let assembly ← union compile keywords common discriminator.value
  pure { assembly with own := discriminator.errors ++ assembly.own }

/-! ## Objects and what extends them -/

/-- The schemas that take part in an object: those extending it, if it has a discriminator and
they are asked for. -/
def participants (compiler : Compiler) (keywords : Keywords) (polymorphic : Bool)
    (discriminator : Option (List (String × Json))) : List (String × Json) :=
  if polymorphic && discriminator.isSome then extensions compiler keywords.path else []

/-- An object, or the union of the schemas that extend it. -/
def structured (compile : CompilingValue ι) (fuel : Nat) (keywords : Keywords) (common : Common)
    (discriminator : Option (List (String × Json))) (extensions : List (String × Json)) :
    Compiling (Assembly ι) :=
  match discriminator, extensions with
  | some discriminator, first :: rest =>
    polymorphic compile keywords common discriminator (first :: rest)
  | _, _ => object compile fuel keywords common

end Compiling

end SchemaGraph

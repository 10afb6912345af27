import SchemaGraph.Json.Basic

set_option autoImplicit false

/-! # Modes of conversion

What is converted and how strictly. The mode of a conversion is handed unchanged to every part
of it.
-/

namespace SchemaGraph

/-- What is being converted. -/
inductive Entity where
  /-- A schema or another specification document. -/
  | specification
  /-- An inbound payload: read-only properties are refused. -/
  | request
  /-- An outbound payload: write-only properties are refused and nothing is defaulted. -/
  | response
  deriving DecidableEq, Repr, Inhabited

namespace Entity

def name : Entity → String
  | specification => "specification"
  | request => "request"
  | response => "response"

def all : List Entity := [specification, request, response]

def ofName? (text : String) : Option Entity := all.find? fun entity => entity.name == text

/-- Only requests are lenient unless told otherwise. -/
def defaultStrict (entity : Entity) : Bool := entity != request

/-- An entity in settings: its name, or an object with the name as its only key and `null`
under it. -/
def ofJson? : Json → Option Entity
  | .str s => ofName? s
  | .obj [(key, .null)] => ofName? key
  | _ => none

end Entity

/-- Entity and casting policy. In a lenient mode values of another type are coerced first. -/
structure Mode where
  entity : Entity
  strict : Bool
  deriving DecidableEq, Repr, Inhabited

/-- The options of one conversion. -/
structure Options where
  entity : Entity
  strict : Option Bool
  deriving DecidableEq, Repr

namespace Options

def ofEntity (entity : Entity) : Options := ⟨entity, none⟩

/-- The mode of the conversion. -/
def mode (options : Options) : Mode :=
  ⟨options.entity, options.strict.getD options.entity.defaultStrict⟩

/-- A strictness in settings: a boolean, or `null` for the default. -/
def strictOfJson? : Json → Option (Option Bool)
  | .null => some none
  | .bool b => some (some b)
  | _ => none

/-- Read options from an object, or from an array with entity and strictness in this order. -/
def ofJson? : Json → Option Options
  | .obj entries => do
    let entity ← (Entries.find? "entity" entries).bind Entity.ofJson?
    let strict ← match Entries.find? "strict" entries with
      | some j => strictOfJson? j
      | none => some none
    some ⟨entity, strict⟩
  | .arr [e] => (Entity.ofJson? e).map fun entity => ⟨entity, none⟩
  | .arr [e, s] => do
    let entity ← Entity.ofJson? e
    let strict ← strictOfJson? s
    some ⟨entity, strict⟩
  | _ => none

/-- The options as an object; a strictness that is not set is left out. -/
def toJson (options : Options) : Json :=
  Json.object (("entity", .str options.entity.name) ::
    match options.strict with
    | some b => [("strict", .bool b)]
    | none => [])

end Options

end SchemaGraph

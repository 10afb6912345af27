import SchemaGraph.Node.Basic

set_option autoImplicit false

/-! # Reading keywords

Typed access to the keywords of one schema. A keyword of the wrong type reads as if it were not
there, and is reported at its own location. What is read from several keywords carries the
errors of all of them, in the order of reading.
-/

namespace SchemaGraph

/-- What was read, and what is wrong with it. -/
structure Reading (α : Type) where
  value : α
  errors : List LocatedError
  deriving Repr, Inhabited

namespace Reading

variable {α β : Type}

instance : Monad Reading where
  pure value := ⟨value, []⟩
  bind first next := ⟨(next first.value).value, first.errors ++ (next first.value).errors⟩

end Reading

/-- The keywords of a schema, its location, and the messages to report with. -/
structure Keywords where
  schema : List (String × Json)
  path : Path
  messages : Messages

namespace Keywords

variable {α : Type}

/-- The value of a keyword as it is. -/
def raw? (keywords : Keywords) (name : String) : Option Json := Entries.find? name keywords.schema

def contains (keywords : Keywords) (name : String) : Bool := Entries.contains name keywords.schema

/-- The error of a keyword that has the wrong type. -/
def invalid (keywords : Keywords) (name : String) : LocatedError :=
  LocatedError.ofKey keywords.messages (keywords.path.child name) .invalidKeyword [name]

/-- Read a keyword, if it is there. -/
def optional (keywords : Keywords) (name : String) (read : Json → Option α) :
    Reading (Option α) :=
  match keywords.raw? name with
  | none => ⟨none, []⟩
  | some written =>
    match read written with
    | some value => ⟨some value, []⟩
    | none => ⟨none, [keywords.invalid name]⟩

/-- A boolean, `false` if it is not there. -/
def flag (keywords : Keywords) (name : String) : Reading Bool := do
  return (← keywords.optional name Json.asBool?).getD false

def number (keywords : Keywords) (name : String) : Reading (Option Double) :=
  keywords.optional name Json.asDouble?

/-- A number above zero. -/
def positive (keywords : Keywords) (name : String) : Reading (Option Double) := do
  match ← keywords.number name with
  | none => return none
  | some number =>
    if number.atMost .zero then
      ⟨none, [LocatedError.ofKey keywords.messages (keywords.path.child name)
        .nonPositiveMultipleOf []]⟩
    else return some number

/-- A whole number that is not negative. -/
def count (keywords : Keywords) (name : String) : Reading (Option Nat) :=
  keywords.optional name Json.asCount?

def string (keywords : Keywords) (name : String) : Reading (Option String) :=
  keywords.optional name Json.asStr?

def array (keywords : Keywords) (name : String) : Reading (Option (List Json)) :=
  keywords.optional name Json.asArr?

def mapping (keywords : Keywords) (name : String) : Reading (Option (List (String × Json))) :=
  keywords.optional name Json.asObj?

/-- A list of strings. Other items are reported and left out. -/
def names (keywords : Keywords) (name : String) : Reading (Option (List String)) := do
  match ← keywords.array name with
  | none => return none
  | some items =>
    let names := items.filterMap Json.asStr?
    if items.length == names.length then return some names
    else ⟨some names, [keywords.invalid name]⟩

/-- A text that is a regular expression. -/
def pattern (keywords : Keywords) (name : String) : Reading (Option Pattern) := do
  match ← keywords.string name with
  | none => return none
  | some text =>
    match Pattern.read? text with
    | some pattern => return some pattern
    | none =>
      ⟨none, [LocatedError.ofKey keywords.messages (keywords.path.child name) .regexFormat []]⟩

/-! ## Groups of keywords -/

/-- What every node has. -/
def common (keywords : Keywords) : Reading Common := do
  let nullable ← keywords.flag "nullable"
  let allowed ← keywords.array "enum"
  return {
    messages := keywords.messages
    default := keywords.raw? "default"
    nullable, allowed, checks := [] }

def textBounds (keywords : Keywords) : Reading TextBounds := do
  let least ← keywords.count "minLength"
  let most ← keywords.count "maxLength"
  let pattern ← keywords.pattern "pattern"
  return ⟨⟨least, most⟩, pattern⟩

def numericBounds (keywords : Keywords) : Reading NumericBounds := do
  let minimum ← keywords.number "minimum"
  let maximum ← keywords.number "maximum"
  let exclusiveMinimum ← keywords.flag "exclusiveMinimum"
  let exclusiveMaximum ← keywords.flag "exclusiveMaximum"
  let multipleOf ← keywords.positive "multipleOf"
  return ⟨minimum, maximum, exclusiveMinimum, exclusiveMaximum, multipleOf⟩

/-- A list of items of one node. Comparing items by properties makes them differ. -/
def arrayShape {ι : Type} (keywords : Keywords) (items : ι) : Reading (Shape ι) := do
  let least ← keywords.count "minItems"
  let most ← keywords.count "maxItems"
  let unique ← keywords.flag "uniqueItems"
  let distinctBy ← keywords.names "x-uniqueItemProperties"
  return .array items ⟨least, most⟩ (unique || distinctBy.isSome) distinctBy

end Keywords

end SchemaGraph

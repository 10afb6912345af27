import SchemaGraph.Message.Table
import SchemaGraph.Path

set_option autoImplicit false

/-! # Errors

A violation is a failed check; put at a location it is an error. A failed conversion or
compilation reports the list of all errors found, in the order in which they were found. That
list is never empty: `SchemaErrors` keeps its first error apart.

Two further kinds of failure are not about a payload: a reference that does not resolve
(`ResolveError`) and a graph that was put together wrongly (`BuildError`).
-/

namespace SchemaGraph

/-! ## Lists in a message -/

/-- The strings in lexicographic order of their characters. -/
def sortStrings (items : List String) : List String :=
  items.mergeSort fun a b => decide (a ≤ b)

/-- The items in lexicographic order, joined with `", "`. -/
def commaDelimited (items : List String) : String :=
  ", ".intercalate (sortStrings items)

/-- The indexes in increasing order, joined with `", "`. -/
def commaDelimitedIndexes (indexes : List Nat) : String :=
  ", ".intercalate ((indexes.mergeSort fun a b => decide (a ≤ b)).map toString)

/-! ## Errors at their locations -/

/-- A failed check. -/
structure Violation where
  kind : ErrorKind
  message : String
  deriving DecidableEq, Repr, Inhabited

/-- A violation at a location. -/
structure LocatedError where
  path : Path
  kind : ErrorKind
  message : String
  deriving DecidableEq, Repr, Inhabited

namespace Violation

/-- The violation a message reports. -/
def ofKey (messages : Messages) (key : MessageKey) (args : List String) : Violation :=
  ⟨key.kind, messages.format key args⟩

def located (violation : Violation) (path : Path) : LocatedError :=
  ⟨path, violation.kind, violation.message⟩

end Violation

namespace LocatedError

/-- The error a message reports at a location. -/
def ofKey (messages : Messages) (path : Path) (key : MessageKey) (args : List String) :
    LocatedError :=
  (Violation.ofKey messages key args).located path

/-- Location and message on one line. -/
def text (error : LocatedError) : String := error.path.text ++ ": " ++ error.message

end LocatedError

/-- One error or more. -/
structure SchemaErrors where
  first : LocatedError
  rest : List LocatedError
  deriving DecidableEq, Repr, Inhabited

namespace SchemaErrors

def single (error : LocatedError) : SchemaErrors := ⟨error, []⟩

/-- The collected errors, if there are any. -/
def ofList? : List LocatedError → Option SchemaErrors
  | [] => none
  | error :: rest => some ⟨error, rest⟩

def toList (errors : SchemaErrors) : List LocatedError := errors.first :: errors.rest

/-- Put an error in front. -/
def leading (error : LocatedError) (errors : SchemaErrors) : SchemaErrors :=
  ⟨error, errors.toList⟩

/-- Put errors behind. -/
def extended (errors : SchemaErrors) (more : List LocatedError) : SchemaErrors :=
  ⟨errors.first, errors.rest ++ more⟩

def length (errors : SchemaErrors) : Nat := errors.toList.length

def kinds (errors : SchemaErrors) : List ErrorKind := errors.toList.map LocatedError.kind

def containsKind (errors : SchemaErrors) (kind : ErrorKind) : Bool := errors.kinds.contains kind

/-- Locations and messages as text. -/
def pairs (errors : SchemaErrors) : List (String × String) :=
  errors.toList.map fun error => (error.path.text, error.message)

/-- One error a line. -/
def text (errors : SchemaErrors) : String :=
  "\n".intercalate (errors.toList.map LocatedError.text)

end SchemaErrors

/-! ## Failures outside a payload -/

/-- Why a reference does not resolve. -/
inductive ResolveError where
  /-- The pointer names nothing in the document. -/
  | unresolvable (pointer : String)
  /-- Nothing can retrieve documents of the scheme. -/
  | unsupportedScheme (scheme uri : String)
  /-- The document could not be retrieved. -/
  | fetch (uri message : String)
  /-- The file could not be read. -/
  | unreadable
  /-- The document is in no known format. -/
  | unknownFormat (uri : String)
  /-- There is no scope to leave. -/
  | emptyScopeStack
  deriving DecidableEq, Repr

namespace ResolveError

def message : ResolveError → String
  | unresolvable pointer => "Unresolvable JSON pointer: '" ++ pointer ++ "'"
  | unsupportedScheme scheme uri =>
    "No handler for URI scheme '" ++ scheme ++ "' (uri: " ++ uri ++ ")"
  | fetch uri message => "Failed to fetch '" ++ uri ++ "': " ++ message
  | unreadable => "I/O error: No such file or directory (os error 2)"
  | unknownFormat uri => "Unknown document format at '" ++ uri ++ "'. Expected YAML or JSON"
  | emptyScopeStack =>
    "Failed to pop the scope from an empty stack. `pop_scope()` should only be called once " ++
      "for every `push_scope()`"

end ResolveError

/-- What is wrong with a graph put together by hand. -/
inductive BuildError where
  /-- A reserved node was never defined. -/
  | pendingNode (index : Nat)
  /-- A node was defined twice. -/
  | alreadyDefined (index : Nat)
  /-- A node of that index does not exist. -/
  | unknownNode (index : Nat)
  /-- Properties are both read-only and write-only. -/
  | readWriteOverlap (names : String)
  /-- Read-only or write-only names are not declared as properties. -/
  | unknownProperty (names : String)
  /-- A pattern is no regular expression. -/
  | invalidPattern (pattern : String)
  deriving DecidableEq, Repr

namespace BuildError

def message : BuildError → String
  | pendingNode index => "Node " ++ toString index ++ " was reserved but never defined"
  | alreadyDefined index => "Node " ++ toString index ++ " is already defined"
  | unknownNode index => "Node " ++ toString index ++ " does not exist"
  | readWriteOverlap names =>
    "Properties must not be listed in both `read_only` and `write_only` simultaneously: " ++ names
  | unknownProperty names =>
    "All read-only and write-only properties must be present in the properties: " ++ names
  | invalidPattern pattern => "Invalid regular expression '" ++ pattern ++ "'"

end BuildError

end SchemaGraph

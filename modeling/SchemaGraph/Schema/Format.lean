import SchemaGraph.Node.Basic
import SchemaGraph.Schema.Kind

set_option autoImplicit false

/-! # Formats of schemas

A schema with a type and a `format` is first a plain node of its type; what is registered for
the pair then turns that node into the final one.
-/

namespace SchemaGraph

/-- What a format makes of a plain node. -/
inductive Format where
  /-- Nothing. -/
  | plain
  /-- The text is parsed. -/
  | parse (written : TextFormat)
  /-- A text or an integer is checked further. -/
  | check (restriction : FormatCheck)
  deriving DecidableEq, Repr, Inhabited

namespace Format

/-- The node with the format. A node of a type the format is not made for stays as it is. -/
def apply {ι : Type} (format : Format) (common : Common) (shape : Shape ι) : Node ι :=
  match format, shape with
  | parse written, .string bounds => .typed common (.text written bounds)
  | check restriction, .string bounds =>
    .typed (common.withCheck (.format restriction common.messages)) (.string bounds)
  | check restriction, .integer bounds =>
    .typed (common.withCheck (.format restriction common.messages)) (.integer bounds)
  | _, shape => .typed common shape

end Format

/-- Formats under their types and names. -/
structure Formats where
  entries : List ((SchemaKind × String) × Format)
  deriving DecidableEq, Repr, Inhabited

namespace Formats

def empty : Formats := ⟨[]⟩

def find? (formats : Formats) (kind : SchemaKind) (name : String) : Option Format :=
  formats.entries.lookup (kind, name)

/-- Register a format in place of the one before. -/
def register (formats : Formats) (kind : SchemaKind) (name : String) (format : Format) :
    Formats :=
  ⟨((kind, name), format) :: formats.entries.filter fun (key, _) => key != (kind, name)⟩

def contains (formats : Formats) (kind : SchemaKind) (name : String) : Bool :=
  (formats.find? kind name).isSome

/-- The formats every compiler knows. -/
def builtIn : Formats := ⟨[
  ((.integer, "int32"), .check .int32),
  ((.integer, "int64"), .check .int64),
  ((.number, "float"), .plain),
  ((.number, "double"), .plain),
  ((.string, "byte"), .parse .bytes),
  ((.string, "binary"), .plain),
  ((.string, "date"), .parse .date),
  ((.string, "date-time"), .parse .timestamp),
  ((.string, "password"), .plain),
  ((.string, "regex"), .parse .pattern),
  ((.string, "uuid"), .parse .uuid),
  ((.string, "email"), .check .email),
  ((.string, "uri"), .check .uri)]⟩

end Formats

end SchemaGraph

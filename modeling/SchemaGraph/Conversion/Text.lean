import SchemaGraph.Base64
import SchemaGraph.Conversion.Basic
import SchemaGraph.Mode
import SchemaGraph.Text.Utf8

set_option autoImplicit false

/-! # Formats of texts

A text with a format is first checked as a text and then parsed. Responses are rendered and not
parsed, so there the text itself is the result. Bytes are the exception: a response is encoded
before its checks, a request is decoded after them, and a specification is left as text.
-/

namespace SchemaGraph

namespace TextFormat

/-- What is reported for a text that does not have the format. -/
def message : TextFormat → MessageKey
  | date => .dateFormat
  | timestamp => .dateTimeFormat
  | pattern => .regexFormat
  | uuid => .uuidFormat
  | bytes => .byteFormat

/-- The value a text stands for. -/
def read? (format : TextFormat) (text : String) : Option Value :=
  match format with
  | date => (Date.read? text).map Value.date
  | timestamp => (Timestamp.read? text).map Value.timestamp
  | pattern => if Pattern.isValid text then some (.string text) else none
  | uuid => (Uuid.readVersioned? text).map Value.uuid
  | bytes => (Base64.decode? text.toList).map Value.bytes

/-- The payload to be checked as a text: a response of bytes is encoded. -/
def encoded (format : TextFormat) (entity : Entity) (payload : Json) : Json :=
  match format, entity, payload with
  | bytes, .response, .str raw => .str (String.ofList (Base64.encode (Utf8.encode raw.toList)))
  | _, _, payload => payload

/-- The result of a text that passed its checks; `none` if it does not have the format. A UUID
is checked in responses too. -/
def finish? (format : TextFormat) (entity : Entity) (text : String) : Option Value :=
  match format, entity with
  | uuid, .response => (format.read? text).map fun _ => .string text
  | bytes, .specification => some (.string text)
  | _, .response => some (.string text)
  | _, _ => format.read? text

end TextFormat

namespace TextBounds

/-- Everything wrong with a text. Its length is its number of characters. -/
def violations (bounds : TextBounds) (messages : Messages) (text : String) : List Violation :=
  bounds.length.lengthViolations messages text.length .minLength .maxLength ++
    match bounds.pattern with
    | some pattern =>
      if pattern.matchesFromStart text then [] else [Violation.ofKey messages .pattern []]
    | none => []

end TextBounds

end SchemaGraph

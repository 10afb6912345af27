import SchemaGraph.Schema.Rule
import SchemaGraph.Url.Parse
import SchemaGraph.Value.Basic

set_option autoImplicit false

/-! # Extra checks of a node

A check looks at the result of a conversion and at the payload it was made from, and reports at
most one violation. It carries the messages of the node it was attached to.
-/

namespace SchemaGraph

/-- Formats that only restrict texts or numbers. -/
inductive FormatCheck where
  | email
  | uri
  | int32
  | int64
  deriving DecidableEq, Repr, Inhabited

namespace FormatCheck

/-- What an address of electronic mail looks like. -/
def emailPattern : Option Pattern :=
  Pattern.read? "^[a-zA-Z0-9_.+-]+@[a-zA-Z0-9-]+\\.[a-zA-Z0-9-.]+$"

def message : FormatCheck → MessageKey
  | email => .emailFormat
  | uri => .uriFormat
  | int32 => .int32Format
  | int64 => .int64Format

/-- The value has the format. Values a format is not about have it. -/
def accepts (check : FormatCheck) (value : Value) : Bool :=
  match check, value with
  | email, .string text => emailPattern.any fun pattern => pattern.matchesFromStart text
  | uri, .string text => (Url.read? text).isSome
  | int32, .integer n _ => decide (-0x80000000 ≤ n) && decide (n < 0x80000000)
  | int64, .number _ => false
  | _, _ => true

end FormatCheck

/-- An extra check of a node. -/
inductive Check where
  | format (check : FormatCheck) (messages : Messages)
  /-- The payload is a schema that keeps the rule. -/
  | rule (demand : Rule) (messages : Messages)
  deriving DecidableEq, Repr, Inhabited

namespace Check

/-- What the check finds wrong with a result or its payload. -/
def violation? (check : Check) (result : Value) (payload : Json) : Option Violation :=
  match check with
  | format check messages =>
    if check.accepts result then none else some (Violation.ofKey messages check.message [])
  | rule demand messages => payload.asObj?.bind (demand.check messages)

end Check

end SchemaGraph

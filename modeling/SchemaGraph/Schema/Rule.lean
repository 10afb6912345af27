import SchemaGraph.Pattern.Parse
import SchemaGraph.Schema.Kind

set_option autoImplicit false

/-! # Authoring rules

What is demanded of a schema beyond the types of its keywords: keywords fit the type of the
schema, bounds are in order, and keywords that need or exclude each other do so. A type that is
unknown or ambiguous is reported by the rule on types alone; the other rules are then silent.
-/

namespace SchemaGraph

/-- One demand on a schema. -/
inductive Rule where
  | type
  | format
  | items
  | discriminator
  | minimum
  | maximum
  | exclusiveMinimum
  | exclusiveMaximum
  | multipleOf
  | minLength
  | maxLength
  | minItems
  | maxItems
  | uniqueItems
  | properties
  | additionalProperties
  | required
  | minProperties
  | maxProperties
  | readOnlyWriteOnly
  | patternProperties
  deriving DecidableEq, Repr, Inhabited

namespace Rule

/-- Every rule, in the order of reports. -/
def all : List Rule := [
  type, format, items, discriminator, minimum, maximum, exclusiveMinimum, exclusiveMaximum,
  multipleOf, minLength, maxLength, minItems, maxItems, uniqueItems, properties,
  additionalProperties, required, minProperties, maxProperties, readOnlyWriteOnly,
  patternProperties]

/-- The number under a keyword. -/
def numberOf? (schema : List (String × Json)) (name : String) : Option Double :=
  (Entries.find? name schema).bind Json.asDouble?

/-- The keyword is there and `true`. -/
def isSet (schema : List (String × Json)) (name : String) : Bool :=
  match Entries.find? name schema with
  | some (.bool true) => true
  | _ => false

/-- An upper bound needs the right type and must not be below the lower one, zero if that is
not there. -/
def upperBound (schema : List (String × Json)) (upper lower : String) (fits : Bool)
    (wrongType below : MessageKey) : Option MessageKey :=
  match Entries.find? upper schema with
  | none => none
  | some written =>
    if !fits then some wrongType
    else match written.asDouble? with
      | some most => if most.below ((numberOf? schema lower).getD .zero) then some below else none
      | none => none

/-- What the rule finds wrong with a schema of this type. -/
def breach? (rule : Rule) (schema : List (String × Json)) (kind : Option SchemaKind) :
    Option MessageKey :=
  let is (expected : SchemaKind) : Bool := kind == some expected
  let numeric := kind.any SchemaKind.isNumeric
  let has (name : String) : Bool := Entries.contains name schema
  let breach (bad : Bool) (key : MessageKey) : Option MessageKey := if bad then some key else none
  match rule with
  | type => none
  | format => breach (has "format" && !kind.any SchemaKind.isPrimitive) .formatOnNonPrimitive
  | items => breach (is .array && !has "items") .itemsRequired
  | discriminator =>
    breach (has "discriminator" && (has "allOf" || has "not")) .improperDiscriminator
  | minimum => breach (has "minimum" && !numeric) .invalidTypeForMinimum
  | maximum =>
    if !has "maximum" then none
    else if !numeric then some .invalidTypeForMaximum
    else match numberOf? schema "maximum", numberOf? schema "minimum" with
      | some most, some least => breach (most.below least) .maximumBelowMinimum
      | _, _ => none
  | exclusiveMinimum =>
    breach (has "exclusiveMinimum" && !has "minimum") .exclusiveMinimumWithoutMinimum
  | exclusiveMaximum =>
    breach (has "exclusiveMaximum" && !has "maximum") .exclusiveMaximumWithoutMaximum
  | multipleOf =>
    if !has "multipleOf" then none
    else if !numeric then some .invalidTypeForMultipleOf
    else match numberOf? schema "multipleOf" with
      | some divisor => breach (divisor.atMost .zero) .nonPositiveMultipleOf
      | none => none
  | minLength => breach (has "minLength" && !is .string) .invalidTypeForMinLength
  | maxLength =>
    upperBound schema "maxLength" "minLength" (is .string) .invalidTypeForMaxLength
      .maxLengthBelowMinLength
  | minItems => breach (has "minItems" && !is .array) .invalidTypeForMinItems
  | maxItems =>
    upperBound schema "maxItems" "minItems" (is .array) .invalidTypeForMaxItems
      .maxItemsBelowMinItems
  | uniqueItems => breach (has "uniqueItems" && !is .array) .invalidTypeForUniqueItems
  | properties => breach (has "properties" && !is .object) .invalidTypeForProperties
  | additionalProperties =>
    breach (has "additionalProperties" && !is .object) .invalidTypeForAdditionalProperties
  | required => breach (has "required" && !is .object) .invalidTypeForRequired
  | minProperties => breach (has "minProperties" && !is .object) .invalidTypeForMinProperties
  | maxProperties =>
    upperBound schema "maxProperties" "minProperties" (is .object) .invalidTypeForMaxProperties
      .maxPropertiesBelowMinProperties
  | readOnlyWriteOnly =>
    breach (isSet schema "readOnly" && isSet schema "writeOnly") .readOnlyAndWriteOnly
  | patternProperties =>
    match (Entries.find? "x-patternProperties" schema).bind Json.asObj? with
    | some patterns =>
      breach (patterns.any fun (pattern, _) => !Pattern.isValid pattern) .regexFormat
    | none => none

/-- Check a schema by one rule. -/
def check (rule : Rule) (messages : Messages) (schema : List (String × Json)) :
    Option Violation :=
  match SchemaKind.ofSchema schema messages with
  | .error violation => if rule == type then some violation else none
  | .ok kind => (rule.breach? schema kind).map fun key => Violation.ofKey messages key []

/-- Everything the rules find wrong with a schema. -/
def violations (messages : Messages) (schema : List (String × Json)) : List Violation :=
  all.filterMap fun rule => rule.check messages schema

end Rule

end SchemaGraph

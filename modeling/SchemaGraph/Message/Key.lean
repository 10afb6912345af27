import SchemaGraph.Text.Basic

set_option autoImplicit false

/-! # Kinds of error and message keys

A message key names one text of the message table (`Message/Table.lean`); the kind of error it
reports is fixed by the key. Keys and kinds have names of their own, in snake case and camel
case, under which settings and reports mention them. In a text, `{0}` and `{1}` stand for
the arguments of the message.
-/

namespace SchemaGraph

/-- What sort of violation an error reports. -/
inductive ErrorKind where
  | typeMismatch
  | castFailure
  | nullNotAllowed
  | enumMismatch
  | boundsViolation
  | numericBoundsViolation
  | patternMismatch
  | formatViolation
  | uniquenessViolation
  | requiredMissing
  | unexpectedAdditionalProperty
  | readOnlyViolation
  | writeOnlyViolation
  | discriminatorMissing
  | discriminatorUnmatched
  | allOfPartialFailure
  | anyOfNoMatch
  | oneOfNoMatch
  | oneOfAmbiguous
  | notAcceptable
  | referenceUnresolvable
  | referenceBad
  | referenceRecursive
  | ambiguousSchemaType
  | invalidSchema
  | custom
  deriving DecidableEq, Repr, Inhabited

namespace ErrorKind

/-- The name of a kind in a report. -/
def name : ErrorKind → String
  | .typeMismatch => "typeMismatch"
  | .castFailure => "castFailure"
  | .nullNotAllowed => "nullNotAllowed"
  | .enumMismatch => "enumMismatch"
  | .boundsViolation => "boundsViolation"
  | .numericBoundsViolation => "numericBoundsViolation"
  | .patternMismatch => "patternMismatch"
  | .formatViolation => "formatViolation"
  | .uniquenessViolation => "uniquenessViolation"
  | .requiredMissing => "requiredMissing"
  | .unexpectedAdditionalProperty => "unexpectedAdditionalProperty"
  | .readOnlyViolation => "readOnlyViolation"
  | .writeOnlyViolation => "writeOnlyViolation"
  | .discriminatorMissing => "discriminatorMissing"
  | .discriminatorUnmatched => "discriminatorUnmatched"
  | .allOfPartialFailure => "allOfPartialFailure"
  | .anyOfNoMatch => "anyOfNoMatch"
  | .oneOfNoMatch => "oneOfNoMatch"
  | .oneOfAmbiguous => "oneOfAmbiguous"
  | .notAcceptable => "notAcceptable"
  | .referenceUnresolvable => "referenceUnresolvable"
  | .referenceBad => "referenceBad"
  | .referenceRecursive => "referenceRecursive"
  | .ambiguousSchemaType => "ambiguousSchemaType"
  | .invalidSchema => "invalidSchema"
  | .custom => "custom"

end ErrorKind

/-- One overridable message. -/
inductive MessageKey where
  | unexpectedType
  | nullable
  | enum
  | stringType
  | stringCast
  | minLength
  | maxLength
  | pattern
  | numberType
  | numberCast
  | integerType
  | integerCast
  | minimum
  | exclusiveMinimum
  | maximum
  | exclusiveMaximum
  | multipleOf
  | booleanType
  | booleanCast
  | arrayType
  | minItems
  | maxItems
  | uniqueItems
  | uniqueItemProperties
  | mappingType
  | minValues
  | maxValues
  | required
  | additionalProperties
  | readOnly
  | writeOnly
  | minProperties
  | maxProperties
  | discriminatorNotPresent
  | discriminatorNotMatch
  | notAll
  | notAny
  | noOne
  | ambiguous
  | notAcceptable
  | badReference
  | recursiveReference
  | unresolvableReference
  | dateFormat
  | dateTimeFormat
  | regexFormat
  | uriFormat
  | emailFormat
  | int32Format
  | int64Format
  | uuidFormat
  | byteFormat
  | ambiguousType
  | unknownType
  | unknownFormat
  | invalidKeyword
  | formatOnNonPrimitive
  | itemsRequired
  | improperDiscriminator
  | invalidTypeForMinimum
  | invalidTypeForMaximum
  | maximumBelowMinimum
  | exclusiveMinimumWithoutMinimum
  | exclusiveMaximumWithoutMaximum
  | invalidTypeForMultipleOf
  | nonPositiveMultipleOf
  | invalidTypeForMinLength
  | invalidTypeForMaxLength
  | maxLengthBelowMinLength
  | invalidTypeForMinItems
  | invalidTypeForMaxItems
  | maxItemsBelowMinItems
  | invalidTypeForUniqueItems
  | invalidTypeForProperties
  | invalidTypeForAdditionalProperties
  | invalidTypeForRequired
  | invalidTypeForMinProperties
  | invalidTypeForMaxProperties
  | maxPropertiesBelowMinProperties
  | readOnlyAndWriteOnly
  deriving DecidableEq, Repr, Inhabited

namespace MessageKey

/-- Every key. -/
def all : List MessageKey :=
  [.unexpectedType, .nullable, .enum, .stringType, .stringCast, .minLength, .maxLength,
   .pattern, .numberType, .numberCast, .integerType, .integerCast, .minimum,
   .exclusiveMinimum, .maximum, .exclusiveMaximum, .multipleOf, .booleanType, .booleanCast,
   .arrayType, .minItems, .maxItems, .uniqueItems, .uniqueItemProperties, .mappingType,
   .minValues, .maxValues, .required, .additionalProperties, .readOnly, .writeOnly,
   .minProperties, .maxProperties, .discriminatorNotPresent, .discriminatorNotMatch, .notAll,
   .notAny, .noOne, .ambiguous, .notAcceptable, .badReference, .recursiveReference,
   .unresolvableReference, .dateFormat, .dateTimeFormat, .regexFormat, .uriFormat,
   .emailFormat, .int32Format, .int64Format, .uuidFormat, .byteFormat, .ambiguousType,
   .unknownType, .unknownFormat, .invalidKeyword, .formatOnNonPrimitive, .itemsRequired,
   .improperDiscriminator, .invalidTypeForMinimum, .invalidTypeForMaximum,
   .maximumBelowMinimum, .exclusiveMinimumWithoutMinimum, .exclusiveMaximumWithoutMaximum,
   .invalidTypeForMultipleOf, .nonPositiveMultipleOf, .invalidTypeForMinLength,
   .invalidTypeForMaxLength, .maxLengthBelowMinLength, .invalidTypeForMinItems,
   .invalidTypeForMaxItems, .maxItemsBelowMinItems, .invalidTypeForUniqueItems,
   .invalidTypeForProperties, .invalidTypeForAdditionalProperties, .invalidTypeForRequired,
   .invalidTypeForMinProperties, .invalidTypeForMaxProperties,
   .maxPropertiesBelowMinProperties, .readOnlyAndWriteOnly]

/-- The name of a key in settings. -/
def name : MessageKey → String
  | .unexpectedType => "unexpected_type"
  | .nullable => "nullable"
  | .enum => "enum"
  | .stringType => "string_type"
  | .stringCast => "string_cast"
  | .minLength => "min_length"
  | .maxLength => "max_length"
  | .pattern => "pattern"
  | .numberType => "number_type"
  | .numberCast => "number_cast"
  | .integerType => "integer_type"
  | .integerCast => "integer_cast"
  | .minimum => "minimum"
  | .exclusiveMinimum => "exclusive_minimum"
  | .maximum => "maximum"
  | .exclusiveMaximum => "exclusive_maximum"
  | .multipleOf => "multiple_of"
  | .booleanType => "boolean_type"
  | .booleanCast => "boolean_cast"
  | .arrayType => "array_type"
  | .minItems => "min_items"
  | .maxItems => "max_items"
  | .uniqueItems => "unique_items"
  | .uniqueItemProperties => "unique_item_properties"
  | .mappingType => "mapping_type"
  | .minValues => "min_values"
  | .maxValues => "max_values"
  | .required => "required"
  | .additionalProperties => "additional_properties"
  | .readOnly => "read_only"
  | .writeOnly => "write_only"
  | .minProperties => "min_properties"
  | .maxProperties => "max_properties"
  | .discriminatorNotPresent => "discriminator_not_present"
  | .discriminatorNotMatch => "discriminator_not_match"
  | .notAll => "not_all"
  | .notAny => "not_any"
  | .noOne => "no_one"
  | .ambiguous => "ambiguous"
  | .notAcceptable => "not_acceptable"
  | .badReference => "bad_reference"
  | .recursiveReference => "recursive_reference"
  | .unresolvableReference => "unresolvable_reference"
  | .dateFormat => "date_format"
  | .dateTimeFormat => "date_time_format"
  | .regexFormat => "regex_format"
  | .uriFormat => "uri_format"
  | .emailFormat => "email_format"
  | .int32Format => "int32_format"
  | .int64Format => "int64_format"
  | .uuidFormat => "uuid_format"
  | .byteFormat => "byte_format"
  | .ambiguousType => "ambiguous_type"
  | .unknownType => "unknown_type"
  | .unknownFormat => "unknown_format"
  | .invalidKeyword => "invalid_keyword"
  | .formatOnNonPrimitive => "format_on_non_primitive"
  | .itemsRequired => "items_required"
  | .improperDiscriminator => "improper_discriminator"
  | .invalidTypeForMinimum => "invalid_type_for_minimum"
  | .invalidTypeForMaximum => "invalid_type_for_maximum"
  | .maximumBelowMinimum => "maximum_below_minimum"
  | .exclusiveMinimumWithoutMinimum => "exclusive_minimum_without_minimum"
  | .exclusiveMaximumWithoutMaximum => "exclusive_maximum_without_maximum"
  | .invalidTypeForMultipleOf => "invalid_type_for_multiple_of"
  | .nonPositiveMultipleOf => "non_positive_multiple_of"
  | .invalidTypeForMinLength => "invalid_type_for_min_length"
  | .invalidTypeForMaxLength => "invalid_type_for_max_length"
  | .maxLengthBelowMinLength => "max_length_below_min_length"
  | .invalidTypeForMinItems => "invalid_type_for_min_items"
  | .invalidTypeForMaxItems => "invalid_type_for_max_items"
  | .maxItemsBelowMinItems => "max_items_below_min_items"
  | .invalidTypeForUniqueItems => "invalid_type_for_unique_items"
  | .invalidTypeForProperties => "invalid_type_for_properties"
  | .invalidTypeForAdditionalProperties => "invalid_type_for_additional_properties"
  | .invalidTypeForRequired => "invalid_type_for_required"
  | .invalidTypeForMinProperties => "invalid_type_for_min_properties"
  | .invalidTypeForMaxProperties => "invalid_type_for_max_properties"
  | .maxPropertiesBelowMinProperties => "max_properties_below_min_properties"
  | .readOnlyAndWriteOnly => "read_only_and_write_only"

/-- The key of that name. -/
def ofName? (text : String) : Option MessageKey := all.find? fun key => key.name == text

/-- The built-in text. -/
def defaultText : MessageKey → String
  | .unexpectedType => "Unexpected type"
  | .nullable => "Null values not allowed"
  | .enum => "Must be equal to one of the following values: \x7b0\x7d"
  | .stringType => "Must be a string"
  | .stringCast => "Couldn't cast to a string"
  | .minLength => "Must be no less than \x7b0\x7d characters in length"
  | .maxLength => "Must be no greater than \x7b0\x7d characters in length"
  | .pattern => "Does not match the pattern"
  | .numberType => "Must be a number"
  | .numberCast => "Couldn't cast to a number"
  | .integerType => "Must be an integer"
  | .integerCast => "Couldn't cast to an integer"
  | .minimum => "Is less than the minimum of \x7b0\x7d"
  | .exclusiveMinimum => "Is less than or equal to the minimum of \x7b0\x7d"
  | .maximum => "Is greater than the maximum of \x7b0\x7d"
  | .exclusiveMaximum => "Is greater than or equal to the maximum of \x7b0\x7d"
  | .multipleOf => "Is not a multiple of \x7b0\x7d"
  | .booleanType => "Must be a boolean"
  | .booleanCast => "Couldn't cast to a boolean"
  | .arrayType => "Must be an array"
  | .minItems => "Array must have at least \x7b0\x7d items. It had only \x7b1\x7d items"
  | .maxItems => "Array must have no more than \x7b0\x7d items. It had \x7b1\x7d items"
  | .uniqueItems => "Has non-unique items"
  | .uniqueItemProperties => "All items must be a mapping"
  | .mappingType => "Must be a mapping"
  | .minValues => "Map must have at least \x7b0\x7d values. It had only \x7b1\x7d values"
  | .maxValues => "Map must have no more than \x7b0\x7d values. It had \x7b1\x7d values"
  | .required => "Required property '\x7b0\x7d' is missing"
  | .additionalProperties =>
    "No unspecified properties are allowed. The following unspecified properties were found: \x7b0\x7d"
  | .readOnly => "The following properties are read only: \x7b0\x7d"
  | .writeOnly => "The following properties are write only: \x7b0\x7d"
  | .minProperties =>
    "Object must have at least \x7b0\x7d properties. It had only \x7b1\x7d properties"
  | .maxProperties =>
    "Object must have no more than \x7b0\x7d properties. It had \x7b1\x7d properties"
  | .discriminatorNotPresent => "A property with name '\x7b0\x7d' must be present"
  | .discriminatorNotMatch =>
    "The discriminator value must be equal to one of the following values: \x7b0\x7d"
  | .notAll => "Does not match all schemas from `allOf`. Invalid schema indexes: \x7b0\x7d"
  | .notAny => "Does not match any schemas from `anyOf`"
  | .noOne => "Is valid against no schemas from `oneOf`"
  | .ambiguous =>
    "Is valid against more than one schema from `oneOf`. Valid schema indexes: \x7b0\x7d"
  | .notAcceptable => "Not acceptable data"
  | .badReference => "$refs must reference a valid location in the document"
  | .recursiveReference => "Recursive reference was found"
  | .unresolvableReference => "Couldn't resolve reference"
  | .dateFormat => "Is not a valid RFC3339 full-date"
  | .dateTimeFormat => "Is not a valid RFC3339 date-time"
  | .regexFormat => "Is not a valid regular expression"
  | .uriFormat => "Is not a valid URI according to RFC3987"
  | .emailFormat => "Is not a valid email address according to RFC5322"
  | .int32Format => "Is not a valid Int32"
  | .int64Format => "Is not a valid Int64"
  | .uuidFormat => "Is not a valid UUID"
  | .byteFormat => "Is not base64 encoded"
  | .ambiguousType => "The schema type is ambiguous"
  | .unknownType => "Unknown schema type '\x7b0\x7d'"
  | .unknownFormat => "Unknown format '\x7b0\x7d' for type '\x7b1\x7d'"
  | .invalidKeyword => "The value of `\x7b0\x7d` is invalid"
  | .formatOnNonPrimitive => "Format is applicable only for primitive types"
  | .itemsRequired => "`items` must be specified for array type"
  | .improperDiscriminator =>
    "The `discriminator` can only be used with the keywords `anyOf` or `oneOf`"
  | .invalidTypeForMinimum => "`minimum` can only be used for number types"
  | .invalidTypeForMaximum => "`maximum` can only be used for number types"
  | .maximumBelowMinimum =>
    "The value of `maximum` must be greater than or equal to the value of `minimum`"
  | .exclusiveMinimumWithoutMinimum => "When `exclusiveMinimum` is set, `minimum` is required"
  | .exclusiveMaximumWithoutMaximum => "When `exclusiveMaximum` is set, `maximum` is required"
  | .invalidTypeForMultipleOf => "`multipleOf` can only be used for number types"
  | .nonPositiveMultipleOf => "The value of `multipleOf` must be greater than 0"
  | .invalidTypeForMinLength => "`minLength` can only be used for string types"
  | .invalidTypeForMaxLength => "`maxLength` can only be used for string types"
  | .maxLengthBelowMinLength =>
    "The value of `maxLength` must be greater than or equal to the `minLength` value"
  | .invalidTypeForMinItems => "`minItems` can only be used for array types"
  | .invalidTypeForMaxItems => "`maxItems` can only be used for array types"
  | .maxItemsBelowMinItems =>
    "The value of `maxItems` must be greater than or equal to the value of `minItems`"
  | .invalidTypeForUniqueItems => "`uniqueItems` can only be used for array types"
  | .invalidTypeForProperties => "`properties` can only be used for object types"
  | .invalidTypeForAdditionalProperties =>
    "`additionalProperties` can only be used for object types"
  | .invalidTypeForRequired => "`required` can only be used for object types"
  | .invalidTypeForMinProperties => "`minProperties` can only be used for object types"
  | .invalidTypeForMaxProperties => "`maxProperties` can only be used for object types"
  | .maxPropertiesBelowMinProperties =>
    "The value of `maxProperties` must be greater than or equal to `minProperties`"
  | .readOnlyAndWriteOnly =>
    "`readOnly` and `writeOnly` are mutually exclusive and cannot be set simultaneously"

/-- The kind of error a message reports. -/
def kind : MessageKey → ErrorKind
  | .unexpectedType => .typeMismatch
  | .nullable => .nullNotAllowed
  | .enum => .enumMismatch
  | .stringType => .typeMismatch
  | .stringCast => .castFailure
  | .minLength => .boundsViolation
  | .maxLength => .boundsViolation
  | .pattern => .patternMismatch
  | .numberType => .typeMismatch
  | .numberCast => .castFailure
  | .integerType => .typeMismatch
  | .integerCast => .castFailure
  | .minimum => .numericBoundsViolation
  | .exclusiveMinimum => .numericBoundsViolation
  | .maximum => .numericBoundsViolation
  | .exclusiveMaximum => .numericBoundsViolation
  | .multipleOf => .numericBoundsViolation
  | .booleanType => .typeMismatch
  | .booleanCast => .castFailure
  | .arrayType => .typeMismatch
  | .minItems => .boundsViolation
  | .maxItems => .boundsViolation
  | .uniqueItems => .uniquenessViolation
  | .uniqueItemProperties => .uniquenessViolation
  | .mappingType => .typeMismatch
  | .minValues => .boundsViolation
  | .maxValues => .boundsViolation
  | .required => .requiredMissing
  | .additionalProperties => .unexpectedAdditionalProperty
  | .readOnly => .readOnlyViolation
  | .writeOnly => .writeOnlyViolation
  | .minProperties => .boundsViolation
  | .maxProperties => .boundsViolation
  | .discriminatorNotPresent => .discriminatorMissing
  | .discriminatorNotMatch => .discriminatorUnmatched
  | .notAll => .allOfPartialFailure
  | .notAny => .anyOfNoMatch
  | .noOne => .oneOfNoMatch
  | .ambiguous => .oneOfAmbiguous
  | .notAcceptable => .notAcceptable
  | .badReference => .referenceBad
  | .recursiveReference => .referenceRecursive
  | .unresolvableReference => .referenceUnresolvable
  | .dateFormat => .formatViolation
  | .dateTimeFormat => .formatViolation
  | .regexFormat => .formatViolation
  | .uriFormat => .formatViolation
  | .emailFormat => .formatViolation
  | .int32Format => .formatViolation
  | .int64Format => .formatViolation
  | .uuidFormat => .formatViolation
  | .byteFormat => .formatViolation
  | .ambiguousType => .ambiguousSchemaType
  | .unknownType => .invalidSchema
  | .unknownFormat => .invalidSchema
  | .invalidKeyword => .invalidSchema
  | .formatOnNonPrimitive => .invalidSchema
  | .itemsRequired => .invalidSchema
  | .improperDiscriminator => .invalidSchema
  | .invalidTypeForMinimum => .invalidSchema
  | .invalidTypeForMaximum => .invalidSchema
  | .maximumBelowMinimum => .invalidSchema
  | .exclusiveMinimumWithoutMinimum => .invalidSchema
  | .exclusiveMaximumWithoutMaximum => .invalidSchema
  | .invalidTypeForMultipleOf => .invalidSchema
  | .nonPositiveMultipleOf => .invalidSchema
  | .invalidTypeForMinLength => .invalidSchema
  | .invalidTypeForMaxLength => .invalidSchema
  | .maxLengthBelowMinLength => .invalidSchema
  | .invalidTypeForMinItems => .invalidSchema
  | .invalidTypeForMaxItems => .invalidSchema
  | .maxItemsBelowMinItems => .invalidSchema
  | .invalidTypeForUniqueItems => .invalidSchema
  | .invalidTypeForProperties => .invalidSchema
  | .invalidTypeForAdditionalProperties => .invalidSchema
  | .invalidTypeForRequired => .invalidSchema
  | .invalidTypeForMinProperties => .invalidSchema
  | .invalidTypeForMaxProperties => .invalidSchema
  | .maxPropertiesBelowMinProperties => .invalidSchema
  | .readOnlyAndWriteOnly => .invalidSchema

end MessageKey

end SchemaGraph

import SchemaGraph.Conversion.Basic
import SchemaGraph.Mode
import SchemaGraph.Value.Json
import SchemaGraph.Value.Merge

set_option autoImplicit false

/-! # Conversion of parts

How lists, maps, objects and combinations convert, given how nodes convert. The parts of a
value convert one after the other, and the errors of all of them are reported together. The
subtypes of a combination are tried on the same payload, each at a location of its own.
-/

namespace SchemaGraph

namespace Conversion

variable {ι : Type}

/-! ## Lists and maps -/

/-- Convert the items of a list from an index on: the results, and the errors of the items that
failed. -/
def items (convert : Json → Path → Conversion Value) (path : Path) :
    Nat → List Json → Conversion (List Value × List LocatedError)
  | _, [] => pure ([], [])
  | index, item :: rest => do
    let here ← attempt (convert item (path.item index))
    let (values, errors) ← items convert path (index + 1) rest
    match here with
    | .ok value => pure (value :: values, errors)
    | .error found => pure (values, found.toList ++ errors)

/-- Convert the values of a map: the results, and the errors of the values that failed. -/
def entries (convert : Json → Path → Conversion Value) (path : Path) :
    List (String × Json) → Conversion (List (String × Value) × List LocatedError)
  | [] => pure ([], [])
  | (key, item) :: rest => do
    let here ← attempt (convert item (path.child key))
    let (values, errors) ← entries convert path rest
    match here with
    | .ok value => pure ((key, value) :: values, errors)
    | .error found => pure (values, found.toList ++ errors)

/-! ## Objects -/

/-- Where a key goes that is not declared. -/
inductive Destination (ι : Type := NodeId) where
  | pattern (node : ι)
  | additional (node : ι)
  | verbatim
  | refused
  deriving DecidableEq, Repr

/-- The first pattern that matches from the start of the key wins, then the policy counts. -/
def destination (shape : ObjectShape ι) (key : String) : Destination ι :=
  match shape.patterns.find? fun (pattern, _) => pattern.matchesFromStart key with
  | some (_, node) => .pattern node
  | none =>
    match shape.additional with
    | .allow => .verbatim
    | .deny => .refused
    | .schema node => .additional node

/-- What becomes of the keys that are not declared. -/
structure Undeclared where
  pattern : List (String × Value)
  additional : List (String × Value)
  refused : List String
  errors : List LocatedError

/-- Convert the undeclared entries of a payload. -/
def undeclared (convert : Converting ι) (shape : ObjectShape ι) (path : Path) :
    List (String × Json) → Conversion Undeclared
  | [] => pure ⟨[], [], [], []⟩
  | (key, item) :: rest =>
    if Entries.contains key shape.properties then undeclared convert shape path rest
    else match destination shape key with
      | .verbatim => do
        let more ← undeclared convert shape path rest
        pure { more with additional := (key, Value.ofJson item) :: more.additional }
      | .refused => do
        let more ← undeclared convert shape path rest
        pure { more with refused := key :: more.refused }
      | .pattern node => do
        let here ← attempt (convert node (some item) (path.child key))
        let more ← undeclared convert shape path rest
        match here with
        | .ok value => pure { more with pattern := (key, value) :: more.pattern }
        | .error found => pure { more with errors := found.toList ++ more.errors }
      | .additional node => do
        let here ← attempt (convert node (some item) (path.child key))
        let more ← undeclared convert shape path rest
        match here with
        | .ok value => pure { more with additional := (key, value) :: more.additional }
        | .error found => pure { more with errors := found.toList ++ more.errors }

/-- Run a part that may have no value. -/
def attemptMissing (part : Conversion Value) : Conversion (Except SchemaErrors (Option Value)) := do
  match ← outcome part with
  | .ok value => pure (.ok (some value))
  | .error .undefined => pure (.ok none)
  | .error (.errors errors) => pure (.error errors)
  | .error failure => fail failure

/-- Convert the declared properties that are not to be skipped. One that is missing and has no
default is left out. -/
def declared (convert : Converting ι) (skip : String → Bool) (payload : List (String × Json))
    (path : Path) :
    List (String × ι) → Conversion (List (String × Value) × List LocatedError)
  | [] => pure ([], [])
  | (name, node) :: rest =>
    if skip name then declared convert skip payload path rest
    else do
      let here ← attemptMissing (convert node (Entries.find? name payload) (path.child name))
      let (values, errors) ← declared convert skip payload path rest
      match here with
      | .ok (some value) => pure ((name, value) :: values, errors)
      | .ok none => pure (values, errors)
      | .error found => pure (values, found.toList ++ errors)

/-- The properties an entity must not have, and how their presence is reported. -/
def excluded (shape : ObjectShape ι) : Entity → Option (List String × MessageKey)
  | .request => some (shape.readOnly, .readOnly)
  | .response => some (shape.writeOnly, .writeOnly)
  | .specification => none

/-- Convert an object. Reported are, in this order: excluded properties that are there, required
ones that are missing, failures of undeclared keys, refused keys, failures of declared
properties. -/
def object (convert : Converting ι) (mode : Mode) (common : Common) (shape : ObjectShape ι)
    (payload : List (String × Json)) (path : Path) : Conversion Value := do
  let isExcluded (name : String) : Bool :=
    (excluded shape mode.entity).any fun (names, _) => names.contains name
  let forbidden := match excluded shape mode.entity with
    | none => []
    | some (names, key) =>
      let present := names.filter fun name => Entries.contains name payload
      if present.isEmpty then [] else [common.error path key [commaDelimited present]]
  let missing := shape.required.filter fun name =>
    !isExcluded name && !Entries.contains name payload
  let absent := missing.map fun name => common.error path .required [name]
  let others ← undeclared convert shape path payload
  let refused := if others.refused.isEmpty then []
    else [common.error path .additionalProperties [commaDelimited others.refused]]
  let (values, errors) ← declared convert (fun name => missing.contains name || isExcluded name)
    payload path shape.properties
  failOn (forbidden ++ absent ++ others.errors ++ refused ++ errors)
  pure (.object ⟨values, others.pattern, others.additional⟩)

/-! ## Combinations -/

/-- Convert a payload by every subtype. -/
def each (convert : Converting ι) (payload : Json) (path : Path) :
    Nat → List ι → Conversion (List (Nat × Except SchemaErrors Value))
  | _, [] => pure []
  | index, subtype :: rest => do
    let here ← attempt (convert subtype (some payload) (path.item index))
    let more ← each convert payload path (index + 1) rest
    pure ((index, here) :: more)

/-- The subtypes that accepted the payload, with their results. -/
def accepted (outcomes : List (Nat × Except SchemaErrors Value)) : List (Nat × Value) :=
  outcomes.filterMap fun (index, outcome) =>
    match outcome with
    | .ok value => some (index, value)
    | .error _ => none

/-- The subtypes that refused the payload, with their errors. -/
def refusals (outcomes : List (Nat × Except SchemaErrors Value)) : List (Nat × SchemaErrors) :=
  outcomes.filterMap fun (index, outcome) =>
    match outcome with
    | .ok _ => none
    | .error errors => some (index, errors)

/-- All errors of the subtypes that refused the payload. -/
def errorsOf (refused : List (Nat × SchemaErrors)) : List LocatedError :=
  refused.flatMap fun (_, errors) => errors.toList

/-- Valid against every subtype; the results are merged. -/
def allOf (convert : Converting ι) (common : Common) (subtypes : List ι) (payload : Json)
    (path : Path) : Conversion Value := do
  let outcomes ← each convert payload path 0 subtypes
  let refused := refusals outcomes
  if refused.isEmpty then pure (Value.merge ((accepted outcomes).map Prod.snd))
  else
    let summary := common.error path .notAll [commaDelimitedIndexes (refused.map Prod.fst)]
    fail (.errors ⟨summary, errorsOf refused⟩)

/-- Valid against at least one subtype; the first counts. The subtypes after it are not tried. -/
def anyOf (convert : Converting ι) (common : Common) (payload : Json) (path : Path) :
    Nat → List LocatedError → List ι → Conversion Value
  | _, errors, [] => fail (.errors ⟨common.error path .notAny [], errors⟩)
  | index, errors, subtype :: rest => do
    match ← attempt (convert subtype (some payload) (path.item index)) with
    | .ok value => pure value
    | .error found => anyOf convert common payload path (index + 1) (errors ++ found.toList) rest

/-- Valid against exactly one subtype. -/
def oneOf (convert : Converting ι) (common : Common) (subtypes : List ι) (payload : Json)
    (path : Path) : Conversion Value := do
  let outcomes ← each convert payload path 0 subtypes
  match accepted outcomes with
  | [] => fail (.errors ⟨common.error path .noOne [], errorsOf (refusals outcomes)⟩)
  | [(_, value)] => pure value
  | several =>
    failWith common.messages path .ambiguous [commaDelimitedIndexes (several.map Prod.fst)]

/-- Valid only if no subtype accepts the payload, which is then taken over as it is. -/
def noneOf (convert : Converting ι) (common : Common) (payload : Json) (path : Path) :
    Nat → List ι → Conversion Value
  | _, [] => pure (Value.ofJson payload)
  | index, subtype :: rest => do
    match ← attempt (convert subtype (some payload) (path.item index)) with
    | .ok _ => failWith common.messages path .notAcceptable []
    | .error _ => noneOf convert common payload path (index + 1) rest

/-- Convert by the node under the text of the discriminating property. -/
def discriminated (convert : Converting ι) (common : Common) (property : String)
    (mapping : List (String × ι)) (payload : Json) (path : Path) : Conversion Value :=
  match payload.get? property with
  | none => failWith common.messages path .discriminatorNotPresent [property]
  | some discriminator =>
    match discriminator.asStr?.bind fun name => Entries.find? name mapping with
    | some node => convert node (some payload) path
    | none =>
      failWith common.messages path .discriminatorNotMatch [commaDelimited (mapping.map Prod.fst)]

end Conversion

end SchemaGraph

import SchemaGraph.Conversion.Registry
import SchemaGraph.Node.Basic
import SchemaGraph.Resolver.Basic

set_option autoImplicit false

/-! # Conversions

A conversion works on the progress of locations, the references being followed and the
resolver, and ends with a value or a failure; what it did to its state stays in either case.
Besides errors there are three signals: a missing value without a default, a chain of references
that comes back to itself, and two outcomes that tell of no payload: the depth allowed was used
up, and a node does not exist.
-/

namespace SchemaGraph

/-- Why a conversion gives no value. -/
inductive Failure where
  | errors (errors : SchemaErrors)
  /-- There is no value and none takes its place. -/
  | undefined
  /-- The chain of references came back to itself. -/
  | recursive
  /-- The conversion nests deeper than was allowed. -/
  | outOfFuel
  /-- There is no such node. -/
  | noNode
  deriving DecidableEq, Repr

/-- What a conversion works on. -/
structure ConversionState where
  registry : Registry
  /-- The targets of the chain of references being followed. -/
  visited : List Path
  resolver : Option Resolver

namespace ConversionState

def start (resolver : Option Resolver) : ConversionState := ⟨.empty, [], resolver⟩

end ConversionState

/-- A conversion to a value of type `α`. -/
abbrev Conversion (α : Type) := ExceptT Failure (StateM ConversionState) α

namespace Conversion

variable {α : Type}

def fail (failure : Failure) : Conversion α := throw failure

/-- Fail with the errors collected, if there are any. -/
def failOn (errors : List LocatedError) : Conversion Unit :=
  match SchemaErrors.ofList? errors with
  | some errors => fail (.errors errors)
  | none => pure ()

/-- Fail with the one error a message reports. -/
def failWith (messages : Messages) (path : Path) (key : MessageKey) (args : List String) :
    Conversion α :=
  fail (.errors (.single (LocatedError.ofKey messages path key args)))

/-- Run a part and keep its failure as a value. -/
def outcome (part : Conversion α) : Conversion (Except Failure α) :=
  fun state =>
    let (result, state) := part state
    (.ok result, state)

/-- Run a part and keep its errors as a value. The other failures go on. -/
def attempt (part : Conversion α) : Conversion (Except SchemaErrors α) := do
  match ← outcome part with
  | .ok value => pure (.ok value)
  | .error (.errors errors) => pure (.error errors)
  | .error failure => fail failure

/-- Change the progress of locations. -/
def update (change : Registry → Registry) : Conversion Unit :=
  modify fun state => { state with registry := change state.registry }

/-- How far a location is. -/
def progress (path : Path) : Conversion (Option Progress) := do
  return (← get).registry.find? path

end Conversion

/-- How a node converts: a payload, if there is one, at a location. -/
abbrev Converting (ι : Type := NodeId) := ι → Option Json → Path → Conversion Value

end SchemaGraph

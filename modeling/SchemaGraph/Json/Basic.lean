import SchemaGraph.Double.Rounding
import SchemaGraph.Text.Numeral

set_option autoImplicit false

/-! # JSON

A JSON number is an integer of 64 bits, signed or unsigned, or a double; the two never mix:
`1` is an integer and `1.0` is not. Objects are lists of entries in increasing order of their
keys (`Json.object` makes one from entries in any order), so that going through an object is
going through a list.
-/

namespace SchemaGraph

/-- A JSON number. Integers are those of a 64-bit word, signed or unsigned. -/
inductive Number where
  | integer (value : Int) (fits : FitsWord value)
  | double (value : Double)
  deriving DecidableEq, Repr

namespace Number

/-- An integer if a 64-bit word holds it, else the nearest double. -/
def ofInt (n : Int) : Number :=
  if h : FitsWord n then integer n h else double (Double.ofInt n)

/-- The nearest double. -/
def toDouble : Number → Double
  | integer n _ => Double.ofInt n
  | double d => d

/-- The integer of a signed word. -/
def signed? : Number → Option Int
  | integer n _ => if FitsSigned n then some n else none
  | double _ => none

/-- The integer of an unsigned word. -/
def unsigned? : Number → Option Nat
  | integer n _ => if 0 ≤ n then some n.toNat else none
  | double _ => none

def isInteger : Number → Bool
  | integer .. => true
  | double _ => false

instance : Inhabited Number := ⟨.double .zero⟩

end Number

/-- A JSON value. -/
inductive Json where
  | null
  | bool (value : Bool)
  | num (value : Number)
  | str (value : String)
  | arr (items : List Json)
  | obj (entries : List (String × Json))
  deriving Repr, Inhabited

/-! ## Lists of entries

Association lists with at most one entry per key. -/

namespace Entries

variable {α : Type}

/-- The value under a key. -/
def find? (key : String) : List (String × α) → Option α
  | [] => none
  | (k, v) :: rest => if k == key then some v else find? key rest

def contains (key : String) (entries : List (String × α)) : Bool :=
  (find? key entries).isSome

/-- Insert in increasing order of the keys, replacing the value of a key that is there. -/
def insertSorted (key : String) (value : α) : List (String × α) → List (String × α)
  | [] => [(key, value)]
  | (k, v) :: rest =>
    if k == key then (key, value) :: rest
    else if key < k then (key, value) :: (k, v) :: rest
    else (k, v) :: insertSorted key value rest

/-- Insert at the end; a key that is there keeps its place and takes the new value. -/
def insertLast (key : String) (value : α) : List (String × α) → List (String × α)
  | [] => [(key, value)]
  | (k, v) :: rest =>
    if k == key then (k, value) :: rest else (k, v) :: insertLast key value rest

/-- Remove the entry of a key, keeping the order of the others. -/
def remove (key : String) (entries : List (String × α)) : List (String × α) :=
  entries.filter fun (k, _) => k != key

/-- The entries in increasing order of their keys; the last value of a repeated key counts. -/
def sorted (entries : List (String × α)) : List (String × α) :=
  entries.foldl (fun done (k, v) => insertSorted k v done) []

end Entries

namespace Json

/-- The object with these entries. -/
def object (entries : List (String × Json)) : Json := obj (Entries.sorted entries)

def ofInt (n : Int) : Json := num (Number.ofInt n)

def isNull : Json → Bool
  | null => true
  | _ => false

def asBool? : Json → Option Bool
  | bool b => some b
  | _ => none

def asStr? : Json → Option String
  | str s => some s
  | _ => none

def asArr? : Json → Option (List Json)
  | arr items => some items
  | _ => none

def asObj? : Json → Option (List (String × Json))
  | obj entries => some entries
  | _ => none

def asNum? : Json → Option Number
  | num n => some n
  | _ => none

/-- The number as a double. -/
def asDouble? (j : Json) : Option Double := j.asNum?.map Number.toDouble

/-- The number as a natural number of 64 bits. -/
def asCount? (j : Json) : Option Nat := j.asNum?.bind Number.unsigned?

/-- The value under a key, if this is an object that has it. -/
def get? (j : Json) (key : String) : Option Json := j.asObj?.bind (Entries.find? key)

/-! ## Walking into a value

A segment of a pointer is a key of an object or the index of an item, written in decimal digits
with an optional plus sign.
-/

/-- The part of a value that one segment names. -/
def step? (value : Json) (segment : String) : Option Json :=
  match value with
  | arr items => (Numeral.readIndex? segment.toList).bind fun index => items[index]?
  | obj entries => Entries.find? segment entries
  | _ => none

/-- The part of a value that segments name one after the other. -/
def walk? (value : Json) : List String → Option Json
  | [] => some value
  | segment :: rest => (value.step? segment).bind fun part => part.walk? rest

end Json

end SchemaGraph

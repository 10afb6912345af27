import SchemaGraph.Pattern.CharSet

set_option autoImplicit false

/-! # Patterns and what they match

A regular expression as a tree, and its meaning as a function on places in a text:
`Pattern.ends` gives the places at which a match ends that starts at one of the given places.
Whether a match prefers few or many repetitions does not change that set, so the tree does not
record it.
-/

namespace SchemaGraph

/-- A condition on a place in a text. -/
inductive Look where
  | start
  | finish
  | lineStart
  | lineFinish
  /-- Lines may end in a carriage return too. -/
  | anyLineStart
  | anyLineFinish
  /-- What stands before and after the place: each is a word character or not, and a boundary
  needs the one, the other or both. -/
  | boundary (word : CharSet)
  | noBoundary (word : CharSet)
  | wordStart (word : CharSet)
  | wordFinish (word : CharSet)
  | afterNoWord (word : CharSet)
  | beforeNoWord (word : CharSet)
  deriving DecidableEq, Repr

/-- A regular expression. -/
inductive Pattern where
  | empty
  | one (set : CharSet)
  | look (condition : Look)
  | seq (a b : Pattern)
  | alt (a b : Pattern)
  | times (least : Nat) (most : Option Nat) (a : Pattern)
  deriving DecidableEq, Repr, Inhabited

namespace Look

def charAt? (text : Array Char) (place : Nat) : Option Char := text[place]?

def charBefore? (text : Array Char) (place : Nat) : Option Char :=
  if place == 0 then none else text[place - 1]?

def inWord (word : CharSet) (c : Option Char) : Bool :=
  match c with
  | some c => word.contains c.toNat
  | none => false

/-- The condition holds at a place. -/
def holds (text : Array Char) (place : Nat) : Look → Bool
  | start => place == 0
  | finish => place == text.size
  | lineStart => place == 0 || charBefore? text place == some '\n'
  | lineFinish => place == text.size || charAt? text place == some '\n'
  | anyLineStart =>
    place == 0 || charBefore? text place == some '\n' ||
      (charBefore? text place == some '\r' && charAt? text place != some '\n')
  | anyLineFinish =>
    place == text.size || charAt? text place == some '\r' ||
      (charAt? text place == some '\n' && charBefore? text place != some '\r')
  | boundary word =>
    inWord word (charBefore? text place) != inWord word (charAt? text place)
  | noBoundary word =>
    inWord word (charBefore? text place) == inWord word (charAt? text place)
  | wordStart word => !inWord word (charBefore? text place) && inWord word (charAt? text place)
  | wordFinish word => inWord word (charBefore? text place) && !inWord word (charAt? text place)
  | afterNoWord word => !inWord word (charBefore? text place)
  | beforeNoWord word => !inWord word (charAt? text place)

end Look

namespace Pattern

/-- Add places that are not there yet. -/
def addPlaces (known new : List Nat) : List Nat :=
  new.foldl (fun all place => if all.contains place then all else all ++ [place]) known

/-- Apply a step a fixed number of times. Once it changes nothing it never will. -/
def iterate (step : List Nat → List Nat) : Nat → List Nat → List Nat
  | 0, places => places
  | n + 1, places =>
    let next := step places
    if next == places then places else iterate step n next

/-- All places reached from `frontier` by at most `n` steps, added to those already known. -/
def reach (step : List Nat → List Nat) : Nat → List Nat → List Nat → List Nat
  | 0, known, _ => known
  | n + 1, known, frontier =>
    let new := (step frontier).filter fun place => !known.contains place
    if new.isEmpty then known else reach step n (addPlaces known new) new

/-- The places at which matches end that start at the given places. -/
def ends (text : Array Char) : Pattern → List Nat → List Nat
  | empty, places => places
  | one set, places =>
    places.filterMap fun place =>
      match text[place]? with
      | some c => if set.contains c.toNat then some (place + 1) else none
      | none => none
  | look condition, places => places.filter fun place => condition.holds text place
  | seq a b, places => b.ends text (a.ends text places)
  | alt a b, places => addPlaces (a.ends text places) (b.ends text places)
  | times least most a, places =>
    let settled := iterate (a.ends text) least places
    match most with
    | some most => reach (a.ends text) (min (most - least) (text.size + 1)) settled settled
    | none => reach (a.ends text) (text.size + 1) settled settled

/-- A match starts at the very beginning of the text. -/
def matchesFromStart (pattern : Pattern) (text : String) : Bool :=
  !(pattern.ends text.toList.toArray [0]).isEmpty

/-- How much room the pattern takes with its repetitions written out, roughly in bytes. -/
def weight : Pattern → Nat
  | empty => 0
  | one set => 32 * set.weight
  | look _ => 32
  | seq a b => a.weight + b.weight
  | alt a b => a.weight + b.weight + 32
  | times least most a => max 1 (max least (most.getD 1)) * a.weight + 32

end Pattern

end SchemaGraph

set_option autoImplicit false

/-! # Ranges of characters

Sets of characters are written as code points and ranges of them in hexadecimal, separated by
blanks; `100-12e/2` is every second code point of a range.
-/

namespace SchemaGraph

/-- The code points from `first` to `last`, `step` apart. -/
structure CodeRange where
  first : Nat
  last : Nat
  step : Nat
  deriving DecidableEq, Repr

namespace CodeRange

def contains (range : CodeRange) (code : Nat) : Bool :=
  range.first ≤ code && code ≤ range.last && (code - range.first) % range.step == 0

end CodeRange

/-- A set of characters as a list of ranges. -/
abbrev CodeRanges := List CodeRange

namespace CodeRanges

def contains (ranges : CodeRanges) (code : Nat) : Bool :=
  ranges.any fun range => range.contains code

/-- The state of reading a written set: the ranges done, the numbers of the range being read,
and the number being read. -/
structure Reading where
  done : List CodeRange
  numbers : List Nat
  number : Nat

def digitValue (c : Char) : Nat :=
  if '0' ≤ c && c ≤ '9' then c.toNat - '0'.toNat else c.toNat - 'a'.toNat + 10

/-- Finish the number being read. -/
def Reading.close (r : Reading) : Reading := { r with numbers := r.number :: r.numbers, number := 0 }

/-- Finish the range being read. -/
def Reading.finish (r : Reading) : Reading :=
  let done := match r.close.numbers with
    | [code] => ⟨code, code, 1⟩ :: r.done
    | [last, first] => ⟨first, last, 1⟩ :: r.done
    | [step, last, first] => ⟨first, last, step⟩ :: r.done
    | _ => r.done
  ⟨done, [], 0⟩

def Reading.step (r : Reading) (c : Char) : Reading :=
  if c == ' ' then r.finish
  else if c == '-' || c == '/' then r.close
  else { r with number := 16 * r.number + digitValue c }

/-- The set a text writes. -/
def read (text : String) : CodeRanges :=
  if text.isEmpty then []
  else (text.toList.foldl Reading.step ⟨[], [], 0⟩).finish.done.reverse

end CodeRanges

end SchemaGraph

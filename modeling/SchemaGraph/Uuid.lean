import SchemaGraph.Text.Basic

set_option autoImplicit false

/-! # UUIDs

A 128-bit number written as 32 hexadecimal digits in five groups. -/

namespace SchemaGraph

structure Uuid where
  value : Nat
  deriving DecidableEq, Repr, Inhabited

namespace Uuid

/-- The last `count` hexadecimal digits of a number. -/
def digits (count n : Nat) : List Char :=
  (List.range count).map fun i => Ascii.hexDigit (n / Nat.pow 16 (count - 1 - i) % 16)

/-- The lengths of the groups. -/
def groups : List Nat := [8, 4, 4, 4, 12]

/-- Lower case, with hyphens between the groups. -/
def text (uuid : Uuid) : String :=
  let all := digits 32 uuid.value
  String.ofList (all.take 8 ++ '-' :: (all.drop 8).take 4 ++ '-' :: (all.drop 12).take 4 ++
    '-' :: (all.drop 16).take 4 ++ '-' :: all.drop 20)

/-- The text has hyphens exactly between groups of hexadecimal digits that the test accepts. -/
def grouped (isDigit : Char → Bool) : List Nat → List Char → Bool
  | [], text => text.isEmpty
  | [n], text => text.length == n && text.all isDigit
  | n :: more, text =>
    (text.take n).length == n && (text.take n).all isDigit && (text.drop n).head? == some '-' &&
      grouped isDigit more (text.drop (n + 1))

/-- The number of the hexadecimal digits in a text, whatever stands between them. -/
def valueOf (text : List Char) : Nat :=
  (text.filterMap Ascii.hexValue?).foldl (fun n d => 16 * n + d) 0

/-- Read the hyphenated form in either case. -/
def read? (text : String) : Option Uuid :=
  if grouped Ascii.isHex groups text.toList then some ⟨valueOf text.toList⟩ else none

def isLowerHex (c : Char) : Bool := Ascii.isDigit c || ('a' ≤ c && c ≤ 'f')

/-- Read the hyphenated form in lower case with a version digit 1, 3, 4 or 5. -/
def readVersioned? (text : String) : Option Uuid :=
  if grouped isLowerHex groups text.toList &&
      ((text.toList.drop 14).head?.map ['1', '3', '4', '5'].contains).getD false then
    read? text
  else none

end Uuid

end SchemaGraph

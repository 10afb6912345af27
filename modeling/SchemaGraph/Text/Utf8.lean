set_option autoImplicit false

/-! # UTF-8

Encoding of characters as bytes, and reading of bytes that may be malformed: every maximal
piece of an ill-formed sequence reads as one replacement character.
-/

namespace SchemaGraph

namespace Utf8

/-- The bytes of one character. -/
def encodeChar (c : Char) : List UInt8 :=
  let n := c.toNat
  if n < 0x80 then [n.toUInt8]
  else if n < 0x800 then [(0xc0 + n / 64).toUInt8, (0x80 + n % 64).toUInt8]
  else if n < 0x10000 then
    [(0xe0 + n / 4096).toUInt8, (0x80 + n / 64 % 64).toUInt8, (0x80 + n % 64).toUInt8]
  else
    [(0xf0 + n / 262144).toUInt8, (0x80 + n / 4096 % 64).toUInt8, (0x80 + n / 64 % 64).toUInt8,
      (0x80 + n % 64).toUInt8]

/-- The bytes of a text. -/
def encode (text : List Char) : List UInt8 := text.flatMap encodeChar

/-- What stands for a piece that is no character. -/
def replacement : Char := Char.ofNat 0xfffd

def isTail (b : Nat) : Bool := 0x80 ≤ b && b ≤ 0xbf

/-- The second bytes that may follow the first byte of a sequence. -/
def secondInRange (first second : Nat) : Bool :=
  if first == 0xe0 then 0xa0 ≤ second && second ≤ 0xbf
  else if first == 0xed then 0x80 ≤ second && second ≤ 0x9f
  else if first == 0xf0 then 0x90 ≤ second && second ≤ 0xbf
  else if first == 0xf4 then 0x80 ≤ second && second ≤ 0x8f
  else isTail second

/-- How many bytes the sequence with this first byte has, `0` if it starts none. -/
def width (first : Nat) : Nat :=
  if first < 0x80 then 1
  else if 0xc2 ≤ first && first ≤ 0xdf then 2
  else if 0xe0 ≤ first && first ≤ 0xef then 3
  else if 0xf0 ≤ first && first ≤ 0xf4 then 4
  else 0

/-- How many of the bytes after `first` continue its sequence, up to `owed`. -/
def continued (first : Nat) (bytes : List UInt8) (owed : Nat) : Nat :=
  match bytes with
  | [] => 0
  | b :: rest =>
    if owed == 0 || !secondInRange first b.toNat then 0
    else 1 + ((rest.take (owed - 1)).takeWhile fun t => isTail t.toNat).length

/-- The character of a complete sequence. -/
def assemble (first : Nat) (tail : List UInt8) : Char :=
  let lead := match tail.length with
    | 0 => first
    | 1 => first - 0xc0
    | 2 => first - 0xe0
    | _ => first - 0xf0
  Char.ofNat (tail.foldl (fun n b => 64 * n + (b.toNat - 0x80)) lead)

/-- Read bytes, writing the replacement character for every maximal ill-formed piece. -/
def decodeLossy : List UInt8 → List Char
  | [] => []
  | b :: rest =>
    let owed := width b.toNat - 1
    let found := continued b.toNat rest owed
    let c := if width b.toNat == 0 || found < owed then replacement
      else assemble b.toNat (rest.take found)
    c :: decodeLossy (rest.drop found)
  termination_by bytes => bytes.length
  decreasing_by simp only [List.length_drop, List.length_cons]; omega

end Utf8

end SchemaGraph

import SchemaGraph.Json.Basic

set_option autoImplicit false

/-! # Reading JSON text

The grammar of RFC 8259. An integer token too large for a 64-bit word is a double, and so is
`-0`, which no integer can express; a token whose double would be infinite is refused. The last
value of a repeated key counts. Brackets nest to a given depth at most.
-/

namespace SchemaGraph

namespace Json

def isSpace (c : Char) : Bool := c == ' ' || c == '\n' || c == '\t' || c == '\r'

/-- The value of four hexadecimal digits. -/
def hexWord? (a b c d : Char) : Option Nat := do
  let w ← Ascii.hexValue? a
  let x ← Ascii.hexValue? b
  let y ← Ascii.hexValue? c
  let z ← Ascii.hexValue? d
  some (((w * 16 + x) * 16 + y) * 16 + z)

def isHighSurrogate (n : Nat) : Bool := 0xd800 ≤ n && n < 0xdc00

def isLowSurrogate (n : Nat) : Bool := 0xdc00 ≤ n && n < 0xe000

/-- The character a short escape stands for. -/
def shortEscape? (c : Char) : Option Char :=
  if c == '"' || c == '\\' || c == '/' then some c
  else if c == 'b' then some (Char.ofNat 0x08)
  else if c == 'f' then some (Char.ofNat 0x0c)
  else if c == 'n' then some '\n'
  else if c == 'r' then some '\r'
  else if c == 't' then some '\t'
  else none

/-- Read the characters of a string up to its closing quote, with the text after it. -/
def readChars? : List Char → Option (List Char × List Char)
  | [] => none
  | '"' :: rest => some ([], rest)
  | '\\' :: 'u' :: a :: b :: c :: d :: '\\' :: 'u' :: e :: f :: g :: h :: rest => do
    let high ← hexWord? a b c d
    if isHighSurrogate high then
      let low ← hexWord? e f g h
      if isLowSurrogate low then
        let (chars, rest) ← readChars? rest
        some (Char.ofNat (0x10000 + (high - 0xd800) * 0x400 + (low - 0xdc00)) :: chars, rest)
      else none
    else if isLowSurrogate high then none
    else
      let (chars, rest) ← readChars? ('\\' :: 'u' :: e :: f :: g :: h :: rest)
      some (Char.ofNat high :: chars, rest)
  | '\\' :: 'u' :: a :: b :: c :: d :: rest => do
    let n ← hexWord? a b c d
    if isHighSurrogate n || isLowSurrogate n then none
    else
      let (chars, rest) ← readChars? rest
      some (Char.ofNat n :: chars, rest)
  | '\\' :: c :: rest => do
    let escaped ← shortEscape? c
    let (chars, rest) ← readChars? rest
    some (escaped :: chars, rest)
  | c :: rest =>
    if c == '\\' || c.toNat < 0x20 then none
    else do
      let (chars, rest) ← readChars? rest
      some (c :: chars, rest)

/-- The number of a token cut into its parts. -/
def numberOfParts? (negative : Bool) (whole fraction : List Char) (exponent : Option Int) :
    Option Number :=
  let digits := Ascii.decimalValue (whole ++ fraction)
  let asDouble := Double.ofDecimal negative digits (exponent.getD 0 - fraction.length)
  if fraction.isEmpty && exponent.isNone && !(negative && digits == 0) then
    let value : Int := if negative then -digits else digits
    if h : FitsWord value then some (.integer value h)
    else if asDouble.isFinite then some (.double asDouble) else none
  else if asDouble.isFinite then some (.double asDouble) else none

/-- The exponent part of a number token, `none` inside if there is none. -/
def readExponentPart? : List Char → Option (Option Int × List Char)
  | [] => some (none, [])
  | c :: rest =>
    if c == 'e' || c == 'E' then
      let (negative, rest) := Numeral.takeSign rest
      let digits := rest.takeWhile Ascii.isDigit
      if digits.isEmpty then none
      else
        let n : Int := Ascii.decimalValue digits
        some (some (if negative then -n else n), rest.dropWhile Ascii.isDigit)
    else some (none, c :: rest)

/-- Read a number token. -/
def readNumber? (text : List Char) : Option (Number × List Char) := do
  let (negative, rest) := match text with
    | '-' :: rest => (true, rest)
    | rest => (false, rest)
  let (whole, rest) := match rest with
    | '0' :: rest => (['0'], rest)
    | rest => (rest.takeWhile Ascii.isDigit, rest.dropWhile Ascii.isDigit)
  if whole.isEmpty then none
  else
    let (fraction, rest) ← match rest with
      | '.' :: rest =>
        if (rest.takeWhile Ascii.isDigit).isEmpty then none
        else some (rest.takeWhile Ascii.isDigit, rest.dropWhile Ascii.isDigit)
      | rest => some ([], rest)
    let (exponent, rest) ← readExponentPart? rest
    let number ← numberOfParts? negative whole fraction exponent
    some (number, rest)

def skipSpace (text : List Char) : List Char := text.dropWhile isSpace

mutual

/-- Read one value. `steps` bounds the length of the reading and `depth` the nesting. -/
def readValue? (steps depth : Nat) (text : List Char) : Option (Json × List Char) :=
  match steps with
  | 0 => none
  | steps + 1 =>
    match skipSpace text with
    | 'n' :: 'u' :: 'l' :: 'l' :: rest => some (null, rest)
    | 't' :: 'r' :: 'u' :: 'e' :: rest => some (bool true, rest)
    | 'f' :: 'a' :: 'l' :: 's' :: 'e' :: rest => some (bool false, rest)
    | '"' :: rest => (readChars? rest).map fun (chars, rest) => (str (String.ofList chars), rest)
    | '[' :: rest =>
      if depth == 0 then none
      else match skipSpace rest with
        | ']' :: rest => some (arr [], rest)
        | rest => (readItems? steps (depth - 1) rest).map fun (items, rest) => (arr items, rest)
    | '\x7b' :: rest =>
      if depth == 0 then none
      else match skipSpace rest with
        | '\x7d' :: rest => some (obj [], rest)
        | rest =>
          (readMembers? steps (depth - 1) rest).map fun (members, rest) => (object members, rest)
    | rest => (readNumber? rest).map fun (n, rest) => (num n, rest)

/-- Read the items of an array up to its closing bracket. -/
def readItems? (steps depth : Nat) (text : List Char) : Option (List Json × List Char) :=
  match steps with
  | 0 => none
  | steps + 1 => do
    let (item, rest) ← readValue? steps depth text
    match skipSpace rest with
    | ']' :: rest => some ([item], rest)
    | ',' :: rest =>
      let (items, rest) ← readItems? steps depth rest
      some (item :: items, rest)
    | _ => none

/-- Read the members of an object up to its closing bracket. -/
def readMembers? (steps depth : Nat) (text : List Char) :
    Option (List (String × Json) × List Char) :=
  match steps with
  | 0 => none
  | steps + 1 =>
    match skipSpace text with
    | '"' :: rest => do
      let (key, rest) ← readChars? rest
      match skipSpace rest with
      | ':' :: rest =>
        let (value, rest) ← readValue? steps depth rest
        let member := (String.ofList key, value)
        match skipSpace rest with
        | '\x7d' :: rest => some ([member], rest)
        | ',' :: rest =>
          let (members, rest) ← readMembers? steps depth rest
          some (member :: members, rest)
        | _ => none
      | _ => none
    | _ => none

end

/-- How deep brackets may nest in a document. -/
def depthLimit : Nat := 127

/-- Read a whole text with brackets nested to the given depth. -/
def readToDepth? (depth : Nat) (text : String) : Option Json :=
  let chars := text.toList
  match readValue? (2 * chars.length + 2) depth chars with
  | some (value, rest) => if (skipSpace rest).isEmpty then some value else none
  | none => none

/-- Read a whole text. -/
def read? (text : String) : Option Json := readToDepth? depthLimit text

end Json

end SchemaGraph

import SchemaGraph.Text.Percent
import SchemaGraph.Url.Punycode

set_option autoImplicit false

/-! # Hosts

The host of a special URL is a domain, an IPv4 address or an IPv6 address in brackets. A domain
is percent-decoded, put into lower case, and labels outside ASCII are written in Punycode. If
its last label is a number, the whole must be an IPv4 address. The host of any other URL is
taken as it is.
-/

namespace SchemaGraph

namespace Host

/-! ## IPv4 -/

/-- The value of digits in a base of at most sixteen. -/
def valueIn? (base : Nat) (digits : List Char) : Option Nat :=
  digits.foldlM (fun n c => do
    let d ← Ascii.hexValue? c
    if d < base then some (n * base + d) else none) 0

/-- A part of an IPv4 address: hexadecimal after `0x`, octal after `0`, else decimal. -/
def numberPart? (part : List Char) : Option Nat :=
  match part with
  | [] => none
  | '0' :: 'x' :: digits => valueIn? 16 digits
  | '0' :: 'X' :: digits => valueIn? 16 digits
  | ['0'] => some 0
  | '0' :: digits => valueIn? 8 digits
  | digits => valueIn? 10 digits

/-- The labels of a domain, without an empty last one. -/
def labels (domain : List Char) : List (List Char) :=
  let all := splitOn '.' domain
  if all.getLast? == some [] then all.dropLast else all

/-- The last label is a number. -/
def endsInNumber (domain : List Char) : Bool :=
  match (labels domain).getLast? with
  | none => false
  | some last => (!last.isEmpty && last.all Ascii.isDigit) || (numberPart? last).isSome

/-- The address of at most four numbers: the last one fills the bytes that are left. -/
def address? (domain : List Char) : Option Nat := do
  let numbers ← (labels domain).mapM numberPart?
  let last ← numbers.getLast?
  let front := numbers.dropLast
  if 4 < numbers.length || front.any (255 < ·) || Nat.pow 256 (4 - front.length) ≤ last then none
  else
    some (front.zipIdx.foldl (fun total (n, i) => total + n * Nat.pow 256 (3 - i)) last)

def addressText (address : Nat) : List Char :=
  ".".toList.intercalate ([3, 2, 1, 0].map fun i => Nat.toDigits 10 (address / Nat.pow 256 i % 256))

/-! ## IPv6 -/

/-- Four decimal numbers below 256 without leading zeros, as two groups. -/
def dottedGroups? (text : List Char) : Option (List Nat) := do
  let parts := splitOn '.' text
  let numbers ← parts.mapM fun part =>
    if part.isEmpty || !part.all Ascii.isDigit || (1 < part.length && part.head? == some '0') then
      none
    else
      let n := Ascii.decimalValue part
      if n < 256 then some n else none
  match numbers with
  | [a, b, c, d] => some [a * 256 + b, c * 256 + d]
  | _ => none

/-- The groups between colons; the last one may be dotted. -/
def groups? (dotted : Bool) (text : List Char) : Option (List Nat) :=
  if text.isEmpty then some []
  else
    let pieces := splitOn ':' text
    let front := pieces.dropLast.mapM hexGroup?
    let last := (pieces.getLast?).bind fun piece =>
      if dotted && piece.contains '.' then dottedGroups? piece else (hexGroup? piece).map ([·])
    match front, last with
    | some front, some last => some (front ++ last)
    | _, _ => none
where
  hexGroup? (piece : List Char) : Option Nat :=
    if piece.isEmpty || 4 < piece.length then none else valueIn? 16 piece

/-- The text before and after the first double colon. -/
def cutAtDoubleColon? : List Char → Option (List Char × List Char)
  | [] => none
  | ':' :: ':' :: rest => some ([], rest)
  | c :: rest => (cutAtDoubleColon? rest).map fun (front, back) => (c :: front, back)

/-- The eight groups of an IPv6 address. -/
def longAddress? (text : List Char) : Option (List Nat) :=
  match cutAtDoubleColon? text with
  | none => (groups? true text).filter fun groups => groups.length == 8
  | some (front, back) => do
    let front ← groups? false front
    let back ← groups? true back
    if front.length + back.length ≤ 7 then
      some (front ++ List.replicate (8 - front.length - back.length) 0 ++ back)
    else none

/-- The first longest run of zeros, as start and length. -/
def zeroRun (groups : List Nat) : Nat × Nat :=
  (List.range groups.length).foldl (fun (start, length) i =>
    let here := ((groups.drop i).takeWhile (· == 0)).length
    if length < here then (i, here) else (start, length)) (0, 0)

def longAddressText (groups : List Nat) : List Char :=
  let colon := [':']
  let write (part : List Nat) : List Char := colon.intercalate (part.map (Nat.toDigits 16))
  let (start, length) := zeroRun groups
  let inner :=
    if length < 2 then write groups
    else write (groups.take start) ++ [':', ':'] ++ write (groups.drop (start + length))
  '[' :: inner ++ [']']

/-! ## Domains -/

/-- What a character of a domain becomes: lower case, the plain form of a full-width character,
a point for the other full stops, and nothing for the invisible ones. -/
def mapDomainChar (c : Char) : List Char :=
  let n := c.toNat
  if n == 0x3002 || n == 0xff0e || n == 0xff61 then ['.']
  else if n == 0xad || n == 0x200b || n == 0x2060 || n == 0xfeff then []
  else if 0xff01 ≤ n && n ≤ 0xff5e then [Ascii.toLower (Char.ofNat (n - 0xfee0))]
  else if (0xc0 ≤ n && n ≤ 0xde && n != 0xd7) || (0x391 ≤ n && n ≤ 0x3a9) ||
      (0x410 ≤ n && n ≤ 0x42f) then [Char.ofNat (n + 32)]
  else if 0x400 ≤ n && n ≤ 0x40f then [Char.ofNat (n + 80)]
  else [Ascii.toLower c]

/-- Characters no domain may have. -/
def isForbiddenInDomain (c : Char) : Bool :=
  c.toNat ≤ 0x20 || c.toNat == 0x7f || c.toNat == 0xfffd ||
    ['#', '/', ':', '<', '>', '?', '@', '[', '\\', ']', '^', '|', '%'].contains c

/-- A label in ASCII. An encoded label must stand for one outside ASCII. -/
def asciiLabel? (label : List Char) : Option (List Char) :=
  if label.all fun c => c.toNat < 128 then
    if label.take 4 == ['x', 'n', '-', '-'] then
      match Punycode.decode? (label.drop 4) with
      | some decoded =>
        if decoded.any (fun c => 128 ≤ c.toNat) && decoded.flatMap mapDomainChar == decoded then
          some label
        else none
      | none => none
    else some label
  else some (['x', 'n', '-', '-'] ++ Punycode.encode label)

/-- A domain in ASCII. -/
def asciiDomain? (text : List Char) : Option (List Char) := do
  let mapped := (Percent.decode text).flatMap mapDomainChar
  if mapped.any isForbiddenInDomain then none
  else
    let labels ← (splitOn '.' mapped).mapM asciiLabel?
    let domain := ['.'].intercalate labels
    if domain.isEmpty then none else some domain

/-! ## Reading -/

/-- An IPv6 address in brackets, if the text starts with one. -/
def bracketed? (text : List Char) : Option (Option (List Char)) :=
  match text with
  | '[' :: rest =>
    some (if rest.getLast? == some ']' then (longAddress? rest.dropLast).map longAddressText
      else none)
  | _ => none

/-- The text of the host of a special URL. -/
def special? (text : List Char) : Option (List Char) :=
  match bracketed? text with
  | some address => address
  | none => do
    let domain ← asciiDomain? text
    if endsInNumber domain then (address? domain).map addressText else some domain

/-- Characters the host of a URL of another scheme may not have. -/
def isForbidden (c : Char) : Bool :=
  c.toNat == 0 || ['\t', '\n', '\r', ' ', '#', '/', ':', '<', '>', '?', '@', '[', '\\', ']', '^',
    '|'].contains c

/-- The character is a control character or outside ASCII. -/
def isControl (c : Char) : Bool := c.toNat < 0x20 || 0x7f ≤ c.toNat

/-- The text of the host of a URL of another scheme. -/
def opaqueText? (text : List Char) : Option (List Char) :=
  match bracketed? text with
  | some address => address
  | none => if text.any isForbidden then none else some (Percent.encode isControl text)

end Host

end SchemaGraph

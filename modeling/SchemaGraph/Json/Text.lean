import SchemaGraph.Json.Basic
import SchemaGraph.Double.Digits

set_option autoImplicit false

/-! # JSON text

Two layouts: compact, without any blank, and indented by two blanks per level. In both a
string escapes the quote, the backslash and the control characters below a blank, and a double
is written positionally while its leading exponent is at least -5 and below 16.
-/

namespace SchemaGraph

namespace Json

/-- Doubles show a fraction; large and small ones an exponent. -/
def numberFormat : NumberFormat where
  positional e := decide (-5 ≤ e) && decide (e < 16)
  wholeFraction := true
  tie := .toEven

/-- A double that is not finite has no JSON number; `null` takes its place. -/
def doubleText (d : Double) : String :=
  if d.isFinite then numberFormat.write d else "null"

def numberText : Number → String
  | .integer n _ => toString n
  | .double d => doubleText d

/-- A character inside a string. -/
def escapeChar (c : Char) : List Char :=
  if c == '"' then ['\\', '"']
  else if c == '\\' then ['\\', '\\']
  else if c.toNat == 0x08 then ['\\', 'b']
  else if c.toNat == 0x09 then ['\\', 't']
  else if c.toNat == 0x0a then ['\\', 'n']
  else if c.toNat == 0x0c then ['\\', 'f']
  else if c.toNat == 0x0d then ['\\', 'r']
  else if c.toNat < 0x20 then
    ['\\', 'u', '0', '0', Ascii.hexDigit (c.toNat / 16), Ascii.hexDigit (c.toNat % 16)]
  else [c]

/-- A string between quotes. -/
def quoted (s : String) : String :=
  String.ofList ('"' :: (s.toList.flatMap escapeChar ++ ['"']))

/-- Compact text of a list of written items. -/
def bracketed (left right : String) (items : List String) : String :=
  left ++ ",".intercalate items ++ right

mutual

/-- The compact text. -/
def compact : Json → String
  | null => "null"
  | bool b => if b then "true" else "false"
  | num n => numberText n
  | str s => quoted s
  | arr items => bracketed "[" "]" (compactItems items)
  | obj entries => bracketed "\x7b" "\x7d" (compactEntries entries)

def compactItems : List Json → List String
  | [] => []
  | item :: rest => compact item :: compactItems rest

def compactEntries : List (String × Json) → List String
  | [] => []
  | (key, value) :: rest => (quoted key ++ ":" ++ compact value) :: compactEntries rest

end

/-- A line break and the blanks before an item at the given depth. -/
def lineBreak (depth : Nat) : String := String.ofList ('\n' :: List.replicate (2 * depth) ' ')

/-- Items on lines of their own; nothing between the brackets if there are none. -/
def laidOut (left right : String) (depth : Nat) (items : List String) : String :=
  match items with
  | [] => left ++ right
  | items =>
    left ++ lineBreak (depth + 1) ++ ("," ++ lineBreak (depth + 1)).intercalate items ++
      lineBreak depth ++ right

mutual

/-- The indented text of a value at a depth. -/
def indented (depth : Nat) : Json → String
  | null => "null"
  | bool b => if b then "true" else "false"
  | num n => numberText n
  | str s => quoted s
  | arr items => laidOut "[" "]" depth (indentedItems (depth + 1) items)
  | obj entries => laidOut "\x7b" "\x7d" depth (indentedEntries (depth + 1) entries)

def indentedItems (depth : Nat) : List Json → List String
  | [] => []
  | item :: rest => indented depth item :: indentedItems depth rest

def indentedEntries (depth : Nat) : List (String × Json) → List String
  | [] => []
  | (key, value) :: rest =>
    (quoted key ++ ": " ++ indented depth value) :: indentedEntries depth rest

end

/-- The indented text. -/
def pretty (j : Json) : String := indented 0 j

/-- The text of a value inside a message: strings without quotes, all else compact. -/
def render : Json → String
  | str s => s
  | other => compact other

end Json

end SchemaGraph

import SchemaGraph.Yaml.Cursor

set_option autoImplicit false

/-! # YAML tokens

The tokens of a text, and the reading of those that are no content: directives, anchors, aliases
and tags. Tags are kept as bytes, since their escapes may write any.
-/

namespace SchemaGraph

namespace Yaml

/-- A token of a YAML text. Where a block begins or ends is a token as well. -/
inductive Token where
  | version (major minor : Nat)
  | tagHandle (handle : List Char) (start : List UInt8)
  | documentStart
  | documentEnd
  | blockSequenceStart
  | blockMappingStart
  | blockEnd
  | flowSequenceStart
  | flowSequenceEnd
  | flowMappingStart
  | flowMappingEnd
  | blockEntry
  | flowEntry
  | key
  | value
  | aliasOf (name : List Char)
  | anchor (name : List Char)
  | tag (handle : List Char) (suffix : List UInt8)
  | scalar (text : List Char) (plain : Bool)
  deriving DecidableEq, Repr

/-! ## Anchors and aliases -/

/-- Read the name of an anchor or an alias after its sign. -/
def readName? (cursor : Cursor) : Option (List Char × Cursor) :=
  let (name, cursor) := (cursor.skip 1).takeRun isNameChar
  if !name.isEmpty && (cursor.endsWordAfter 0 ||
      cursor.isAtAny ['?', ':', ',', ']', '\x7d', '%', '@', Char.ofNat 0x60]) then
    some (name, cursor)
  else none

/-! ## Tags -/

/-- The characters of a tag. Tags in angle brackets may also hold commas and square brackets. -/
def isTagChar (bracketed : Bool) (c : Char) : Bool :=
  isNameChar c ||
    [';', '/', '?', ':', '@', '&', '=', '+', '$', '.', '%', '!', '~', '*', '\'', '(', ')'].contains c ||
    (bracketed && [',', '[', ']'].contains c)

/-- How many bytes the first byte of an escaped character announces. -/
def escapedWidth? (first : Nat) : Option Nat :=
  if first < 0x80 then some 1
  else if 0xc0 ≤ first && first < 0xe0 then some 2
  else if 0xe0 ≤ first && first < 0xf0 then some 3
  else if 0xf0 ≤ first && first < 0xf8 then some 4
  else none

/-- The byte an escape writes. -/
def escapedByte? : List Char → Option (UInt8 × List Char)
  | '%' :: a :: b :: rest => do
    let high ← Ascii.hexValue? a
    let low ← Ascii.hexValue? b
    some ((16 * high + low).toUInt8, rest)
  | _ => none

/-- Read the bytes of a run of characters of a tag, where `owed` more bytes have to continue an
escaped character. -/
def tagBytes? : Nat → Nat → List Char → Option (List UInt8)
  | 0, _, _ => none
  | _ + 1, 0, [] => some []
  | steps + 1, 0, c :: rest => do
    if c == '%' then
      let (first, rest) ← escapedByte? (c :: rest)
      let width ← escapedWidth? first.toNat
      (tagBytes? steps (width - 1) rest).map (first :: ·)
    else (tagBytes? steps 0 rest).map (Utf8.encodeChar c ++ ·)
  | steps + 1, owed + 1, text => do
    let (next, rest) ← escapedByte? text
    if Utf8.isTail next.toNat then (tagBytes? steps owed rest).map (next :: ·) else none

/-- Read the bytes of a tag from a place on. -/
def readTagBytes? (bracketed : Bool) (cursor : Cursor) : Option (List UInt8 × Cursor) :=
  let (run, after) := cursor.takeRun (isTagChar bracketed)
  (tagBytes? (run.length + 1) 0 run).map fun bytes => (bytes, after)

/-- The handle at a place that has an exclamation mark: a name between two marks, or the first
mark and the name after it. -/
def takeHandle (cursor : Cursor) : List Char × Cursor :=
  let (name, after) := (cursor.skip 1).takeRun isNameChar
  if after.isAt '!' then ('!' :: (name ++ ['!']), after.skip 1) else ('!' :: name, after)

/-- Read a tag: in angle brackets, with a handle, or local to the document. A tag without a
handle is written with the empty handle. -/
def readTag? (inFlow : Bool) (cursor : Cursor) : Option (Token × Cursor) := do
  let (token, after) ←
    if (cursor.skip 1).isAt '<' then do
      let (suffix, after) ← readTagBytes? true (cursor.skip 2)
      if !suffix.isEmpty && after.isAt '>' then some (Token.tag [] suffix, after.skip 1) else none
    else do
      let (handle, after) := takeHandle cursor
      let (bytes, end_) ← readTagBytes? false after
      if 1 < handle.length && handle.getLast? == some '!' then
        if bytes.isEmpty then none else some (Token.tag handle bytes, end_)
      else
        let suffix := Utf8.encode (handle.drop 1) ++ bytes
        if suffix.isEmpty then some (Token.tag [] (Utf8.encode ['!']), end_)
        else some (Token.tag ['!'] suffix, end_)
  if (inFlow && after.isAt ',') || after.endsWordAfter 0 then some (token, after) else none

/-! ## Directives -/

/-- Read a version number, of nine digits at most. -/
def readVersionNumber? (cursor : Cursor) : Option (Nat × Cursor) :=
  let (digits, cursor) := cursor.takeRun Ascii.isDigit
  if digits.isEmpty || 9 < digits.length then none else some (Ascii.decimalValue digits, cursor)

def readVersion? (cursor : Cursor) : Option (Token × Cursor) := do
  let (major, cursor) ← readVersionNumber? cursor
  if cursor.isAt '.' then
    let (minor, cursor) ← readVersionNumber? (cursor.skip 1)
    some (.version major minor, cursor)
  else none

/-- Read a handle and what it stands for. -/
def readTagHandle? (cursor : Cursor) : Option (Token × Cursor) :=
  if !cursor.isAt '!' then none
  else
    let (handle, cursor) := takeHandle cursor
    if !cursor.atSpacing || (handle != ['!'] && handle.getLast? != some '!') then none
    else do
      let (start, cursor) ← readTagBytes? true (cursor.skipRun isSpacing)
      if !start.isEmpty && cursor.endsWordAfter 0 then some (.tagHandle handle start, cursor)
      else none

/-- Read a directive to the end of its line. -/
def readDirective? (cursor : Cursor) : Option (Token × Cursor) := do
  let (name, cursor) := (cursor.skip 1).takeRun isNameChar
  if !cursor.endsWordAfter 0 then none
  else
    let cursor := cursor.skipRun isSpacing
    let (token, cursor) ←
      if name == "YAML".toList then readVersion? cursor
      else if name == "TAG".toList then readTagHandle? cursor
      else none
    let cursor ← cursor.endLine?
    some (token, cursor)

end Yaml

end SchemaGraph

import SchemaGraph.Text.Basic
import SchemaGraph.Text.Utf8

set_option autoImplicit false

/-! # Places in a YAML text

A cursor holds the text that is left and where it begins: line and column decide how a YAML text
nests, and the number of bytes before it how far a key may reach.
-/

namespace SchemaGraph

namespace Yaml

def isSpacing (c : Char) : Bool := c == ' ' || c == '\t'

/-- The characters that end a line. -/
def isBreak (c : Char) : Bool :=
  c == '\n' || c == '\r' || c.toNat == 0x85 || c.toNat == 0x2028 || c.toNat == 0x2029

/-- The characters of anchors, handles and directive names. -/
def isNameChar (c : Char) : Bool := Ascii.isLetter c || Ascii.isDigit c || c == '_' || c == '-'

/-- The characters a text may hold. -/
def isWritable (c : Char) : Bool :=
  let n := c.toNat
  n == 0x09 || n == 0x0a || n == 0x0d || (0x20 ≤ n && n ≤ 0x7e) || n == 0x85 ||
    (0xa0 ≤ n && n ≤ 0xd7ff) || (0xe000 ≤ n && n ≤ 0xfffd) || 0x10000 ≤ n

/-- The mark of the byte order. -/
def isByteOrderMark (c : Char) : Bool := c.toNat == 0xfeff

/-- A place in a text. -/
structure Cursor where
  rest : List Char
  /-- How many bytes come before. -/
  index : Nat
  line : Nat
  column : Nat
  deriving Repr

namespace Cursor

/-- The start of a text. -/
def start (text : List Char) : Cursor := ⟨text, 0, 0, 0⟩

def atEnd (cursor : Cursor) : Bool := cursor.rest.isEmpty

/-- The next character is this one. -/
def isAt (cursor : Cursor) (c : Char) : Bool := cursor.rest.head? == some c

/-- The next character is one of these. -/
def isAtAny (cursor : Cursor) (chars : List Char) : Bool := cursor.rest.head?.any chars.contains

def atBreak (cursor : Cursor) : Bool := cursor.rest.head?.any isBreak

def atSpacing (cursor : Cursor) : Bool := cursor.rest.head?.any isSpacing

/-- What follows `n` characters further on is spacing, a line break or the end of the text. -/
def endsWordAfter (n : Nat) (cursor : Cursor) : Bool :=
  match cursor.rest.drop n with
  | [] => true
  | c :: _ => isSpacing c || isBreak c

/-- Three dashes or three dots that open a line and stand alone: a mark between documents. -/
def atDocumentMark (cursor : Cursor) : Bool :=
  cursor.column == 0 && cursor.endsWordAfter 3 &&
    (cursor.rest.take 3 == ['-', '-', '-'] || cursor.rest.take 3 == ['.', '.', '.'])

/-- Go on over characters of the same line. -/
def skip (n : Nat) (cursor : Cursor) : Cursor where
  rest := cursor.rest.drop n
  index := cursor.index + (Utf8.encode (cursor.rest.take n)).length
  line := cursor.line
  column := cursor.column + n

/-- The longest run of characters of a class on the same line, and the place after it. -/
def takeRun (p : Char → Bool) (cursor : Cursor) : List Char × Cursor :=
  let run := cursor.rest.takeWhile p
  (run, cursor.skip run.length)

def skipRun (p : Char → Bool) (cursor : Cursor) : Cursor := (cursor.takeRun p).2

/-- The start of the line after a line break of `n` characters. -/
def nextLine (n : Nat) (cursor : Cursor) : Cursor :=
  { cursor.skip n with line := cursor.line + 1, column := 0 }

/-- Take a line break as the text it stands for: a line feed, but the separators of lines and of
paragraphs stand for themselves. Nothing is taken where there is no break. -/
def takeBreak (cursor : Cursor) : List Char × Cursor :=
  match cursor.rest with
  | '\r' :: '\n' :: _ => (['\n'], cursor.nextLine 2)
  | c :: _ =>
    if c == '\n' || c == '\r' || c.toNat == 0x85 then (['\n'], cursor.nextLine 1)
    else if isBreak c then ([c], cursor.nextLine 1)
    else ([], cursor)
  | [] => ([], cursor)

/-- Go over a comment, if there is one. -/
def skipComment (cursor : Cursor) : Cursor :=
  if cursor.isAt '#' then cursor.skipRun (! isBreak ·) else cursor

/-- Go to the next line over spacing and a comment; nothing else may be left on this line. -/
def endLine? (cursor : Cursor) : Option Cursor :=
  let cursor := (cursor.skipRun isSpacing).skipComment
  if cursor.atEnd || cursor.atBreak then some cursor.takeBreak.2 else none

end Cursor

end Yaml

end SchemaGraph

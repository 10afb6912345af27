import SchemaGraph.Yaml.Cursor

set_option autoImplicit false

/-! # Block scalars

A scalar that fills indented lines of its own, as they stand or folded. Its header says what
becomes of the line breaks at its end and may give the indentation; else the indentation is that
of the first line that is not empty.
-/

namespace SchemaGraph

namespace Yaml

/-- What becomes of the line breaks at the end: none is kept, one is, or all are. -/
inductive Chomping where
  | strip
  | clip
  | keep
  deriving DecidableEq, Repr

/-- The sign of a chomping, if there is one. -/
def takeChomping (cursor : Cursor) : Option Chomping × Cursor :=
  if cursor.isAt '+' then (some .keep, cursor.skip 1)
  else if cursor.isAt '-' then (some .strip, cursor.skip 1)
  else (none, cursor)

/-- The digit of an indentation, `0` where there is none; the digit itself may not be `0`. -/
def takeIndentation? (cursor : Cursor) : Option (Nat × Cursor) :=
  match cursor.rest with
  | c :: _ =>
    if !Ascii.isDigit c then some (0, cursor)
    else if c == '0' then none
    else some (Ascii.digitValue c, cursor.skip 1)
  | [] => some (0, cursor)

/-- Read the header after its sign: the chomping and the indentation, in either order. -/
def blockHeader? (cursor : Cursor) : Option (Chomping × Nat × Cursor) := do
  let (chomping, cursor) := takeChomping cursor
  let (indentation, cursor) ← takeIndentation? cursor
  match chomping with
  | some chomping => some (chomping, indentation, cursor)
  | none =>
    if indentation == 0 then some (.clip, 0, cursor)
    else
      let (chomping, cursor) := takeChomping cursor
      some (chomping.getD .clip, indentation, cursor)

/-- Take the indentation and empty lines before a line of the scalar: their breaks, the widest
indentation seen and the place of the line. `indent` is `0` while it is not known; no tab may
stand where indentation is expected. -/
def takeEmptyLines? (indent : Nat) : Nat → Nat → Cursor → Option (List Char × Nat × Cursor)
  | 0, widest, cursor => some ([], widest, cursor)
  | steps + 1, widest, cursor =>
    let spaces := (cursor.rest.takeWhile (· == ' ')).length
    let cursor := cursor.skip (if indent == 0 then spaces else min spaces (indent - cursor.column))
    let widest := max widest cursor.column
    if (indent == 0 || cursor.column < indent) && cursor.isAt '\t' then none
    else if cursor.atBreak then do
      let (found, cursor) := cursor.takeBreak
      let (more, widest, cursor) ← takeEmptyLines? indent steps widest cursor
      some (found ++ more, widest, cursor)
    else some ([], widest, cursor)

/-- The empty lines at a place. -/
def emptyLinesAt? (indent : Nat) (cursor : Cursor) : Option (List Char × Nat × Cursor) :=
  takeEmptyLines? indent (cursor.rest.length + 1) 0 cursor

/-- Read the lines of a block scalar. `ended` is the break of the line before, `empty` holds the
breaks of the empty lines since, and `indented` tells that the line before begins with spacing. A
break between two lines folds unless one of them begins with spacing. -/
def readBlockLines? (folded : Bool) (chomping : Chomping) (indent : Nat) :
    Nat → List Char → List Char → Bool → Cursor → Option (List Char × Cursor)
  | 0, _, _, _, _ => none
  | steps + 1, ended, empty, indented, cursor =>
    if cursor.column == indent && !cursor.atEnd then do
      let opensIndented := cursor.atSpacing
      let join :=
        if folded && ended == ['\n'] && !indented && !opensIndented then
          if empty.isEmpty then [' '] else []
        else ended
      let (line, cursor) := cursor.takeRun (! isBreak ·)
      let (ended, cursor) := cursor.takeBreak
      let (next, _, cursor) ← emptyLinesAt? indent cursor
      let (more, cursor) ←
        readBlockLines? folded chomping indent steps ended next opensIndented cursor
      some (join ++ empty ++ line ++ more, cursor)
    else
      let tail := match chomping with
        | .strip => []
        | .clip => ended
        | .keep => ended ++ empty
      some (tail, cursor)

/-- Read a block scalar after its sign, within a block of the given indentation. -/
def readBlock? (folded : Bool) (outer : Int) (cursor : Cursor) : Option (List Char × Cursor) := do
  let (chomping, indentation, cursor) ← blockHeader? cursor
  let cursor ← cursor.endLine?
  let given := if indentation == 0 then 0 else (max outer 0).toNat + indentation
  let (empty, widest, cursor) ← emptyLinesAt? given cursor
  let indent := if given == 0 then max widest (max (outer + 1).toNat 1) else given
  readBlockLines? folded chomping indent (cursor.rest.length + 1) [] empty false cursor

end Yaml

end SchemaGraph

import SchemaGraph.Yaml.Cursor

set_option autoImplicit false

/-! # Plain and quoted scalars

The text of a scalar written without quotes or between quotes. Line breaks inside it fold: one
break reads as a space, and of several all but the first are kept. Spacing around a break does
not count.
-/

namespace SchemaGraph

namespace Yaml

/-! ## Gaps -/

/-- What stands between two words: spacing, or line breaks with the spacing around them
dropped. -/
structure Gap where
  spacing : List Char
  broken : Bool
  /-- The first break. -/
  first : List Char
  /-- The breaks after the first. -/
  further : List Char

namespace Gap

def none : Gap := ⟨[], false, [], []⟩

/-- A break that is written but does not count. -/
def escapedBreak : Gap := ⟨[], true, [], []⟩

/-- The text a gap reads as. -/
def text (gap : Gap) : List Char :=
  if !gap.broken then gap.spacing
  else if gap.first == ['\n'] then if gap.further.isEmpty then [' '] else gap.further
  else gap.first ++ gap.further

end Gap

/-- Take a gap, going on from the one found so far. After a break no tab may stand in a column
below `least`. -/
def takeGap? (least : Int) : Nat → Gap → Cursor → Option (Gap × Cursor)
  | 0, gap, cursor => some (gap, cursor)
  | steps + 1, gap, cursor =>
    match cursor.rest with
    | [] => some (gap, cursor)
    | c :: _ =>
      if isSpacing c then
        if !gap.broken then
          takeGap? least steps { gap with spacing := gap.spacing ++ [c] } (cursor.skip 1)
        else if c == '\t' && (cursor.column : Int) < least then none
        else takeGap? least steps gap (cursor.skip 1)
      else if isBreak c then
        let (found, cursor) := cursor.takeBreak
        if gap.broken then takeGap? least steps { gap with further := gap.further ++ found } cursor
        else takeGap? least steps ⟨[], true, found, []⟩ cursor
      else some (gap, cursor)

/-- Take the gap at a place. -/
def gapAt? (least : Int) (gap : Gap) (cursor : Cursor) : Option (Gap × Cursor) :=
  takeGap? least (cursor.rest.length + 1) gap cursor

/-! ## Quoted scalars -/

/-- The two kinds of quotes. -/
inductive Quote where
  | single
  | double
  deriving DecidableEq, Repr

def Quote.char : Quote → Char
  | .single => '\''
  | .double => '"'

/-- The character a short escape stands for. -/
def shortEscape? (c : Char) : Option Char :=
  match c with
  | '0' => some (Char.ofNat 0x00)
  | 'a' => some (Char.ofNat 0x07)
  | 'b' => some (Char.ofNat 0x08)
  | 't' => some '\t'
  | '\t' => some '\t'
  | 'n' => some '\n'
  | 'v' => some (Char.ofNat 0x0b)
  | 'f' => some (Char.ofNat 0x0c)
  | 'r' => some '\r'
  | 'e' => some (Char.ofNat 0x1b)
  | ' ' => some ' '
  | '"' => some '"'
  | '/' => some '/'
  | '\\' => some '\\'
  | 'N' => some (Char.ofNat 0x85)
  | '_' => some (Char.ofNat 0xa0)
  | 'L' => some (Char.ofNat 0x2028)
  | 'P' => some (Char.ofNat 0x2029)
  | _ => none

/-- How many hexadecimal digits follow the letter of a long escape. -/
def escapeWidth? (c : Char) : Option Nat :=
  match c with
  | 'x' => some 2
  | 'u' => some 4
  | 'U' => some 8
  | _ => none

/-- The number hexadecimal digits write. -/
def hexNumber? (digits : List Char) : Option Nat :=
  digits.foldlM (fun n c => (Ascii.hexValue? c).map (16 * n + ·)) 0

/-- Read what follows the backslash of an escape. -/
def readEscape? (cursor : Cursor) : Option (Char × Cursor) := do
  let c ← cursor.rest.head?
  match escapeWidth? c with
  | none => (shortEscape? c).map fun escaped => (escaped, cursor.skip 1)
  | some width =>
    let digits := (cursor.rest.drop 1).take width
    let n ← hexNumber? digits
    if digits.length == width && n.isValidChar then some (Char.ofNat n, cursor.skip (1 + width))
    else none

/-- Read a quoted scalar from within its quotes. A mark between documents may not stand in it. -/
def readQuoted? (quote : Quote) : Nat → Cursor → Option (List Char × Cursor)
  | 0, _ => none
  | steps + 1, cursor => do
    let goOn (found : List Char) (cursor : Cursor) : Option (List Char × Cursor) :=
      (readQuoted? quote steps cursor).map fun (text, after) => (found ++ text, after)
    let goOnAfter (gap : Gap) (cursor : Cursor) : Option (List Char × Cursor) := do
      let (gap, cursor) ← gapAt? 0 gap cursor
      goOn gap.text cursor
    if cursor.atDocumentMark then none
    else
      let c ← cursor.rest.head?
      if isSpacing c || isBreak c then goOnAfter Gap.none cursor
      else match quote with
        | .single =>
          if c == '\'' then
            if (cursor.skip 1).isAt '\'' then goOn ['\''] (cursor.skip 2)
            else some ([], cursor.skip 1)
          else goOn [c] (cursor.skip 1)
        | .double =>
          if c == '"' then some ([], cursor.skip 1)
          else if c == '\\' then
            if (cursor.skip 1).atBreak then goOnAfter Gap.escapedBreak (cursor.skip 1).takeBreak.2
            else
              let (escaped, cursor) ← readEscape? (cursor.skip 1)
              goOn [escaped] cursor
          else goOn [c] (cursor.skip 1)

/-! ## Plain scalars -/

/-- The brackets and the comma of collections written in brackets. -/
def flowIndicators : List Char := [',', '[', ']', '\x7b', '\x7d']

/-- The word at the start of a text. A colon before a gap ends it, and so do the signs of
brackets within brackets, where a colon just before such a sign is refused. -/
def plainWord? (inFlow : Bool) : List Char → Option (List Char)
  | [] => some []
  | c :: rest =>
    if isSpacing c || isBreak c then some []
    else if inFlow && c == ':' && rest.head?.any ('?' :: flowIndicators).contains then none
    else if c == ':' && (rest.isEmpty || rest.head?.any (fun d => isSpacing d || isBreak d)) then
      some []
    else if inFlow && flowIndicators.contains c then some []
    else (plainWord? inFlow rest).map (c :: ·)

/-- Read a plain scalar after the gap found so far: its text, whether a line break follows it,
and the place after it. Outside brackets it ends before a line whose column is below `least`. -/
def readPlain? (inFlow : Bool) (least : Int) :
    Nat → Gap → Cursor → Option (List Char × Bool × Cursor)
  | 0, _, _ => none
  | steps + 1, gap, cursor =>
    if cursor.atDocumentMark || cursor.isAt '#' then some ([], gap.broken, cursor)
    else do
      let word ← plainWord? inFlow cursor.rest
      if word.isEmpty then some ([], gap.broken, cursor)
      else
        let (next, after) ← gapAt? least Gap.none (cursor.skip word.length)
        if !next.broken && next.spacing.isEmpty then some (gap.text ++ word, false, after)
        else if !inFlow && (after.column : Int) < least then
          some (gap.text ++ word, next.broken, after)
        else
          let (more, broken, after) ← readPlain? inFlow least steps next after
          some (gap.text ++ word ++ more, broken, after)

end Yaml

end SchemaGraph

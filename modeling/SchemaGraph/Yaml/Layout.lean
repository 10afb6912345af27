import SchemaGraph.Yaml.Block
import SchemaGraph.Yaml.Flow
import SchemaGraph.Yaml.Token

set_option autoImplicit false

/-! # The layout of a YAML text

The tokens of a text, with the blocks its indentation draws. A mapping key need not be marked:
it shows itself only by the colon after it, so the places where a key may start are remembered,
one for every level of brackets, and the colon puts the missing tokens in there.
-/

namespace SchemaGraph

namespace Yaml

/-- A place where a mapping key may start. -/
structure KeyPlace where
  /-- Nothing but a key may stand here. -/
  required : Bool
  /-- How many tokens come before it. -/
  before : Nat
  cursor : Cursor

namespace KeyPlace

/-- A key ends on the line it starts on, and within this many bytes. -/
def reach : Nat := 1024

/-- A colon at the cursor comes too late for a key from this place. -/
def isStale (place : KeyPlace) (cursor : Cursor) : Bool :=
  place.cursor.line < cursor.line || place.cursor.index + reach < cursor.index

end KeyPlace

/-- How far a text is cut into tokens. -/
structure Layout where
  cursor : Cursor
  /-- The tokens found so far, the last one first. -/
  tokens : List Token
  /-- The column of the innermost block, `-1` outside all blocks. -/
  indent : Int
  /-- The columns of the blocks around it. -/
  outer : List Int
  /-- Where a key may start, within the innermost brackets. -/
  place : Option KeyPlace
  /-- Where a key may start, for each of the levels of brackets around those. -/
  outerPlaces : List (Option KeyPlace)
  /-- A key that is not marked may start here. -/
  keyAllowed : Bool

namespace Layout

/-- Nothing is read yet. -/
def start (text : List Char) : Layout := ⟨Cursor.start text, [], -1, [], none, [], true⟩

def inFlow (layout : Layout) : Bool := !layout.outerPlaces.isEmpty

def push (token : Token) (layout : Layout) : Layout :=
  { layout with tokens := token :: layout.tokens }

/-- Put a token after the first `n` tokens. -/
def insertAfter (n : Nat) (token : Token) (layout : Layout) : Layout :=
  { layout with tokens := layout.tokens.insertIdx (layout.tokens.length - n) token }

/-- The token at the cursor is `n` characters long. -/
def pushSign (n : Nat) (token : Token) (layout : Layout) : Layout :=
  { layout with cursor := layout.cursor.skip n, tokens := token :: layout.tokens }

def allowKey (allowed : Bool) (layout : Layout) : Layout := { layout with keyAllowed := allowed }

/-! ## Places of keys -/

/-- No key starts at the remembered place, if that may be. -/
def dropPlace? (layout : Layout) : Option Layout :=
  if layout.place.any KeyPlace.required then none else some { layout with place := none }

/-- Remember the cursor as a place where a key may start. -/
def offerPlace? (layout : Layout) : Option Layout :=
  if !layout.keyAllowed then some layout
  else do
    let dropped ← layout.dropPlace?
    let required := !layout.inFlow && layout.indent == layout.cursor.column
    some { dropped with place := some ⟨required, layout.tokens.length, layout.cursor⟩ }

/-- Forget the places a key can no longer start from; none of them may be required. -/
def dropStale? (layout : Layout) : Option Layout :=
  let stale (place : Option KeyPlace) : Bool := place.any (·.isStale layout.cursor)
  let places := layout.place :: layout.outerPlaces
  if places.any fun place => stale place && place.any KeyPlace.required then none
  else
    let fresh (place : Option KeyPlace) : Option KeyPlace := if stale place then none else place
    some { layout with place := fresh layout.place, outerPlaces := layout.outerPlaces.map fresh }

/-! ## Blocks -/

/-- Open a block in a column, if it is further right than the innermost one. Its token comes
after the first `before` tokens. -/
def openBlock (column before : Nat) (token : Token) (layout : Layout) : Layout :=
  if layout.inFlow || (column : Int) ≤ layout.indent then layout
  else
    { layout.insertAfter before token with indent := column, outer := layout.indent :: layout.outer }

/-- Open a block at the cursor. -/
def openBlockHere (token : Token) (layout : Layout) : Layout :=
  layout.openBlock layout.cursor.column layout.tokens.length token

/-- The blocks right of a column are left: how many they are, and what is around them. -/
def leave (column indent : Int) : List Int → Nat × Int × List Int
  | [] => (0, indent, [])
  | next :: outer =>
    if column < indent then
      let (n, indent, outer) := leave column next outer
      (n + 1, indent, outer)
    else (0, indent, next :: outer)

/-- Close the blocks right of a column. -/
def closeBlocks (column : Int) (layout : Layout) : Layout :=
  if layout.inFlow then layout
  else
    let (n, indent, outer) := leave column layout.indent layout.outer
    { layout with
      tokens := List.replicate n Token.blockEnd ++ layout.tokens, indent := indent, outer := outer }

/-! ## Tokens -/

/-- Go to the next token. Outside brackets a tab may not stand where a key may start, and a new
line is such a place. -/
def skipBlank : Nat → Layout → Layout
  | 0, layout => layout
  | steps + 1, layout =>
    let opened :=
      if layout.cursor.column == 0 && layout.cursor.rest.head?.any isByteOrderMark then
        layout.cursor.skip 1
      else layout.cursor
    let tabs := layout.inFlow || !layout.keyAllowed
    let cursor := (opened.skipRun fun c => c == ' ' || (tabs && c == '\t')).skipComment
    if cursor.atBreak then
      skipBlank steps
        { layout with
          cursor := cursor.takeBreak.2, keyAllowed := layout.keyAllowed || !layout.inFlow }
    else { layout with cursor := cursor }

/-- A directive, or a mark between documents, outside all blocks. -/
def outsideBlocks? (layout : Layout) : Option Layout := do
  let layout ← (layout.closeBlocks (-1)).dropPlace?
  some (layout.allowKey false)

/-- The end of the text. -/
def finish? (layout : Layout) : Option Layout := layout.outsideBlocks?

def directive? (layout : Layout) : Option Layout := do
  let layout ← layout.outsideBlocks?
  let (token, cursor) ← readDirective? layout.cursor
  some { layout.push token with cursor := cursor }

def documentMark? (token : Token) (layout : Layout) : Option Layout := do
  let layout ← layout.outsideBlocks?
  some (layout.pushSign 3 token)

/-- An opening bracket, which may start a key itself. -/
def openBracket? (token : Token) (layout : Layout) : Option Layout := do
  let layout ← layout.offerPlace?
  let opened := { layout with place := none, outerPlaces := layout.place :: layout.outerPlaces }
  some ((opened.allowKey true).pushSign 1 token)

def closeBracket? (token : Token) (layout : Layout) : Option Layout := do
  let layout ← layout.dropPlace?
  let closed := match layout.outerPlaces with
    | place :: outer => { layout with place := place, outerPlaces := outer }
    | [] => layout
  some ((closed.allowKey false).pushSign 1 token)

def comma? (layout : Layout) : Option Layout := do
  let layout ← layout.dropPlace?
  some ((layout.allowKey true).pushSign 1 .flowEntry)

/-- A sign that opens an item of a block: it opens the block as well, if this is its first. -/
def blockSign? (start token : Token) (keyAfter : Bool) (layout : Layout) : Option Layout :=
  if !layout.inFlow && !layout.keyAllowed then none
  else do
    let layout ← (layout.openBlockHere start).dropPlace?
    some ((layout.allowKey keyAfter).pushSign 1 token)

/-- A colon: it ends a key from the remembered place, or a marked key. -/
def colon? (layout : Layout) : Option Layout :=
  match layout.place with
  | some place =>
    let marked := layout.insertAfter place.before .key
    let opened := marked.openBlock place.cursor.column place.before .blockMappingStart
    some (({ opened with place := none }.allowKey false).pushSign 1 .value)
  | none =>
    if !layout.inFlow && !layout.keyAllowed then none
    else
      let opened := layout.openBlockHere .blockMappingStart
      some ((opened.allowKey (!layout.inFlow)).pushSign 1 .value)

/-- A token that may start a key, given what reads it. -/
def content? (read : Cursor → Option (Token × Cursor)) (layout : Layout) : Option Layout := do
  let layout ← layout.offerPlace?
  let (token, cursor) ← read layout.cursor
  some { (layout.push token).allowKey false with cursor := cursor }

def quoted? (quote : Quote) (layout : Layout) : Option Layout :=
  layout.content? fun cursor => do
    let (text, after) ← readQuoted? quote (cursor.rest.length + 1) (cursor.skip 1)
    some (.scalar text false, after)

/-- A plain scalar. A key may start after it if a line break comes first. -/
def plain? (layout : Layout) : Option Layout := do
  let layout ← layout.offerPlace?
  let cursor := layout.cursor
  let (text, broken, after) ←
    readPlain? layout.inFlow (layout.indent + 1) (cursor.rest.length + 1) Gap.none cursor
  some { (layout.push (.scalar text true)).allowKey broken with cursor := after }

/-- A block scalar, which starts no key. -/
def block? (folded : Bool) (layout : Layout) : Option Layout := do
  let layout ← layout.dropPlace?
  let (text, after) ← readBlock? folded layout.indent (layout.cursor.skip 1)
  some { (layout.push (.scalar text false)).allowKey true with cursor := after }

/-- The signs no plain scalar starts with. -/
def indicators : List Char :=
  flowIndicators ++
    ['-', '?', ':', '#', '&', '*', '!', '|', '>', '\'', '"', '%', '@', Char.ofNat 0x60]

/-- A plain scalar starts with `c` at the cursor. -/
def startsPlain (layout : Layout) (c : Char) : Bool :=
  let next := layout.cursor.skip 1
  if c == '-' then !next.atSpacing
  else if c == '?' || c == ':' then !layout.inFlow && !next.endsWordAfter 0
  else !isSpacing c && !isBreak c && !indicators.contains c

/-- Read the token that starts with `c` at the cursor. -/
def tokenAt? (c : Char) (layout : Layout) : Option Layout :=
  let cursor := layout.cursor
  let inFlow := layout.inFlow
  let alone := cursor.endsWordAfter 1
  if c == '%' && cursor.column == 0 then layout.directive?
  else if cursor.atDocumentMark then
    layout.documentMark? (if c == '-' then .documentStart else .documentEnd)
  else if c == '[' then layout.openBracket? .flowSequenceStart
  else if c == '\x7b' then layout.openBracket? .flowMappingStart
  else if c == ']' then layout.closeBracket? .flowSequenceEnd
  else if c == '\x7d' then layout.closeBracket? .flowMappingEnd
  else if c == ',' then layout.comma?
  else if c == '-' && alone then layout.blockSign? .blockSequenceStart .blockEntry true
  else if c == '?' && (inFlow || alone) then layout.blockSign? .blockMappingStart .key (!inFlow)
  else if c == ':' && (inFlow || alone) then layout.colon?
  else if c == '*' then
    layout.content? fun cursor => (readName? cursor).map fun (name, after) => (.aliasOf name, after)
  else if c == '&' then
    layout.content? fun cursor => (readName? cursor).map fun (name, after) => (.anchor name, after)
  else if c == '!' then layout.content? (readTag? inFlow)
  else if c == '|' && !inFlow then layout.block? false
  else if c == '>' && !inFlow then layout.block? true
  else if c == '\'' then layout.quoted? .single
  else if c == '"' then layout.quoted? .double
  else if layout.startsPlain c then layout.plain?
  else none

/-- Read all tokens, in the order of the text. -/
def readTokens? : Nat → Layout → Option (List Token)
  | 0, _ => none
  | steps + 1, layout => do
    let layout ← (skipBlank (layout.cursor.rest.length + 1) layout).dropStale?
    let layout := layout.closeBlocks layout.cursor.column
    match layout.cursor.rest with
    | [] => layout.finish?.map fun layout => layout.tokens.reverse
    | c :: _ => (layout.tokenAt? c).bind (readTokens? steps)

end Layout

/-- The tokens of a text. -/
def tokensOf? (text : List Char) : Option (List Token) :=
  Layout.readTokens? (text.length + 1) (Layout.start text)

end Yaml

end SchemaGraph

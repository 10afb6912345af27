import SchemaGraph.Text.Basic
import SchemaGraph.Text.Percent

set_option autoImplicit false

/-! # Locations in a document

A path is the URI of a document and the pointer segments below its root. As text it is the URI,
`#`, and every segment after a `/`, with `~` written `~0` and `/` written `~1`. The root of the
document without a URI is written `#`, any other root by its URI alone.
-/

namespace SchemaGraph

/-! ## Pointer segments -/

namespace Segment

/-- Write `~` as `~0` and `/` as `~1`. -/
def escape (text : List Char) : List Char :=
  text.flatMap fun c => if c == '~' then ['~', '0'] else if c == '/' then ['~', '1'] else [c]

/-- Replace every `~1` by `/`. -/
def unescapeSlash : List Char → List Char
  | [] => []
  | '~' :: '1' :: rest => '/' :: unescapeSlash rest
  | c :: rest => c :: unescapeSlash rest

/-- Replace every `~0` by `~`. -/
def unescapeTilde : List Char → List Char
  | [] => []
  | '~' :: '0' :: rest => '~' :: unescapeTilde rest
  | c :: rest => c :: unescapeTilde rest

/-- Undo `escape`: first the slashes, then the tildes. -/
def unescape (text : List Char) : List Char := unescapeTilde (unescapeSlash text)

end Segment

/-- The document and the fragment of a URI, cut at the first `#`. -/
def splitFragment (uri : List Char) : List Char × List Char :=
  (cutAt? '#' uri).getD (uri, [])

/-- A location: the URI of a document and the segments below its root. -/
structure Path where
  base : String
  parts : List String
  deriving DecidableEq, Repr, Inhabited

namespace Path

/-- The root of the document without a URI. -/
def root : Path := ⟨"", []⟩

/-- The location a URI names. Empty segments are dropped; percent escapes and `~` escapes are
decoded. -/
def ofUri (uri : String) : Path :=
  let (base, fragment) := splitFragment uri.toList
  let pieces := (splitOn '/' fragment).filter fun piece => !piece.isEmpty
  ⟨String.ofList base,
    pieces.map fun piece => String.ofList (Segment.unescape (Percent.decode piece))⟩

/-- The location one segment further down. -/
def child (path : Path) (part : String) : Path := { path with parts := path.parts ++ [part] }

/-- The location of an item of a list. -/
def item (path : Path) (index : Nat) : Path := path.child (toString index)

/-- The enclosing location; a root is its own parent. -/
def parent (path : Path) : Path := { path with parts := path.parts.dropLast }

def isRoot (path : Path) : Bool := path.parts.isEmpty

/-- The text of a location. -/
def text (path : Path) : String :=
  if path.parts.isEmpty then (if path.base.isEmpty then "#" else path.base)
  else
    String.ofList (path.base.toList ++
      '#' :: path.parts.flatMap fun part => '/' :: Segment.escape part.toList)

/-- The order of locations: by their text, then by their segments, then by their document. -/
def compare (a b : Path) : Ordering :=
  if a == b then .eq
  else (Ord.compare a.text b.text).then
    ((compareOfLessAndEq a.parts b.parts).then (Ord.compare a.base b.base))

end Path

end SchemaGraph

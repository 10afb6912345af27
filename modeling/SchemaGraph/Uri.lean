import SchemaGraph.Path
import SchemaGraph.Url.Parse

set_option autoImplicit false

/-! # Joining references

References and scopes are often relative (`#/components/…`, `pets.yaml#/Pet`) and there is no
URL to resolve them against. Relative ones are resolved against a placeholder, which is taken
off again, so that a relative scope stays relative.
-/

namespace SchemaGraph

namespace Uri

/-- What relative scopes are resolved against. -/
def placeholder : String := "http://resolver.invalid/"

/-- The text without a given beginning. -/
def withoutStart? (start text : List Char) : Option (List Char) :=
  if start.isPrefixOf text then some (text.drop start.length) else none

/-- Resolve a relative reference against a relative base. -/
def joinRelative (base reference : String) : String :=
  let joined := do
    let placeholder ← Url.read? placeholder
    let base ← placeholder.join? base
    base.join? reference
  match joined with
  | none => reference
  | some url =>
    let rooted := base.toList.head? == some '/' || reference.toList.head? == some '/'
    let start := if rooted then placeholder.toList.dropLast else placeholder.toList
    match withoutStart? start url.text.toList with
    | some rest => String.ofList rest
    | none => url.text

/-- Resolve a reference against a base.

An empty reference is the base itself, and a reference that is a URL is that URL. Else a base
that is a URL resolves it, and a relative base resolves a fragment by its document and anything
else as a relative path. A reference that cannot be resolved stays as it is. -/
def join (base reference : String) : String :=
  if reference.isEmpty then base
  else match Url.read? reference with
    | some url => url.text
    | none =>
      match Url.read? base with
      | some url => ((url.join? reference).map Url.text).getD reference
      | none =>
        match reference.toList with
        | '#' :: fragment =>
          String.ofList ((splitFragment base.toList).1 ++ '#' :: fragment)
        | _ => joinRelative base reference

/-- The document and the fragment of a URI. -/
def defrag (uri : String) : String × String :=
  let (document, fragment) := splitFragment uri.toList
  (String.ofList document, String.ofList fragment)

/-- The scheme of an absolute URI. -/
def scheme? (uri : String) : Option String :=
  (Url.read? uri).map fun url => String.ofList url.scheme

/-- The decoded segments of a pointer. Leading slashes are dropped, the rest is percent-decoded
as a whole and then cut at its slashes. -/
def pointerSegments (fragment : String) : List String :=
  let pointer := fragment.toList.dropWhile (· == '/')
  if pointer.isEmpty then []
  else (splitOn '/' (Percent.decode pointer)).map fun piece =>
    String.ofList (Segment.unescape piece)

end Uri

end SchemaGraph

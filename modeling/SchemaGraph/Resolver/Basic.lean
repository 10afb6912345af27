import SchemaGraph.Config
import SchemaGraph.Error
import SchemaGraph.Uri

set_option autoImplicit false

/-! # Resolution of references

A resolver keeps a stack of scopes. Following a reference enters the scope it resolved to, so
that references inside the target are relative to it; leaving the target leaves the scope. The
base scope is never left.

Documents come from the store, or else from the retriever of their scheme, and are kept if the
resolver is told so. Joined and resolved references are remembered for a while. Every operation
that may change the resolver gives the changed one back beside its answer, on failures too.
-/

namespace SchemaGraph

/-! ## Memory for what was used recently

A list of keys and values, the ones used last in front. When the memory is full, the entry that
was not used for the longest time is forgotten.
-/

/-- A memory for at most `capacity` entries. -/
structure Recent (κ α : Type) where
  capacity : Nat
  entries : List (κ × α)
  deriving Repr, Inhabited

namespace Recent

variable {κ α : Type} [BEq κ]

/-- An empty memory; it has room for one entry at least. -/
def empty (capacity : Nat) : Recent κ α := ⟨max 1 capacity, []⟩

/-- The value under a key. -/
def find? (memory : Recent κ α) (key : κ) : Option α := memory.entries.lookup key

/-- Put an entry in front, in place of one with the same key, and forget what has no room. -/
def put (memory : Recent κ α) (key : κ) (value : α) : Recent κ α :=
  { memory with
    entries := ((key, value) :: memory.entries.filter fun (k, _) => !(k == key)).take
      memory.capacity }

end Recent

/-! ## Resolvers -/

/-- How the document of a URI is retrieved. -/
abbrev Retriever := String → Except ResolveError Json

structure Resolver where
  /-- The scope that is never left. -/
  base : String
  /-- The scopes entered, innermost first. -/
  entered : List String
  /-- Documents under their URIs. -/
  store : List (String × Json)
  /-- Retrievers under their schemes; the empty scheme is that of relative URIs. -/
  retrievers : List (String × Retriever)
  /-- Keep retrieved documents in the store. -/
  cacheRemote : Bool
  joins : Recent (String × String) String
  resolved : Recent String Json
  /-- The URIs that retrievers were asked for, last one first. -/
  asked : List String

namespace Resolver

/-- A resolver for a document and its URI, with memories of the given sizes. -/
def withCapacity (retrievers : List (String × Retriever)) (base : String) (document : Json)
    (joinCacheSize remoteCacheSize : Nat) : Resolver where
  base
  entered := []
  store := [((Uri.defrag base).1, document)]
  retrievers
  cacheRemote := true
  joins := .empty joinCacheSize
  resolved := .empty remoteCacheSize
  asked := []

/-- A resolver for a document and its URI. -/
def ofDocument (retrievers : List (String × Retriever)) (base : String) (document : Json) :
    Resolver :=
  withCapacity retrievers base document 1024 1024

/-- A resolver for a document, with the settings of a compiler. -/
def ofConfig (retrievers : List (String × Retriever)) (document : Json) (config : Config) :
    Resolver :=
  { withCapacity retrievers config.baseUri document config.joinCacheSize config.remoteCacheSize
    with cacheRemote := config.cacheRemote }

/-- Install the retriever of a scheme, in place of the one before. -/
def withRetriever (resolver : Resolver) (scheme : String) (retriever : Retriever) : Resolver :=
  { resolver with retrievers := Entries.insertLast scheme retriever resolver.retrievers }

/-- Put a document under a URI into the store. -/
def addDocument (resolver : Resolver) (uri : String) (document : Json) : Resolver :=
  { resolver with store := Entries.insertLast (Uri.defrag uri).1 document resolver.store }

/-- The document stored under a URI. -/
def document? (resolver : Resolver) (uri : String) : Option Json :=
  Entries.find? (Uri.defrag uri).1 resolver.store

/-! ## Scopes -/

/-- What relative references resolve against. -/
def scope (resolver : Resolver) : String := resolver.entered.headD resolver.base

/-- The scope without its fragment. -/
def baseUri (resolver : Resolver) : String := (Uri.defrag resolver.scope).1

/-- Join a reference to a base, by memory if this was done before. -/
def join (resolver : Resolver) (base reference : String) : String × Resolver :=
  let joined := (resolver.joins.find? (base, reference)).getD (Uri.join base reference)
  (joined, { resolver with joins := resolver.joins.put (base, reference) joined })

/-- Enter a scope, given relative to the one before. -/
def pushScope (resolver : Resolver) (reference : String) : Resolver :=
  let (joined, resolver) := resolver.join resolver.scope reference
  { resolver with entered := joined :: resolver.entered }

/-- Leave the innermost scope. -/
def popScope (resolver : Resolver) : Except ResolveError Resolver :=
  match resolver.entered with
  | [] => .error .emptyScopeStack
  | _ :: outer => .ok { resolver with entered := outer }

/-- Leave the innermost scope, if there is one to leave. -/
def leaveScope (resolver : Resolver) : Resolver :=
  { resolver with entered := resolver.entered.tail }

/-! ## Documents -/

/-- The part of a document that a fragment points at. -/
def resolveFragment (document : Json) (fragment : String) : Except ResolveError Json :=
  match document.walk? (Uri.pointerSegments fragment) with
  | some part => .ok part
  | none => .error (.unresolvable fragment)

/-- Retrieve a document, whether it is stored or not. -/
def retrieve (resolver : Resolver) (uri : String) : Except ResolveError Json × Resolver :=
  let scheme := (Uri.scheme? uri).getD ""
  match Entries.find? scheme resolver.retrievers with
  | none => (.error (.unsupportedScheme scheme uri), resolver)
  | some retriever =>
    let resolver := { resolver with asked := uri :: resolver.asked }
    match retriever uri with
    | .error e => (.error e, resolver)
    | .ok document =>
      let store := if resolver.cacheRemote then Entries.insertLast uri document resolver.store
        else resolver.store
      (.ok document, { resolver with store })

/-- The value a URL points at. -/
def resolveUrl (resolver : Resolver) (url : String) : Except ResolveError Json × Resolver :=
  let (uri, fragment) := Uri.defrag url
  match Entries.find? uri resolver.store with
  | some document => (resolveFragment document fragment, resolver)
  | none =>
    let (retrieved, resolver) := resolver.retrieve uri
    (retrieved.bind fun document => resolveFragment document fragment, resolver)

/-- Resolve a reference in the current scope: the URL of the target, to be entered as scope,
and the target. -/
def resolve (resolver : Resolver) (reference : String) :
    Except ResolveError (String × Json) × Resolver :=
  let (url, resolver) := resolver.join resolver.scope reference
  match resolver.resolved.find? url with
  | some target =>
    (.ok (url, target), { resolver with resolved := resolver.resolved.put url target })
  | none =>
    let (found, resolver) := resolver.resolveUrl url
    match found with
    | .error e => (.error e, resolver)
    | .ok target =>
      (.ok (url, target), { resolver with resolved := resolver.resolved.put url target })

end Resolver

end SchemaGraph

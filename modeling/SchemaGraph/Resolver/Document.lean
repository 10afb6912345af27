import SchemaGraph.Json.Read
import SchemaGraph.Resolver.Basic
import SchemaGraph.Yaml.Read

set_option autoImplicit false

/-! # Documents

Documents are written in YAML or in JSON. They come from files, which are known by a function
from their names to their contents, or from a table of documents held in memory.
-/

namespace SchemaGraph

namespace Document

/-- The document a text writes: what is no YAML may still be JSON. -/
def read? (text : String) : Option Json := (Yaml.read? text).or (Json.read? text)

/-- The document a text writes, found under a URI. -/
def read (uri text : String) : Except ResolveError Json :=
  match read? text with
  | some document => .ok document
  | none => .error (.unknownFormat uri)

/-- A document held in memory. -/
inductive Source where
  | text (written : String)
  | document (value : Json)

end Document

namespace Retriever

/-- The name of the file a URI stands for: the path of a file URL, else the URI itself. -/
def fileName? (uri : String) : Option String :=
  if "file:".toList.isPrefixOf uri.toList then (Url.read? uri).bind Url.filePath? else some uri

/-- Read documents from files. -/
def ofFiles (files : String → Option String) : Retriever := fun uri =>
  match fileName? uri with
  | none => .error (.fetch uri "not a local file path")
  | some name =>
    match files name with
    | none => .error .unreadable
    | some text => Document.read uri text

/-- Take documents from a table. -/
def ofTable (table : List (String × Document.Source)) : Retriever := fun uri =>
  match Entries.find? uri table with
  | none => .error (.fetch uri "no such document")
  | some (.text written) => Document.read uri written
  | some (.document value) => .ok value

/-- The retrievers every resolver starts with: files, for file URLs and for relative URIs. -/
def builtIn (files : String → Option String) : List (String × Retriever) :=
  [("", ofFiles files), ("file", ofFiles files)]

end Retriever

end SchemaGraph

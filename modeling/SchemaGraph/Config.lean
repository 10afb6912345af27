import SchemaGraph.Message.Table
import SchemaGraph.Mode

set_option autoImplicit false

/-! # Settings of a compiler

Every setting has a default. Settings are read from an object, in which unknown fields are
ignored, or from an array of the fields in their order, of which the last ones may be missing.
A field of the wrong type makes all settings unreadable.
-/

namespace SchemaGraph

structure Config where
  /-- URI of the document; relative references resolve against it. -/
  baseUri : String
  /-- Keep fetched documents. -/
  cacheRemote : Bool
  /-- How many joined references are remembered. -/
  joinCacheSize : Nat
  /-- How many resolved references are remembered. -/
  remoteCacheSize : Nat
  /-- An unknown `format` is an error. -/
  strictFormats : Bool
  /-- Check schemas against the model of a schema before compiling them. -/
  checkSchemas : Bool
  /-- Objects with a `discriminator` become unions of the schemas extending them. -/
  allowPolymorphism : Bool
  /-- Replacement texts for every compiled node. -/
  messageOverrides : List (MessageKey × String)
  deriving DecidableEq, Repr, Inhabited

namespace Config

def default : Config where
  baseUri := ""
  cacheRemote := true
  joinCacheSize := 1024
  remoteCacheSize := 1024
  strictFormats := false
  checkSchemas := true
  allowPolymorphism := true
  messageOverrides := []

/-- The overrides as a message table. -/
def messages (config : Config) : Messages := ⟨config.messageOverrides⟩

/-- Message texts under the names of their keys. -/
def overridesOfEntries? : List (String × Json) → Option (List (MessageKey × String))
  | [] => some []
  | (name, text) :: rest => do
    let key ← MessageKey.ofName? name
    let text ← text.asStr?
    let more ← overridesOfEntries? rest
    some ((key, text) :: more)

def overridesOfJson? (j : Json) : Option (List (MessageKey × String)) :=
  j.asObj?.bind overridesOfEntries?

/-- The names of the fields in their order. -/
def fieldNames : List String :=
  ["base_uri", "cache_remote", "join_cache_size", "remote_cache_size", "strict_formats",
    "check_schemas", "allow_polymorphism", "message_overrides"]

/-- Read the fields that `lookup` gives, with the defaults for the others. -/
def ofFields? (lookup : String → Option Json) : Option Config := do
  let field {α : Type} (name : String) (read : Json → Option α) (default : α) : Option α :=
    match lookup name with
    | some j => read j
    | none => some default
  let baseUri ← field "base_uri" Json.asStr? default.baseUri
  let cacheRemote ← field "cache_remote" Json.asBool? default.cacheRemote
  let joinCacheSize ← field "join_cache_size" Json.asCount? default.joinCacheSize
  let remoteCacheSize ← field "remote_cache_size" Json.asCount? default.remoteCacheSize
  let strictFormats ← field "strict_formats" Json.asBool? default.strictFormats
  let checkSchemas ← field "check_schemas" Json.asBool? default.checkSchemas
  let allowPolymorphism ← field "allow_polymorphism" Json.asBool? default.allowPolymorphism
  let messageOverrides ← field "message_overrides" overridesOfJson? default.messageOverrides
  some {
    baseUri, cacheRemote, joinCacheSize, remoteCacheSize, strictFormats, checkSchemas,
    allowPolymorphism, messageOverrides }

/-- Read settings. -/
def ofJson? : Json → Option Config
  | .obj entries => ofFields? fun name => Entries.find? name entries
  | .arr items =>
    if fieldNames.length < items.length then none
    else ofFields? fun name => Entries.find? name (fieldNames.zip items)
  | _ => none

/-- All settings as an object. -/
def toJson (config : Config) : Json :=
  Json.object [
    ("base_uri", .str config.baseUri),
    ("cache_remote", .bool config.cacheRemote),
    ("join_cache_size", Json.ofInt config.joinCacheSize),
    ("remote_cache_size", Json.ofInt config.remoteCacheSize),
    ("strict_formats", .bool config.strictFormats),
    ("check_schemas", .bool config.checkSchemas),
    ("allow_polymorphism", .bool config.allowPolymorphism),
    ("message_overrides",
      Json.object (config.messageOverrides.map fun (key, text) => (key.name, .str text)))]

end Config

end SchemaGraph

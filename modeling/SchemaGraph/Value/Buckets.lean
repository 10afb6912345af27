import SchemaGraph.Json.Basic

set_option autoImplicit false

/-! # Property buckets

The properties of a converted object stand in three buckets: those declared by the schema, those
matched by a pattern, and additional ones. Each bucket keeps its own order. After `settle` no
key stands in two buckets: a declared property wins over a pattern property, and that over an
additional one.
-/

namespace SchemaGraph

structure Buckets (α : Type) where
  declared : List (String × α)
  pattern : List (String × α)
  additional : List (String × α)
  deriving Repr, Inhabited

namespace Buckets

variable {α : Type}

def empty : Buckets α := ⟨[], [], []⟩

/-- All entries: declared first, then pattern, then additional. -/
def entries (b : Buckets α) : List (String × α) := b.declared ++ b.pattern ++ b.additional

def length (b : Buckets α) : Nat := b.entries.length

def isEmpty (b : Buckets α) : Bool := b.length == 0

/-- The value under a key in the first bucket that has it. -/
def find? (b : Buckets α) (key : String) : Option α := Entries.find? key b.entries

def contains (b : Buckets α) (key : String) : Bool := (b.find? key).isSome

/-- The buckets without a key. -/
def remove (b : Buckets α) (key : String) : Buckets α :=
  ⟨Entries.remove key b.declared, Entries.remove key b.pattern, Entries.remove key b.additional⟩

/-- Put every entry of the second list into the first; a key that is there keeps its place. -/
def extend (old new : List (String × α)) : List (String × α) :=
  new.foldl (fun done (key, value) => Entries.insertLast key value done) old

/-- The entries whose key the other list does not have. -/
def outside (other entries : List (String × α)) : List (String × α) :=
  entries.filter fun (key, _) => !Entries.contains key other

/-- Leave every key only in the first bucket that has it. -/
def settle (b : Buckets α) : Buckets α :=
  let pattern := outside b.declared b.pattern
  ⟨b.declared, pattern, outside pattern (outside b.declared b.additional)⟩

/-- Update bucket by bucket. -/
def update (b other : Buckets α) : Buckets α :=
  settle ⟨extend b.declared other.declared, extend b.pattern other.pattern,
    extend b.additional other.additional⟩

/-- Update the additional bucket. -/
def updateAdditional (b : Buckets α) (entries : List (String × α)) : Buckets α :=
  settle { b with additional := extend b.additional entries }

end Buckets

end SchemaGraph

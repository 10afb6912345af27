import SchemaGraph.Value.Basic

set_option autoImplicit false

/-! # Equality of values

Three notions of equality:

* `Json.same`: JSON equality in which `1` equals `1.0`;
* `Value.same`: equality of values of the same kind, where doubles compare as numbers,
  timestamps as instants, and buckets regardless of order;
* `Value.loosely`: equality of content, where integers and doubles compare as numbers and maps
  equal objects with the same entries.
-/

namespace SchemaGraph

/-- Two JSON numbers are the same: as integers if both are signed words, else as doubles. -/
def Number.same (a b : Number) : Bool :=
  match a.signed?, b.signed? with
  | some m, some n => m == n
  | _, _ => a.toDouble.sameNumber b.toDouble

namespace Json

mutual

/-- Equality of JSON values with numbers compared by value. -/
def same : Json → Json → Bool
  | null, null => true
  | bool a, bool b => a == b
  | num a, num b => a.same b
  | str a, str b => a == b
  | arr a, arr b => sameItems a b
  | obj a, obj b => a.length == b.length && sameEntries a b
  | _, _ => false

def sameItems : List Json → List Json → Bool
  | [], [] => true
  | a :: as, b :: bs => same a b && sameItems as bs
  | _, _ => false

/-- Every entry of the first list has its like in the second. -/
def sameEntries : List (String × Json) → List (String × Json) → Bool
  | [], _ => true
  | (key, a) :: as, bs =>
    (match Entries.find? key bs with
      | some b => same a b
      | none => false) && sameEntries as bs

end

end Json

namespace Value

/-- Equality of values that have no parts. -/
def sameScalar : Value → Value → Bool
  | null, null => true
  | bool a, bool b => a == b
  | integer a _, integer b _ => a == b
  | number a, number b => a.sameNumber b
  | string a, string b => a == b
  | date a, date b => a == b
  | timestamp a, timestamp b => a.sameInstant b
  | uuid a, uuid b => a == b
  | bytes a, bytes b => a == b
  | link a, link b => a == b
  | _, _ => false

mutual

/-- Equality of values of the same kind. -/
def same : Value → Value → Bool
  | array a, array b => sameItems a b
  | map a, map b => sameInOrder a b
  | object ⟨a, b, c⟩, object ⟨d, e, f⟩ =>
    a.length == d.length && sameEntries a d && (b.length == e.length && sameEntries b e) &&
      (c.length == f.length && sameEntries c f)
  | a, b => sameScalar a b

def sameItems : List Value → List Value → Bool
  | [], [] => true
  | a :: as, b :: bs => same a b && sameItems as bs
  | _, _ => false

def sameInOrder : List (String × Value) → List (String × Value) → Bool
  | [], [] => true
  | (k, a) :: as, (l, b) :: bs => k == l && same a b && sameInOrder as bs
  | _, _ => false

def sameEntries : List (String × Value) → List (String × Value) → Bool
  | [], _ => true
  | (key, a) :: as, bs =>
    (match Entries.find? key bs with
      | some b => same a b
      | none => false) && sameEntries as bs

end

/-! ## Content -/

mutual

/-- The value with every object replaced by the map of its entries. -/
def content : Value → Value
  | array items => array (contentItems items)
  | map entries => map (contentEntries entries)
  | object ⟨declared, pattern, additional⟩ =>
    map (Entries.sorted
      (contentEntries declared ++ contentEntries pattern ++ contentEntries additional))
  | scalar => scalar

def contentItems : List Value → List Value
  | [] => []
  | item :: rest => content item :: contentItems rest

def contentEntries : List (String × Value) → List (String × Value)
  | [] => []
  | (key, item) :: rest => (key, content item) :: contentEntries rest

end

/-- Two values without parts hold the same content: two integers exactly, other numbers as
doubles. -/
def looselyScalar : Value → Value → Bool
  | integer a _, integer b _ => a == b
  | a, b =>
    match a.asDouble?, b.asDouble? with
    | some x, some y => x.sameNumber y
    | _, _ => sameScalar a b

mutual

/-- Equality of contents. -/
def sameContent : Value → Value → Bool
  | array a, array b => sameContentItems a b
  | map a, map b => a.length == b.length && sameContentEntries a b
  | a, b => looselyScalar a b

def sameContentItems : List Value → List Value → Bool
  | [], [] => true
  | a :: as, b :: bs => sameContent a b && sameContentItems as bs
  | _, _ => false

def sameContentEntries : List (String × Value) → List (String × Value) → Bool
  | [], _ => true
  | (key, a) :: as, bs =>
    (match Entries.find? key bs with
      | some b => sameContent a b
      | none => false) && sameContentEntries as bs

end

/-- Numbers compare by value, booleans never equal numbers, and a map equals an object with the
same entries. -/
def loosely (a b : Value) : Bool := sameContent a.content b.content

end Value

end SchemaGraph

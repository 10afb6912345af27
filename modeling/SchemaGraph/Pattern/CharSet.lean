import SchemaGraph.Text.Basic
import SchemaGraph.Text.CaseFolding
import SchemaGraph.Text.Category
import SchemaGraph.Text.Script

set_option autoImplicit false

/-! # Sets of characters

The classes of a pattern: ranges, tables of Unicode properties, and what set operations and
the folding of case make of them.
-/

namespace SchemaGraph

/-- A set of characters. -/
inductive CharSet where
  | none
  | range (first last : Nat)
  | table (ranges : CodeRanges)
  | union (a b : CharSet)
  | inter (a b : CharSet)
  | minus (a b : CharSet)
  | either (a b : CharSet)
  | complement (a : CharSet)
  /-- All letters that differ from one of the set in case only. -/
  | folded (a : CharSet)
  deriving DecidableEq, Repr, Inhabited

namespace CharSet

def contains : CharSet → Nat → Bool
  | none, _ => false
  | range first last, code => first ≤ code && code ≤ last
  | table ranges, code => ranges.contains code
  | union a b, code => a.contains code || b.contains code
  | inter a b, code => a.contains code && b.contains code
  | minus a b, code => a.contains code && !b.contains code
  | either a b, code => a.contains code != b.contains code
  | complement a, code => !a.contains code
  | folded a, code => (CaseFolding.orbit code).any a.contains

def single (c : Char) : CharSet := range c.toNat c.toNat

def ofRanges (ranges : List (Nat × Nat)) : CharSet :=
  ranges.foldl (fun set (first, last) => union set (range first last)) none

/-- Fold the set if case is ignored. -/
def foldIf (ignoreCase : Bool) (set : CharSet) : CharSet := if ignoreCase then folded set else set

def complementIf (negated : Bool) (set : CharSet) : CharSet :=
  if negated then complement set else set

/-- How many ranges the set is made of, roughly. -/
def weight : CharSet → Nat
  | none => 0
  | range .. => 1
  | table ranges => 2 * ranges.length
  | union a b => a.weight + b.weight
  | inter a b => a.weight + b.weight
  | minus a b => a.weight + b.weight
  | either a b => a.weight + b.weight
  | complement a => a.weight
  | folded a => 2 * a.weight

/-! ## Named classes -/

def asciiDigit : CharSet := range 0x30 0x39

def asciiWord : CharSet := ofRanges [(0x30, 0x39), (0x41, 0x5a), (0x5f, 0x5f), (0x61, 0x7a)]

def asciiSpace : CharSet := ofRanges [(0x09, 0x0d), (0x20, 0x20)]

def digit : CharSet := table Category.nd.ranges

/-- Letters, marks, decimal digits, connectors and the two joiners. -/
def word : CharSet :=
  table (alphabetic ++ [Category.mn, .mc, .me, .nd, .pc].flatMap Category.ranges ++
    [⟨0x200c, 0x200d, 1⟩])

def space : CharSet :=
  ofRanges [(0x09, 0x0d), (0x20, 0x20), (0x85, 0x85), (0xa0, 0xa0), (0x1680, 0x1680),
    (0x2000, 0x200a), (0x2028, 0x2029), (0x202f, 0x202f), (0x205f, 0x205f), (0x3000, 0x3000)]

/-- The class of a name between `[:` and `:]`. -/
def ofAsciiName? (name : String) : Option CharSet :=
  match name with
  | "alnum" => some (ofRanges [(0x30, 0x39), (0x41, 0x5a), (0x61, 0x7a)])
  | "alpha" => some (ofRanges [(0x41, 0x5a), (0x61, 0x7a)])
  | "ascii" => some (range 0 0x7f)
  | "blank" => some (ofRanges [(0x09, 0x09), (0x20, 0x20)])
  | "cntrl" => some (ofRanges [(0, 0x1f), (0x7f, 0x7f)])
  | "digit" => some asciiDigit
  | "graph" => some (range 0x21 0x7e)
  | "lower" => some (range 0x61 0x7a)
  | "print" => some (range 0x20 0x7e)
  | "punct" => some (ofRanges [(0x21, 0x2f), (0x3a, 0x40), (0x5b, 0x60), (0x7b, 0x7e)])
  | "space" => some asciiSpace
  | "upper" => some (range 0x41 0x5a)
  | "word" => some asciiWord
  | "xdigit" => some (ofRanges [(0x30, 0x39), (0x41, 0x46), (0x61, 0x66)])
  | _ => Option.none

/-- The name of a property without case, blanks, hyphens, underlines and a leading `is`. -/
def normalName (name : String) : String :=
  let kept := (name.toList.map Ascii.toLower).filter fun c =>
    !(isBlank c || c == '-' || c == '_')
  match kept with
  | 'i' :: 's' :: rest => if rest == ['c'] then "isc" else String.ofList rest
  | _ => String.ofList kept

/-- The set of a general category, a group of them, or one of the catch-all classes. -/
def ofCategoryName? (name : String) : Option CharSet :=
  match name with
  | "any" => some (range 0 0x10ffff)
  | "ascii" => some (range 0 0x7f)
  | "assigned" => some (table Category.assigned)
  | "cn" | "unassigned" => some (complement (table Category.assigned))
  | "c" | "other" =>
    some (union (complement (table Category.assigned))
      (table ([Category.cc, .cf, .co, .cs].flatMap Category.ranges)))
  | "digit" => some (table Category.nd.ranges)
  | "punct" => ofGroup? "p"
  | "cntrl" => some (table Category.cc.ranges)
  | "combiningmark" => ofGroup? "m"
  | _ =>
    match Category.all.find? fun c => normalName c.shortName == name || normalName c.longName == name with
    | some c => some (table c.ranges)
    | Option.none => ofGroup? name
where
  ofGroup? (name : String) : Option CharSet :=
    (Category.groups.find? fun (short, long, _) => normalName short == name || normalName long == name).map
      fun (_, _, members) => table (members.flatMap Category.ranges)

/-- The characters of a script. -/
def ofScriptName? (name : String) : Option CharSet :=
  (Script.table.find? fun (short, long, _) => normalName short == name || normalName long == name).map
    fun (_, _, written) => table (CodeRanges.read written)

/-- The characters with a property that is either there or not. -/
def ofPropertyName? (name : String) : Option CharSet :=
  match name with
  | "alphabetic" | "alpha" => some (table alphabetic)
  | "lowercase" | "lower" => some (table lowercase)
  | "uppercase" | "upper" => some (table uppercase)
  | "whitespace" | "wspace" | "space" => some space
  | "asciihexdigit" | "ahex" => some (ofRanges [(0x30, 0x39), (0x41, 0x46), (0x61, 0x66)])
  | "joincontrol" | "joinc" => some (range 0x200c 0x200d)
  | _ => Option.none

/-- The class a property name stands for. -/
def ofName? (name : String) : Option CharSet :=
  let name := normalName name
  match ofPropertyName? name with
  | some set => some set
  | Option.none =>
    match ofCategoryName? name with
    | some set => some set
    | Option.none => ofScriptName? name

/-- The class of a property and one of its values. -/
def ofNameAndValue? (name value : String) : Option CharSet :=
  let value := normalName value
  match normalName name with
  | "gc" | "generalcategory" => ofCategoryName? value
  | "sc" | "script" | "scx" | "scriptextensions" => ofScriptName? value
  | _ => Option.none

end CharSet

end SchemaGraph

import SchemaGraph.Value.Basic

set_option autoImplicit false

/-! # Merging results

The results of one payload under several schemas become one value. Mappings are merged from
left to right into one object, arrays item by item with the same rule, and of anything else the
last result counts.
-/

namespace SchemaGraph

namespace Value

/-- Take a mapping into the buckets: an object bucket by bucket, a map as additional
properties. Other values change nothing. -/
def absorb (buckets : Buckets Value) : Value → Buckets Value
  | object other => buckets.update other
  | map entries => buckets.updateAdditional entries
  | _ => buckets

/-- Mappings from left to right. -/
def mergeMappings (results : List Value) : Value := object (results.foldl absorb .empty)

/-- One column of results: mappings are merged, else the last one counts. -/
def mergeColumn (results : List Value) : Value :=
  if results.all isMapping then mergeMappings results else results.getLast?.getD null

/-- The first `width` columns of rows of items. -/
def columns : Nat → List (List Value) → List (List Value)
  | 0, _ => []
  | width + 1, rows => rows.filterMap List.head? :: columns width (rows.map List.tail)

/-- The length of the shortest row. -/
def shortest (rows : List (List Value)) : Nat := ((rows.map List.length).min?).getD 0

/-- Merge results, first to last. -/
def merge (results : List Value) : Value :=
  if results.all isMapping then mergeMappings results
  else if results.all isArray then
    let rows := results.filterMap asArray?
    array ((columns (shortest rows) rows).map mergeColumn)
  else results.getLast?.getD null

end Value

end SchemaGraph

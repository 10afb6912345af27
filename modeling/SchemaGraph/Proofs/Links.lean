import SchemaGraph.Conversion.Text
import SchemaGraph.Proofs.Shows

set_option autoImplicit false

/-! # Links inside values

Where links stand in a value, however deep. What is taken over from a payload has none, and
merging makes none: every link of a merged value comes from one of the results (`links_merge`).
-/

namespace SchemaGraph

namespace Value

/-- A link to a location stands somewhere in a value. -/
inductive Links : Value → Path → Prop where
  | here (path : Path) : Links (.link path) path
  | item {items : List Value} {value : Value} {path : Path} (mem : value ∈ items)
      (links : Links value path) : Links (.array items) path
  | entry {entries : List (String × Value)} {key : String} {value : Value} {path : Path}
      (mem : (key, value) ∈ entries) (links : Links value path) : Links (.map entries) path
  | property {buckets : Buckets Value} {key : String} {value : Value} {path : Path}
      (mem : (key, value) ∈ buckets.entries) (links : Links value path) :
      Links (.object buckets) path

def isLink : Value → Bool
  | link _ => true
  | _ => false

variable {path : Path}

theorem links_array {items : List Value} :
    (array items).Links path ↔ ∃ value ∈ items, value.Links path := by
  constructor
  · rintro ⟨⟩
    exact ⟨_, ‹_›, ‹_›⟩
  · rintro ⟨value, hmem, hlinks⟩
    exact .item hmem hlinks

theorem links_map {entries : List (String × Value)} :
    (map entries).Links path ↔ ∃ entry ∈ entries, entry.2.Links path := by
  constructor
  · rintro ⟨⟩
    exact ⟨_, ‹_›, ‹_›⟩
  · rintro ⟨⟨key, value⟩, hmem, hlinks⟩
    exact .entry hmem hlinks

theorem links_object {buckets : Buckets Value} :
    (object buckets).Links path ↔ ∃ entry ∈ buckets.entries, entry.2.Links path := by
  constructor
  · rintro ⟨⟩
    exact ⟨_, ‹_›, ‹_›⟩
  · rintro ⟨⟨key, value⟩, hmem, hlinks⟩
    exact .property hmem hlinks

/-! ## Payloads that are taken over -/

theorem not_links_ofNumber (n : Number) : ¬(ofNumber n).Links path := by
  unfold ofNumber
  split
  · split <;> exact fun h => nomatch h
  · exact fun h => nomatch h

mutual

theorem not_links_ofJson : ∀ (payload : Json), ¬(ofJson payload).Links path
  | .null, h => nomatch h
  | .bool _, h => nomatch h
  | .num n, h => not_links_ofNumber n h
  | .str _, h => nomatch h
  | .arr items, .item mem links => not_links_ofItems items mem links
  | .obj entries, .entry mem links => not_links_ofEntries entries mem links

theorem not_links_ofItems : ∀ (items : List Json) {value : Value}, value ∈ ofItems items →
    ¬value.Links path
  | first :: rest, value, hmem => by
      rcases List.mem_cons.1 hmem with rfl | hmem
      · exact not_links_ofJson first
      · exact not_links_ofItems rest hmem

theorem not_links_ofEntries : ∀ (entries : List (String × Json)) {key : String} {value : Value},
    (key, value) ∈ ofEntries entries → ¬value.Links path
  | (_, first) :: rest, key, value, hmem => by
      rcases List.mem_cons.1 hmem with heq | hmem
      · cases heq
        exact not_links_ofJson first
      · exact not_links_ofEntries rest hmem

end

/-- Neither has the value of a text with a format. -/
theorem not_links_finish {format : TextFormat} {entity : Entity} {text : String} {value : Value}
    (h : format.finish? entity text = some value) : ¬value.Links path := by
  have hread : ∀ {value : Value}, format.read? text = some value → ¬value.Links path := by
    intro value h
    cases format with
    | date =>
        obtain ⟨date, -, rfl⟩ := Option.map_eq_some_iff.1 h
        exact fun h => nomatch h
    | timestamp =>
        obtain ⟨timestamp, -, rfl⟩ := Option.map_eq_some_iff.1 h
        exact fun h => nomatch h
    | pattern =>
        unfold TextFormat.read? at h
        dsimp only at h
        split at h <;> cases h
        exact fun h => nomatch h
    | uuid =>
        obtain ⟨uuid, -, rfl⟩ := Option.map_eq_some_iff.1 h
        exact fun h => nomatch h
    | bytes =>
        obtain ⟨bytes, -, rfl⟩ := Option.map_eq_some_iff.1 h
        exact fun h => nomatch h
  have hstring : value = .string text → ¬value.Links path := by
    rintro rfl h
    cases h
  unfold TextFormat.finish? at h
  split at h
  · obtain ⟨-, -, rfl⟩ := Option.map_eq_some_iff.1 h
    exact hstring rfl
  · cases h
    exact hstring rfl
  · cases h
    exact hstring rfl
  · exact hread h

/-! ## Merged results -/

theorem links_absorb {buckets : Buckets Value} {value : Value} {path : Path}
    (h : (Value.object (absorb buckets value)).Links path) :
    (Value.object buckets).Links path ∨ value.Links path := by
  obtain ⟨entry, hmem, hlinks⟩ := links_object.1 h
  cases value with
  | object other =>
      rcases Buckets.mem_update hmem with hmem | hmem
      · exact .inl (.property hmem hlinks)
      · exact .inr (.property hmem hlinks)
  | map entries =>
      -- a map counts as the additional entries of an object
      rcases @Buckets.mem_update _ _ _ ⟨[], [], entries⟩ hmem with hmem | hmem
      · exact .inl (.property hmem hlinks)
      · exact .inr (.entry hmem hlinks)
  | _ => exact .inl (.property hmem hlinks)

theorem links_mergeMappings {results : List Value} (h : (mergeMappings results).Links path) :
    ∃ value ∈ results, value.Links path := by
  have hfold : ∀ {results : List Value} {buckets : Buckets Value},
      (Value.object (results.foldl absorb buckets)).Links path →
        (Value.object buckets).Links path ∨ ∃ value ∈ results, value.Links path := by
    intro results
    induction results with
    | nil => exact fun h => .inl h
    | cons first rest ih =>
        intro buckets h
        rcases ih h with h | ⟨value, hvalue, hlinks⟩
        · exact (links_absorb h).imp_right fun h => ⟨first, List.mem_cons_self, h⟩
        · exact .inr ⟨value, List.mem_cons_of_mem first hvalue, hlinks⟩
  rcases hfold h with h | h
  · obtain ⟨entry, hmem, -⟩ := links_object.1 h
    cases hmem
  · exact h

/-- Of several results the last one counts, if there is one. -/
theorem links_getLast {results : List Value} (h : (results.getLast?.getD null).Links path) :
    ∃ value ∈ results, value.Links path := by
  cases hlast : results.getLast? with
  | none =>
      rw [hlast] at h
      cases h
  | some value =>
      rw [hlast] at h
      exact ⟨value, List.mem_of_getLast? hlast, h⟩

theorem links_mergeColumn {results : List Value} (h : (mergeColumn results).Links path) :
    ∃ value ∈ results, value.Links path := by
  unfold mergeColumn at h
  split at h
  · exact links_mergeMappings h
  · exact links_getLast h

/-- What stands in a column stands in a row. -/
theorem mem_columns {column : List Value} {value : Value} :
    ∀ {width : Nat} {rows : List (List Value)}, column ∈ columns width rows → value ∈ column →
      ∃ row ∈ rows, value ∈ row
  | width + 1, rows, hcolumn, hvalue => by
      rcases List.mem_cons.1 hcolumn with rfl | hcolumn
      · obtain ⟨row, hrow, hhead⟩ := List.mem_filterMap.1 hvalue
        exact ⟨row, hrow, List.mem_of_head? hhead⟩
      · obtain ⟨tail, htail, hmem⟩ := mem_columns hcolumn hvalue
        obtain ⟨row, hrow, rfl⟩ := List.mem_map.1 htail
        exact ⟨row, hrow, List.mem_of_mem_tail hmem⟩

/-- Every link of a merged value stands in one of the results. -/
theorem links_merge {results : List Value} (h : (merge results).Links path) :
    ∃ value ∈ results, value.Links path := by
  unfold merge at h
  split at h
  · exact links_mergeMappings h
  · split at h
    · obtain ⟨merged, hmem, hlinks⟩ := links_array.1 h
      obtain ⟨column, hcolumn, rfl⟩ := List.mem_map.1 hmem
      obtain ⟨value, hvalue, hlinks⟩ := links_mergeColumn hlinks
      -- lists merge index by index, and each row is one of the results
      obtain ⟨row, hrow, hmem⟩ := mem_columns hcolumn hvalue
      obtain ⟨result, hresult, harray⟩ := List.mem_filterMap.1 hrow
      refine ⟨result, hresult, ?_⟩
      cases result with
      | array items =>
          cases harray
          exact .item hmem hlinks
      | _ => cases harray
    · exact links_getLast h

end Value

end SchemaGraph

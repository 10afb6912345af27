import SchemaGraph.Proofs.Buckets
import SchemaGraph.Proofs.Links

set_option autoImplicit false

/-! # Objects inside values

Where objects stand in a value, however deep, and that none of them has a key in two buckets
(`Value.IsApart`). What is taken over from a payload has no objects, and merging settles what it
puts together.
-/

namespace SchemaGraph

namespace Value

/-- An object with these buckets stands somewhere in a value. -/
inductive Holds : Value → Buckets Value → Prop where
  | here (buckets : Buckets Value) : Holds (.object buckets) buckets
  | item {items : List Value} {value : Value} {buckets : Buckets Value} (mem : value ∈ items)
      (holds : Holds value buckets) : Holds (.array items) buckets
  | entry {entries : List (String × Value)} {key : String} {value : Value}
      {buckets : Buckets Value} (mem : (key, value) ∈ entries) (holds : Holds value buckets) :
      Holds (.map entries) buckets
  | property {outer : Buckets Value} {key : String} {value : Value} {buckets : Buckets Value}
      (mem : (key, value) ∈ outer.entries) (holds : Holds value buckets) :
      Holds (.object outer) buckets

/-- No object in a value has a key in two buckets. -/
def IsApart (value : Value) : Prop := ∀ buckets, value.Holds buckets → buckets.IsApart

variable {buckets : Buckets Value} {value : Value}

theorem isApart_array {items : List Value} :
    (array items).IsApart ↔ ∀ value ∈ items, value.IsApart := by
  constructor
  · exact fun h value hmem buckets hholds => h buckets (.item hmem hholds)
  · rintro h buckets ⟨⟩
    exact h _ ‹_› buckets ‹_›

theorem isApart_map {entries : List (String × Value)} :
    (map entries).IsApart ↔ ∀ entry ∈ entries, entry.2.IsApart := by
  constructor
  · exact fun h entry hmem buckets hholds => h buckets (.entry hmem hholds)
  · rintro h buckets ⟨⟩
    exact h (_, _) ‹_› buckets ‹_›

theorem isApart_object :
    (object buckets).IsApart ↔ buckets.IsApart ∧ ∀ entry ∈ buckets.entries, entry.2.IsApart := by
  constructor
  · exact fun h => ⟨h buckets (.here buckets), fun entry hmem inner hholds =>
      h inner (.property hmem hholds)⟩
  · rintro ⟨hhere, hinside⟩ inner hholds
    cases hholds with
    | here => exact hhere
    | property hmem hholds => exact hinside (_, _) hmem inner hholds

/-- A value that is a single datum. -/
theorem isApart_of_none (h : ∀ buckets, ¬value.Holds buckets) : value.IsApart :=
  fun buckets hholds => absurd hholds (h buckets)

theorem isApart_ofNumber (n : Number) : (ofNumber n).IsApart := by
  unfold ofNumber
  split
  · split <;> exact isApart_of_none (by rintro _ ⟨⟩)
  · exact isApart_of_none (by rintro _ ⟨⟩)

mutual

theorem isApart_ofJson : ∀ payload : Json, (ofJson payload).IsApart
  | .null => isApart_of_none (by rintro _ ⟨⟩)
  | .bool _ => isApart_of_none (by rintro _ ⟨⟩)
  | .num n => isApart_ofNumber n
  | .str _ => isApart_of_none (by rintro _ ⟨⟩)
  | .arr items => isApart_array.2 (isApart_ofItems items)
  | .obj entries => isApart_map.2 (isApart_ofEntries entries)

theorem isApart_ofItems : ∀ items : List Json, ∀ value ∈ ofItems items, value.IsApart
  | first :: rest, value, hmem => by
      rcases List.mem_cons.1 hmem with rfl | hmem
      · exact isApart_ofJson first
      · exact isApart_ofItems rest value hmem

theorem isApart_ofEntries :
    ∀ entries : List (String × Json), ∀ entry ∈ ofEntries entries, entry.2.IsApart
  | (_, first) :: rest, entry, hmem => by
      rcases List.mem_cons.1 hmem with rfl | hmem
      · exact isApart_ofJson first
      · exact isApart_ofEntries rest entry hmem

end

theorem isApart_finish {format : TextFormat} {entity : Entity} {text : String}
    (h : format.finish? entity text = some value) : value.IsApart := by
  have hstring : ∀ {text : String}, (Value.string text).IsApart :=
    isApart_of_none (by rintro _ ⟨⟩)
  have hread : ∀ {value : Value}, format.read? text = some value → value.IsApart := by
    intro value h
    cases format with
    | pattern =>
        unfold TextFormat.read? at h
        dsimp only at h
        split at h <;> cases h
        exact hstring
    | _ =>
        obtain ⟨_, -, rfl⟩ := Option.map_eq_some_iff.1 h
        exact isApart_of_none (by rintro _ ⟨⟩)
  unfold TextFormat.finish? at h
  split at h
  · obtain ⟨-, -, rfl⟩ := Option.map_eq_some_iff.1 h
    exact hstring
  · cases h
    exact hstring
  · cases h
    exact hstring
  · exact hread h

/-! ## Merged results -/

/-- Taking a mapping in settles the buckets. -/
theorem isApart_absorb (hbuckets : (object buckets).IsApart) (hvalue : value.IsApart) :
    (object (absorb buckets value)).IsApart := by
  obtain ⟨hapart, hinside⟩ := isApart_object.1 hbuckets
  cases value with
  | object other =>
      refine isApart_object.2 ⟨Buckets.settle_isApart _, fun entry hmem => ?_⟩
      rcases Buckets.mem_update hmem with hmem | hmem
      · exact hinside entry hmem
      · exact (isApart_object.1 hvalue).2 entry hmem
  | map entries =>
      refine isApart_object.2 ⟨Buckets.settle_isApart _, fun entry hmem => ?_⟩
      rcases @Buckets.mem_update _ _ _ ⟨[], [], entries⟩ hmem with hmem | hmem
      · exact hinside entry hmem
      · exact isApart_map.1 hvalue entry hmem
  | _ => exact isApart_object.2 ⟨hapart, hinside⟩

theorem isApart_mergeMappings {results : List Value} (h : ∀ value ∈ results, value.IsApart) :
    (mergeMappings results).IsApart := by
  have hfold : ∀ {results : List Value} {buckets : Buckets Value}, (object buckets).IsApart →
      (∀ value ∈ results, value.IsApart) →
        (object (results.foldl absorb buckets)).IsApart := by
    intro results
    induction results with
    | nil => exact fun hbuckets _ => hbuckets
    | cons first rest ih =>
        exact fun hbuckets hresults => ih
          (isApart_absorb hbuckets (hresults first List.mem_cons_self))
          fun value hvalue => hresults value (List.mem_cons_of_mem first hvalue)
  refine hfold (isApart_object.2 ⟨?_, fun entry hentry => nomatch hentry⟩) h
  exact Buckets.isApart_of (fun _ h => nomatch h) fun _ h => nomatch h

theorem isApart_getLast {results : List Value} (h : ∀ value ∈ results, value.IsApart) :
    (results.getLast?.getD null).IsApart := by
  cases hlast : results.getLast? with
  | none => exact isApart_of_none (by rintro _ ⟨⟩)
  | some value => exact h value (List.mem_of_getLast? hlast)

theorem isApart_merge {results : List Value} (h : ∀ value ∈ results, value.IsApart) :
    (merge results).IsApart := by
  unfold merge
  split
  · exact isApart_mergeMappings h
  · split
    · refine isApart_array.2 fun merged hmem => ?_
      obtain ⟨column, hcolumn, rfl⟩ := List.mem_map.1 hmem
      -- what stands in a column stands in one of the results
      have hitems : ∀ value ∈ column, value.IsApart := by
        intro value hvalue
        obtain ⟨row, hrow, hmem⟩ := mem_columns hcolumn hvalue
        obtain ⟨result, hresult, harray⟩ := List.mem_filterMap.1 hrow
        cases result with
        | array items =>
            cases harray
            exact isApart_array.1 (h _ hresult) value hmem
        | _ => cases harray
      unfold mergeColumn
      split
      · exact isApart_mergeMappings hitems
      · exact isApart_getLast hitems
    · exact isApart_getLast h

end Value

end SchemaGraph

import SchemaGraph.Proofs.Buckets
import SchemaGraph.Value.Json
import SchemaGraph.Value.Merge

set_option autoImplicit false

/-! # Values that show a payload

A value shows a payload if it renders as that payload, part by part and whatever the buckets are
its entries stand in. What is taken over from JSON shows it, and so does what results that show
the same payload are merged to.
-/

namespace SchemaGraph

namespace Value

/-- The entries of a mapping, whatever buckets they stand in. -/
def members? : Value → Option (List (String × Value))
  | map entries => some entries
  | object buckets => some buckets.entries
  | _ => none

/-- A value renders as a payload, part by part. -/
inductive Shows : Value → Json → Prop where
  | null : Shows .null .null
  | bool (b : Bool) : Shows (.bool b) (.bool b)
  | integer {n : Int} (fits : FitsSigned n) (word : FitsWord n) :
      Shows (.integer n fits) (.num (.integer n word))
  | number (d : Double) : Shows (.number d) (.num (.double d))
  | string (s : String) : Shows (.string s) (.str s)
  | array {values : List Value} {items : List Json} (length : values.length = items.length)
      (shown : ∀ (i : Nat) value item, values[i]? = some value → items[i]? = some item →
        Shows value item) : Shows (.array values) (.arr items)
  | mapping {value : Value} {entries : List (String × Value)} {payload : List (String × Json)}
      (members : value.members? = some entries)
      (keys : ∀ key, key ∈ entries.map Prod.fst ↔ key ∈ payload.map Prod.fst)
      (shown : ∀ key item part, (key, item) ∈ entries → (key, part) ∈ payload → Shows item part) :
      Shows value (.obj payload)

end Value

/-! ## Payloads taken over -/

/-- An integer, if it is one, is that of a signed word. -/
def Json.fitsHere : Json → Bool
  | .num (.integer n _) => decide (FitsSigned n)
  | _ => true

/-- A payload as it comes out of a text, all of whose integers are those of signed words. -/
structure Json.IsPlain (payload : Json) : Prop where
  regular : payload.isRegular = true
  fits : payload.all fitsHere = true

theorem Json.IsPlain.item {items : List Json} {item : Json} (h : (Json.arr items).IsPlain)
    (hmem : item ∈ items) : item.IsPlain :=
  ⟨all_items h.regular hmem, all_items h.fits hmem⟩

theorem Json.IsPlain.entry {entries : List (String × Json)} {key : String} {item : Json}
    (h : (Json.obj entries).IsPlain) (hmem : (key, item) ∈ entries) : item.IsPlain :=
  ⟨all_entries h.regular hmem, all_entries h.fits hmem⟩

theorem Json.IsPlain.sorted {entries : List (String × Json)} (h : (Json.obj entries).IsPlain) :
    (entries.map Prod.fst).Pairwise (· < ·) :=
  of_decide_eq_true (test_of_all h.regular)

/-- Under a key of a plain payload stands one item only. -/
theorem Json.IsPlain.unique {entries : List (String × Json)} {key : String} {item other : Json}
    (h : (Json.obj entries).IsPlain) (hmem : (key, item) ∈ entries)
    (hother : (key, other) ∈ entries) :
    item = other :=
  Option.some.inj ((Entries.find?_of_mem h.sorted hmem).symm.trans
    (Entries.find?_of_mem h.sorted hother))

namespace Value

theorem ofItems_eq (items : List Json) : ofItems items = items.map ofJson := by
  induction items with
  | nil => rfl
  | cons item rest ih =>
      rw [ofItems, ih]
      rfl

theorem ofEntries_eq (entries : List (String × Json)) :
    ofEntries entries = entries.map fun (key, item) => (key, ofJson item) := by
  induction entries with
  | nil => rfl
  | cons entry rest ih =>
      rw [ofEntries, ih]
      rfl

/-- Taking over a list shows it if taking over its items does. -/
theorem Shows.items {items : List Json} (h : ∀ item ∈ items, Shows (ofJson item) item) :
    Shows (ofJson (.arr items)) (.arr items) := by
  have heq : ofJson (.arr items) = .array (items.map ofJson) := by
    rw [← ofItems_eq, ofJson]
  rw [heq]
  refine .array (List.length_map _) fun i value item hvalue hitem => ?_
  rw [List.getElem?_map, hitem] at hvalue
  cases hvalue
  exact h item (List.mem_of_getElem? hitem)

/-- Taking over an object shows it if taking over its entries does. -/
theorem Shows.entries {entries : List (String × Json)} (hplain : (Json.obj entries).IsPlain)
    (h : ∀ key item, (key, item) ∈ entries → Shows (ofJson item) item) :
    Shows (ofJson (.obj entries)) (.obj entries) := by
  have heq : ofJson (.obj entries) = .map (entries.map fun (key, item) => (key, ofJson item)) := by
    rw [← ofEntries_eq, ofJson]
  rw [heq]
  refine .mapping rfl (fun key => ?_) fun key value part hvalue hpart => ?_
  · rw [List.map_map]
    exact Iff.rfl
  · obtain ⟨⟨_, item⟩, hitem, hsame⟩ := List.mem_map.1 hvalue
    cases hsame
    rw [← hplain.unique hitem hpart]
    exact h key item hitem

mutual

/-- What is taken over from a plain payload shows it. -/
theorem shows_ofJson : ∀ (payload : Json), payload.IsPlain → Shows (ofJson payload) payload
  | .null, _ => .null
  | .bool b, _ => .bool b
  | .num (.double d), _ => .number d
  | .num (.integer n word), h => by
      have hfits : FitsSigned n := of_decide_eq_true (Json.test_of_all h.fits)
      show Shows (ofNumber (.integer n word)) _
      unfold ofNumber
      dsimp only
      rw [dif_pos hfits]
      exact .integer hfits word
  | .str s, _ => .string s
  | .arr items, h => .items (shows_items items fun _ hmem => h.item hmem)
  | .obj entries, h => .entries h (shows_entries entries fun _ _ hmem => h.entry hmem)

theorem shows_items : ∀ (items : List Json), (∀ item ∈ items, item.IsPlain) →
    ∀ item ∈ items, Shows (ofJson item) item
  | [], _, _, hmem => by cases hmem
  | first :: rest, h, item, hmem => by
      rcases List.mem_cons.1 hmem with heq | hmem
      · rw [heq]
        exact shows_ofJson first (h first List.mem_cons_self)
      · exact shows_items rest (fun item hitem => h item (List.mem_cons_of_mem _ hitem)) item hmem

theorem shows_entries : ∀ (entries : List (String × Json)),
    (∀ key item, (key, item) ∈ entries → item.IsPlain) →
    ∀ key item, (key, item) ∈ entries → Shows (ofJson item) item
  | [], _, _, _, hmem => by cases hmem
  | (name, first) :: rest, h, key, item, hmem => by
      rcases List.mem_cons.1 hmem with heq | hmem
      · have hitem : item = first := congrArg Prod.snd heq
        rw [hitem]
        exact shows_ofJson first (h name first List.mem_cons_self)
      · exact shows_entries rest
          (fun key item hitem => h key item (List.mem_cons_of_mem _ hitem)) key
          item hmem

end

/-! ## Rendering -/

theorem jsonItemsBy_eq (join : List (String × Json) → Json) (items : List Value) :
    jsonItemsBy join items = items.map (jsonBy join) := by
  induction items with
  | nil => rw [jsonItemsBy]; rfl
  | cons item rest ih => rw [jsonItemsBy, ih]; rfl

theorem jsonEntriesBy_eq (join : List (String × Json) → Json) (entries : List (String × Value)) :
    jsonEntriesBy join entries = entries.map fun (key, item) => (key, jsonBy join item) := by
  induction entries with
  | nil => rw [jsonEntriesBy]; rfl
  | cons entry rest ih => rw [jsonEntriesBy, ih]; rfl

theorem toJson_array (values : List Value) : (array values).toJson = .arr (values.map toJson) := by
  unfold toJson
  rw [jsonBy, jsonItemsBy_eq]

theorem toJson_of_members {value : Value} {entries : List (String × Value)}
    (h : value.members? = some entries) :
    value.toJson = Json.object (entries.map fun (key, item) => (key, item.toJson)) := by
  unfold toJson
  cases value with
  | map found =>
      cases h
      rw [jsonBy, jsonEntriesBy_eq]
  | object buckets =>
      cases h
      obtain ⟨declared, pattern, additional⟩ := buckets
      rw [jsonBy, jsonEntriesBy_eq, jsonEntriesBy_eq, jsonEntriesBy_eq, ← List.map_append,
        ← List.map_append]
      rfl
  | _ => cases h

/-- A value that shows a payload renders as it. -/
theorem Shows.toJson {value : Value} {payload : Json} (h : Shows value payload)
    (hregular : payload.isRegular = true) : value.toJson = payload := by
  induction h with
  | null => rfl
  | bool b => rfl
  | integer fits word =>
      show Json.num (Number.ofInt _) = _
      unfold Number.ofInt
      rw [dif_pos word]
  | number d =>
      have hfinite : d.isFinite = true := Json.test_of_all hregular
      show jsonOfDouble d = _
      unfold jsonOfDouble
      rw [if_pos hfinite]
  | string s => rfl
  | @array values items hlength _ ih =>
      rw [toJson_array]
      refine congrArg Json.arr (List.ext_getElem? fun i => ?_)
      rw [List.getElem?_map]
      cases hitem : items[i]? with
      | none =>
          have hle : values.length ≤ i := hlength ▸ List.getElem?_eq_none_iff.1 hitem
          rw [List.getElem?_eq_none hle]
          rfl
      | some item =>
          have hlt : i < values.length := hlength ▸ (List.getElem?_eq_some_iff.1 hitem).1
          rw [List.getElem?_eq_getElem hlt]
          exact congrArg some (ih i _ item (List.getElem?_eq_getElem hlt) hitem
            (Json.all_items hregular (List.mem_of_getElem? hitem)))
  | @mapping value entries payload hmembers hkeys _ ih =>
      have hsorted : (payload.map Prod.fst).Pairwise (· < ·) :=
        of_decide_eq_true (Json.test_of_all hregular)
      have hnames : (entries.map fun (key, item) => (key, item.toJson)).map Prod.fst =
          entries.map Prod.fst := by
        rw [List.map_map]
        rfl
      rw [toJson_of_members hmembers]
      refine congrArg Json.obj (Entries.sorted_eq hsorted ?_ ?_)
      · intro entry hentry
        obtain ⟨⟨key, item⟩, hitem, rfl⟩ := List.mem_map.1 hentry
        obtain ⟨⟨_, part⟩, hpart, rfl⟩ := List.mem_map.1 ((hkeys key).1 (List.mem_map_of_mem hitem))
        show (_, item.toJson) ∈ payload
        rw [ih _ item part hitem hpart (Json.all_entries hregular hpart)]
        exact hpart
      · intro key hkey
        rw [hnames]
        exact (hkeys key).2 hkey

/-! ## Merging -/

/-- The entries are those of a payload as far as they go. -/
def EntriesShow (entries : List (String × Value)) (payload : List (String × Json)) : Prop :=
  ∀ key item, (key, item) ∈ entries →
    key ∈ payload.map Prod.fst ∧ ∀ part, (key, part) ∈ payload → Shows item part

theorem Shows.entriesShow {value : Value} {payload : List (String × Json)}
    (h : Shows value (.obj payload)) : ∃ entries, value.members? = some entries ∧
      EntriesShow entries payload ∧ ∀ key ∈ payload.map Prod.fst, key ∈ entries.map Prod.fst := by
  cases h with
  | @mapping _ entries _ members keys shown =>
      refine ⟨entries, members, fun key item hitem =>
        ⟨?_, fun part => shown key item part hitem⟩, ?_⟩
      · exact (keys key).1 (List.mem_map_of_mem hitem)
      · exact fun key hkey => (keys key).2 hkey

theorem EntriesShow.shows {value : Value} {entries : List (String × Value)}
    {payload : List (String × Json)} (h : EntriesShow entries payload)
    (hmembers : value.members? = some entries)
    (hkeys : ∀ key ∈ payload.map Prod.fst, key ∈ entries.map Prod.fst) :
    Shows value (.obj payload) := by
  refine .mapping hmembers
    (fun key => ⟨fun hkey => ?_, hkeys key⟩) fun key item part hitem hpart => ?_
  · obtain ⟨⟨_, item⟩, hitem, rfl⟩ := List.mem_map.1 hkey
    exact (h _ item hitem).1
  · exact (h key item hitem).2 part hpart

theorem absorb_members (buckets : Buckets Value) {value : Value} {entries : List (String × Value)}
    (h : value.members? = some entries) :
    (∀ entry ∈ (absorb buckets value).entries, entry ∈ buckets.entries ∨ entry ∈ entries) ∧
      ∀ key, key ∈ buckets.entries.map Prod.fst ∨ key ∈ entries.map Prod.fst →
        key ∈ (absorb buckets value).entries.map Prod.fst := by
  cases value with
  | map found =>
      have hfound : found = entries := Option.some.inj h
      subst hfound
      have hentries : (⟨[], [], found⟩ : Buckets Value).entries = found := rfl
      refine ⟨fun entry hentry => ?_, fun key hkey => ?_⟩
      · exact hentries ▸ Buckets.mem_update hentry
      · exact Buckets.keys_update (hentries.symm ▸ hkey)
  | object other =>
      cases h
      exact ⟨fun entry => Buckets.mem_update, fun key => Buckets.keys_update⟩
  | _ => cases h

/-- Mappings that show one payload are merged to a mapping that shows it. -/
theorem mergeMappings_shows {results : List Value} {payload : List (String × Json)}
    (hne : results ≠ []) (h : ∀ result ∈ results, Shows result (.obj payload)) :
    Shows (mergeMappings results) (.obj payload) := by
  have hfold : ∀ {rest : List Value} {buckets : Buckets Value},
      (∀ result ∈ rest, Shows result (.obj payload)) → EntriesShow buckets.entries payload →
      EntriesShow (rest.foldl absorb buckets).entries payload ∧
        ∀ key, key ∈ buckets.entries.map Prod.fst ∨ rest ≠ [] ∧ key ∈ payload.map Prod.fst →
          key ∈ (rest.foldl absorb buckets).entries.map Prod.fst := by
    intro rest
    induction rest with
    | nil =>
        intro buckets _ hbuckets
        exact ⟨hbuckets, fun key hkey => hkey.resolve_right fun hnil => hnil.1 rfl⟩
    | cons first rest ih =>
        intro buckets hrest hbuckets
        obtain ⟨entries, hmembers, hentries, hcover⟩ :=
          (hrest first List.mem_cons_self).entriesShow
        obtain ⟨hmem, hkeys⟩ := absorb_members buckets hmembers
        have hnext : EntriesShow (absorb buckets first).entries payload := by
          intro key item hitem
          rcases hmem _ hitem with hitem | hitem
          · exact hbuckets key item hitem
          · exact hentries key item hitem
        obtain ⟨hresult, hall⟩ :=
          ih (fun result hresult => hrest result (List.mem_cons_of_mem _ hresult)) hnext
        refine ⟨hresult, fun key hkey => hall key (.inl (hkeys key ?_))⟩
        exact hkey.imp_right fun hpayload => hcover key hpayload.2
  obtain ⟨hshow, hkeys⟩ := @hfold results .empty h fun key item hitem => by cases hitem
  exact hshow.shows rfl fun key hkey => hkeys key (.inr ⟨hne, hkey⟩)

/-- Columns of rows that show a list: one for each item, and everything in it shows the item. -/
theorem columns_show {items : List Json} :
    ∀ {rows : List (List Value)}, rows ≠ [] →
      (∀ row ∈ rows, row.length = items.length ∧ ∀ (i : Nat) value item, row[i]? = some value →
        items[i]? = some item → Shows value item) →
      (columns items.length rows).length = items.length ∧
        ∀ (i : Nat) column item, (columns items.length rows)[i]? = some column →
          items[i]? = some item → column ≠ [] ∧ ∀ value ∈ column, Shows value item := by
  induction items with
  | nil => exact fun _ _ => ⟨rfl, fun i column item hcolumn => by cases hcolumn⟩
  | cons first rest ih =>
      intro rows hne h
      have htails : rows.map List.tail ≠ [] := fun hnil => hne (List.map_eq_nil_iff.1 hnil)
      obtain ⟨hlength, hshown⟩ := ih htails fun row hrow => by
        obtain ⟨whole, hwhole, rfl⟩ := List.mem_map.1 hrow
        obtain ⟨hlength, hshown⟩ := h whole hwhole
        refine ⟨by rw [List.length_tail, hlength]; rfl, fun i value item hvalue hitem => ?_⟩
        rw [List.getElem?_tail] at hvalue
        exact hshown (i + 1) value item hvalue hitem
      refine ⟨congrArg (· + 1) hlength, fun i column item hcolumn hitem => ?_⟩
      cases i with
      | succ i => exact hshown i column item hcolumn hitem
      | zero =>
          cases hcolumn
          cases hitem
          refine ⟨?_, fun value hvalue => ?_⟩
          · obtain ⟨row, hrow⟩ := List.exists_mem_of_ne_nil rows hne
            obtain ⟨hlength, -⟩ := h row hrow
            cases row with
            | nil => cases hlength
            | cons value tail =>
                exact List.ne_nil_of_mem (List.mem_filterMap.2 ⟨_, hrow, rfl⟩)
          · obtain ⟨row, hrow, hhead⟩ := List.mem_filterMap.1 hvalue
            rw [List.head?_eq_getElem?] at hhead
            exact (h row hrow).2 0 value first hhead rfl

theorem all_of_shows {results : List Value} {payload : Json} {test : Value → Bool} {answer : Bool}
    (hne : results ≠ []) (h : ∀ result ∈ results, Shows result payload)
    (htest : ∀ {result}, Shows result payload → test result = answer) :
    results.all test = answer := by
  cases answer with
  | true => exact List.all_eq_true.2 fun result hresult => htest (h result hresult)
  | false =>
      obtain ⟨result, hresult⟩ := List.exists_mem_of_ne_nil results hne
      exact List.all_eq_false.2 ⟨result, hresult, by rw [htest (h result hresult)]; simp⟩

theorem isMapping_of_shows {value : Value} {payload : List (String × Json)}
    (h : Shows value (.obj payload)) : value.isMapping = true := by
  cases h with
  | mapping members =>
      cases value with
      | map _ => rfl
      | object _ => rfl
      | _ => cases members

theorem getLast_shows {results : List Value} {payload : Json} (hne : results ≠ [])
    (h : ∀ result ∈ results, Shows result payload) :
    Shows (results.getLast?.getD null) payload := by
  rw [List.getLast?_eq_some_getLast hne]
  exact h _ (List.getLast_mem hne)

/-- One column of results that show one payload shows it. -/
theorem mergeColumn_shows {results : List Value} {payload : Json} (hne : results ≠ [])
    (h : ∀ result ∈ results, Shows result payload) : Shows (mergeColumn results) payload := by
  unfold mergeColumn
  cases payload with
  | obj entries =>
      rw [all_of_shows hne h isMapping_of_shows, if_pos rfl]
      exact mergeMappings_shows hne h
  | _ =>
      have hmapping : results.all isMapping = false :=
        all_of_shows hne h fun hshow => by cases hshow <;> rfl
      rw [hmapping]
      exact getLast_shows hne h

/-- Results that show one list are merged item by item. -/
theorem mergeRows_shows {results : List Value} {items : List Json} (hne : results ≠ [])
    (h : ∀ result ∈ results, Shows result (.arr items)) :
    Shows (array ((columns (shortest (results.filterMap asArray?))
      (results.filterMap asArray?)).map mergeColumn)) (.arr items) := by
  have hrow : ∀ row ∈ results.filterMap asArray?, row.length = items.length ∧
      ∀ (i : Nat) value item, row[i]? = some value → items[i]? = some item → Shows value item := by
    intro row hrow
    obtain ⟨result, hresult, hvalues⟩ := List.mem_filterMap.1 hrow
    have hshow := h result hresult
    cases hshow with
    | array hlength hshown =>
        cases hvalues
        exact ⟨hlength, hshown⟩
  have hrows : results.filterMap asArray? ≠ [] := by
    obtain ⟨result, hresult⟩ := List.exists_mem_of_ne_nil results hne
    have hshow := h result hresult
    cases hshow with
    | array => exact List.ne_nil_of_mem (List.mem_filterMap.2 ⟨_, hresult, rfl⟩)
  generalize results.filterMap asArray? = rows at hrow hrows ⊢
  have hshortest : shortest rows = items.length := by
    have hlengths : rows.map List.length = List.replicate rows.length items.length :=
      List.eq_replicate_iff.2 ⟨List.length_map _, fun n hn => by
        obtain ⟨row, hmem, rfl⟩ := List.mem_map.1 hn
        exact (hrow row hmem).1⟩
    unfold shortest
    rw [hlengths, List.min?_replicate_of_pos (List.length_pos_iff.2 hrows)]
    rfl
  obtain ⟨hlength, hshown⟩ := columns_show hrows hrow
  rw [hshortest]
  refine .array ((List.length_map _).trans hlength) fun i value item hvalue hitem => ?_
  rw [List.getElem?_map] at hvalue
  obtain ⟨column, hcolumn, rfl⟩ := Option.map_eq_some_iff.1 hvalue
  obtain ⟨hcolumnNe, hcolumnShown⟩ := hshown i column item hcolumn hitem
  exact mergeColumn_shows hcolumnNe hcolumnShown

/-- What results that show one payload are merged to shows it. -/
theorem merge_shows {results : List Value} {payload : Json} (hne : results ≠ [])
    (h : ∀ result ∈ results, Shows result payload) : Shows (merge results) payload := by
  unfold merge
  cases payload with
  | obj entries =>
      rw [all_of_shows hne h isMapping_of_shows, if_pos rfl]
      exact mergeMappings_shows hne h
  | arr items =>
      have hmapping : results.all isMapping = false :=
        all_of_shows hne h fun hshow => by cases hshow; rfl
      have harray : results.all isArray = true :=
        all_of_shows hne h fun hshow => by cases hshow; rfl
      rw [hmapping, harray]
      exact mergeRows_shows hne h
  | _ =>
      have hmapping : results.all isMapping = false :=
        all_of_shows hne h fun hshow => by cases hshow <;> rfl
      have harray : results.all isArray = false :=
        all_of_shows hne h fun hshow => by cases hshow <;> rfl
      rw [hmapping, harray]
      exact getLast_shows hne h

end Value

end SchemaGraph

import SchemaGraph.Proofs.Buckets
import SchemaGraph.Proofs.Resolver.Runs
import SchemaGraph.Value.Merge

set_option autoImplicit false

/-! # Merging mappings

Mappings are merged one after the other, and after each of them no key is left in two buckets: a
key is dropped from a bucket and may come back with a later result. All the dropping can wait
until the end (`Buckets.settle_stack_left`, `settle_stack_right`). So a merge is what the results
have bucket by bucket, settled once (`Value.merge_eq`), and this says where each key ends up and
that results can be merged in groups (`Value.merge_mappings`).
-/

namespace SchemaGraph

/-! ## Inserting entries -/

namespace Entries

variable {α : Type} {key k : String} {value v : α} {entries rest : List (String × α)}

theorem find?_cons_self : find? key ((key, value) :: rest) = some value :=
  if_pos (beq_self_eq_true key)

theorem find?_cons_of_ne (h : k ≠ key) : find? key ((k, v) :: rest) = find? key rest :=
  if_neg (by simpa using h)

theorem find?_eq_none : find? key entries = none ↔ key ∉ entries.map Prod.fst := by
  rw [← contains_iff, contains, Bool.not_eq_true, Option.isSome_eq_false_iff,
    Option.isNone_iff_eq_none]

theorem insertLast_cons_self :
    insertLast key value ((key, v) :: rest) = (key, value) :: rest :=
  if_pos (beq_self_eq_true key)

theorem insertLast_cons_of_ne (h : k ≠ key) :
    insertLast key value ((k, v) :: rest) = (k, v) :: insertLast key value rest :=
  if_neg (by simpa using h)

theorem insertLast_of_not_mem (h : key ∉ entries.map Prod.fst) :
    insertLast key value entries = entries ++ [(key, value)] := by
  induction entries with
  | nil => rfl
  | cons entry rest ih =>
      obtain ⟨hk, hrest⟩ := not_or.1 (mt List.mem_cons.2 h)
      rw [insertLast_cons_of_ne (Ne.symm hk), ih hrest]
      rfl

theorem keys_insertLast_of_mem (h : key ∈ entries.map Prod.fst) :
    (insertLast key value entries).map Prod.fst = entries.map Prod.fst := by
  induction entries with
  | nil => cases h
  | cons entry rest ih =>
      obtain ⟨k, v⟩ := entry
      by_cases hk : k = key
      · subst hk
        rw [insertLast_cons_self]
        rfl
      · have hrest := (List.mem_cons.1 h).resolve_left (Ne.symm hk)
        rw [insertLast_cons_of_ne hk, List.map_cons, ih hrest]
        rfl

theorem nodup_insertLast (h : (entries.map Prod.fst).Nodup) :
    ((insertLast key value entries).map Prod.fst).Nodup := by
  by_cases hmem : key ∈ entries.map Prod.fst
  · rwa [keys_insertLast_of_mem hmem]
  · rw [insertLast_of_not_mem hmem, List.map_append]
    refine List.nodup_append.2 ⟨h, List.pairwise_singleton _ _, ?_⟩
    rintro other hother _ hkey rfl
    have heq : other = key := List.mem_singleton.1 hkey
    exact hmem (heq ▸ hother)

/-- Of two values for one key the later one counts. -/
theorem insertLast_insertLast :
    insertLast key value (insertLast key v entries) = insertLast key value entries := by
  induction entries with
  | nil => exact insertLast_cons_self
  | cons entry rest ih =>
      obtain ⟨k, w⟩ := entry
      by_cases hk : k = key
      · subst hk
        rw [insertLast_cons_self, insertLast_cons_self, insertLast_cons_self]
      · rw [insertLast_cons_of_ne hk, insertLast_cons_of_ne hk, insertLast_cons_of_ne hk, ih]

/-- A key that is there takes its new value before or after another key is inserted. -/
theorem insertLast_comm (hne : key ≠ k) (hmem : key ∈ entries.map Prod.fst) :
    insertLast key value (insertLast k v entries) =
      insertLast k v (insertLast key value entries) := by
  induction entries with
  | nil => cases hmem
  | cons entry rest ih =>
      obtain ⟨front, w⟩ := entry
      by_cases hkey : front = key
      · subst hkey
        rw [insertLast_cons_of_ne hne, insertLast_cons_self, insertLast_cons_self,
          insertLast_cons_of_ne hne]
      · have hrest := (List.mem_cons.1 hmem).resolve_left (Ne.symm hkey)
        by_cases hk : front = k
        · subst hk
          rw [insertLast_cons_self, insertLast_cons_of_ne hkey, insertLast_cons_of_ne hkey,
            insertLast_cons_self]
        · rw [insertLast_cons_of_ne hk, insertLast_cons_of_ne hkey, insertLast_cons_of_ne hkey,
            insertLast_cons_of_ne hk, ih hrest]

end Entries

namespace Buckets

variable {α : Type} {key : String} {value : α} {old new entries other : List (String × α)}

/-! ## Extending a bucket -/

theorem extend_cons :
    extend old ((key, value) :: new) = extend (Entries.insertLast key value old) new := rfl

theorem nodup_extend (h : (old.map Prod.fst).Nodup) : ((extend old new).map Prod.fst).Nodup := by
  induction new generalizing old with
  | nil => exact h
  | cons entry rest ih => exact ih (Entries.nodup_insertLast h)

/-- The new entries count before the old ones. -/
theorem find?_extend (h : (new.map Prod.fst).Nodup) :
    Entries.find? key (extend old new) = (Entries.find? key new).or (Entries.find? key old) := by
  induction new generalizing old with
  | nil => rfl
  | cons entry rest ih =>
      obtain ⟨k, v⟩ := entry
      obtain ⟨hfresh, hrest⟩ := List.nodup_cons.1 h
      rw [extend_cons, ih hrest]
      by_cases hk : k = key
      · subst hk
        rw [Entries.find?_eq_none.2 hfresh, Entries.find?_cons_self, Entries.find?_insertLast_self]
        rfl
      · rw [Entries.find?_cons_of_ne hk, Entries.find?_insertLast_of_ne hk]

/-- A key that is there takes its new value before or after other keys are inserted. -/
theorem insertLast_extend (hmem : key ∈ old.map Prod.fst) (hfresh : key ∉ new.map Prod.fst) :
    Entries.insertLast key value (extend old new) =
      extend (Entries.insertLast key value old) new := by
  -- the old entries change with every new one, but never lose the key
  induction new generalizing old with
  | nil => rfl
  | cons entry rest ih =>
      obtain ⟨k, v⟩ := entry
      obtain ⟨hne, hrest⟩ := not_or.1 (mt List.mem_cons.2 hfresh)
      rw [extend_cons, extend_cons, ih (keys_insertLast (.inr hmem)) hrest,
        Entries.insertLast_comm hne hmem]

theorem extend_insertLast (h : (new.map Prod.fst).Nodup) :
    extend old (Entries.insertLast key value new) =
      Entries.insertLast key value (extend old new) := by
  induction new generalizing old with
  | nil => rfl
  | cons entry rest ih =>
      obtain ⟨k, v⟩ := entry
      obtain ⟨hfresh, hrest⟩ := List.nodup_cons.1 h
      by_cases hk : k = key
      · subst hk
        rw [Entries.insertLast_cons_self, extend_cons, extend_cons,
          insertLast_extend (keys_insertLast (.inl rfl)) hfresh, Entries.insertLast_insertLast]
      · rw [Entries.insertLast_cons_of_ne hk, extend_cons, extend_cons, ih hrest]

theorem extend_assoc {last : List (String × α)} (h : (new.map Prod.fst).Nodup) :
    extend old (extend new last) = extend (extend old new) last := by
  induction last generalizing new with
  | nil => rfl
  | cons entry rest ih =>
      obtain ⟨k, v⟩ := entry
      rw [extend_cons, extend_cons, ih (Entries.nodup_insertLast h), extend_insertLast h]

/-! ## Leaving keys out -/

theorem outside_cons_of_mem (h : key ∈ other.map Prod.fst) :
    outside other ((key, value) :: entries) = outside other entries :=
  List.filter_cons_of_neg (by simpa using Entries.contains_iff.2 h)

theorem outside_cons_of_not_mem (h : key ∉ other.map Prod.fst) :
    outside other ((key, value) :: entries) = (key, value) :: outside other entries :=
  List.filter_cons_of_pos (by simpa using Bool.eq_false_iff.2 (mt Entries.contains_iff.1 h))

theorem find?_outside : Entries.find? key (outside other entries) =
    if key ∈ other.map Prod.fst then none else Entries.find? key entries := by
  induction entries with
  | nil => exact (ite_self none).symm
  | cons entry rest ih =>
      obtain ⟨k, v⟩ := entry
      by_cases hmem : k ∈ other.map Prod.fst
      · rw [outside_cons_of_mem hmem, ih]
        by_cases hk : k = key
        · subst hk
          rw [if_pos hmem, if_pos hmem]
        · rw [Entries.find?_cons_of_ne hk]
      · rw [outside_cons_of_not_mem hmem]
        by_cases hk : k = key
        · subst hk
          rw [if_neg hmem, Entries.find?_cons_self, Entries.find?_cons_self]
        · rw [Entries.find?_cons_of_ne hk, Entries.find?_cons_of_ne hk, ih]

theorem outside_insertLast_of_mem (h : key ∈ other.map Prod.fst) :
    outside other (Entries.insertLast key value entries) = outside other entries := by
  induction entries with
  | nil => exact outside_cons_of_mem h
  | cons entry rest ih =>
      obtain ⟨k, v⟩ := entry
      by_cases hk : k = key
      · subst hk
        rw [Entries.insertLast_cons_self, outside_cons_of_mem h, outside_cons_of_mem h]
      · rw [Entries.insertLast_cons_of_ne hk]
        by_cases hmem : k ∈ other.map Prod.fst
        · rw [outside_cons_of_mem hmem, outside_cons_of_mem hmem, ih]
        · rw [outside_cons_of_not_mem hmem, outside_cons_of_not_mem hmem, ih]

theorem outside_insertLast_of_not_mem (h : key ∉ other.map Prod.fst) :
    outside other (Entries.insertLast key value entries) =
      Entries.insertLast key value (outside other entries) := by
  induction entries with
  | nil => exact outside_cons_of_not_mem h
  | cons entry rest ih =>
      obtain ⟨k, v⟩ := entry
      by_cases hk : k = key
      · subst hk
        rw [Entries.insertLast_cons_self, outside_cons_of_not_mem h, outside_cons_of_not_mem h,
          Entries.insertLast_cons_self]
      · rw [Entries.insertLast_cons_of_ne hk]
        by_cases hmem : k ∈ other.map Prod.fst
        · rw [outside_cons_of_mem hmem, outside_cons_of_mem hmem, ih]
        · rw [outside_cons_of_not_mem hmem, outside_cons_of_not_mem hmem,
            Entries.insertLast_cons_of_ne hk, ih]

/-- Keys are left out of an extension by leaving them out of both parts. -/
theorem outside_extend :
    outside other (extend old new) = extend (outside other old) (outside other new) := by
  induction new generalizing old with
  | nil => rfl
  | cons entry rest ih =>
      obtain ⟨k, v⟩ := entry
      by_cases hmem : k ∈ other.map Prod.fst
      · rw [extend_cons, ih, outside_insertLast_of_mem hmem, outside_cons_of_mem hmem]
      · rw [extend_cons, ih, outside_insertLast_of_not_mem hmem, outside_cons_of_not_mem hmem,
          extend_cons]

theorem outside_comm (first second : List (String × α)) :
    outside first (outside second entries) = outside second (outside first entries) := by
  simp only [outside, List.filter_filter, Bool.and_comm]

/-- Leaving out some of the keys first makes no difference. -/
theorem outside_outside {fewer : List (String × α)}
    (h : ∀ key ∈ fewer.map Prod.fst, key ∈ other.map Prod.fst) :
    outside other (outside fewer entries) = outside other entries := by
  simp only [outside, List.filter_filter]
  refine List.filter_congr fun entry _ => ?_
  cases hother : Entries.contains entry.1 other with
  | true => rfl
  | false =>
      have hfewer : Entries.contains entry.1 fewer = false := by
        refine Bool.eq_false_iff.2 fun hmem => ?_
        have hcontains := Entries.contains_iff.2 (h _ (Entries.contains_iff.1 hmem))
        exact Bool.eq_false_iff.1 hother hcontains
      rw [hfewer]
      rfl

theorem outside_extend_left {fewer : List (String × α)}
    (h : ∀ key ∈ fewer.map Prod.fst, key ∈ other.map Prod.fst) :
    outside other (extend (outside fewer old) new) = outside other (extend old new) := by
  rw [outside_extend, outside_outside h, outside_extend]

theorem outside_extend_right {fewer : List (String × α)}
    (h : ∀ key ∈ fewer.map Prod.fst, key ∈ other.map Prod.fst) :
    outside other (extend old (outside fewer new)) = outside other (extend old new) := by
  rw [outside_extend, outside_outside h, outside_extend]

/-! ## Stacking buckets -/

/-- The entries in one of the buckets. -/
def bucket (b : Buckets α) : Place → List (String × α)
  | .declared => b.declared
  | .pattern => b.pattern
  | .additional => b.additional

/-- Extend bucket by bucket, and leave every key where it is. -/
def stack (b other : Buckets α) : Buckets α :=
  ⟨extend b.declared other.declared, extend b.pattern other.pattern,
    extend b.additional other.additional⟩

/-- No bucket has a key twice. -/
def IsUnrepeated (b : Buckets α) : Prop := ∀ place, ((b.bucket place).map Prod.fst).Nodup

variable {a b c : Buckets α} {place : Place}

theorem bucket_stack : (a.stack b).bucket place = extend (a.bucket place) (b.bucket place) := by
  cases place <;> rfl

theorem ext_bucket (h : ∀ place, a.bucket place = b.bucket place) : a = b := by
  obtain ⟨_, _, _⟩ := a
  obtain ⟨_, _, _⟩ := b
  obtain rfl := h .declared
  obtain rfl := h .pattern
  obtain rfl := h .additional
  rfl

theorem isUnrepeated_empty : (empty : Buckets α).IsUnrepeated := by
  intro place
  cases place <;> exact List.nodup_nil

theorem IsUnrepeated.stack (h : a.IsUnrepeated) : (a.stack b).IsUnrepeated := by
  intro place
  rw [bucket_stack]
  exact nodup_extend (h place)

theorem IsUnrepeated.settle (h : a.IsUnrepeated) : a.settle.IsUnrepeated := by
  have houtside : ∀ {other entries : List (String × α)}, (entries.map Prod.fst).Nodup →
      ((outside other entries).map Prod.fst).Nodup :=
    fun h => h.sublist (List.filter_sublist.map _)
  intro place
  cases place with
  | declared => exact h .declared
  | pattern => exact houtside (h .pattern)
  | additional => exact houtside (houtside (h .additional))

theorem stack_assoc (h : b.IsUnrepeated) : a.stack (b.stack c) = (a.stack b).stack c := by
  refine ext_bucket fun place => ?_
  simp only [bucket_stack]
  exact extend_assoc (h place)

/-- What is left of the additional bucket is under no declared key and no pattern key. -/
theorem settle_additional :
    a.settle.additional = outside a.pattern (outside a.declared a.additional) := by
  have hsettled : a.settle.additional =
      outside (outside a.declared a.pattern) (outside a.declared a.additional) := rfl
  rw [hsettled]
  simp only [outside, List.filter_filter]
  refine List.filter_congr fun entry _ => ?_
  cases hdeclared : Entries.contains entry.1 a.declared with
  | true => rw [Bool.not_true, Bool.and_false, Bool.and_false]
  | false =>
      have hkept : Entries.contains entry.1 (outside a.declared a.pattern) =
          Entries.contains entry.1 a.pattern := by
        have hnot : entry.1 ∉ a.declared.map Prod.fst :=
          fun hmem => Bool.eq_false_iff.1 hdeclared (Entries.contains_iff.2 hmem)
        rw [Entries.contains, find?_outside, if_neg hnot, Entries.contains]
      exact congrArg (!· && _) hkept

/-- Settled buckets depend only on what is outside of the buckets before. -/
theorem settle_congr {declared pattern pattern' additional additional' : List (String × α)}
    (hpattern : outside declared pattern = outside declared pattern')
    (hadditional : outside pattern' (outside declared additional) =
      outside pattern' (outside declared additional')) :
    settle ⟨declared, pattern, additional⟩ = settle ⟨declared, pattern', additional'⟩ := by
  have hsecond : settle ⟨declared, pattern, additional⟩ =
      settle ⟨declared, pattern', additional⟩ := by
    unfold settle
    rw [hpattern]
  have hthird : (settle ⟨declared, pattern', additional⟩).additional =
      (settle ⟨declared, pattern', additional'⟩).additional := by
    rw [settle_additional, settle_additional]
    exact hadditional
  rw [hsecond]
  exact congrArg (Buckets.mk declared (outside declared pattern')) hthird

/-- What is settled before a step need not be: the step settles it. -/
theorem settle_stack_left : (a.settle.stack b).settle = (a.stack b).settle := by
  have hdeclared : ∀ key ∈ a.declared.map Prod.fst,
      key ∈ (extend a.declared b.declared).map Prod.fst := fun key h => keys_extend (.inl h)
  have hpattern : ∀ key ∈ a.pattern.map Prod.fst,
      key ∈ (extend a.pattern b.pattern).map Prod.fst := fun key h => keys_extend (.inl h)
  refine settle_congr ?_ ?_
  · exact outside_extend_left hdeclared
  · rw [settle_additional]
    calc outside (extend a.pattern b.pattern) (outside (extend a.declared b.declared)
          (extend (outside a.pattern (outside a.declared a.additional)) b.additional))
      _ = outside (extend a.declared b.declared) (outside (extend a.pattern b.pattern)
          (extend (outside a.declared a.additional) b.additional)) := by
        rw [outside_comm, outside_extend_left hpattern]
      _ = outside (extend a.pattern b.pattern) (outside (extend a.declared b.declared)
          (extend a.additional b.additional)) := by
        rw [outside_comm, outside_extend_left hdeclared]

theorem settle_stack_right : (a.stack b.settle).settle = (a.stack b).settle := by
  have hdeclared : ∀ key ∈ b.declared.map Prod.fst,
      key ∈ (extend a.declared b.declared).map Prod.fst := fun key h => keys_extend (.inr h)
  have hpattern : ∀ key ∈ b.pattern.map Prod.fst,
      key ∈ (extend a.pattern b.pattern).map Prod.fst := fun key h => keys_extend (.inr h)
  refine settle_congr ?_ ?_
  · exact outside_extend_right hdeclared
  · rw [settle_additional]
    calc outside (extend a.pattern b.pattern) (outside (extend a.declared b.declared)
          (extend a.additional (outside b.pattern (outside b.declared b.additional))))
      _ = outside (extend a.declared b.declared) (outside (extend a.pattern b.pattern)
          (extend a.additional (outside b.declared b.additional))) := by
        rw [outside_comm, outside_extend_right hpattern]
      _ = outside (extend a.pattern b.pattern) (outside (extend a.declared b.declared)
          (extend a.additional b.additional)) := by
        rw [outside_comm, outside_extend_right hdeclared]

theorem find?_settle_pattern : Entries.find? key a.settle.pattern =
    if key ∈ a.declared.map Prod.fst then none else Entries.find? key a.pattern :=
  find?_outside

theorem find?_settle_additional : Entries.find? key a.settle.additional =
    if key ∈ a.declared.map Prod.fst ∨ key ∈ a.pattern.map Prod.fst then none
      else Entries.find? key a.additional := by
  rw [settle_additional, find?_outside, find?_outside]
  by_cases hpattern : key ∈ a.pattern.map Prod.fst
  · rw [if_pos hpattern, if_pos (.inr hpattern)]
  · rw [if_neg hpattern]
    simp only [hpattern, or_false]

theorem find?_eq_none :
    a.find? key = none ↔ ∀ place, Entries.find? key (a.bucket place) = none := by
  have hkeys : key ∈ a.entries.map Prod.fst ↔ ∃ place, key ∈ (a.bucket place).map Prod.fst := by
    rw [keys_entries]
    constructor
    · rintro (h | h | h)
      · exact ⟨.declared, h⟩
      · exact ⟨.pattern, h⟩
      · exact ⟨.additional, h⟩
    · rintro ⟨place, h⟩
      cases place with
      | declared => exact .inl h
      | pattern => exact .inr (.inl h)
      | additional => exact .inr (.inr h)
  rw [find?, Entries.find?_eq_none, hkeys, not_exists]
  exact forall_congr' fun place => Entries.find?_eq_none.symm

end Buckets

namespace Value

open Buckets (Place IsUnrepeated)

/-! ## Merging in one step -/

/-- The buckets of a mapping. The entries of a map are additional properties. -/
def buckets : Value → Buckets Value
  | object buckets => buckets
  | map entries => ⟨[], [], entries⟩
  | _ => .empty

/-- The buckets of all results, one after the other and with every key where it was. -/
def stacked (results : List Value) : Buckets Value :=
  results.foldl (fun done result => done.stack result.buckets) .empty

variable {results : List Value} {key : String} {place : Place} {done first : Buckets Value}

theorem get?_eq (value : Value) : value.get? key = value.buckets.find? key := by
  cases value <;> rfl

theorem absorb_settle (value : Value) :
    absorb done.settle value = (done.stack value.buckets).settle := by
  cases value with
  | object other => exact Buckets.settle_stack_left
  | map entries => exact Buckets.settle_stack_left (b := ⟨[], [], entries⟩)
  | _ => rfl

theorem foldl_absorb (done : Buckets Value) : results.foldl absorb done.settle =
    (results.foldl (fun done result => done.stack result.buckets) done).settle := by
  induction results generalizing done with
  | nil => rfl
  | cons result rest ih =>
      rw [List.foldl_cons, absorb_settle, ih]
      rfl

theorem mergeMappings_eq (results : List Value) :
    mergeMappings results = object (stacked results).settle :=
  congrArg object (foldl_absorb .empty)

theorem merge_eq (h : ∀ result ∈ results, result.isMapping = true) :
    merge results = object (stacked results).settle := by
  rw [merge, if_pos (List.all_eq_true.2 h), mergeMappings_eq]

/-! ## Which value counts -/

/-- The last of the values that results have under a key in one of their buckets. -/
def lastIn (place : Place) (key : String) (results : List Value) : Option Value :=
  (results.filterMap fun result => Entries.find? key (result.buckets.bucket place)).getLast?

theorem lastIn_cons (result : Value) : lastIn place key (result :: results) =
    (lastIn place key results).or (Entries.find? key (result.buckets.bucket place)) := by
  unfold lastIn
  rw [List.filterMap_cons]
  cases Entries.find? key (result.buckets.bucket place) with
  | none => rw [Option.or_none]
  | some value =>
      rw [List.getLast?_cons]
      cases List.getLast? _ <;> rfl

theorem lastIn_eq_none : lastIn place key results = none ↔
    ∀ result ∈ results, Entries.find? key (result.buckets.bucket place) = none := by
  rw [lastIn, List.getLast?_eq_none_iff, List.filterMap_eq_nil_iff]

theorem find?_foldl_stack (h : ∀ result ∈ results, result.buckets.IsUnrepeated) :
    Entries.find? key
        ((results.foldl (fun done result => done.stack result.buckets) done).bucket place) =
      (lastIn place key results).or (Entries.find? key (done.bucket place)) := by
  induction results generalizing done with
  | nil => rfl
  | cons result rest ih =>
      have hresult := h result List.mem_cons_self place
      rw [List.foldl_cons, ih fun other hmem => h other (List.mem_cons_of_mem _ hmem),
        Buckets.bucket_stack, Buckets.find?_extend hresult, lastIn_cons, Option.or_assoc]

theorem find?_stacked (place : Place) (key : String)
    (h : ∀ result ∈ results, result.buckets.IsUnrepeated) :
    Entries.find? key ((stacked results).bucket place) = lastIn place key results := by
  have hempty : Entries.find? key ((Buckets.empty : Buckets Value).bucket place) = none := by
    cases place <;> rfl
  rw [stacked, find?_foldl_stack h, hempty, Option.or_none]

theorem mem_stacked (place : Place) (key : String)
    (h : ∀ result ∈ results, result.buckets.IsUnrepeated) :
    key ∈ ((stacked results).bucket place).map Prod.fst ↔ (lastIn place key results).isSome := by
  rw [← Entries.contains_iff, Entries.contains, find?_stacked place key h]

theorem isUnrepeated_foldl_stack (h : done.IsUnrepeated) :
    (results.foldl (fun done result => done.stack result.buckets) done).IsUnrepeated := by
  induction results generalizing done with
  | nil => exact h
  | cons result rest ih => exact ih h.stack

theorem isUnrepeated_stacked : (stacked results).IsUnrepeated :=
  isUnrepeated_foldl_stack Buckets.isUnrepeated_empty

/-! ## Merging in groups -/

theorem stack_foldl (h : done.IsUnrepeated) :
    first.stack (results.foldl (fun done result => done.stack result.buckets) done) =
      results.foldl (fun done result => done.stack result.buckets) (first.stack done) := by
  induction results generalizing done with
  | nil => rfl
  | cons result rest ih => rw [List.foldl_cons, List.foldl_cons, ih h.stack, Buckets.stack_assoc h]

theorem stack_stacked :
    first.stack (stacked results) =
      results.foldl (fun done result => done.stack result.buckets) first :=
  stack_foldl Buckets.isUnrepeated_empty

theorem stacked_append (results later : List Value) :
    stacked (results ++ later) = (stacked results).stack (stacked later) := by
  rw [stack_stacked, stacked, List.foldl_append]
  rfl

/-- Merging two groups and then what they are merged to is merging everything. -/
theorem merge_append {later : List Value} (h : ∀ result ∈ results, result.isMapping = true)
    (hlater : ∀ result ∈ later, result.isMapping = true) :
    merge (results ++ later) = merge [merge results, merge later] := by
  have hall : ∀ result ∈ results ++ later, result.isMapping = true :=
    fun result hmem => (List.mem_append.1 hmem).elim (h result) (hlater result)
  have htwo : ∀ result ∈ [object (stacked results).settle, object (stacked later).settle],
      result.isMapping = true := by
    simp [isMapping]
  have hfirst : Buckets.empty.stack (stacked results) = stacked results := stack_stacked
  rw [merge_eq hall, merge_eq h, merge_eq hlater, merge_eq htwo, stacked_append]
  refine congrArg object (Eq.symm ?_)
  calc ((Buckets.empty.stack (stacked results).settle).stack (stacked later).settle).settle
    _ = ((Buckets.empty.stack (stacked results).settle).settle.stack (stacked later)).settle := by
      rw [Buckets.settle_stack_right, Buckets.settle_stack_left]
    _ = ((stacked results).stack (stacked later)).settle := by
      rw [Buckets.settle_stack_right, hfirst, Buckets.settle_stack_left]

/-! ## The laws of merging -/

section

variable (h : ∀ result ∈ results, result.buckets.IsUnrepeated)

include h

theorem find?_declared : Entries.find? key (stacked results).settle.declared =
    lastIn .declared key results :=
  find?_stacked .declared key h

theorem find?_pattern : Entries.find? key (stacked results).settle.pattern =
    if (lastIn .declared key results).isSome then none else lastIn .pattern key results := by
  have hfound := find?_stacked .pattern key h
  have hdeclared := mem_stacked .declared key h
  simp only [← hdeclared, ← hfound]
  exact Buckets.find?_settle_pattern

theorem find?_additional : Entries.find? key (stacked results).settle.additional =
    if (lastIn .declared key results).isSome ∨ (lastIn .pattern key results).isSome then none
      else lastIn .additional key results := by
  have hfound := find?_stacked .additional key h
  have hdeclared := mem_stacked .declared key h
  have hpattern := mem_stacked .pattern key h
  simp only [← hdeclared, ← hpattern, ← hfound]
  exact Buckets.find?_settle_additional

/-- A key is left in some bucket if a result has it in any. -/
theorem lacks_iff :
    (∀ place, Entries.find? key ((stacked results).settle.bucket place) = none) ↔
      ∀ place, lastIn place key results = none := by
  constructor
  · intro hfind
    have hdeclared := (find?_declared h).symm.trans (hfind .declared)
    have hpattern := (find?_pattern h).symm.trans (hfind .pattern)
    rw [hdeclared] at hpattern
    have hadditional := (find?_additional h).symm.trans (hfind .additional)
    rw [hdeclared, show lastIn .pattern key results = none from hpattern] at hadditional
    intro place
    cases place with
    | declared => exact hdeclared
    | pattern => exact hpattern
    | additional => exact hadditional
  · intro hlast place
    cases place with
    | declared => exact (find?_declared h).trans (hlast .declared)
    | pattern =>
        exact (find?_pattern h).trans ((congrArg _ (hlast .pattern)).trans (ite_self none))
    | additional =>
        exact (find?_additional h).trans ((congrArg _ (hlast .additional)).trans (ite_self none))

theorem find?_merged_eq_none :
    (stacked results).settle.find? key = none ↔ ∀ result ∈ results, result.get? key = none := by
  rw [Buckets.find?_eq_none, lacks_iff h]
  simp only [lastIn_eq_none, get?_eq, Buckets.find?_eq_none]
  exact ⟨fun h result hmem place => h place result hmem,
    fun h place result hmem => h result hmem place⟩

end

/-- Mappings are merged into an object. In it a key is declared with the last declared value if a
result declares it, else it is a pattern property with the last pattern value if a result has
one, else an additional property with the last value left; only a key of no result is absent.
And it makes no difference whether mappings are merged at once or in two groups, not even for
the order of the properties. -/
theorem merge_mappings :
    (∀ results : List Value, (∀ result ∈ results, result.isMapping = true) →
      (∀ result ∈ results, result.buckets.IsUnrepeated) →
      ∃ merged, merge results = object merged ∧ merged.IsUnrepeated ∧ merged.IsApart ∧
        ∀ key,
          Entries.find? key merged.declared = lastIn .declared key results ∧
          Entries.find? key merged.pattern =
            (if (lastIn .declared key results).isSome then none
              else lastIn .pattern key results) ∧
          Entries.find? key merged.additional =
            (if (lastIn .declared key results).isSome ∨ (lastIn .pattern key results).isSome
              then none else lastIn .additional key results) ∧
          (merged.find? key = none ↔ ∀ result ∈ results, result.get? key = none)) ∧
    ∀ results later : List Value, (∀ result ∈ results, result.isMapping = true) →
      (∀ result ∈ later, result.isMapping = true) →
      merge (results ++ later) = merge [merge results, merge later] := by
  refine ⟨fun results h hkeys => ?_, fun results later h hlater => merge_append h hlater⟩
  refine ⟨(stacked results).settle, merge_eq h, isUnrepeated_stacked.settle,
    Buckets.settle_isApart _, fun key => ?_⟩
  exact ⟨find?_declared hkeys, find?_pattern hkeys, find?_additional hkeys,
    find?_merged_eq_none hkeys⟩

/-- An additional property that a later result declares, and that a map has again after it. -/
theorem merge_mappings_later :
    let results := [object ⟨[("a", string "x")], [], [("b", string "raw")]⟩,
      object ⟨[("b", bool true)], [], []⟩]
    let later := [map [("b", null), ("c", null)]]
    (∃ merged, merge (results ++ later) = object merged ∧ merged.IsApart ∧
      Entries.find? "b" merged.declared = some (bool true) ∧
      Entries.find? "b" merged.additional = none ∧
      Entries.find? "c" merged.additional = some null) ∧
    merge (results ++ later) = merge [merge results, merge later] := by
  intro results later
  have hresults : ∀ result ∈ results, result.isMapping = true := by
    simp [results, isMapping]
  have hlater : ∀ result ∈ later, result.isMapping = true := by
    simp [later, isMapping]
  have hkeys : ∀ result ∈ results ++ later, result.buckets.IsUnrepeated := by
    have hall : ∀ place : Place, ∀ result ∈ results ++ later,
        ((result.buckets.bucket place).map Prod.fst).Nodup := by
      intro place
      cases place <;> simp [results, later, buckets, Buckets.bucket]
    exact fun result hmem place => hall place result hmem
  obtain ⟨merged, hmerged, _, hapart, hvalues⟩ := merge_mappings.1 (results ++ later)
    (fun result hmem => (List.mem_append.1 hmem).elim (hresults result) (hlater result)) hkeys
  refine ⟨⟨merged, hmerged, hapart, (hvalues "b").1, (hvalues "b").2.2.1, ?_⟩,
    merge_mappings.2 results later hresults hlater⟩
  exact (hvalues "c").2.2.1

end Value

end SchemaGraph

import SchemaGraph.Conversion.Run
import SchemaGraph.Proofs.Content
import SchemaGraph.Proofs.Merging

set_option autoImplicit false

/-! # Comparison of values

`Json.same` compares the values of an `enum`, and `Value.loosely` the items of a list that must
differ. Both compare what values hold (`Json.same_eq`, `Value.loosely_eq`): lists item by item,
tables key by key, and numbers by `Number.same`, which rounds all numbers to doubles unless both are
integers of signed words (`Content.same_iff`).

So neither comparison misses values that are equal. They are exact, and transitive, where no two
different numbers share a double (`Content.TellsApart`), as below `2^53`. On values taken over from
JSON both come to the same (`Value.loosely_ofJson`).
-/

namespace SchemaGraph

/-! ## Lists of entries -/

namespace Entries

variable {α β : Type} {key : String}

theorem find?_map (f : α → β) (entries : List (String × α)) :
    find? key (entries.map fun entry => (entry.1, f entry.2)) = (find? key entries).map f := by
  induction entries with
  | nil => rfl
  | cons entry rest ih =>
      obtain ⟨k, value⟩ := entry
      by_cases hk : k = key
      · subst hk
        rw [List.map_cons, find?_cons_self, find?_cons_self]
        rfl
      · rw [List.map_cons, find?_cons_of_ne hk, find?_cons_of_ne hk, ih]

theorem insertSorted_map (f : α → β) (value : α) (entries : List (String × α)) :
    insertSorted key (f value) (entries.map fun entry => (entry.1, f entry.2)) =
      (insertSorted key value entries).map fun entry => (entry.1, f entry.2) := by
  induction entries with
  | nil => rfl
  | cons entry rest ih =>
      obtain ⟨k, other⟩ := entry
      unfold insertSorted
      rw [List.map_cons]
      dsimp only
      split_ifs with hkey hlt
      · rfl
      · rfl
      · rw [ih, List.map_cons]

theorem sorted_map (f : α → β) (entries : List (String × α)) :
    sorted (entries.map fun entry => (entry.1, f entry.2)) =
      (sorted entries).map fun entry => (entry.1, f entry.2) := by
  unfold sorted
  rw [List.foldl_map]
  show List.foldl _ (List.map (fun entry : String × α => (entry.1, f entry.2)) []) entries = _
  refine List.foldl_hom (List.map fun entry : String × α => (entry.1, f entry.2)) ?_
  exact fun done entry => insertSorted_map f entry.2 done

/-- Keys among others are all of them if they are as many. -/
theorem length_eq_iff {entries : List (String × α)} {entries' : List (String × β)}
    (h : (entries.map Prod.fst).Pairwise (· < ·)) (h' : (entries'.map Prod.fst).Pairwise (· < ·))
    (hsub : ∀ key ∈ entries.map Prod.fst, key ∈ entries'.map Prod.fst) :
    entries.length = entries'.length ↔ ∀ key, contains key entries = contains key entries' := by
  have hnodup : (entries.map Prod.fst).Nodup := h.imp String.ne_of_lt
  have hnodup' : (entries'.map Prod.fst).Nodup := h'.imp String.ne_of_lt
  constructor
  · intro hlength key
    have hperm : (entries.map Prod.fst).Perm (entries'.map Prod.fst) := by
      refine (hnodup.subperm hsub).perm_of_length_le ?_
      rw [List.length_map, List.length_map, hlength]
    exact Bool.eq_iff_iff.2 (contains_iff.trans (hperm.mem_iff.trans contains_iff.symm))
  · intro hkeys
    have hperm : (entries.map Prod.fst).Perm (entries'.map Prod.fst) :=
      (List.perm_ext_iff_of_nodup hnodup hnodup').2 fun key => by
        rw [← contains_iff, ← contains_iff, hkeys key]
    simpa using hperm.length_eq

end Entries

/-! ## Contents compared -/

namespace Content

mutual

/-- Lists compare item by item, tables key by key, and numbers by `Number.same`. -/
def same : Content → Content → Bool
  | number x, number y => x.same y
  | datum v _, datum w _ => v.sameScalar w
  | list items, list items' => sameItems items items'
  | table entries, table entries' =>
      entries.length == entries'.length && sameEntries entries entries'
  | _, _ => false

def sameItems : List Content → List Content → Bool
  | [], [] => true
  | item :: rest, item' :: rest' => same item item' && sameItems rest rest'
  | _, _ => false

def sameEntries : List (String × Content) → List (String × Content) → Bool
  | [], _ => true
  | (key, item) :: rest, entries' =>
      (match Entries.find? key entries' with
        | some item' => same item item'
        | none => false) && sameEntries rest entries'

end

theorem table_sameNearest_iff {entries entries' : List (String × Content)}
    (h : (entries.map Prod.fst).Pairwise (· < ·)) (h' : (entries'.map Prod.fst).Pairwise (· < ·)) :
    (table entries).SameNearest (table entries') ↔ entries.length = entries'.length ∧
      ∀ key item, (key, item) ∈ entries →
        ∃ item', Entries.find? key entries' = some item' ∧ item.SameNearest item' := by
  constructor
  · rintro (_ | _ | _ | ⟨keys, alike⟩)
    refine ⟨(Entries.length_eq_iff h h' fun key hkey => ?_).2 keys, fun key item hmem => ?_⟩
    · rw [← Entries.contains_iff, ← keys]
      exact Entries.contains_iff.2 hkey
    · have hfind := Entries.find?_of_mem h hmem
      obtain ⟨item', hfind'⟩ := exists_find? keys hfind
      exact ⟨item', hfind', alike key item item' hfind hfind'⟩
  · rintro ⟨hlength, hlike⟩
    -- keys are looked up one way only, and the lengths tell that there are no others
    have hsub : ∀ key ∈ entries.map Prod.fst, key ∈ entries'.map Prod.fst := by
      intro key hkey
      obtain ⟨⟨k, item⟩, hmem, rfl⟩ := List.mem_map.1 hkey
      obtain ⟨item', hfind', -⟩ := hlike k item hmem
      exact List.mem_map.2 ⟨(k, item'), Entries.mem_of_find? hfind', rfl⟩
    refine .table ((Entries.length_eq_iff h h' hsub).1 hlength) ?_
    intro key item item' hfind hfind'
    obtain ⟨other, hother, halike⟩ := hlike key item (Entries.mem_of_find? hfind)
    rw [hfind'] at hother
    cases hother
    exact halike

mutual

/-- What the comparison of two contents finds. -/
theorem same_iff : ∀ {a b : Content}, a.IsOrdered → b.IsOrdered →
    (a.same b = true ↔ a.SameNearest b)
  | .number x, b, _, _ => by
      cases b with
      | number y => exact Number.same_iff.trans ⟨.number, fun | .number related => related⟩
      | _ => exact ⟨nofun, nofun⟩
  | .datum v hv, b, _, _ => by
      cases b with
      | datum w hw => exact ⟨.datum, fun | .datum same => same⟩
      | _ => exact ⟨nofun, nofun⟩
  | .list items, b, .list ha, hb => by
      cases b with
      | list items' =>
          cases hb with
          | list hb =>
              refine (sameItems_iff ha hb).trans ⟨fun ⟨length, alike⟩ => .list length alike, ?_⟩
              rintro (_ | _ | ⟨length, alike⟩)
              exact ⟨length, alike⟩
      | _ => exact ⟨nofun, nofun⟩
  | .table entries, b, .table keys ha, hb => by
      cases b with
      | table entries' =>
          cases hb with
          | table keys' hb =>
              rw [table_sameNearest_iff keys keys', ← sameEntries_iff ha hb]
              exact Bool.and_eq_true_iff.trans (and_congr_left' beq_iff_eq)
      | _ => exact ⟨nofun, nofun⟩

theorem sameItems_iff : ∀ {items items' : List Content}, (∀ item ∈ items, item.IsOrdered) →
    (∀ item ∈ items', item.IsOrdered) → (sameItems items items' = true ↔
      items.length = items'.length ∧ ∀ (i : Nat) item item', items[i]? = some item →
        items'[i]? = some item' → item.SameNearest item')
  | [], items', _, _ => by
      cases items' with
      | nil => exact ⟨fun _ => ⟨rfl, nofun⟩, fun _ => rfl⟩
      | cons => exact ⟨nofun, fun h => nomatch h.1⟩
  | first :: rest, items', ha, hb => by
      cases items' with
      | nil => exact ⟨nofun, fun h => nomatch h.1⟩
      | cons first' rest' =>
          have hfirst := same_iff (ha first List.mem_cons_self) (hb first' List.mem_cons_self)
          have hrest := sameItems_iff (fun item h => ha item (.tail _ h))
            fun item h => hb item (.tail _ h)
          refine Bool.and_eq_true_iff.trans ((and_congr hfirst hrest).trans ⟨?_, ?_⟩)
          · rintro ⟨hfirst, hlength, halike⟩
            refine ⟨congrArg (· + 1) hlength, fun i item item' h h' => ?_⟩
            cases i with
            | zero =>
                cases h
                cases h'
                exact hfirst
            | succ i => exact halike i item item' h h'
          · rintro ⟨hlength, halike⟩
            exact ⟨halike 0 first first' rfl rfl, Nat.succ.inj hlength,
              fun i item item' h h' => halike (i + 1) item item' h h'⟩

theorem sameEntries_iff : ∀ {entries entries' : List (String × Content)},
    (∀ key item, (key, item) ∈ entries → item.IsOrdered) →
    (∀ key item, (key, item) ∈ entries' → item.IsOrdered) →
    (sameEntries entries entries' = true ↔ ∀ key item, (key, item) ∈ entries →
      ∃ item', Entries.find? key entries' = some item' ∧ item.SameNearest item')
  | [], _, _, _ => ⟨fun _ _ _ h => (by cases h), fun _ => rfl⟩
  | (key, first) :: rest, entries', ha, hb => by
      have hrest := sameEntries_iff (fun k item h => ha k item (.tail _ h)) hb
      have hfirst : (match Entries.find? key entries' with
          | some item' => same first item'
          | none => false) = true ↔
          ∃ item', Entries.find? key entries' = some item' ∧ first.SameNearest item' := by
        cases hfind : Entries.find? key entries' with
        | none => simp
        | some item' =>
            have hsame := same_iff (ha key first List.mem_cons_self)
              (hb key item' (Entries.mem_of_find? hfind))
            simpa using hsame
      refine Bool.and_eq_true_iff.trans ((and_congr hfirst hrest).trans ⟨?_, fun h => ?_⟩)
      · rintro ⟨hfirst, hrest⟩ k item hmem
        rcases List.mem_cons.1 hmem with heq | hmem
        · cases heq
          exact hfirst
        · exact hrest k item hmem
      · exact ⟨h key first List.mem_cons_self, fun k item hmem => h k item (.tail _ hmem)⟩

end

end Content

/-! ## What JSON holds -/

namespace Json

mutual

/-- What a JSON value holds. -/
def toContent : Json → Content
  | null => .datum .null rfl
  | bool b => .datum (.bool b) rfl
  | num x => .number x
  | str s => .datum (.string s) rfl
  | arr items => .list (toContentItems items)
  | obj entries => .table (toContentEntries entries)

def toContentItems : List Json → List Content
  | [] => []
  | item :: rest => toContent item :: toContentItems rest

def toContentEntries : List (String × Json) → List (String × Content)
  | [] => []
  | (key, item) :: rest => (key, toContent item) :: toContentEntries rest

end

theorem toContentEntries_eq (entries : List (String × Json)) :
    toContentEntries entries = entries.map fun entry => (entry.1, entry.2.toContent) := by
  induction entries with
  | nil => rfl
  | cons entry rest ih => exact congrArg _ ih

mutual

/-- JSON values compare by what they hold. -/
theorem same_eq : ∀ a b : Json, a.same b = a.toContent.same b.toContent
  | null, b | bool _, b | num _, b | str _, b => by cases b <;> rfl
  | arr items, b => by
      cases b with
      | arr items' => exact sameItems_eq items items'
      | _ => rfl
  | obj entries, b => by
      cases b with
      | obj entries' =>
          show (entries.length == entries'.length && sameEntries entries entries') =
            ((toContentEntries entries).length == (toContentEntries entries').length &&
              Content.sameEntries (toContentEntries entries) (toContentEntries entries'))
          rw [sameEntries_eq entries entries', toContentEntries_eq, toContentEntries_eq,
            List.length_map, List.length_map]
      | _ => rfl

theorem sameItems_eq : ∀ items items' : List Json,
    sameItems items items' = Content.sameItems (toContentItems items) (toContentItems items')
  | [], items' => by cases items' <;> rfl
  | item :: rest, items' => by
      cases items' with
      | nil => rfl
      | cons item' rest' =>
          exact congrArg₂ _ (same_eq item item') (sameItems_eq rest rest')

theorem sameEntries_eq : ∀ entries entries' : List (String × Json), sameEntries entries entries' =
    Content.sameEntries (toContentEntries entries) (toContentEntries entries')
  | [], entries' => rfl
  | (key, item) :: rest, entries' => by
      refine congrArg₂ _ ?_ (sameEntries_eq rest entries')
      rw [toContentEntries_eq, Entries.find?_map]
      cases Entries.find? key entries' with
      | none => rfl
      | some item' => exact same_eq item item'

end

mutual

/-- Regular JSON has its keys in order. -/
theorem toContent_isOrdered : ∀ {a : Json}, a.isRegular = true → a.toContent.IsOrdered
  | null, _ | bool _, _ | str _, _ => .datum _ _
  | num x, _ => .number x
  | arr items, h => .list (toContentItems_isOrdered fun item hmem => all_items h hmem)
  | obj entries, h => by
      refine .table ?_ (toContentEntries_isOrdered fun key item hmem => all_entries h hmem)
      rw [toContentEntries_eq, List.map_map]
      exact of_decide_eq_true (test_of_all h)

theorem toContentItems_isOrdered : ∀ {items : List Json}, (∀ item ∈ items, item.isRegular = true) →
    ∀ item ∈ toContentItems items, item.IsOrdered
  | first :: rest, h, item, hmem => by
      rcases List.mem_cons.1 hmem with heq | hmem
      · rw [heq]
        exact toContent_isOrdered (h first List.mem_cons_self)
      · exact toContentItems_isOrdered (fun item h' => h item (.tail _ h')) item hmem

theorem toContentEntries_isOrdered : ∀ {entries : List (String × Json)},
    (∀ key item, (key, item) ∈ entries → item.isRegular = true) →
    ∀ key item, (key, item) ∈ toContentEntries entries → item.IsOrdered
  | (k, first) :: rest, h, key, item, hmem => by
      rcases List.mem_cons.1 hmem with heq | hmem
      · obtain ⟨-, heq⟩ := Prod.mk.inj heq
        rw [heq]
        exact toContent_isOrdered (h k first List.mem_cons_self)
      · exact toContentEntries_isOrdered (fun key item h' => h key item (.tail _ h')) key item hmem

end

end Json

/-! ## What converted values hold -/

namespace Value

mutual

/-- What a converted value holds: the entries of its buckets, if it is an object. -/
def toContent : Value → Content
  | null => .datum null rfl
  | bool b => .datum (bool b) rfl
  | integer n fits => .number (.integer n fits.word)
  | number d => .number (.double d)
  | string s => .datum (string s) rfl
  | date d => .datum (date d) rfl
  | timestamp t => .datum (timestamp t) rfl
  | uuid u => .datum (uuid u) rfl
  | bytes b => .datum (bytes b) rfl
  | link path => .datum (link path) rfl
  | array items => .list (toContentItems items)
  | map entries => .table (toContentEntries entries)
  | object ⟨declared, pattern, additional⟩ => .table (Entries.sorted
      (toContentEntries declared ++ toContentEntries pattern ++ toContentEntries additional))

def toContentItems : List Value → List Content
  | [] => []
  | item :: rest => toContent item :: toContentItems rest

def toContentEntries : List (String × Value) → List (String × Content)
  | [] => []
  | (key, item) :: rest => (key, toContent item) :: toContentEntries rest

end

theorem toContentEntries_eq (entries : List (String × Value)) :
    toContentEntries entries = entries.map fun entry => (entry.1, entry.2.toContent) := by
  induction entries with
  | nil => rfl
  | cons entry rest ih => exact congrArg _ ih

theorem contentEntries_eq (entries : List (String × Value)) :
    contentEntries entries = entries.map fun entry => (entry.1, entry.2.content) := by
  induction entries with
  | nil => rfl
  | cons entry rest ih => exact congrArg _ ih

theorem toContentEntries_sorted (entries : List (String × Value)) :
    toContentEntries (Entries.sorted entries) = Entries.sorted (toContentEntries entries) := by
  rw [toContentEntries_eq, toContentEntries_eq, Entries.sorted_map]

theorem toContentEntries_append (entries entries' : List (String × Value)) :
    toContentEntries (entries ++ entries') =
      toContentEntries entries ++ toContentEntries entries' := by
  rw [toContentEntries_eq, toContentEntries_eq, toContentEntries_eq, List.map_append]

theorem contentEntries_sorted (entries : List (String × Value)) :
    contentEntries (Entries.sorted entries) = Entries.sorted (contentEntries entries) := by
  rw [contentEntries_eq, contentEntries_eq, Entries.sorted_map]

theorem contentEntries_append (entries entries' : List (String × Value)) :
    contentEntries (entries ++ entries') = contentEntries entries ++ contentEntries entries' := by
  rw [contentEntries_eq, contentEntries_eq, contentEntries_eq, List.map_append]

mutual

/-- Replacing objects by maps leaves what a value holds. -/
theorem toContent_content : ∀ a : Value, a.content.toContent = a.toContent
  | null | bool _ | integer .. | number _ | string _ | date _ | timestamp _ | uuid _ | bytes _
  | link _ => rfl
  | array items => congrArg Content.list (toContentItems_content items)
  | map entries => congrArg Content.table (toContentEntries_content entries)
  | object ⟨declared, pattern, additional⟩ => by
      refine congrArg Content.table ?_
      rw [toContentEntries_sorted, toContentEntries_append, toContentEntries_append,
        toContentEntries_content declared, toContentEntries_content pattern,
        toContentEntries_content additional]

theorem toContentItems_content : ∀ items : List Value,
    toContentItems (contentItems items) = toContentItems items
  | [] => rfl
  | item :: rest => congrArg₂ _ (toContent_content item) (toContentItems_content rest)

theorem toContentEntries_content : ∀ entries : List (String × Value),
    toContentEntries (contentEntries entries) = toContentEntries entries
  | [] => rfl
  | (key, item) :: rest =>
      congrArg₂ _ (congrArg (key, ·) (toContent_content item)) (toContentEntries_content rest)

end

mutual

/-- No objects are left to replace. -/
theorem content_content : ∀ a : Value, a.content.content = a.content
  | null | bool _ | integer .. | number _ | string _ | date _ | timestamp _ | uuid _ | bytes _
  | link _ => rfl
  | array items => congrArg array (contentItems_content items)
  | map entries => congrArg map (contentEntries_content entries)
  | object ⟨declared, pattern, additional⟩ => by
      refine congrArg map ?_
      rw [contentEntries_sorted, contentEntries_append, contentEntries_append,
        contentEntries_content declared, contentEntries_content pattern,
        contentEntries_content additional]

theorem contentItems_content : ∀ items : List Value,
    contentItems (contentItems items) = contentItems items
  | [] => rfl
  | item :: rest => congrArg₂ _ (content_content item) (contentItems_content rest)

theorem contentEntries_content : ∀ entries : List (String × Value),
    contentEntries (contentEntries entries) = contentEntries entries
  | [] => rfl
  | (key, item) :: rest =>
      congrArg₂ _ (congrArg (key, ·) (content_content item)) (contentEntries_content rest)

end

mutual

/-- Values without objects compare by what they hold. -/
theorem sameContent_eq : ∀ {a b : Value}, a.content = a → b.content = b →
    sameContent a b = a.toContent.same b.toContent
  | integer m hm, b, _, hb => by
      cases b with
      | integer n hn => exact (Number.same_integers hm hn).symm
      | number d => exact (Number.same_double (.integer m hm.word) d).symm
      | object buckets => cases hb
      | _ => rfl
  | null, b, _, hb | bool _, b, _, hb | number _, b, _, hb | string _, b, _, hb
  | date _, b, _, hb | timestamp _, b, _, hb | uuid _, b, _, hb | bytes _, b, _, hb
  | link _, b, _, hb => by
      cases b with
      | object buckets => cases hb
      | _ => rfl
  | array items, b, ha, hb => by
      cases b with
      | array items' => exact sameContentItems_eq (array.inj ha) (array.inj hb)
      | object buckets => cases hb
      | _ => rfl
  | map entries, b, ha, hb => by
      cases b with
      | map entries' =>
          show (entries.length == entries'.length && sameContentEntries entries entries') =
            ((toContentEntries entries).length == (toContentEntries entries').length &&
              Content.sameEntries (toContentEntries entries) (toContentEntries entries'))
          rw [sameContentEntries_eq (map.inj ha) (map.inj hb), toContentEntries_eq,
            toContentEntries_eq, List.length_map, List.length_map]
      | object buckets => cases hb
      | _ => rfl
  | object _, _, ha, _ => by cases ha

theorem sameContentItems_eq : ∀ {items items' : List Value}, contentItems items = items →
    contentItems items' = items' →
    sameContentItems items items' = Content.sameItems (toContentItems items) (toContentItems items')
  | [], items', _, _ => by cases items' <;> rfl
  | item :: rest, items', h, h' => by
      cases items' with
      | nil => rfl
      | cons item' rest' =>
          obtain ⟨hitem, hrest⟩ := List.cons.inj h
          obtain ⟨hitem', hrest'⟩ := List.cons.inj h'
          exact congrArg₂ _ (sameContent_eq hitem hitem') (sameContentItems_eq hrest hrest')

theorem sameContentEntries_eq : ∀ {entries entries' : List (String × Value)},
    contentEntries entries = entries → contentEntries entries' = entries' →
    sameContentEntries entries entries' =
      Content.sameEntries (toContentEntries entries) (toContentEntries entries')
  | [], _, _, _ => rfl
  | (key, item) :: rest, entries', h, h' => by
      obtain ⟨hitem, hrest⟩ := List.cons.inj h
      obtain ⟨-, hitem⟩ := Prod.mk.inj hitem
      refine congrArg₂ _ ?_ (sameContentEntries_eq hrest h')
      rw [toContentEntries_eq, Entries.find?_map]
      cases hfind : Entries.find? key entries' with
      | none => rfl
      | some item' =>
          have hitem' : item'.content = item' := by
            have hmap : (Entries.find? key entries').map content = Entries.find? key entries' := by
              rw [← Entries.find?_map, ← contentEntries_eq, h']
            rw [hfind] at hmap
            exact Option.some.inj hmap
          exact sameContent_eq hitem hitem'

end

/-- Values compare by what they hold. -/
theorem loosely_eq (a b : Value) : a.loosely b = a.toContent.same b.toContent := by
  unfold loosely
  rw [sameContent_eq (content_content a) (content_content b), toContent_content, toContent_content]

end Value

/-! ## Laws of the comparisons -/

/-- A comparison by what values hold. It rounds numbers, and so it is reflexive and symmetric and
misses no values that are equal, but it is exact and transitive only where numbers are told
apart. -/
structure ComparesNearest {α : Type} (same : α → α → Bool) (content : α → Content) : Prop where
  rounds : ∀ {a b}, (content a).IsProper → (content b).IsProper →
    (same a b = true ↔ (content a).SameNearest (content b))
  reflexive : ∀ {a}, (content a).IsProper → same a a = true
  symmetric : ∀ {a b}, (content a).IsProper → (content b).IsProper →
    same a b = true → same b a = true
  complete : ∀ {a b}, (content a).IsProper → (content b).IsProper →
    (content a).Equal (content b) → same a b = true
  exact : ∀ {a b}, (content a).IsProper → (content b).IsProper →
    (content a).TellsApart (content b) → (same a b = true ↔ (content a).Equal (content b))
  transitive : ∀ {a b c}, (content a).IsProper → (content b).IsProper → (content c).IsProper →
    (content a).TellsApart (content c) → same a b = true → same b c = true → same a c = true

theorem ComparesNearest.of_eq {α : Type} {same : α → α → Bool} {content : α → Content}
    (h : ∀ a b, same a b = (content a).same (content b)) : ComparesNearest same content := by
  have hrounds : ∀ {a b}, (content a).IsProper → (content b).IsProper →
      (same a b = true ↔ (content a).SameNearest (content b)) := by
    intro a b ha hb
    rw [h]
    exact Content.same_iff ha.ordered hb.ordered
  constructor
  case rounds => exact hrounds
  case reflexive => exact fun ha => (hrounds ha ha).2 (Content.sameNearest_self ha)
  case symmetric => exact fun ha hb hab => (hrounds hb ha).2 ((hrounds ha hb).1 hab).symm
  case complete => exact fun ha hb hab => (hrounds ha hb).2 (hab.sameNearest ha hb)
  case exact =>
    exact fun ha hb happart => (hrounds ha hb).trans (happart.sameNearest_iff ha hb)
  case transitive =>
    intro a b c ha hb hc happart hab hbc
    -- sharing doubles is transitive, and it is enough for the outer two to be told apart
    have hrounded := Content.SameNearest.trans_rounded ha hb hc
      ((hrounds ha hb).1 hab) ((hrounds hb hc).1 hbc)
    exact (hrounds ha hc).2 ((hrounded.equal happart).sameNearest ha hc)

theorem Json.comparesNearest : ComparesNearest Json.same Json.toContent := .of_eq Json.same_eq

theorem Value.comparesNearest : ComparesNearest Value.loosely Value.toContent :=
  .of_eq Value.loosely_eq

/-! ## Closed sets and lists of different items -/

theorem Common.enumViolations_eq_nil {common : Common} {allowed : List Json} {payload : Json}
    (h : common.allowed = some allowed) (hsome : allowed ≠ []) :
    common.enumViolations payload = [] ↔ ∃ one ∈ allowed, one.same payload = true := by
  have hempty : allowed.isEmpty = false := by
    rw [Bool.eq_false_iff, ne_eq, List.isEmpty_iff]
    exact hsome
  unfold enumViolations
  rw [h]
  dsimp only
  rw [hempty, Bool.false_or]
  split
  · exact iff_of_true rfl (List.any_eq_true.1 ‹_›)
  · exact iff_of_false (List.cons_ne_nil _ _) fun hany => ‹¬_› (List.any_eq_true.2 hany)

theorem Shape.hasDuplicates_eq_false {items : List Value} :
    hasDuplicates items = false ↔ items.Pairwise fun a b => a.loosely b = false := by
  induction items with
  | nil => exact ⟨fun _ => .nil, fun _ => rfl⟩
  | cons item rest ih =>
      rw [List.pairwise_cons, ← ih]
      show (rest.any item.loosely || hasDuplicates rest) = false ↔ _
      rw [Bool.or_eq_false_iff, List.any_eq_false]
      simp

/-- Payloads and the values of an `enum`, as well as the items of a list that must differ, are
compared by what they hold, with numbers rounded to doubles unless both are integers of signed
words. So an `enum` admits whatever equals one of its values, and a list with equal items is found
out. Where no two different numbers share a double, nothing else is admitted or found out. -/
theorem comparisons_nearest (x y : Number) (common : Common) (allowed : List Json) (payload : Json)
    (items : List Value) :
    ComparesNearest Json.same Json.toContent ∧ ComparesNearest Value.loosely Value.toContent ∧
    ((Json.num x).same (.num y) = true ↔ x.SameNearest y) ∧
    (common.allowed = some allowed → allowed ≠ [] → payload.toContent.IsProper →
      (∀ one ∈ allowed, one.toContent.IsProper) →
        ((∃ one ∈ allowed, one.toContent.Equal payload.toContent) →
          common.enumViolations payload = []) ∧
        ((∀ one ∈ allowed, one.toContent.TellsApart payload.toContent) →
          common.enumViolations payload = [] →
            ∃ one ∈ allowed, one.toContent.Equal payload.toContent)) ∧
    ((∀ item ∈ items, item.toContent.IsProper) →
      (Shape.breachOfUniqueness? none items = none →
        items.Pairwise fun a b => ¬a.toContent.Equal b.toContent) ∧
      (items.Pairwise (fun a b => a.toContent.TellsApart b.toContent ∧
          ¬a.toContent.Equal b.toContent) →
        Shape.breachOfUniqueness? none items = none)) := by
  refine ⟨Json.comparesNearest, Value.comparesNearest, Number.same_iff, ?_, ?_⟩
  · intro hallowed hsome hpayload hproper
    have hadmits : common.enumViolations payload = [] ↔ ∃ one ∈ allowed, one.same payload = true :=
      Common.enumViolations_eq_nil hallowed hsome
    refine ⟨fun ⟨one, hone, hequal⟩ => ?_, fun happart hnil => ?_⟩
    · exact hadmits.2 ⟨one, hone, Json.comparesNearest.complete (hproper one hone) hpayload hequal⟩
    · obtain ⟨one, hone, hsame⟩ := hadmits.1 hnil
      exact ⟨one, hone,
        (Json.comparesNearest.exact (hproper one hone) hpayload (happart one hone)).1 hsame⟩
  · intro hproper
    have hnone : Shape.breachOfUniqueness? none items = none ↔
        items.Pairwise fun a b => a.loosely b = false := by
      rw [← Shape.hasDuplicates_eq_false]
      unfold Shape.breachOfUniqueness?
      cases Shape.hasDuplicates items <;> simp
    rw [hnone]
    refine ⟨fun h => h.imp_of_mem fun {a b} ha hb hdiffer hequal => ?_,
      fun h => h.imp_of_mem fun {a b} ha hb happart => ?_⟩
    · have hsame := Value.comparesNearest.complete (hproper a ha) (hproper b hb) hequal
      rw [hdiffer] at hsame
      cases hsame
    · have hexact := Value.comparesNearest.exact (hproper a ha) (hproper b hb) happart.1
      exact Bool.eq_false_iff.2 fun hsame => happart.2 (hexact.1 hsame)

namespace Content

variable {x y : Number}

theorem isProper_number (h : x.isProper = true) : (number x).IsProper :=
  ⟨.number x, fun | _, .here _ => h⟩

theorem number_equal : (number x).Equal (number y) ↔ x.Equal y :=
  ⟨fun | .number related => related, .number⟩

theorem tellsApart_number (h : x.TellsApart y) : (number x).TellsApart (number y) :=
  fun | _, _, .here _, .here _ => h

end Content

theorem comparisons_nearest_short :
    let double (n : Int) : Number := .double (Double.ofInt n)
    let common := { Common.plain .builtIn with allowed := some [.ofInt 1] }
    common.enumViolations (.num (double 1)) = [] ∧ common.enumViolations (.num (double 2)) ≠ [] ∧
      Shape.breachOfUniqueness? none [.integer 1 (by decide), .number (Double.ofInt 2)] = none := by
  intro double common
  let one : Number := .integer 1 (by decide)
  have hcompares := fun payload => comparisons_nearest one one common [.num one] payload
    [.integer 1 (by decide), .number (Double.ofInt 2)]
  have hshort : one.IsShort := Number.isShort_integer.2 (by decide)
  have hproper : ∀ item ∈ [Json.num one], item.toContent.IsProper :=
    List.forall_mem_singleton.2 (Content.isProper_number rfl)
  have hdouble : (Json.num (double 1)).toContent.IsProper ∧
      (Json.num (double 2)).toContent.IsProper :=
    ⟨Content.isProper_number (by decide +kernel), Content.isProper_number (by decide +kernel)⟩
  have hequal : one.Equal (double 1) :=
    (Number.equal_ofInt (by decide) (by decide)).2 (by decide +kernel)
  have hdiffer : ¬one.Equal (double 2) := fun h =>
    absurd ((Number.equal_ofInt (by decide) (by decide)).1 h) (by decide +kernel)
  refine ⟨?_, fun hnil => ?_, ?_⟩
  · exact ((hcompares _).2.2.2.1 rfl (by simp) hdouble.1 hproper).1
      ⟨_, List.mem_singleton_self _, Content.number_equal.2 hequal⟩
  · have happart : ∀ item ∈ [Json.num one], item.toContent.TellsApart (.number (double 2)) :=
      List.forall_mem_singleton.2 (Content.tellsApart_number (hshort.tellsApart _))
    obtain ⟨item, hitem, hequal⟩ :=
      ((hcompares _).2.2.2.1 rfl (by simp) hdouble.2 hproper).2 happart hnil
    rw [List.mem_singleton.1 hitem] at hequal
    exact hdiffer (Content.number_equal.1 hequal)
  · refine ((hcompares .null).2.2.2.2 fun item hitem => ?_).2
      (List.pairwise_pair.2 ⟨?_, fun h => ?_⟩)
    · rcases List.mem_pair.1 hitem with rfl | rfl
      · exact Content.isProper_number rfl
      · exact hdouble.2
    · exact Content.tellsApart_number (hshort.tellsApart _)
    · exact hdiffer (Content.number_equal.1 h)

/-- The integer after `2^53` shares the double of `2^53`. So it is admitted in the place of that
double and not told apart from it, although two integers are. -/
theorem odd_integer_compares_as_even :
    let even := Number.integer 9007199254740992 (by decide)
    let double := Number.double (Double.ofInt 9007199254740992)
    let odd := Number.integer 9007199254740993 (by decide)
    let common := { Common.plain .builtIn with allowed := some [.num double] }
    ¬odd.Equal double ∧ (Json.num odd).same (.num double) = true ∧
      (Json.num double).same (.num even) = true ∧ (Json.num odd).same (.num even) = false ∧
      common.enumViolations (.num odd) = [] ∧
      Shape.breachOfUniqueness? none
        [.integer 9007199254740993 (by decide), .number (Double.ofInt 9007199254740992)] =
          some .uniqueItems := by
  refine ⟨fun h => ?_, by decide +kernel, by decide +kernel, by decide +kernel, ?_,
    by decide +kernel⟩
  · exact absurd ((Number.equal_ofInt (by decide) (by decide)).1 h) (by decide +kernel)
  · exact (Common.enumViolations_eq_nil rfl (by simp)).2
      ⟨_, List.mem_singleton_self _, by decide +kernel⟩

/-! ## Values taken over -/

/-- Numbers compare by their signed words and their doubles. -/
theorem Number.same_congr {x x' y y' : Number} (hx : x'.signed? = x.signed?)
    (hdouble : x'.toDouble = x.toDouble) (hy : y'.signed? = y.signed?)
    (hdouble' : y'.toDouble = y.toDouble) : x'.same y' = x.same y := by
  unfold same
  rw [hx, hdouble, hy, hdouble']

namespace Value

/-- A number that is taken over keeps its signed word, if it has one, and its double. -/
theorem toContent_ofNumber (x : Number) : ∃ x', (ofNumber x).toContent = .number x' ∧
    x'.signed? = x.signed? ∧ x'.toDouble = x.toDouble := by
  cases x with
  | integer n fits =>
      by_cases h : FitsSigned n
      · have htaken : ofNumber (.integer n fits) = integer n h := dif_pos h
        rw [htaken]
        exact ⟨.integer n fits, rfl, rfl, rfl⟩
      · have htaken : ofNumber (.integer n fits) = number (Double.ofInt n) := dif_neg h
        rw [htaken]
        exact ⟨.double (Double.ofInt n), rfl, (if_neg h).symm, rfl⟩
  | double d => exact ⟨.double d, rfl, rfl, rfl⟩

theorem ofNumber_same (x y : Number) :
    (ofNumber x).toContent.same (ofNumber y).toContent = x.same y := by
  obtain ⟨x', hx, hsigned, hdouble⟩ := toContent_ofNumber x
  obtain ⟨y', hy, hsigned', hdouble'⟩ := toContent_ofNumber y
  rw [hx, hy]
  exact Number.same_congr hsigned hdouble hsigned' hdouble'

/-- What differs from every number differs from one that was taken over. -/
theorem same_ofNumber {a : Content} (h : ∀ x, a.same (.number x) = false) (y : Number) :
    a.same (ofNumber y).toContent = false := by
  obtain ⟨y', hy, -⟩ := toContent_ofNumber y
  rw [hy]
  exact h y'

theorem toContentEntries_ofEntries (entries : List (String × Json)) :
    toContentEntries (ofEntries entries) =
      entries.map fun entry => (entry.1, (ofJson entry.2).toContent) := by
  induction entries with
  | nil => rfl
  | cons entry rest ih => exact congrArg _ ih

mutual

/-- What was taken over compares as the JSON does. -/
theorem ofJson_same : ∀ a b : Json, (ofJson a).toContent.same (ofJson b).toContent = a.same b
  | .num x, b => by
      cases b with
      | num y => exact ofNumber_same x y
      | _ =>
          -- whether `x` has a signed word does not matter, as it stays a number
          obtain ⟨x', hx, -⟩ := toContent_ofNumber x
          show (ofNumber x).toContent.same _ = false
          rw [hx]
          rfl
  | .null, b | .bool _, b | .str _, b => by
      cases b with
      | num y => exact same_ofNumber (fun _ => rfl) y
      | _ => rfl
  | .arr items, b => by
      cases b with
      | arr items' => exact ofItems_same items items'
      | num y => exact same_ofNumber (fun _ => rfl) y
      | _ => rfl
  | .obj entries, b => by
      cases b with
      | obj entries' =>
          show ((toContentEntries (ofEntries entries)).length ==
              (toContentEntries (ofEntries entries')).length && Content.sameEntries _ _) =
            (entries.length == entries'.length && Json.sameEntries entries entries')
          rw [ofEntries_same entries entries', toContentEntries_ofEntries,
            toContentEntries_ofEntries, List.length_map, List.length_map]
      | num y => exact same_ofNumber (fun _ => rfl) y
      | _ => rfl

theorem ofItems_same : ∀ items items' : List Json,
    Content.sameItems (toContentItems (ofItems items)) (toContentItems (ofItems items')) =
      Json.sameItems items items'
  | [], items' => by cases items' <;> rfl
  | item :: rest, items' => by
      cases items' with
      | nil => rfl
      | cons item' rest' => exact congrArg₂ _ (ofJson_same item item') (ofItems_same rest rest')

theorem ofEntries_same : ∀ entries entries' : List (String × Json),
    Content.sameEntries (toContentEntries (ofEntries entries))
      (toContentEntries (ofEntries entries')) = Json.sameEntries entries entries'
  | [], _ => rfl
  | (key, item) :: rest, entries' => by
      refine congrArg₂ _ ?_ (ofEntries_same rest entries')
      rw [toContentEntries_ofEntries, Entries.find?_map fun item => (ofJson item).toContent]
      cases Entries.find? key entries' with
      | none => rfl
      | some item' => exact ofJson_same item item'

end

/-- Both notions of equality come to the same on what was taken over. -/
theorem loosely_ofJson (a b : Json) : (ofJson a).loosely (ofJson b) = a.same b := by
  rw [loosely_eq, ofJson_same]

end Value

theorem Json.same_comm {a b : Json} (ha : a.isRegular = true) (hb : b.isRegular = true) :
    a.same b = b.same a := by
  have hiff := Content.same_iff (toContent_isOrdered ha) (toContent_isOrdered hb)
  have hiff' := Content.same_iff (toContent_isOrdered hb) (toContent_isOrdered ha)
  rw [same_eq, same_eq, Bool.eq_iff_iff, hiff, hiff']
  exact ⟨.symm, .symm⟩

theorem Shape.breachOfUniqueness?_eq_none {items : List Value} :
    breachOfUniqueness? none items = none ↔ items.Pairwise fun a b => a.loosely b = false := by
  rw [← hasDuplicates_eq_false]
  unfold breachOfUniqueness?
  cases hasDuplicates items <;> simp

/-- The equality of untyped results is that of the JSON they were taken over from, and it does not
matter which of two values comes first. So a list of untyped results has no duplicates exactly if an
`enum` of any of its items refuses all items behind it. -/
theorem equalities_agree (a b : Json) (common : Common) (items : List Json) :
    (Value.ofJson a).loosely (Value.ofJson b) = a.same b ∧
    (a.isRegular = true → b.isRegular = true →
      (Value.ofJson b).loosely (Value.ofJson a) = a.same b) ∧
    (Shape.breachOfUniqueness? none (items.map Value.ofJson) = none ↔
      items.Pairwise fun one other =>
        { common with allowed := some [one] }.enumViolations other ≠ []) := by
  refine ⟨Value.loosely_ofJson a b, fun ha hb => ?_, ?_⟩
  · rw [Value.loosely_ofJson, Json.same_comm hb ha]
  · have hrefused : ∀ one other : Json, (Value.ofJson one).loosely (Value.ofJson other) = false ↔
        { common with allowed := some [one] }.enumViolations other ≠ [] := by
      intro one other
      have hadmits : { common with allowed := some [one] }.enumViolations other = [] ↔
          ∃ allowed ∈ [one], allowed.same other = true :=
        Common.enumViolations_eq_nil rfl (List.cons_ne_nil _ _)
      rw [Value.loosely_ofJson, ne_eq, hadmits]
      simp
    rw [Shape.breachOfUniqueness?_eq_none, List.pairwise_map]
    simp only [hrefused]

/-- The greatest unsigned word and the double next to it are equal by both, in either order, and
inside of an object. -/
theorem equalities_agree_unsigned :
    let word := Json.obj [("size", .num (.integer 18446744073709551615 (by decide)))]
    let double := Json.obj [("size", .num (.double (Double.ofInt 18446744073709551615)))]
    (Value.ofJson double).loosely (Value.ofJson word) = true ∧
      Shape.breachOfUniqueness? none [Value.ofJson word, Value.ofJson double] ≠ none := by
  intro word double
  have hsame : word.same double = true := by decide +kernel
  obtain ⟨-, hsymm, hunique⟩ := equalities_agree word double (.plain .builtIn) [word, double]
  refine ⟨(hsymm (by decide +kernel) (by decide +kernel)).trans hsame, fun hnone => ?_⟩
  have hrefused := List.pairwise_pair.1 (hunique.1 hnone)
  exact hrefused ((Common.enumViolations_eq_nil rfl (List.cons_ne_nil _ _)).2
    ⟨word, List.mem_singleton_self _, hsame⟩)

end SchemaGraph

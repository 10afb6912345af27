import SchemaGraph.Json.Basic
import SchemaGraph.Path
import SchemaGraph.Proofs.Digits

set_option autoImplicit false

/-! # JSON values and their parts

What is asked of every part of a value is asked of the parts on any walk into it. Values as they
come out of a document are regular: keys stand in increasing order, each once, doubles are
finite, and lists are no longer than an index can tell.
-/

namespace SchemaGraph

namespace Json

/-! ## Every part -/

mutual

/-- The value and everything inside it passes a test. -/
def all (test : Json → Bool) : Json → Bool
  | .arr items => test (.arr items) && allItems test items
  | .obj entries => test (.obj entries) && allEntries test entries
  | leaf => test leaf

def allItems (test : Json → Bool) : List Json → Bool
  | [] => true
  | item :: rest => all test item && allItems test rest

def allEntries (test : Json → Bool) : List (String × Json) → Bool
  | [] => true
  | (_, item) :: rest => all test item && allEntries test rest

end

variable {test : Json → Bool}

theorem test_of_all {value : Json} (h : value.all test = true) : test value = true := by
  cases value with
  | arr items => exact (Bool.and_eq_true_iff.1 h).1
  | obj entries => exact (Bool.and_eq_true_iff.1 h).1
  | _ => exact h

theorem all_of_mem_items : ∀ {items : List Json} {item : Json}, allItems test items = true →
    item ∈ items → item.all test = true
  | first :: rest, item, h, hmem => by
      obtain ⟨hfirst, hrest⟩ := Bool.and_eq_true_iff.1 h
      rcases List.mem_cons.1 hmem with rfl | hmem
      · exact hfirst
      · exact all_of_mem_items hrest hmem

theorem all_of_mem_entries : ∀ {entries : List (String × Json)} {key : String} {item : Json},
    allEntries test entries = true → (key, item) ∈ entries → item.all test = true
  | (_, first) :: rest, key, item, h, hmem => by
      obtain ⟨hfirst, hrest⟩ := Bool.and_eq_true_iff.1 h
      rcases List.mem_cons.1 hmem with heq | hmem
      · cases heq
        exact hfirst
      · exact all_of_mem_entries hrest hmem

theorem all_items {items : List Json} {item : Json} (h : (arr items).all test = true)
    (hmem : item ∈ items) : item.all test = true :=
  all_of_mem_items (Bool.and_eq_true_iff.1 h).2 hmem

theorem all_entries {entries : List (String × Json)} {key : String} {item : Json}
    (h : (obj entries).all test = true) (hmem : (key, item) ∈ entries) : item.all test = true :=
  all_of_mem_entries (Bool.and_eq_true_iff.1 h).2 hmem

/-! ## Equal values -/

mutual

/-- Two values are found to be equal. -/
def isSame : Json → Json → Bool
  | .null, .null => true
  | .bool b, .bool b' => b == b'
  | .num number, .num number' => number == number'
  | .str text, .str text' => text == text'
  | .arr items, .arr items' => isSameItems items items'
  | .obj entries, .obj entries' => isSameEntries entries entries'
  | _, _ => false

def isSameItems : List Json → List Json → Bool
  | [], [] => true
  | item :: rest, item' :: rest' => isSame item item' && isSameItems rest rest'
  | _, _ => false

def isSameEntries : List (String × Json) → List (String × Json) → Bool
  | [], [] => true
  | (key, item) :: rest, (key', item') :: rest' =>
    key == key' && isSame item item' && isSameEntries rest rest'
  | _, _ => false

end

mutual

theorem eq_of_isSame : ∀ {value value' : Json}, isSame value value' = true → value = value'
  | .arr items, value', h => by
      cases value' with
      | arr items' => rw [eq_of_isSameItems h]
      | _ => simp [isSame] at h
  | .obj entries, value', h => by
      cases value' with
      | obj entries' => rw [eq_of_isSameEntries h]
      | _ => simp [isSame] at h
  | .null, value', h => by cases value' <;> simp_all [isSame]
  | .bool _, value', h => by cases value' <;> simp_all [isSame]
  | .num _, value', h => by cases value' <;> simp_all [isSame]
  | .str _, value', h => by cases value' <;> simp_all [isSame]

theorem eq_of_isSameItems : ∀ {items items' : List Json}, isSameItems items items' = true →
    items = items'
  | [], [], _ => rfl
  | _ :: _, _ :: _, h => by
      obtain ⟨hitem, hrest⟩ := Bool.and_eq_true_iff.1 h
      rw [eq_of_isSame hitem, eq_of_isSameItems hrest]

theorem eq_of_isSameEntries : ∀ {entries entries' : List (String × Json)},
    isSameEntries entries entries' = true → entries = entries'
  | [], [], _ => rfl
  | (_, _) :: _, (_, _) :: _, h => by
      obtain ⟨hentry, hrest⟩ := Bool.and_eq_true_iff.1 h
      obtain ⟨hkey, hitem⟩ := Bool.and_eq_true_iff.1 hentry
      rw [eq_of_beq hkey, eq_of_isSame hitem, eq_of_isSameEntries hrest]

end

/-! ## Regular values -/

/-- What a value must be like itself, whatever its parts are. -/
def isRegularHere : Json → Bool
  | .num (.double d) => d.isFinite
  | .arr items => decide (items.length < 0x10000000000000000)
  | .obj entries => decide ((entries.map Prod.fst).Pairwise (· < ·))
  | _ => true

/-- A value as it comes out of a document. -/
def isRegular (value : Json) : Bool := value.all isRegularHere

end Json

/-- What is found stands among the entries. -/
theorem Entries.mem_of_find? {α : Type} {key : String} {value : α} :
    ∀ {entries : List (String × α)}, Entries.find? key entries = some value → (key, value) ∈ entries
  | [], h => by cases h
  | (k, v) :: rest, h => by
      unfold Entries.find? at h
      split at h
      · rename_i hkey
        cases h
        rw [eq_of_beq hkey]
        exact List.mem_cons_self
      · exact List.mem_cons_of_mem _ (Entries.mem_of_find? h)

/-- In increasing order of keys, every entry is found under its key. -/
theorem Entries.find?_of_mem {α : Type} {key : String} {value : α} :
    ∀ {entries : List (String × α)}, (entries.map Prod.fst).Pairwise (· < ·) →
      (key, value) ∈ entries → Entries.find? key entries = some value
  | (k, v) :: rest, hsorted, hmem => by
      obtain ⟨hfirst, hrest⟩ := List.pairwise_cons.1 hsorted
      unfold Entries.find?
      rcases List.mem_cons.1 hmem with heq | hmem
      · cases heq
        exact if_pos (beq_self_eq_true key)
      · have hlt : k < key := hfirst key (List.mem_map.2 ⟨_, hmem, rfl⟩)
        have hne : ¬(k == key) = true := by
          intro heq
          rw [eq_of_beq heq] at hlt
          exact String.lt_irrefl key hlt
        rw [if_neg hne]
        exact Entries.find?_of_mem hrest hmem

/-- What is found among pairs after all pairs with one key were taken out. -/
theorem lookup_without {κ υ : Type} [DecidableEq κ] (key other : κ) (pairs : List (κ × υ)) :
    (pairs.filter fun (k, _) => k != key).lookup other =
      if other = key then none else pairs.lookup other := by
  induction pairs with
  | nil => exact (ite_self none).symm
  | cons pair rest ih =>
      obtain ⟨k, value⟩ := pair
      by_cases hk : k = key
      · rw [List.filter_cons_of_neg (by simpa using hk), ih]
        by_cases hother : other = key
        · rw [if_pos hother, if_pos hother]
        · rw [if_neg hother, if_neg hother, List.lookup_cons]
          have hne : (other == k) = false := by simpa [hk] using hother
          rw [hne]
      · rw [List.filter_cons_of_pos (by simpa using hk), List.lookup_cons, List.lookup_cons, ih]
        by_cases hother : other = k
        · subst hother
          rw [beq_self_eq_true]
          exact (if_neg hk).symm
        · have hne : (other == k) = false := by simpa using hother
          rw [hne]

/-! ## Walks -/

namespace Json

theorem walk_append (value : Json) (front back : List String) :
    value.walk? (front ++ back) = (value.walk? front).bind fun part => part.walk? back := by
  induction front generalizing value with
  | nil => rfl
  | cons segment rest ih =>
      show (value.step? segment).bind (fun part => part.walk? (rest ++ back)) =
        ((value.step? segment).bind fun part => part.walk? rest).bind fun part => part.walk? back
      cases value.step? segment with
      | none => rfl
      | some part => exact ih part

theorem walk_snoc {value part : Json} {front : List String} (h : value.walk? front = some part)
    (segment : String) : value.walk? (front ++ [segment]) = part.step? segment := by
  rw [walk_append, h]
  show (part.step? segment).bind some = part.step? segment
  cases part.step? segment <;> rfl

end Json

/-! ## Nesting -/

namespace Json

/-- The part stands in the list, or under a key of the object. -/
def Has (whole part : Json) : Prop :=
  part ∈ whole.asArr?.getD [] ∨ ∃ key, (key, part) ∈ whole.asObj?.getD []

mutual

/-- How deep arrays and objects nest. -/
def depth : Json → Nat
  | .arr items => depthOfItems items + 1
  | .obj entries => depthOfEntries entries + 1
  | _ => 0

def depthOfItems : List Json → Nat
  | [] => 0
  | item :: rest => max item.depth (depthOfItems rest)

def depthOfEntries : List (String × Json) → Nat
  | [] => 0
  | (_, item) :: rest => max item.depth (depthOfEntries rest)

end

theorem depth_le_depthOfItems {item : Json} :
    ∀ {items : List Json}, item ∈ items → item.depth ≤ depthOfItems items
  | first :: rest, h => by
      rcases List.mem_cons.1 h with rfl | h
      · exact Nat.le_max_left _ _
      · exact Nat.le_trans (depth_le_depthOfItems h) (Nat.le_max_right _ _)

theorem depth_le_depthOfEntries {key : String} {item : Json} :
    ∀ {entries : List (String × Json)}, (key, item) ∈ entries → item.depth ≤ depthOfEntries entries
  | (_, first) :: rest, h => by
      rcases List.mem_cons.1 h with heq | h
      · cases heq
        exact Nat.le_max_left _ _
      · exact Nat.le_trans (depth_le_depthOfEntries h) (Nat.le_max_right _ _)

theorem Has.depth_lt {whole part : Json} (h : whole.Has part) : part.depth < whole.depth := by
  rcases h with hitem | ⟨key, hentry⟩
  · cases whole with
    | arr items => exact Nat.lt_succ_of_le (depth_le_depthOfItems hitem)
    | _ => cases hitem
  · cases whole with
    | obj entries => exact Nat.lt_succ_of_le (depth_le_depthOfEntries hentry)
    | _ => cases hentry

mutual

/-- A value and everything inside it. -/
def inside : Json → List Json
  | .arr items => .arr items :: insideItems items
  | .obj entries => .obj entries :: insideEntries entries
  | leaf => [leaf]

def insideItems : List Json → List Json
  | [] => []
  | item :: rest => item.inside ++ insideItems rest

def insideEntries : List (String × Json) → List Json
  | [] => []
  | (_, item) :: rest => item.inside ++ insideEntries rest

end

theorem mem_inside_self (value : Json) : value ∈ value.inside := by
  cases value with
  | arr items => exact List.mem_cons_self
  | obj entries => exact List.mem_cons_self
  | _ => exact List.mem_singleton_self _

theorem inside_subset_items {item : Json} :
    ∀ {items : List Json}, item ∈ items → item.inside ⊆ insideItems items
  | first :: rest, h => by
      rcases List.mem_cons.1 h with rfl | h
      · exact List.subset_append_left _ _
      · exact List.Subset.trans (inside_subset_items h) (List.subset_append_right _ _)

theorem inside_subset_entries {key : String} {item : Json} :
    ∀ {entries : List (String × Json)}, (key, item) ∈ entries → item.inside ⊆ insideEntries entries
  | (_, first) :: rest, h => by
      rcases List.mem_cons.1 h with heq | h
      · cases heq
        exact List.subset_append_left _ _
      · exact List.Subset.trans (inside_subset_entries h) (List.subset_append_right _ _)

/-- The parts of a value are inside of it. -/
theorem Has.inside_self {whole part : Json} (h : whole.Has part) : part ∈ whole.inside := by
  rcases h with hitem | ⟨key, hentry⟩
  · cases whole with
    | arr items =>
        exact List.mem_cons_of_mem _ (inside_subset_items hitem (mem_inside_self part))
    | _ => cases hitem
  · cases whole with
    | obj entries =>
        exact List.mem_cons_of_mem _ (inside_subset_entries hentry (mem_inside_self part))
    | _ => cases hentry

mutual

/-- So are the parts of everything inside. -/
theorem Has.inside {part whole : Json} (h : whole.Has part) :
    ∀ {value : Json}, whole ∈ value.inside → part ∈ value.inside
  | .arr items, hwhole => by
      rcases List.mem_cons.1 hwhole with rfl | hwhole
      · exact h.inside_self
      · exact List.mem_cons_of_mem _ (Has.insideItems h hwhole)
  | .obj entries, hwhole => by
      rcases List.mem_cons.1 hwhole with rfl | hwhole
      · exact h.inside_self
      · exact List.mem_cons_of_mem _ (Has.insideEntries h hwhole)
  | .null, hwhole | .bool _, hwhole | .num _, hwhole | .str _, hwhole => by
      rw [List.mem_singleton.1 hwhole] at h
      exact h.inside_self

theorem Has.insideItems {part whole : Json} (h : whole.Has part) :
    ∀ {items : List Json}, whole ∈ insideItems items → part ∈ insideItems items
  | first :: rest, hwhole => by
      rcases List.mem_append.1 hwhole with hwhole | hwhole
      · exact List.mem_append_left _ (Has.inside h hwhole)
      · exact List.mem_append_right _ (Has.insideItems h hwhole)

theorem Has.insideEntries {part whole : Json} (h : whole.Has part) :
    ∀ {entries : List (String × Json)}, whole ∈ insideEntries entries →
      part ∈ insideEntries entries
  | (_, first) :: rest, hwhole => by
      rcases List.mem_append.1 hwhole with hwhole | hwhole
      · exact List.mem_append_left _ (Has.inside h hwhole)
      · exact List.mem_append_right _ (Has.insideEntries h hwhole)

end

theorem has_of_step {whole part : Json} {segment : String} (h : whole.step? segment = some part) :
    whole.Has part := by
  cases whole with
  | arr items =>
      obtain ⟨index, -, hindex⟩ := Option.bind_eq_some_iff.1 h
      exact .inl (List.mem_of_getElem? hindex)
  | obj entries => exact .inr ⟨segment, Entries.mem_of_find? h⟩
  | _ => cases h

theorem Has.all {test : Json → Bool} {whole part : Json} (h : whole.Has part)
    (hall : whole.all test = true) : part.all test = true := by
  rcases h with hitem | ⟨key, hentry⟩
  · cases whole with
    | arr items => exact all_items hall hitem
    | _ => cases hitem
  · cases whole with
    | obj entries => exact all_entries hall hentry
    | _ => cases hentry

mutual

/-- What parts inherit holds of everything inside. -/
theorem holds_of_mem_inside {holds : Json → Prop}
    (hparts : ∀ {whole part}, holds whole → whole.Has part → holds part) {part : Json} :
    ∀ {value : Json}, holds value → part ∈ value.inside → holds part
  | .arr items, h, hmem => by
      rcases List.mem_cons.1 hmem with rfl | hmem
      · exact h
      · exact holds_of_mem_insideItems hparts (fun item hitem => hparts h (.inl hitem)) hmem
  | .obj entries, h, hmem => by
      rcases List.mem_cons.1 hmem with rfl | hmem
      · exact h
      · exact holds_of_mem_insideEntries hparts
          (fun key item hentry => hparts h (.inr ⟨key, hentry⟩)) hmem
  | .null, h, hmem | .bool _, h, hmem | .num _, h, hmem | .str _, h, hmem => by
      rw [List.mem_singleton.1 hmem]
      exact h

theorem holds_of_mem_insideItems {holds : Json → Prop}
    (hparts : ∀ {whole part}, holds whole → whole.Has part → holds part) {part : Json} :
    ∀ {items : List Json}, (∀ item ∈ items, holds item) → part ∈ insideItems items → holds part
  | first :: rest, h, hmem => by
      rcases List.mem_append.1 hmem with hmem | hmem
      · exact holds_of_mem_inside hparts (h first List.mem_cons_self) hmem
      · exact holds_of_mem_insideItems hparts (fun item hitem => h item (.tail _ hitem)) hmem

theorem holds_of_mem_insideEntries {holds : Json → Prop}
    (hparts : ∀ {whole part}, holds whole → whole.Has part → holds part) {part : Json} :
    ∀ {entries : List (String × Json)}, (∀ key item, (key, item) ∈ entries → holds item) →
      part ∈ insideEntries entries → holds part
  | (key, first) :: rest, h, hmem => by
      rcases List.mem_append.1 hmem with hmem | hmem
      · exact holds_of_mem_inside hparts (h key first List.mem_cons_self) hmem
      · exact holds_of_mem_insideEntries hparts
          (fun other item hentry => h other item (.tail _ hentry)) hmem

end

/-- What passes with everything inside it, does so at each place. -/
theorem test_of_mem_inside {test : Json → Bool} {value part : Json} (h : value.all test = true)
    (hmem : part ∈ value.inside) : test part = true :=
  test_of_all (holds_of_mem_inside (fun hwhole hpart => hpart.all hwhole) h hmem)

/-- What is inside of something inside is inside. -/
theorem mem_inside_trans {value whole part : Json} (h : part ∈ whole.inside)
    (hwhole : whole ∈ value.inside) : part ∈ value.inside :=
  holds_of_mem_inside (fun hinside hpart => hpart.inside hinside) hwhole h

/-- What parts inherit holds at the end of every walk. -/
theorem holds_of_walk {holds : Json → Prop}
    (hparts : ∀ {whole part}, holds whole → whole.Has part → holds part) {whole part : Json}
    {segments : List String} (hwhole : holds whole) (h : whole.walk? segments = some part) :
    holds part := by
  induction segments generalizing whole with
  | nil =>
      cases h
      exact hwhole
  | cons segment rest ih =>
      obtain ⟨next, hnext, hrest⟩ := Option.bind_eq_some_iff.1 h
      exact ih (hparts hwhole (has_of_step hnext)) hrest

/-- Every segment of a walk comes down one level. -/
theorem depth_of_walk {whole part : Json} {segments : List String}
    (h : whole.walk? segments = some part) : segments.length + part.depth ≤ whole.depth := by
  induction segments generalizing whole with
  | nil =>
      cases h
      exact Nat.le_of_eq (Nat.zero_add _)
  | cons segment rest ih =>
      obtain ⟨next, hnext, hrest⟩ := Option.bind_eq_some_iff.1 h
      have hlt := (has_of_step hnext).depth_lt
      have hle := ih hrest
      rw [List.length_cons]
      omega

end Json

/-- The decimal digits of a number read as it. -/
theorem Numeral.readIndex?_toString {index : Nat} (h : index < 0x10000000000000000) :
    Numeral.readIndex? (toString index).toList = some index := by
  have htext : (toString index).toList = Nat.toDigits 10 index := by
    rw [Nat.toString_eq_repr, Nat.toList_repr]
  have hdigit : ∀ c ∈ Nat.toDigits 10 index, Ascii.isDigit c = true := fun _ =>
    Ascii.isDigit_of_mem_toDigits
  have hread : Numeral.readDigits? (Nat.toDigits 10 index) = some index := by
    have hempty : (Nat.toDigits 10 index).isEmpty = false := by simp [Nat.toDigits_ne_nil]
    unfold Numeral.readDigits?
    rw [hempty, List.all_eq_true.2 hdigit]
    exact congrArg some (Ascii.decimalValue_toDigits index)
  unfold Numeral.readIndex?
  rw [htext]
  generalize Nat.toDigits 10 index = digits at hdigit hread
  split
  · have hbad := hdigit '+' List.mem_cons_self
    exact absurd hbad (by decide)
  · dsimp only
    rw [hread]
    exact if_pos h

namespace Json

/-- The key of an entry leads to its value. -/
theorem step_entry {entries : List (String × Json)} {key : String} {item : Json}
    (hregular : (obj entries).isRegular = true) (hmem : (key, item) ∈ entries) :
    (obj entries).step? key = some item :=
  Entries.find?_of_mem (of_decide_eq_true (test_of_all hregular)) hmem

/-- The index of an item leads to it. -/
theorem step_item {items : List Json} {index : Nat} {item : Json}
    (hregular : (arr items).isRegular = true) (hindex : items[index]? = some item) :
    (arr items).step? (toString index) = some item := by
  have hshort : items.length < 0x10000000000000000 := of_decide_eq_true (test_of_all hregular)
  have hlt : index < items.length := (List.getElem?_eq_some_iff.1 hindex).1
  show (Numeral.readIndex? (toString index).toList).bind (fun index => items[index]?) = some item
  rw [Numeral.readIndex?_toString (Nat.lt_trans hlt hshort)]
  exact hindex

theorem step_of_entry {payload item : Json} {key : String} (hregular : payload.isRegular = true)
    (hmem : (key, item) ∈ payload.asObj?.getD []) : payload.step? key = some item := by
  cases payload with
  | obj entries => exact step_entry hregular hmem
  | _ => cases hmem

theorem step_of_item {payload item : Json} {index : Nat} (hregular : payload.isRegular = true)
    (hindex : (payload.asArr?.getD [])[index]? = some item) :
    payload.step? (toString index) = some item := by
  cases payload with
  | arr items => exact step_item hregular hindex
  | _ => cases hindex

end Json

/-! ## Where values stand -/

/-- A value stands at a location of the document without a URI. -/
def Json.StandsAt (document value : Json) (path : Path) : Prop :=
  path.base = "" ∧ document.walk? path.parts = some value

namespace Json.StandsAt

variable {document value : Json} {path : Path} {test : Json → Bool}

theorem all (h : document.StandsAt value path) (hall : document.all test = true) :
    value.all test = true :=
  holds_of_walk (fun hwhole hpart => hpart.all hwhole) hall h.2

theorem test_here (h : document.StandsAt value path) (hall : document.all test = true) :
    test value = true :=
  test_of_all (h.all hall)

/-- What a segment names stands a segment below. -/
theorem step {part : Json} {segment : String} (h : document.StandsAt value path)
    (hstep : value.step? segment = some part) : document.StandsAt part (path.child segment) := by
  refine ⟨h.1, ?_⟩
  show document.walk? (path.parts ++ [segment]) = some part
  rw [walk_snoc h.2]
  exact hstep

theorem entry {entries : List (String × Json)} {key : String} {item : Json}
    (h : document.StandsAt (.obj entries) path) (hregular : document.isRegular = true)
    (hmem : (key, item) ∈ entries) : document.StandsAt item (path.child key) :=
  h.step (step_entry (h.all hregular) hmem)

theorem item {items : List Json} {index : Nat} {item : Json}
    (h : document.StandsAt (.arr items) path) (hregular : document.isRegular = true)
    (hindex : items[index]? = some item) : document.StandsAt item (path.item index) :=
  h.step (step_item (h.all hregular) hindex)

end Json.StandsAt

end SchemaGraph

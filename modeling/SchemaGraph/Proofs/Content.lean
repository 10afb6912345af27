import Mathlib.Data.List.Nodup
import Mathlib.Data.List.Perm.Subperm
import SchemaGraph.Proofs.Amounts
import SchemaGraph.Proofs.Buckets

set_option autoImplicit false

/-! # What values hold

JSON values and converted values hold numbers, other data, lists, and parts under keys. How they
represent mappings is left out of their `Content`, and so is what kind of list of entries keeps
them. Two contents are alike by a relation of numbers if the same parts stand at the same places,
and the numbers there are related (`Content.Alike`). Whatever the relation of numbers is like, so is
that of contents.
-/

namespace SchemaGraph

namespace Value

/-- A value that is no number and has no parts. -/
def isDatum : Value → Bool
  | null | bool _ | string _ | date _ | timestamp _ | uuid _ | bytes _ | link _ => true
  | _ => false

variable {a b c : Value}

theorem sameScalar_self (h : a.isDatum = true) : a.sameScalar a = true := by
  cases a <;> simp_all [isDatum, sameScalar, Timestamp.sameInstant]

/-- What is the same as a datum is one. -/
theorem isDatum_of_sameScalar (ha : a.isDatum = true) (h : a.sameScalar b = true) :
    b.isDatum = true := by
  cases a <;> cases b <;> simp_all [isDatum, sameScalar]

theorem sameScalar_symm (ha : a.isDatum = true) (h : a.sameScalar b = true) :
    b.sameScalar a = true := by
  cases a <;> cases b <;> simp_all [isDatum, sameScalar, Timestamp.sameInstant]

theorem sameScalar_trans (ha : a.isDatum = true) (hab : a.sameScalar b = true)
    (hbc : b.sameScalar c = true) : a.sameScalar c = true := by
  have hb := isDatum_of_sameScalar ha hab
  cases a <;> cases b <;> simp [isDatum, sameScalar] at ha hb hab <;>
    cases c <;> simp_all [sameScalar, Timestamp.sameInstant]

end Value

/-- What a value holds, however it represents mappings. -/
inductive Content where
  | number (value : Number)
  | datum (value : Value) (plain : value.isDatum = true)
  | list (items : List Content)
  | table (entries : List (String × Content))

namespace Content

variable {a b c : Content} {r r' : Number → Number → Prop}

/-- A number stands somewhere in a content. -/
inductive Has : Content → Number → Prop where
  | here (x : Number) : Has (number x) x
  | item {items : List Content} {item : Content} {x : Number} (mem : item ∈ items)
      (inside : Has item x) : Has (list items) x
  | entry {entries : List (String × Content)} {key : String} {item : Content} {x : Number}
      (mem : (key, item) ∈ entries) (inside : Has item x) : Has (table entries) x

/-- The same parts stand at the same places, and the numbers there are related. Which entry comes
first does not matter. -/
inductive Alike (r : Number → Number → Prop) : Content → Content → Prop where
  | number {x y : Number} (related : r x y) : Alike r (number x) (number y)
  | datum {v w : Value} {hv : v.isDatum = true} {hw : w.isDatum = true}
      (same : v.sameScalar w = true) : Alike r (datum v hv) (datum w hw)
  | list {items items' : List Content} (length : items.length = items'.length)
      (alike : ∀ (i : Nat) item item', items[i]? = some item → items'[i]? = some item' →
        Alike r item item') : Alike r (list items) (list items')
  | table {entries entries' : List (String × Content)}
      (keys : ∀ key, Entries.contains key entries = Entries.contains key entries')
      (alike : ∀ key item item', Entries.find? key entries = some item →
        Entries.find? key entries' = some item' → Alike r item item') :
      Alike r (table entries) (table entries')

/-! ## Laws -/

mutual

theorem alike_self : ∀ a : Content, (∀ x, a.Has x → r x x) → a.Alike r a
  | .number x, h => .number (h x (.here x))
  | .datum _ plain, _ => .datum (Value.sameScalar_self plain)
  | .list items, h => by
      refine .list rfl fun i item item' hitem hitem' => ?_
      rw [hitem] at hitem'
      cases hitem'
      have hmem := List.mem_of_getElem? hitem
      exact alike_self_items items item hmem fun x hx => h x (.item hmem hx)
  | .table entries, h => by
      refine .table (fun _ => rfl) fun key item item' hitem hitem' => ?_
      rw [hitem] at hitem'
      cases hitem'
      have hmem := Entries.mem_of_find? hitem
      exact alike_self_entries entries key item hmem fun x hx => h x (.entry hmem hx)

theorem alike_self_items : ∀ (items : List Content), ∀ item ∈ items,
    (∀ x, item.Has x → r x x) → item.Alike r item
  | first :: rest, item, hmem, h => by
      rcases List.mem_cons.1 hmem with heq | hmem
      · rw [heq] at h ⊢
        exact alike_self first h
      · exact alike_self_items rest item hmem h

theorem alike_self_entries : ∀ (entries : List (String × Content)), ∀ key item,
    (key, item) ∈ entries → (∀ x, item.Has x → r x x) → item.Alike r item
  | (_, first) :: rest, key, item, hmem, h => by
      rcases List.mem_cons.1 hmem with heq | hmem
      · obtain ⟨-, heq⟩ := Prod.mk.inj heq
        rw [heq] at h ⊢
        exact alike_self first h
      · exact alike_self_entries rest key item hmem h

end

theorem Alike.symm (hr : ∀ x y, r x y → r y x) (h : a.Alike r b) : b.Alike r a := by
  induction h with
  | number related => exact .number (hr _ _ related)
  | @datum v w hv hw same => exact .datum (Value.sameScalar_symm hv same)
  | list length alike ih => exact .list length.symm fun i item item' h h' => ih i item' item h' h
  | table keys alike ih =>
      exact .table (fun key => (keys key).symm) fun key item item' h h' => ih key item' item h' h

/-- A part at one place stands at the same place of what is alike. -/
theorem exists_find? {entries entries' : List (String × Content)} {key : String} {item : Content}
    (keys : ∀ key, Entries.contains key entries = Entries.contains key entries')
    (h : Entries.find? key entries = some item) :
    ∃ item', Entries.find? key entries' = some item' := by
  have hcontains : Entries.contains key entries' = true := by
    rw [← keys]
    unfold Entries.contains
    rw [h]
    rfl
  exact Option.isSome_iff_exists.1 hcontains

/-- Contents alike to the same one are alike by what relates the numbers at its places. -/
theorem Alike.trans {s t : Number → Number → Prop}
    (h : a.Alike r b) (h' : b.Alike s c)
    (hr : ∀ x y z, a.Has x → c.Has z → r x y → s y z → t x z) : a.Alike t c := by
  -- every number in the middle stands between two of the outer contents, so nothing is asked of it
  induction h generalizing c with
  | @number x y related =>
      cases h' with
      | @number _ z related' => exact .number (hr x y z (.here x) (.here z) related related')
  | @datum v w hv hw same =>
      cases h' with
      | datum same' => exact .datum (Value.sameScalar_trans hv same same')
  | @list items items' length alike ih =>
      cases h' with
      | @list _ items'' length' alike' =>
          refine .list (length.trans length') fun i item item'' h h'' => ?_
          have hlt : i < items'.length := by
            rw [← length]
            exact (List.getElem?_eq_some_iff.1 h).1
          have hmiddle : items'[i]? = some items'[i] := List.getElem?_eq_getElem hlt
          refine ih i item _ h hmiddle (alike' i _ item'' hmiddle h'') fun x y z hx hz => ?_
          exact hr x y z (.item (List.mem_of_getElem? h) hx) (.item (List.mem_of_getElem? h'') hz)
  | @table entries entries' keys alike ih =>
      cases h' with
      | @table _ entries'' keys' alike' =>
          refine .table (fun key => (keys key).trans (keys' key)) fun key item item'' h h'' => ?_
          obtain ⟨item', hmiddle⟩ := exists_find? keys h
          refine ih key item item' h hmiddle (alike' key item' item'' hmiddle h'')
            fun x y z hx hz => ?_
          exact hr x y z (.entry (Entries.mem_of_find? h) hx) (.entry (Entries.mem_of_find? h'') hz)

/-- Contents are alike by another relation that holds of the numbers in them. -/
theorem Alike.imp (h : a.Alike r b) (hr : ∀ x y, a.Has x → b.Has y → r x y → r' x y) :
    a.Alike r' b := by
  induction h with
  | number related => exact .number (hr _ _ (.here _) (.here _) related)
  | datum same => exact .datum same
  | list length alike ih =>
      refine .list length fun i item item' h h' => ih i item item' h h' fun x y hx hy => ?_
      exact hr x y (.item (List.mem_of_getElem? h) hx) (.item (List.mem_of_getElem? h') hy)
  | table keys alike ih =>
      refine .table keys fun key item item' h h' => ih key item item' h h' fun x y hx hy => ?_
      exact hr x y (.entry (Entries.mem_of_find? h) hx) (.entry (Entries.mem_of_find? h') hy)

/-! ## Equal contents -/

/-- Numbers of the same amount, and otherwise the same data, stand at the same places. -/
abbrev Equal (a b : Content) : Prop := a.Alike Number.Equal b

/-- The doubles next to the numbers are the same, and so is everything else. -/
abbrev EqualRounded (a b : Content) : Prop := a.Alike Number.EqualRounded b

/-- No number of one content shares its double with another number of the other one. -/
def TellsApart (a b : Content) : Prop := ∀ x y, a.Has x → b.Has y → x.TellsApart y

/-- The keys of every table increase. -/
inductive IsOrdered : Content → Prop where
  | number (x : Number) : IsOrdered (number x)
  | datum (v : Value) (plain : v.isDatum = true) : IsOrdered (datum v plain)
  | list {items : List Content} (parts : ∀ item ∈ items, IsOrdered item) : IsOrdered (list items)
  | table {entries : List (String × Content)} (keys : (entries.map Prod.fst).Pairwise (· < ·))
      (parts : ∀ key item, (key, item) ∈ entries → IsOrdered item) : IsOrdered (table entries)

/-- Keys increase, no number is NaN, and doubles have at most 53 binary digits. -/
structure IsProper (a : Content) : Prop where
  ordered : a.IsOrdered
  numbers : ∀ x, a.Has x → x.isProper = true

/-- The magnitudes of all numbers are below `2^53`. -/
def IsShort (a : Content) : Prop := ∀ x, a.Has x → x.IsShort

/-! ## Comparison of contents -/

/-- Every number is compared by `Number.SameNearest`. -/
abbrev SameNearest (a b : Content) : Prop := a.Alike Number.SameNearest b

theorem sameNearest_self (h : a.IsProper) : a.SameNearest a :=
  alike_self a fun x hx =>
    (Number.equal_self (h.numbers x hx)).same (h.numbers x hx) (h.numbers x hx)

theorem SameNearest.symm (h : a.SameNearest b) : b.SameNearest a :=
  Alike.symm (fun _ _ => Number.SameNearest.symm) h

theorem Equal.sameNearest (ha : a.IsProper) (hb : b.IsProper) (h : a.Equal b) : a.SameNearest b :=
  h.imp fun x y hx hy hxy => hxy.same (ha.numbers x hx) (hb.numbers y hy)

theorem SameNearest.rounded (ha : a.IsProper) (hb : b.IsProper) (h : a.SameNearest b) :
    a.EqualRounded b :=
  h.imp fun x y hx hy hxy => hxy.rounded (ha.numbers x hx) (hb.numbers y hy)

/-- Where numbers are told apart, sharing a double is being equal. -/
theorem EqualRounded.equal (h : a.EqualRounded b) (happart : a.TellsApart b) : a.Equal b :=
  h.imp fun x y hx hy hxy => happart x y hx hy hxy

/-- Where numbers are told apart, a comparison that rounds is exact. -/
theorem TellsApart.sameNearest_iff (happart : a.TellsApart b) (ha : a.IsProper) (hb : b.IsProper) :
    a.SameNearest b ↔ a.Equal b :=
  ⟨fun h => (h.rounded ha hb).equal happart, Equal.sameNearest ha hb⟩

/-- What compares alike to the same content shares its doubles. -/
theorem SameNearest.trans_rounded (ha : a.IsProper) (hb : b.IsProper) (hc : c.IsProper)
    (hab : a.SameNearest b) (hbc : b.SameNearest c) : a.EqualRounded c :=
  Alike.trans (hab.rounded ha hb) (hbc.rounded hb hc) fun _ _ _ _ _ => Number.EqualRounded.trans

theorem Equal.symm (h : a.Equal b) : b.Equal a := Alike.symm (fun _ _ => Number.Equal.symm) h

theorem Equal.trans (h : a.Equal b) (h' : b.Equal c) : a.Equal c :=
  Alike.trans h h' fun _ _ _ _ _ => Number.Equal.trans

theorem equal_self (h : a.IsProper) : a.Equal a :=
  alike_self a fun x hx => Number.equal_self (h.numbers x hx)

/-- A content of short numbers is told apart from every other one. -/
theorem IsShort.tellsApart (h : a.IsShort) (b : Content) : a.TellsApart b :=
  fun x y hx _ => (h x hx).tellsApart y

end Content

end SchemaGraph

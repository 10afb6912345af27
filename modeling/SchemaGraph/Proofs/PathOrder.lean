import SchemaGraph.Error
import SchemaGraph.Proofs.Path

set_option autoImplicit false

/-! # The order of locations

A location is told from every other one by its text (`Path.IsBuilt.text_inj`): the URI of its
document has no `#`, so the text is cut where it was put together, and no slash is left in an
escaped segment. So locations are ordered by their texts alone (`Path.IsBuilt.compare_eq`), which
is the order of the bytes of the texts, because the bytes of two characters are ordered as the
characters are (`Utf8.compare_toUTF8`).
-/

namespace SchemaGraph

/-! ## Bytes of texts -/

namespace Utf8

open String (utf8EncodeChar utf8EncodeChar_ne_nil)

theorem compare_ofNat {m n : Nat} (hm : m < 256) (hn : n < 256) :
    compare (UInt8.ofNat m) (UInt8.ofNat n) = compare m n := by
  have hlt : UInt8.ofNat m < UInt8.ofNat n ↔ m < n := UInt8.ofNat_lt_iff_lt hm hn
  have heq : UInt8.ofNat m = UInt8.ofNat n ↔ m = n := by
    rw [← UInt8.toNat_inj, UInt8.toNat_ofNat', UInt8.toNat_ofNat', Nat.mod_eq_of_lt hm,
      Nat.mod_eq_of_lt hn]
  show compareOfLessAndEq (UInt8.ofNat m) (UInt8.ofNat n) = compareOfLessAndEq m n
  simp only [compareOfLessAndEq, hlt, heq]

/-- The bytes of the smaller character are smaller, whatever follows. -/
theorem compare_encodeChar {c d : Char} (h : c < d) (s t : List UInt8) :
    compare (utf8EncodeChar c ++ s) (utf8EncodeChar d ++ t) = .lt := by
  have hlt : c.val.toNat < d.val.toNat := h
  have hd : d.val.toNat < 0x110000 := by
    have hvalid := d.valid
    unfold UInt32.isValidChar Nat.isValidChar at hvalid
    omega
  unfold utf8EncodeChar
  dsimp only
  generalize c.val.toNat = v at hlt ⊢
  generalize d.val.toNat = w at hlt hd ⊢
  -- the smaller of two numbers is smaller in its upper digits, or in its last one
  have hdigits : ∀ m n : Nat, m < n → m / 64 < n / 64 ∨ m / 64 = n / 64 ∧ m % 64 < n % 64 := by
    omega
  have hlast := hdigits v w hlt
  have hmiddle := hdigits (v / 64) (w / 64)
  have hupper := hdigits (v / 64 / 64) (w / 64 / 64)
  simp only [Nat.div_div_eq_div_mul] at hmiddle hupper
  have hv : v / 262144 % 8 = v / 262144 := by omega
  have hw : w / 262144 % 8 = w / 262144 := by omega
  repeat' split
  all_goals
    simp (disch := omega) only [List.cons_append, List.nil_append, List.compare_cons_cons,
      compare_ofNat, Ordering.then_eq_lt, Nat.compare_eq_lt, Nat.compare_eq_eq, hv, hw]
    omega

theorem compare_append (s t u : List UInt8) : compare (s ++ t) (s ++ u) = compare t u := by
  induction s with
  | nil => rfl
  | cons b s ih =>
      rw [List.cons_append, List.cons_append, List.compare_cons_cons, Std.ReflOrd.compare_self, ih]
      rfl

theorem compare_encode_of_lt {l m : List Char} (h : List.Lex (· < ·) l m) :
    compare (l.flatMap utf8EncodeChar) (m.flatMap utf8EncodeChar) = .lt := by
  induction h with
  | @nil d m =>
      rw [List.flatMap_cons]
      cases hd : utf8EncodeChar d with
      | nil => exact absurd hd utf8EncodeChar_ne_nil
      | cons b rest => rfl
  | rel h => exact compare_encodeChar h _ _
  | cons _ ih =>
      rw [List.flatMap_cons, List.flatMap_cons, compare_append]
      exact ih

theorem toList_toUTF8 (text : String) :
    text.toUTF8.data.toList = text.toList.flatMap utf8EncodeChar := by
  rw [String.toUTF8_eq_toByteArray, ← String.utf8Encode_toList]
  show (text.toList.flatMap utf8EncodeChar).toByteArray.data.toList = _
  rw [List.data_toByteArray]

/-- Texts are ordered as their bytes are. -/
theorem compare_toUTF8 (a b : String) :
    compare a.toUTF8.data.toList b.toUTF8.data.toList = compare a b := by
  have hlt : ∀ {a b : String}, compare a b = .lt →
      compare a.toUTF8.data.toList b.toUTF8.data.toList = .lt := by
    intro a b h
    rw [toList_toUTF8, toList_toUTF8]
    exact compare_encode_of_lt (compareOfLessAndEq_eq_lt.1 h)
  cases h : compare a b with
  | lt => exact hlt h
  | eq =>
      rw [Std.LawfulEqCmp.eq_of_compare h]
      exact Std.ReflCmp.compare_self
  | gt => exact Std.OrientedCmp.gt_of_lt (hlt (Std.OrientedCmp.lt_of_gt h))

end Utf8

/-! ## Texts of locations -/

theorem Segment.escape_injective : Function.Injective Segment.escape :=
  Function.LeftInverse.injective Segment.unescape_escape

namespace Path

variable {a b c path : Path}

theorem pointer_injective : Function.Injective pointer := by
  intro parts parts' h
  have hsplit := congrArg (splitOn '/') h
  rw [← List.nil_append (pointer parts), ← List.nil_append (pointer parts'),
    splitOn_pointer List.not_mem_nil, splitOn_pointer List.not_mem_nil] at hsplit
  have hescape : Function.Injective fun part : String => Segment.escape part.toList :=
    Segment.escape_injective.comp fun _ _ => String.toList_injective
  exact List.map_injective_iff.2 hescape (List.cons.inj hsplit).2

/-- A location is told from every other one by its text. -/
theorem IsBuilt.text_inj (ha : a.IsBuilt) (hb : b.IsBuilt) : a.text = b.text ↔ a = b := by
  refine ⟨fun h => ?_, congrArg text⟩
  have hsplit := congrArg (splitFragment ·.toList) h
  rw [splitFragment_text ha.hash_not_mem, splitFragment_text hb.hash_not_mem] at hsplit
  obtain ⟨hbase, hpointer⟩ := Prod.mk.inj hsplit
  obtain ⟨base, parts⟩ := a
  obtain rfl : base = b.base := String.toList_injective hbase
  obtain rfl : parts = b.parts := pointer_injective hpointer
  rfl

/-- Locations are those of documents without a fragment. -/
theorem isBuilt_iff : path.IsBuilt ↔ '#' ∉ path.base.toList := by
  refine ⟨IsBuilt.hash_not_mem, fun h => ?_⟩
  have hroot : (ofUri path.base) = ⟨path.base, []⟩ := by
    unfold ofUri
    rw [Uri.splitFragment_of_not_mem h]
    exact congrArg (Path.mk · []) String.ofList_toList
  have hdown : ∀ front back : List String, (Path.mk path.base front).IsBuilt →
      (Path.mk path.base (front ++ back)).IsBuilt := by
    intro front back hfront
    induction back generalizing front with
    | nil =>
        rw [List.append_nil]
        exact hfront
    | cons part back ih =>
        have hnext := ih (front ++ [part]) (hfront.child part)
        rwa [List.append_assoc] at hnext
  exact hdown [] path.parts (hroot ▸ .ofUri path.base)

instance (path : Path) : Decidable path.IsBuilt := decidable_of_iff _ isBuilt_iff.symm

/-! ## The order -/

/-- Segments and documents are not compared: the texts of two locations are different already. -/
theorem IsBuilt.compare_eq (ha : a.IsBuilt) (hb : b.IsBuilt) :
    a.compare b = Ord.compare a.text b.text := by
  unfold compare
  split
  · rename_i heq
    rw [eq_of_beq heq]
    exact Std.ReflCmp.compare_self.symm
  · rename_i hne
    cases htext : Ord.compare a.text b.text with
    | lt => rfl
    | eq =>
        have hsame := (ha.text_inj hb).1 (Std.LawfulEqCmp.eq_of_compare htext)
        exact absurd (beq_iff_eq.2 hsame) hne
    | gt => rfl

/-- The comparison of locations is that of their texts, so it has the same laws. -/
theorem builtCompare_eq :
    (fun a b : { path : Path // path.IsBuilt } => a.1.compare b.1) =
      compareOn fun path => path.1.text := by
  funext a b
  exact a.2.compare_eq b.2

instance : Std.TransCmp fun a b : { path : Path // path.IsBuilt } => a.1.compare b.1 := by
  rw [builtCompare_eq]
  infer_instance

instance : Std.LawfulEqCmp fun a b : { path : Path // path.IsBuilt } => a.1.compare b.1 where
  compare_self {a} := (a.2.compare_eq a.2).trans Std.ReflCmp.compare_self
  eq_of_compare {a b} h := by
    rw [a.2.compare_eq b.2] at h
    exact Subtype.ext ((a.2.text_inj b.2).1 (Std.LawfulEqCmp.eq_of_compare h))

theorem IsBuilt.compare_lt_of_gt (ha : a.IsBuilt) (hb : b.IsBuilt) (h : a.compare b = .gt) :
    b.compare a = .lt := by
  rw [ha.compare_eq hb] at h
  rw [hb.compare_eq ha]
  exact Std.OrientedCmp.lt_of_gt h

theorem IsBuilt.compare_trans (ha : a.IsBuilt) (hb : b.IsBuilt) (hc : c.IsBuilt)
    (hab : a.compare b = .lt) (hbc : b.compare c = .lt) : a.compare c = .lt := by
  rw [ha.compare_eq hb] at hab
  rw [hb.compare_eq hc] at hbc
  rw [ha.compare_eq hc]
  exact Std.TransCmp.lt_trans hab hbc

end Path

end SchemaGraph

import Mathlib.Data.List.Forall2
import SchemaGraph.Node.Draft
import SchemaGraph.Schema.Format

set_option autoImplicit false

/-! # Nodes that differ in the names of their children

Two nodes are alike when they are the same but for what names their children, and children in
the same place are related. Everything a compiler puts together from the nodes of parts gives
alike results for related parts.
-/

namespace SchemaGraph

variable {α ι κ : Type} {R S : ι → κ → Prop}

/-! ## Lists of entries -/

namespace Entries

/-- The same keys in the same order, with related values. -/
def Alike (R : ι → κ → Prop) : List (α × ι) → List (α × κ) → Prop :=
  List.Forall₂ fun a b => a.1 = b.1 ∧ R a.2 b.2

theorem Alike.imp {xs : List (α × ι)} {ys : List (α × κ)} (halike : Alike R xs ys)
    (h : ∀ i ∈ xs.map Prod.snd, ∀ k, R i k → S i k) : Alike S xs ys := by
  have hmem : ∀ a ∈ xs, a.2 ∈ xs.map Prod.snd := fun a ha => List.mem_map_of_mem ha
  refine List.Forall₂.imp ?_ ((List.forall₂_and_left _ _).2 ⟨hmem, halike⟩)
  rintro a b ⟨ha, hkey, hnode⟩
  exact ⟨hkey, h _ ha _ hnode⟩

theorem Alike.flip {xs : List (α × ι)} {ys : List (α × κ)} (halike : Alike R xs ys) :
    Alike (fun k i => R i k) ys xs :=
  List.Forall₂.imp (fun _ _ hab => ⟨hab.1.symm, hab.2⟩) (List.Forall₂.flip halike)

theorem Alike.cons {a : α} {i : ι} {k : κ} (hnode : R i k) {xs : List (α × ι)}
    {ys : List (α × κ)} (h : Alike R xs ys) : Alike R ((a, i) :: xs) ((a, k) :: ys) :=
  List.Forall₂.cons ⟨rfl, hnode⟩ h

theorem Alike.keys {xs : List (α × ι)} {ys : List (α × κ)} (h : Alike R xs ys) :
    ys.map Prod.fst = xs.map Prod.fst := by
  induction h with
  | nil => rfl
  | cons hab _ ih =>
      rw [List.map_cons, List.map_cons, ih, hab.1]

/-- Alike lists find related values, or nothing. -/
theorem Alike.find? {xs : List (String × ι)} {ys : List (String × κ)} (h : Alike R xs ys)
    (key : String) : Option.Rel R (Entries.find? key xs) (Entries.find? key ys) := by
  induction h with
  | nil => exact Option.Rel.none
  | @cons a b _ _ hab _ ih =>
      obtain ⟨name, i⟩ := a
      obtain ⟨_, k⟩ := b
      obtain ⟨rfl, hnode⟩ := hab
      unfold Entries.find?
      split
      · exact Option.Rel.some hnode
      · exact ih

theorem Alike.contains {xs : List (String × ι)} {ys : List (String × κ)} (h : Alike R xs ys)
    (key : String) : Entries.contains key ys = Entries.contains key xs := by
  have hfind := h.find? key
  unfold Entries.contains
  cases hx : Entries.find? key xs <;> cases hy : Entries.find? key ys <;> rw [hx, hy] at hfind
  · rfl
  · cases hfind
  · cases hfind
  · rfl

theorem Alike.insertLast {name : String} {i : ι} {k : κ} (hnode : R i k)
    {xs : List (String × ι)} {ys : List (String × κ)} (h : Alike R xs ys) :
    Alike R (Entries.insertLast name i xs) (Entries.insertLast name k ys) := by
  induction h with
  | nil => exact .cons hnode .nil
  | @cons a b _ _ hab hrest ih =>
      obtain ⟨found, j⟩ := a
      obtain ⟨_, l⟩ := b
      obtain ⟨rfl, hfound⟩ := hab
      unfold Entries.insertLast
      split
      · exact .cons hnode hrest
      · exact .cons hfound ih

/-- Renaming the keys keeps lists alike. -/
theorem Alike.mapKeys {β : Type} (rename : α → β) {xs : List (α × ι)} {ys : List (α × κ)}
    (h : Alike R xs ys) :
    Alike R (xs.map fun a => (rename a.1, a.2)) (ys.map fun a => (rename a.1, a.2)) := by
  induction h with
  | nil => exact .nil
  | cons hab _ ih => exact List.Forall₂.cons ⟨congrArg rename hab.1, hab.2⟩ ih

/-- Every value of the first of two alike lists is related to one. -/
theorem Alike.related {xs : List (α × ι)} {ys : List (α × κ)} (h : Alike R xs ys) :
    ∀ i ∈ xs.map Prod.snd, ∃ k, R i k := by
  induction h with
  | nil => intro i hi; cases hi
  | cons hab _ ih =>
      intro i hi
      rcases List.mem_cons.1 hi with rfl | hi
      · exact ⟨_, hab.2⟩
      · exact ih i hi

end Entries

/-! ## Shapes and nodes -/

inductive Additional.Alike (R : ι → κ → Prop) : Additional ι → Additional κ → Prop where
  | allow : Alike R .allow .allow
  | deny : Alike R .deny .deny
  | schema {i : ι} {k : κ} (node : R i k) : Alike R (.schema i) (.schema k)

structure ObjectShape.Alike (R : ι → κ → Prop) (a : ObjectShape ι) (b : ObjectShape κ) : Prop where
  properties : Entries.Alike R a.properties b.properties
  required : b.required = a.required
  patterns : Entries.Alike R a.patterns b.patterns
  additional : Additional.Alike R a.additional b.additional
  readOnly : b.readOnly = a.readOnly
  writeOnly : b.writeOnly = a.writeOnly
  size : b.size = a.size

inductive Shape.Alike (R : ι → κ → Prop) : Shape ι → Shape κ → Prop where
  | any : Alike R .any .any
  | string (bounds : TextBounds) : Alike R (.string bounds) (.string bounds)
  | text (format : TextFormat) (bounds : TextBounds) :
      Alike R (.text format bounds) (.text format bounds)
  | number (bounds : NumericBounds) : Alike R (.number bounds) (.number bounds)
  | integer (bounds : NumericBounds) : Alike R (.integer bounds) (.integer bounds)
  | boolean : Alike R .boolean .boolean
  | array {i : ι} {k : κ} (items : R i k) (size : CountBounds) (unique : Bool)
      (distinctBy : Option (List String)) :
      Alike R (.array i size unique distinctBy) (.array k size unique distinctBy)
  | map {i : ι} {k : κ} (values : R i k) (size : CountBounds) : Alike R (.map i size) (.map k size)
  | object {a : ObjectShape ι} {b : ObjectShape κ} (shape : ObjectShape.Alike R a b) :
      Alike R (.object a) (.object b)
  | discriminated (property : String) {m : List (String × ι)} {n : List (String × κ)}
      (mapping : Entries.Alike R m n) : Alike R (.discriminated property m)
        (.discriminated property n)
  | allOf {is : List ι} {ks : List κ} (subtypes : List.Forall₂ R is ks) :
      Alike R (.allOf is) (.allOf ks)
  | anyOf {is : List ι} {ks : List κ} (subtypes : List.Forall₂ R is ks) :
      Alike R (.anyOf is) (.anyOf ks)
  | oneOf {is : List ι} {ks : List κ} (subtypes : List.Forall₂ R is ks) :
      Alike R (.oneOf is) (.oneOf ks)
  | not {is : List ι} {ks : List κ} (subtypes : List.Forall₂ R is ks) : Alike R (.not is) (.not ks)

inductive Node.Alike (R : ι → κ → Prop) : Node ι → Node κ → Prop where
  | forward {i : ι} {k : κ} (target : R i k) : Alike R (.forward i) (.forward k)
  | reference (messages : Messages) {i : ι} {k : κ} (target : R i k) :
      Alike R (.reference messages i) (.reference messages k)
  | typed (common : Common) {a : Shape ι} {b : Shape κ} (shape : Shape.Alike R a b) :
      Alike R (.typed common a) (.typed common b)

/-! ## Other relations -/

private theorem forall₂_imp {is : List ι} {ks : List κ} (halike : List.Forall₂ R is ks)
    (h : ∀ i ∈ is, ∀ k, R i k → S i k) : List.Forall₂ S is ks := by
  refine List.Forall₂.imp ?_ ((List.forall₂_and_left _ _).2 ⟨fun i hi => hi, halike⟩)
  rintro i k ⟨hi, hnode⟩
  exact h i hi k hnode

theorem Additional.Alike.imp {a : Additional ι} {b : Additional κ} (halike : Additional.Alike R a b)
    (h : ∀ i ∈ a.children, ∀ k, R i k → S i k) : Additional.Alike S a b := by
  cases halike with
  | allow => exact .allow
  | deny => exact .deny
  | schema node => exact .schema (h _ List.mem_cons_self _ node)

theorem ObjectShape.Alike.imp {a : ObjectShape ι} {b : ObjectShape κ}
    (halike : ObjectShape.Alike R a b)
    (h : ∀ i ∈ (Shape.object a).children, ∀ k, R i k → S i k) : ObjectShape.Alike S a b where
  properties := halike.properties.imp fun i hi =>
    h i (List.mem_append_left _ (List.mem_append_left _ hi))
  required := halike.required
  patterns := halike.patterns.imp fun i hi =>
    h i (List.mem_append_left _ (List.mem_append_right _ hi))
  additional := halike.additional.imp fun i hi => h i (List.mem_append_right _ hi)
  readOnly := halike.readOnly
  writeOnly := halike.writeOnly
  size := halike.size

theorem Shape.Alike.imp {a : Shape ι} {b : Shape κ} (halike : Shape.Alike R a b)
    (h : ∀ i ∈ a.children, ∀ k, R i k → S i k) : Shape.Alike S a b := by
  cases halike with
  | any => exact .any
  | string bounds => exact .string bounds
  | text format bounds => exact .text format bounds
  | number bounds => exact .number bounds
  | integer bounds => exact .integer bounds
  | boolean => exact .boolean
  | array items size unique distinctBy =>
      exact .array (h _ List.mem_cons_self _ items) size unique distinctBy
  | map values size => exact .map (h _ List.mem_cons_self _ values) size
  | object shape => exact .object (shape.imp h)
  | discriminated property mapping => exact .discriminated property (mapping.imp h)
  | allOf subtypes => exact .allOf (forall₂_imp subtypes h)
  | anyOf subtypes => exact .anyOf (forall₂_imp subtypes h)
  | oneOf subtypes => exact .oneOf (forall₂_imp subtypes h)
  | not subtypes => exact .not (forall₂_imp subtypes h)

/-- What relates the children of the first of two alike nodes may be replaced. -/
theorem Node.Alike.imp {a : Node ι} {b : Node κ} (halike : Node.Alike R a b)
    (h : ∀ i ∈ a.children, ∀ k, R i k → S i k) : Node.Alike S a b := by
  cases halike with
  | forward target => exact .forward (h _ List.mem_cons_self _ target)
  | reference messages target => exact .reference messages (h _ List.mem_cons_self _ target)
  | typed common shape => exact .typed common (shape.imp h)

theorem Additional.Alike.flip {a : Additional ι} {b : Additional κ}
    (halike : Additional.Alike R a b) : Additional.Alike (fun k i => R i k) b a := by
  cases halike with
  | allow => exact .allow
  | deny => exact .deny
  | schema node => exact .schema node

theorem ObjectShape.Alike.flip {a : ObjectShape ι} {b : ObjectShape κ}
    (halike : ObjectShape.Alike R a b) : ObjectShape.Alike (fun k i => R i k) b a where
  properties := halike.properties.flip
  required := halike.required.symm
  patterns := halike.patterns.flip
  additional := halike.additional.flip
  readOnly := halike.readOnly.symm
  writeOnly := halike.writeOnly.symm
  size := halike.size.symm

theorem Shape.Alike.flip {a : Shape ι} {b : Shape κ} (halike : Shape.Alike R a b) :
    Shape.Alike (fun k i => R i k) b a := by
  cases halike with
  | array items size unique distinctBy =>
      exact Shape.Alike.array (R := fun k i => R i k) items size unique distinctBy
  | map values size => exact Shape.Alike.map (R := fun k i => R i k) values size
  | any => exact .any
  | string bounds => exact .string bounds
  | text format bounds => exact .text format bounds
  | number bounds => exact .number bounds
  | integer bounds => exact .integer bounds
  | boolean => exact .boolean
  | object shape => exact .object shape.flip
  | discriminated property mapping => exact .discriminated property mapping.flip
  | allOf subtypes => exact .allOf subtypes.flip
  | anyOf subtypes => exact .anyOf subtypes.flip
  | oneOf subtypes => exact .oneOf subtypes.flip
  | not subtypes => exact .not subtypes.flip

/-- To be alike goes both ways. -/
theorem Node.Alike.flip {a : Node ι} {b : Node κ} (halike : Node.Alike R a b) :
    Node.Alike (fun k i => R i k) b a := by
  cases halike with
  | forward target => exact .forward target
  | reference messages target => exact .reference messages target
  | typed common shape => exact .typed common shape.flip

/-! ## The same node -/

theorem Entries.alike_refl (xs : List (α × ι)) : Entries.Alike Eq xs xs := by
  induction xs with
  | nil => exact .nil
  | cons x _ ih => exact List.Forall₂.cons ⟨rfl, rfl⟩ ih

private theorem forall₂_eq_refl (is : List ι) : List.Forall₂ Eq is is := by
  induction is with
  | nil => exact .nil
  | cons _ _ ih => exact .cons rfl ih

theorem Shape.alike_refl (shape : Shape ι) : Shape.Alike Eq shape shape := by
  cases shape with
  | any => exact .any
  | string bounds => exact .string bounds
  | text format bounds => exact .text format bounds
  | number bounds => exact .number bounds
  | integer bounds => exact .integer bounds
  | boolean => exact .boolean
  | array items size unique distinctBy => exact .array rfl size unique distinctBy
  | map values size => exact .map rfl size
  | object shape =>
      refine .object ⟨Entries.alike_refl _, rfl, Entries.alike_refl _, ?_, rfl, rfl, rfl⟩
      cases shape.additional with
      | allow => exact .allow
      | deny => exact .deny
      | schema node => exact .schema rfl
  | discriminated property mapping => exact .discriminated property (Entries.alike_refl mapping)
  | allOf subtypes => exact .allOf (forall₂_eq_refl subtypes)
  | anyOf subtypes => exact .anyOf (forall₂_eq_refl subtypes)
  | oneOf subtypes => exact .oneOf (forall₂_eq_refl subtypes)
  | not subtypes => exact .not (forall₂_eq_refl subtypes)

theorem Node.alike_refl (node : Node ι) : Node.Alike Eq node node := by
  cases node with
  | forward target => exact .forward rfl
  | reference messages target => exact .reference messages rfl
  | typed common shape => exact .typed common shape.alike_refl

/-! ## Children -/

private theorem related_of_forall₂ {is : List ι} {ks : List κ} (h : List.Forall₂ R is ks) :
    ∀ i ∈ is, ∃ k, R i k := by
  induction h with
  | nil => intro i hi; cases hi
  | cons hab _ ih =>
      intro i hi
      rcases List.mem_cons.1 hi with rfl | hi
      · exact ⟨_, hab⟩
      · exact ih i hi

theorem Additional.Alike.related {a : Additional ι} {b : Additional κ}
    (h : Additional.Alike R a b) : ∀ i ∈ a.children, ∃ k, R i k := by
  cases h with
  | allow => intro i hi; cases hi
  | deny => intro i hi; cases hi
  | schema node =>
      intro i hi
      rw [List.mem_singleton.1 hi]
      exact ⟨_, node⟩

/-- Every child of the first of two alike shapes is related to one. -/
theorem Shape.Alike.related {a : Shape ι} {b : Shape κ} (h : Shape.Alike R a b) :
    ∀ i ∈ a.children, ∃ k, R i k := by
  cases h with
  | array items _ _ _ =>
      intro i hi
      rw [List.mem_singleton.1 hi]
      exact ⟨_, items⟩
  | map values _ =>
      intro i hi
      rw [List.mem_singleton.1 hi]
      exact ⟨_, values⟩
  | object shape =>
      intro i hi
      rcases List.mem_append.1 hi with hi | hi
      · rcases List.mem_append.1 hi with hi | hi
        · exact shape.properties.related i hi
        · exact shape.patterns.related i hi
      · exact shape.additional.related i hi
  | discriminated _ mapping => exact mapping.related
  | allOf subtypes => exact related_of_forall₂ subtypes
  | anyOf subtypes => exact related_of_forall₂ subtypes
  | oneOf subtypes => exact related_of_forall₂ subtypes
  | not subtypes => exact related_of_forall₂ subtypes
  | _ => intro i hi; cases hi

theorem Node.Alike.related {a : Node ι} {b : Node κ} (h : Node.Alike R a b) :
    ∀ i ∈ a.children, ∃ k, R i k := by
  cases h with
  | forward target =>
      intro i hi
      rw [List.mem_singleton.1 hi]
      exact ⟨_, target⟩
  | reference _ target =>
      intro i hi
      rw [List.mem_singleton.1 hi]
      exact ⟨_, target⟩
  | typed _ shape => exact shape.related

/-! ## What is put together from nodes -/

theorem Format.apply_alike (format : Format) (common : Common) {a : Shape ι} {b : Shape κ}
    (h : Shape.Alike R a b) : Node.Alike R (format.apply common a) (format.apply common b) := by
  cases format with
  | plain => cases h <;> exact .typed _ (by constructor <;> assumption)
  | parse written => cases h <;> exact .typed _ (by constructor <;> assumption)
  | check restriction => cases h <;> exact .typed _ (by constructor <;> assumption)

structure ObjectDraft.Alike (R : ι → κ → Prop) (a : ObjectDraft ι) (b : ObjectDraft κ) : Prop where
  properties : Entries.Alike R a.properties b.properties
  required : b.required = a.required
  patterns : Entries.Alike R a.patterns b.patterns
  additional : Additional.Alike R a.additional b.additional
  readOnly : b.readOnly = a.readOnly
  writeOnly : b.writeOnly = a.writeOnly
  size : b.size = a.size

namespace ObjectDraft

theorem readPatterns_alike {xs : List (String × ι)} {ys : List (String × κ)}
    (h : Entries.Alike R xs ys) : ∀ {patterns}, readPatterns xs = .ok patterns →
      ∃ patterns', readPatterns ys = .ok patterns' ∧ Entries.Alike R patterns patterns' := by
  induction h with
  | nil =>
      intro patterns hread
      cases hread
      exact ⟨[], rfl, .nil⟩
  | @cons a b xs _ hab _ ih =>
      intro patterns hread
      obtain ⟨text, i⟩ := a
      obtain ⟨_, k⟩ := b
      obtain ⟨rfl, hnode⟩ := hab
      unfold readPatterns at hread ⊢
      cases hpattern : Pattern.read? text with
      | none =>
          rw [hpattern] at hread
          cases hread
      | some pattern =>
          rw [hpattern] at hread
          cases hrest : readPatterns xs with
          | error e =>
              rw [hrest] at hread
              cases hread
          | ok done =>
              rw [hrest] at hread
              cases hread
              obtain ⟨done', hdone, hpatterns⟩ := ih hrest
              dsimp only
              rw [hdone]
              exact ⟨_, rfl, .cons hnode hpatterns⟩

/-- Alike drafts give alike shapes. -/
theorem build_alike {a : ObjectDraft ι} {b : ObjectDraft κ} (h : ObjectDraft.Alike R a b)
    {shape : ObjectShape ι} (hbuild : a.build = .ok shape) :
    ∃ shape', b.build = .ok shape' ∧ ObjectShape.Alike R shape shape' := by
  have hcontains : ∀ name,
      Entries.contains name b.properties = Entries.contains name a.properties :=
    h.properties.contains
  unfold build at hbuild ⊢
  rw [h.readOnly, h.writeOnly]
  simp only [hcontains]
  dsimp only at hbuild
  split at hbuild
  · cases hbuild
  · rename_i hboth
    rw [if_neg hboth]
    split at hbuild
    · cases hbuild
    · rename_i hunknown
      rw [if_neg hunknown]
      cases hpatterns : readPatterns a.patterns with
      | error e =>
          rw [hpatterns] at hbuild
          cases hbuild
      | ok patterns =>
          rw [hpatterns] at hbuild
          cases hbuild
          obtain ⟨patterns', hpatterns', halike⟩ := readPatterns_alike h.patterns hpatterns
          rw [hpatterns']
          refine ⟨_, rfl, ⟨h.properties, ?_, halike, h.additional, rfl, rfl, h.size⟩⟩
          exact congrArg distinctNames h.required

end ObjectDraft

end SchemaGraph

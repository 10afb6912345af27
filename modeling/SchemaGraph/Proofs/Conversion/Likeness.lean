import SchemaGraph.Proofs.Conversion.Judgements
import SchemaGraph.Proofs.Node

set_option autoImplicit false

/-! # Plans that are alike

Alike nodes ask alike questions, and from matching replies they come to matching rulings, with the
same value or with errors that correspond (`Shape.Alike.typedPlan`). How errors correspond is left
open: it may depend on where the two nodes convert (`Carries`).
-/

namespace SchemaGraph

variable {ι κ : Type} {R : ι → κ → Prop}

/-! ## Questions -/

/-- The same question to related nodes. -/
structure Inquiry.Alike (R : ι → κ → Prop) (x : Inquiry ι) (y : Inquiry κ) : Prop where
  slot : x.slot = y.slot
  node : R x.node y.node
  input : x.input = y.input

namespace Conversion

/-- Destinations that differ in the name of a node. -/
inductive Destination.Alike (R : ι → κ → Prop) : Destination ι → Destination κ → Prop where
  | pattern {i : ι} {k : κ} (node : R i k) : Alike R (.pattern i) (.pattern k)
  | additional {i : ι} {k : κ} (node : R i k) : Alike R (.additional i) (.additional k)
  | verbatim : Alike R .verbatim .verbatim
  | refused : Alike R .refused .refused

theorem find_pattern_alike {a : ObjectShape ι} {b : ObjectShape κ}
    (h : ObjectShape.Alike R a b) (key : String) : Option.Rel (fun x y => R x.2 y.2)
      (a.patterns.find? fun (pattern, _) => pattern.matchesFromStart key)
      (b.patterns.find? fun (pattern, _) => pattern.matchesFromStart key) := by
  have hpatterns := h.patterns
  generalize a.patterns = xs at hpatterns
  generalize b.patterns = ys at hpatterns
  induction hpatterns with
  | nil => exact Option.Rel.none
  | @cons x y _ _ hxy _ ih =>
      obtain ⟨pattern, i⟩ := x
      obtain ⟨_, k⟩ := y
      obtain ⟨rfl, hnode⟩ := hxy
      rw [List.find?_cons, List.find?_cons]
      dsimp only
      cases pattern.matchesFromStart key with
      | true => exact Option.Rel.some hnode
      | false => exact ih

theorem destination_alike {a : ObjectShape ι} {b : ObjectShape κ} (h : ObjectShape.Alike R a b)
    (key : String) : Destination.Alike R (destination a key) (destination b key) := by
  have hfind := find_pattern_alike h key
  unfold destination
  generalize List.find? _ a.patterns = x at hfind
  generalize List.find? _ b.patterns = y at hfind
  cases hfind with
  | some hnode => exact .pattern hnode
  | none =>
      dsimp only
      have hadditional := h.additional
      generalize a.additional = policy at hadditional
      generalize b.additional = policy' at hadditional
      cases hadditional with
      | allow => exact .verbatim
      | deny => exact .refused
      | schema hnode => exact .additional hnode

theorem Destination.Alike.place {x : Destination ι} {y : Destination κ}
    (h : Destination.Alike R x y) : x.place = y.place := by
  cases h <;> rfl

theorem undeclaredInquiries_alike {a : ObjectShape ι} {b : ObjectShape κ}
    (h : ObjectShape.Alike R a b) : ∀ payload, List.Forall₂ (Inquiry.Alike R)
      (undeclaredInquiries a payload) (undeclaredInquiries b payload)
  | [] => .nil
  | (key, item) :: rest => by
      have hrest := undeclaredInquiries_alike h rest
      unfold undeclaredInquiries at hrest ⊢
      rw [List.flatMap_cons, List.flatMap_cons]
      refine List.rel_append ?_ hrest
      dsimp only
      rw [h.properties.contains key]
      split
      · exact .nil
      · have hdestination := destination_alike h key
        generalize destination a key = x at hdestination
        generalize destination b key = y at hdestination
        cases hdestination with
        | pattern hnode => exact .cons ⟨rfl, hnode, rfl⟩ .nil
        | additional hnode => exact .cons ⟨rfl, hnode, rfl⟩ .nil
        | verbatim | refused => exact .nil

theorem declaredInquiries_alike (skip : String → Bool) (payload : List (String × Json))
    {xs : List (String × ι)} {ys : List (String × κ)} (h : Entries.Alike R xs ys) :
    List.Forall₂ (Inquiry.Alike R) (declaredInquiries skip payload xs)
      (declaredInquiries skip payload ys) := by
  induction h with
  | nil => exact .nil
  | @cons x y _ _ hxy _ ih =>
      obtain ⟨name, i⟩ := x
      obtain ⟨_, k⟩ := y
      obtain ⟨rfl, hnode⟩ := hxy
      rw [declaredInquiries_cons, declaredInquiries_cons]
      dsimp only
      split
      · exact ih
      · exact .cons ⟨rfl, hnode, rfl⟩ ih

theorem subtypeInquiries_alike (payload : Json) {is : List ι} {ks : List κ}
    (h : List.Forall₂ R is ks) : ∀ index, List.Forall₂ (Inquiry.Alike R)
      (subtypeInquiries payload index is) (subtypeInquiries payload index ks) := by
  induction h with
  | nil => exact fun _ => .nil
  | cons hnode _ ih => exact fun index => .cons ⟨rfl, hnode, rfl⟩ (ih (index + 1))

end Conversion

namespace ObjectShape.Alike

open Conversion

variable {a : ObjectShape ι} {b : ObjectShape κ}

theorem place (h : ObjectShape.Alike R a b) (key : String) : a.place key = b.place key := by
  have hcontains := h.properties.contains key
  by_cases hdeclared : Entries.contains key a.properties = true
  · rw [place_of_declared hdeclared, place_of_declared (hcontains.trans hdeclared)]
  · rw [place_of_destination hdeclared, place_of_destination (hcontains ▸ hdeclared)]
    exact (destination_alike h key).place

theorem excluded (h : ObjectShape.Alike R a b) (entity : Entity) :
    excluded a entity = excluded b entity := by
  cases entity with
  | request => exact congrArg (fun names => some (names, MessageKey.readOnly)) h.readOnly.symm
  | response => exact congrArg (fun names => some (names, MessageKey.writeOnly)) h.writeOnly.symm
  | specification => rfl

theorem keysAt (h : ObjectShape.Alike R a b) (place : Buckets.Place)
    (payload : List (String × Json)) : keysAt a place payload = keysAt b place payload := by
  unfold Conversion.keysAt
  simp only [h.place]

theorem refusedKeys (h : ObjectShape.Alike R a b) (payload : List (String × Json)) :
    refusedKeys a payload = refusedKeys b payload := by
  have hkeys := h.keysAt .additional payload
  have hadditional := h.additional
  unfold Conversion.refusedKeys
  generalize a.additional = policy at hadditional
  generalize b.additional = policy' at hadditional
  cases hadditional with
  | deny => exact hkeys
  | _ => rfl

theorem verbatim (h : ObjectShape.Alike R a b) (payload : List (String × Json)) :
    verbatim a payload = verbatim b payload := by
  have hadditional := h.additional
  unfold Conversion.verbatim
  simp only [h.place]
  generalize a.additional = policy at hadditional
  generalize b.additional = policy' at hadditional
  cases hadditional <;> rfl

theorem missing (h : ObjectShape.Alike R a b) (mode : Mode) (payload : List (String × Json)) :
    missing mode a payload = missing mode b payload := by
  unfold Conversion.missing excludedFrom
  rw [h.excluded, h.required]

theorem forbidden (h : ObjectShape.Alike R a b) (mode : Mode) (common : Common)
    (payload : List (String × Json)) (path : Path) :
    forbidden mode common a payload path = forbidden mode common b payload path := by
  unfold Conversion.forbidden
  rw [h.excluded]

theorem skips (h : ObjectShape.Alike R a b) (mode : Mode) (payload : List (String × Json)) :
    skips a mode payload = skips b mode payload := by
  funext name
  unfold Conversion.skips
  rw [h.excluded, h.required]

end ObjectShape.Alike

namespace Shape.Alike

open Conversion

variable {a : Shape ι} {b : Shape κ}

theorem inquiries (h : Shape.Alike R a b) (mode : Mode) (payload : Json) :
    List.Forall₂ (Inquiry.Alike R) (a.inquiries mode payload) (b.inquiries mode payload) := by
  cases h with
  | array hitems =>
      refine List.forall₂_map_left_iff.2 (List.forall₂_map_right_iff.2 ?_)
      exact List.forall₂_same.2 fun _ _ => ⟨rfl, hitems, rfl⟩
  | map hvalues =>
      refine List.forall₂_map_left_iff.2 (List.forall₂_map_right_iff.2 ?_)
      exact List.forall₂_same.2 fun _ _ => ⟨rfl, hvalues, rfl⟩
  | object hshape =>
      dsimp only [Shape.inquiries]
      rw [hshape.skips]
      exact List.rel_append (undeclaredInquiries_alike hshape _)
        (declaredInquiries_alike _ _ hshape.properties)
  | discriminated property hmapping =>
      dsimp only [Shape.inquiries]
      unfold selected
      cases (payload.get? property).bind Json.asStr? with
      | none => exact .nil
      | some name =>
          have hfind := hmapping.find? name
          rw [Option.bind_some, Option.bind_some]
          generalize Entries.find? name _ = x at hfind
          generalize Entries.find? name _ = y at hfind
          cases hfind with
          | none => exact .nil
          | some hnode => exact .cons ⟨rfl, hnode, rfl⟩ .nil
  | allOf hsubtypes => exact subtypeInquiries_alike payload hsubtypes 0
  | anyOf hsubtypes => exact subtypeInquiries_alike payload hsubtypes 0
  | oneOf hsubtypes => exact subtypeInquiries_alike payload hsubtypes 0
  | not hsubtypes => exact subtypeInquiries_alike payload hsubtypes 0
  | _ => exact .nil

theorem isEager (h : Shape.Alike R a b) : a.isEager = b.isEager := by
  cases h <;> rfl

end Shape.Alike

/-! ## Replies -/

/-- How errors of one conversion correspond to those of another, which has a location of its own. -/
structure Carries (E : List LocatedError → List LocatedError → Prop) (path path' : Path) :
    Prop where
  nil : E [] []
  own : ∀ violation : Violation, E [violation.located path] [violation.located path']
  append : ∀ {found found' more more'}, E found found' → E more more' →
    E (found ++ more) (found' ++ more')
  nil_iff : ∀ {found found'}, E found found' → (found = [] ↔ found' = [])

/-- The same result, or errors that correspond. -/
inductive Matches {α : Type} (E : List LocatedError → List LocatedError → Prop) :
    Except SchemaErrors α → Except SchemaErrors α → Prop where
  | ok (a : α) : Matches E (.ok a) (.ok a)
  | error {found found' : SchemaErrors} (h : E found.toList found'.toList) :
      Matches E (.error found) (.error found')

/-- A reply from the same slot that matches. -/
structure Reply.Matches (E : List LocatedError → List LocatedError → Prop) (x y : Reply) :
    Prop where
  slot : x.slot = y.slot
  answer : SchemaGraph.Matches E x.answer y.answer

theorem Reply.Matches.value? {E : List LocatedError → List LocatedError → Prop} {x y : Reply}
    (h : Reply.Matches E x y) : x.value? = y.value? := by
  obtain ⟨slot, answer⟩ := x
  obtain ⟨_, answer'⟩ := y
  cases h.answer <;> rfl

theorem Matches.eq {α : Type} {x y : Except SchemaErrors α} (h : Matches Eq x y) : x = y := by
  cases h with
  | ok => rfl
  | @error found found' h =>
      obtain ⟨first, rest⟩ := found
      obtain ⟨_, _⟩ := found'
      cases h
      rfl

theorem Matches.bind {α β : Type} {E : List LocatedError → List LocatedError → Prop}
    {x y : Except SchemaErrors α} {f g : α → Except SchemaErrors β} (h : Matches E x y)
    (hf : ∀ a, Matches E (f a) (g a)) : Matches E (x.bind f) (y.bind g) := by
  cases h with
  | ok a => exact hf a
  | error h => exact .error h

namespace Conversion

variable {E : List LocatedError → List LocatedError → Prop} {path path' : Path}
  {xs ys : List Reply}

theorem held_matches (h : List.Forall₂ (Reply.Matches E) xs ys) : held xs = held ys := by
  induction h with
  | nil => rfl
  | @cons x y _ _ hxy _ ih =>
      obtain ⟨slot, answer⟩ := x
      obtain ⟨_, answer'⟩ := y
      obtain ⟨rfl, hanswer⟩ := hxy
      cases hanswer with
      | ok value =>
          unfold held at ih ⊢
          rw [List.filterMap_cons, List.filterMap_cons, ih]
      | error => exact ih

theorem heldAt_matches (place : Buckets.Place) (h : List.Forall₂ (Reply.Matches E) xs ys) :
    heldAt place xs = heldAt place ys := by
  induction h with
  | nil => rfl
  | @cons x y _ _ hxy _ ih =>
      obtain ⟨slot, answer⟩ := x
      obtain ⟨_, answer'⟩ := y
      obtain ⟨rfl, hanswer⟩ := hxy
      unfold heldAt at ih ⊢
      rw [List.filterMap_cons, List.filterMap_cons, ih]
      cases hanswer <;> rfl

theorem filter_matches (keep : Slot → Bool) (h : List.Forall₂ (Reply.Matches E) xs ys) :
    List.Forall₂ (Reply.Matches E) (xs.filter fun reply => keep reply.slot)
      (ys.filter fun reply => keep reply.slot) := by
  induction h with
  | nil => exact .nil
  | @cons x y _ _ hxy _ ih =>
      rw [List.filter_cons, List.filter_cons, hxy.slot]
      split
      · exact .cons hxy ih
      · exact ih

section

variable (carries : Carries E path path')

include carries

theorem refusing_matches {α : Type} (common : Common) (key : MessageKey) (args : List String) :
    Matches E (refusing (α := α) common path key args) (refusing common path' key args) :=
  .error (carries.own _)

theorem located_matches (violations : List Violation) :
    E (violations.map fun violation => violation.located path)
      (violations.map fun violation => violation.located path') := by
  induction violations with
  | nil => exact carries.nil
  | cons first rest ih => exact carries.append (carries.own first) ih

theorem told_matches (h : List.Forall₂ (Reply.Matches E) xs ys) : E (told xs) (told ys) := by
  induction h with
  | nil => exact carries.nil
  | @cons x y _ _ hxy _ ih =>
      refine carries.append ?_ ih
      obtain ⟨slot, answer⟩ := x
      obtain ⟨_, answer'⟩ := y
      cases hxy.answer with
      | ok => exact carries.nil
      | error h => exact h

theorem collect_matches {found found' : List LocatedError} (h : E found found') (value : Value) :
    Matches E (collect found value) (collect found' value) := by
  cases found with
  | nil =>
      rw [(carries.nil_iff h).1 rfl]
      exact .ok value
  | cons first rest =>
      cases found' with
      | nil => exact absurd ((carries.nil_iff h).2 rfl) (List.cons_ne_nil first rest)
      | cons first' rest' => exact .error h

theorem outcomes_matches (h : List.Forall₂ (Reply.Matches E) xs ys) :
    accepted (outcomes xs) = accepted (outcomes ys) ∧
      (refusals (outcomes xs)).map Prod.fst = (refusals (outcomes ys)).map Prod.fst ∧
      E (errorsOf (refusals (outcomes xs))) (errorsOf (refusals (outcomes ys))) := by
  induction h with
  | nil => exact ⟨rfl, rfl, carries.nil⟩
  | @cons x y xs ys hxy _ ih =>
      obtain ⟨slot, answer⟩ := x
      obtain ⟨_, answer'⟩ := y
      obtain ⟨rfl, hanswer⟩ := hxy
      obtain ⟨haccepted, hrefused, herrors⟩ := ih
      -- only what is said by subtypes counts
      cases slot with
      | subtype index =>
          cases hanswer with
          | ok value =>
              cases value with
              | none => exact ⟨haccepted, hrefused, herrors⟩
              | some value => exact ⟨congrArg ((index, value) :: ·) haccepted, hrefused, herrors⟩
          | error h => exact ⟨haccepted, congrArg (index :: ·) hrefused, carries.append h herrors⟩
      | _ => exact ⟨haccepted, hrefused, herrors⟩

theorem summary_matches (common : Common) (key : MessageKey) (names : List String) :
    E (summary common path key names) (summary common path' key names) := by
  unfold summary
  split
  · exact carries.nil
  · exact carries.own _

end

end Conversion

namespace ObjectShape.Alike

open Conversion

variable {E : List LocatedError → List LocatedError → Prop} {path path' : Path}
  {xs ys : List Reply} {a : ObjectShape ι} {b : ObjectShape κ}

theorem sorted (h : ObjectShape.Alike R a b) (payload : List (String × Json))
    (hreplies : List.Forall₂ (Reply.Matches E) xs ys) :
    sorted a payload xs = sorted b payload ys := by
  unfold Conversion.sorted
  rw [h.verbatim, heldAt_matches _ hreplies, heldAt_matches _ hreplies, heldAt_matches _ hreplies]

theorem complaints (h : ObjectShape.Alike R a b) (carries : Carries E path path') (mode : Mode)
    (common : Common) (payload : List (String × Json))
    (hreplies : List.Forall₂ (Reply.Matches E) xs ys) :
    E (objectComplaints mode common a payload path xs)
      (objectComplaints mode common b payload path' ys) := by
  have hforbidden : E (Conversion.forbidden mode common b payload path)
      (Conversion.forbidden mode common b payload path') := by
    unfold Conversion.forbidden
    split
    · exact carries.nil
    · exact summary_matches carries common _ _
  have habsent : ∀ names : List String,
      E (names.map fun name => common.error path .required [name])
        (names.map fun name => common.error path' .required [name]) := by
    intro names
    induction names with
    | nil => exact carries.nil
    | cons name rest ih => exact carries.append (carries.own _) ih
  unfold objectComplaints
  rw [h.forbidden, h.missing, h.refusedKeys]
  refine carries.append (carries.append (carries.append (carries.append hforbidden ?_) ?_) ?_) ?_
  · exact habsent _
  · exact told_matches carries (filter_matches (fun slot => !slot.mayLack) hreplies)
  · exact summary_matches carries common _ _
  · exact told_matches carries (filter_matches Slot.mayLack hreplies)

end ObjectShape.Alike

namespace Shape.Alike

open Conversion

variable {E : List LocatedError → List LocatedError → Prop} {path path' : Path}
  {xs ys : List Reply} {a : Shape ι} {b : Shape κ}

/-- A node with a discriminating text hands on the reply, if there is one. -/
theorem discriminated_ruling {property : String} {m : List (String × ι)} {n : List (String × κ)}
    (carries : Carries E path path') (mode : Mode) (common : Common) (payload : Json)
    (hmapping : Entries.Alike R m n) (hreplies : List.Forall₂ (Reply.Matches E) xs ys) :
    Matches E ((Shape.discriminated property m).ruling mode common payload path xs)
      ((Shape.discriminated property n).ruling mode common payload path' ys) := by
  have hnone : ∀ names, Matches E
      (if (payload.get? property).isNone then
        refusing (α := Value) common path .discriminatorNotPresent [property]
      else refusing common path .discriminatorNotMatch [commaDelimited names])
      (if (payload.get? property).isNone then
        refusing common path' .discriminatorNotPresent [property]
      else refusing common path' .discriminatorNotMatch [commaDelimited names]) := by
    intro names
    split <;> exact refusing_matches carries common _ _
  dsimp only [Shape.ruling]
  rw [hmapping.keys]
  cases hreplies with
  | nil => exact hnone _
  | @cons x y _ _ hxy _ =>
      obtain ⟨slot, answer⟩ := x
      obtain ⟨_, answer'⟩ := y
      obtain ⟨rfl, hanswer⟩ := hxy
      cases slot with
      | whole =>
          cases hanswer with
          | ok value =>
              cases value with
              | none => exact hnone _
              | some value => exact .ok value
          | error h => exact .error h
      | _ => exact hnone _

/-- If no subtype of `allOf` refuses, the values are the same; else those refuse that refuse on the
other side. -/
theorem allOf_ruling {is : List ι} {ks : List κ} (carries : Carries E path path') (mode : Mode)
    (common : Common) (payload : Json) (hreplies : List.Forall₂ (Reply.Matches E) xs ys) :
    Matches E ((Shape.allOf is).ruling mode common payload path xs)
      ((Shape.allOf ks).ruling mode common payload path' ys) := by
  obtain ⟨haccepted, hrefused, herrors⟩ := outcomes_matches carries hreplies
  dsimp only [Shape.ruling]
  rw [haccepted]
  generalize refusals (outcomes xs) = refused at hrefused herrors
  generalize refusals (outcomes ys) = refused' at hrefused herrors
  cases refused with
  | nil =>
      cases refused' with
      | nil => exact .ok _
      | cons => cases hrefused
  | cons =>
      cases refused' with
      | nil => cases hrefused
      | cons =>
          dsimp only
          rw [hrefused]
          exact .error (carries.append (carries.own _) herrors)

/-- From matching replies alike shapes come to matching results. -/
theorem ruling (h : Shape.Alike R a b) (carries : Carries E path path') (mode : Mode)
    (common : Common) (payload : Json) (hreplies : List.Forall₂ (Reply.Matches E) xs ys) :
    Matches E (a.ruling mode common payload path xs) (b.ruling mode common payload path' ys) := by
  obtain ⟨haccepted, -, herrors⟩ := outcomes_matches carries hreplies
  cases h with
  | integer =>
      dsimp only [Shape.ruling]
      split
      · exact .ok _
      · exact refusing_matches carries common _ _
  | array =>
      dsimp only [Shape.ruling]
      rw [held_matches hreplies]
      exact collect_matches carries (told_matches carries hreplies) _
  | map =>
      dsimp only [Shape.ruling]
      rw [heldAt_matches _ hreplies]
      exact collect_matches carries (told_matches carries hreplies) _
  | object hshape =>
      dsimp only [Shape.ruling]
      rw [hshape.sorted _ hreplies]
      exact collect_matches carries (hshape.complaints carries mode common _ hreplies) _
  | discriminated property hmapping =>
      exact discriminated_ruling carries mode common payload hmapping hreplies
  | allOf => exact allOf_ruling carries mode common payload hreplies
  | anyOf =>
      dsimp only [Shape.ruling]
      rw [haccepted]
      split
      · exact .error (carries.append (carries.own _) herrors)
      · exact .ok _
  | oneOf =>
      dsimp only [Shape.ruling]
      rw [haccepted]
      split
      · exact .error (carries.append (carries.own _) herrors)
      · exact .ok _
      · exact refusing_matches carries common _ _
  | not =>
      dsimp only [Shape.ruling]
      rw [haccepted]
      split
      · exact .ok _
      · exact refusing_matches carries common _ _
  | _ => exact .ok _

end Shape.Alike

/-! ## Plans -/

/-- Two plans ask related questions and rule alike. -/
structure Conversion.Plan.Alike (P : Inquiry ι → Inquiry κ → Prop)
    (E : List LocatedError → List LocatedError → Prop) (x : Conversion.Plan ι)
    (y : Conversion.Plan κ) : Prop where
  inquiries : List.Forall₂ P x.inquiries y.inquiries
  isEager : x.isEager = y.isEager
  ruling : ∀ {replies replies'}, List.Forall₂ (Reply.Matches E) replies replies' →
    Matches E (x.ruling replies) (y.ruling replies')

namespace Conversion

variable {P Q : Inquiry ι → Inquiry κ → Prop} {E : List LocatedError → List LocatedError → Prop}

theorem Plan.Alike.settled {x y : Except SchemaErrors Value} (h : Matches E x y) :
    Plan.Alike P E (.settled x) (.settled y) where
  inquiries := .nil
  isEager := rfl
  ruling _ := h

theorem Plan.Alike.andThen {x : Plan ι} {y : Plan κ} (h : Plan.Alike P E x y)
    {f g : Value → Except SchemaErrors Value} (hf : ∀ value, Matches E (f value) (g value)) :
    Plan.Alike P E (x.andThen f) (y.andThen g) where
  inquiries := h.inquiries
  isEager := h.isEager
  ruling hreplies := (h.ruling hreplies).bind hf

theorem Plan.Alike.imp {x : Plan ι} {y : Plan κ} (h : Plan.Alike P E x y)
    (himp : ∀ inquiry inquiry', P inquiry inquiry' → Q inquiry inquiry') : Plan.Alike Q E x y :=
  { h with inquiries := h.inquiries.imp himp }

/-- A plan is like itself. -/
theorem Plan.alike_self {P : Inquiry ι → Inquiry ι → Prop} {plan : Plan ι}
    (h : ∀ inquiry ∈ plan.inquiries, P inquiry inquiry) : Plan.Alike P Eq plan plan where
  inquiries := List.forall₂_same.2 h
  isEager := rfl
  ruling {replies replies'} hreplies := by
    have hsame : replies = replies' := by
      induction hreplies with
      | nil => rfl
      | @cons x y _ _ hxy _ ih =>
          obtain ⟨slot, answer⟩ := x
          obtain ⟨_, answer'⟩ := y
          obtain ⟨rfl, hanswer⟩ := hxy
          obtain rfl : answer = answer' := hanswer.eq
          rw [ih]
    rw [hsame]
    cases plan.ruling replies' with
    | ok value => exact .ok value
    | error errors => exact .error rfl

end Conversion

namespace Shape.Alike

open Conversion

variable {E : List LocatedError → List LocatedError → Prop} {path path' : Path} {a : Shape ι}
  {b : Shape κ}

theorem coercion? (h : Shape.Alike R a b) (payload : Json) :
    a.coercion? payload = b.coercion? payload := by
  cases h <;> rfl

theorem admits (h : Shape.Alike R a b) (payload : Json) : a.admits payload = b.admits payload := by
  cases h <;> rfl

theorem typeMessage (h : Shape.Alike R a b) : a.typeMessage = b.typeMessage := by
  cases h <;> rfl

theorem violations (h : Shape.Alike R a b) (common : Common) (value : Value) (payload : Json) :
    Conversion.violations common a value payload =
      Conversion.violations common b value payload := by
  have hshape : a.violations common.messages value payload =
      b.violations common.messages value payload := by
    cases h with
    | object hshape =>
        dsimp only [Shape.violations]
        rw [hshape.size]
    | _ => rfl
  unfold Conversion.violations
  rw [hshape]

theorem finished (h : Shape.Alike R a b) (carries : Carries E path path') (mode : Mode)
    (common : Common) (value : Value) :
    Matches E (a.finished mode common path value) (b.finished mode common path' value) := by
  cases h with
  | text format bounds =>
      unfold Shape.finished
      cases value with
      | string written =>
          dsimp only
          split
          · exact .ok _
          · exact refusing_matches carries common _ _
      | _ => exact .ok _
  | _ => exact .ok value

theorem coercedTo (h : Shape.Alike R a b) (carries : Carries E path path') (mode : Mode)
    (common : Common) (payload : Json) :
    Matches E (coercedTo mode common a payload path) (coercedTo mode common b payload path') := by
  unfold Conversion.coercedTo
  rw [h.coercion?]
  split
  · exact .ok _
  · split
    · exact .ok _
    · exact .ok _
    · exact refusing_matches carries common _ _

theorem payloadPlan (h : Shape.Alike R a b) (carries : Carries E path path') (mode : Mode)
    (common : Common) (payload : Json) :
    Plan.Alike (Inquiry.Alike R) E (payloadPlan mode common payload path a)
      (payloadPlan mode common payload path' b) := by
  unfold Conversion.payloadPlan
  split
  · refine .settled ?_
    split
    · exact .ok _
    · exact refusing_matches carries common _ _
  · have hcast := h.coercedTo carries mode common payload
    generalize Conversion.coercedTo mode common a payload path = cast at hcast
    generalize Conversion.coercedTo mode common b payload path' = cast' at hcast
    cases hcast with
    | error h => exact .settled (.error h)
    | ok cast =>
        dsimp only
        rw [h.admits, h.typeMessage]
        split
        · have hplan : Plan.Alike (Inquiry.Alike R) E (a.plan mode common cast path)
              (b.plan mode common cast path') :=
            ⟨h.inquiries mode cast, h.isEager, h.ruling carries mode common cast⟩
          refine hplan.andThen fun value => ?_
          unfold approved
          rw [h.violations]
          exact collect_matches carries (located_matches carries _) value
        · exact .settled (refusing_matches carries common _ _)

/-- Alike nodes that judge values have alike plans, or nothing to judge. -/
theorem typedPlan (h : Shape.Alike R a b) (carries : Carries E path path') (mode : Mode)
    (common : Common) (input : Option Json) :
    Option.Rel (Plan.Alike (Inquiry.Alike R) E) (typedPlan mode common a input path)
      (typedPlan mode common b input path') := by
  have hgiven : a.given mode.entity input = b.given mode.entity input := by cases h <;> rfl
  unfold Conversion.typedPlan judgedPlan
  rw [hgiven]
  cases present? mode common (b.given mode.entity input) with
  | none => exact .none
  | some payload =>
      exact .some ((h.payloadPlan carries mode common payload).andThen
        (h.finished carries mode common))

end Shape.Alike

end SchemaGraph

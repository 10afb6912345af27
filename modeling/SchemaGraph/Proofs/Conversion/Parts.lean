import SchemaGraph.Proofs.Conversion.Fuel
import SchemaGraph.Proofs.Conversion.Judgements
import SchemaGraph.Proofs.Conversion.Location
import SchemaGraph.Proofs.Json

set_option autoImplicit false

/-! # The parts a conversion runs

A node that follows no references converts a payload by converting parts of it, each through a
child. Which parts these are depends on the payload, and for `anyOf` and `not` also on what the
subtypes say: one is tried if those before it refused. A conversion runs out of fuel exactly if
that happens to one of the parts it runs, and otherwise it ends with a value or with errors
(`typed_hinges`).
-/

namespace SchemaGraph

variable {ι : Type}

/-! ## Parts -/

/-- A part of a conversion: a node, and what it converts. -/
abbrev Part (ι : Type := NodeId) := ι × Option Json

namespace Conversion

/-- The parts for keys that are not declared. -/
def undeclaredParts (shape : ObjectShape ι) (payload : List (String × Json)) : List (Part ι) :=
  payload.flatMap fun (key, item) =>
    if Entries.contains key shape.properties then []
    else (destination shape key).nodes.map fun node => (node, some item)

/-- The parts for declared properties, also for those the payload lacks. -/
def declaredParts (skip : String → Bool) (payload : List (String × Json)) :
    List (String × ι) → List (Part ι)
  | [] => []
  | (name, node) :: rest =>
    if skip name then declaredParts skip payload rest
    else (node, Entries.find? name payload) :: declaredParts skip payload rest

/-- The subtypes that are tried: each after the ones before it refused. -/
def Tried (refuses : ι → Prop) : List ι → ι → Prop
  | [], _ => False
  | first :: rest, id => id = first ∨ refuses first ∧ Tried refuses rest id

theorem Tried.mem {refuses : ι → Prop} {id : ι} :
    ∀ {subtypes : List ι}, Tried refuses subtypes id → id ∈ subtypes
  | [], h => h.elim
  | first :: rest, h => by
      rcases h with rfl | ⟨-, h⟩
      · exact List.mem_cons_self
      · exact List.mem_cons_of_mem first h.mem

/-- Whoever knows what is tried to end, and of what ends whether it refuses, knows what is
tried. -/
theorem Tried.transfer {refuses refuses' : ι → Prop} (ends : ι → Prop) {id : ι} :
    ∀ {subtypes : List ι}, (∀ other, Tried refuses' subtypes other → ends other) →
      (∀ other ∈ subtypes, ends other → refuses other → refuses' other) →
      Tried refuses subtypes id → Tried refuses' subtypes id
  | [], _, _, h => h
  | first :: rest, hends, hrefuses, h => by
      rcases h with rfl | ⟨hfirst, h⟩
      · exact .inl rfl
      · have hfirst' : refuses' first :=
          hrefuses first List.mem_cons_self (hends first (.inl rfl)) hfirst
        refine .inr ⟨hfirst', h.transfer ends (fun other hother => ?_) fun other hother => ?_⟩
        · exact hends other (.inr ⟨hfirst', hother⟩)
        · exact hrefuses other (List.mem_cons_of_mem first hother)

end Conversion

namespace Shape

open Conversion

/-- All parts of a payload of the right type. -/
def parts (mode : Mode) (payload : Json) : Shape ι → List (Part ι)
  | array node .. => (payload.asArr?.getD []).map fun item => (node, some item)
  | map node _ => (payload.asObj?.getD []).map fun (_, item) => (node, some item)
  | object shape =>
    undeclaredParts shape (payload.asObj?.getD []) ++
      declaredParts (skips shape mode (payload.asObj?.getD [])) (payload.asObj?.getD [])
        shape.properties
  | discriminated property mapping =>
    (selected property mapping payload).toList.map fun node => (node, some payload)
  | allOf subtypes => subtypes.map fun node => (node, some payload)
  | anyOf subtypes => subtypes.map fun node => (node, some payload)
  | oneOf subtypes => subtypes.map fun node => (node, some payload)
  | not subtypes => subtypes.map fun node => (node, some payload)
  | _ => []

/-- The parts that are run, given which nodes refuse which payloads. -/
def Runs (refuses : ι → Json → Prop) (mode : Mode) (payload : Json) (part : Part ι) :
    Shape ι → Prop
  | anyOf subtypes =>
    ∃ id, Tried (refuses · payload) subtypes id ∧ part = (id, some payload)
  | not subtypes =>
    ∃ id, Tried (refuses · payload) subtypes id ∧ part = (id, some payload)
  | shape => part ∈ shape.parts mode payload

variable {refuses refuses' : ι → Json → Prop} {mode : Mode} {payload : Json} {part : Part ι}
  {shape : Shape ι}

theorem Runs.mem_parts (h : shape.Runs refuses mode payload part) :
    part ∈ shape.parts mode payload := by
  cases shape with
  | anyOf subtypes =>
      obtain ⟨id, htried, rfl⟩ := h
      exact List.mem_map.2 ⟨id, htried.mem, rfl⟩
  | not subtypes =>
      obtain ⟨id, htried, rfl⟩ := h
      exact List.mem_map.2 ⟨id, htried.mem, rfl⟩
  | _ => exact h

theorem Runs.transfer (ends : Part ι → Prop)
    (hends : ∀ part, shape.Runs refuses' mode payload part → ends part)
    (hrefuses : ∀ id ∈ shape.children, ends (id, some payload) → refuses id payload →
      refuses' id payload)
    (h : shape.Runs refuses mode payload part) : shape.Runs refuses' mode payload part := by
  cases shape with
  | anyOf subtypes =>
      obtain ⟨id, htried, hpart⟩ := h
      refine ⟨id, htried.transfer (fun other => ends (other, some payload)) ?_ hrefuses, hpart⟩
      exact fun other hother => hends _ ⟨other, hother, rfl⟩
  | not subtypes =>
      obtain ⟨id, htried, hpart⟩ := h
      refine ⟨id, htried.transfer (fun other => ends (other, some payload)) ?_ hrefuses, hpart⟩
      exact fun other hother => hends _ ⟨other, hother, rfl⟩
  | _ => exact h

end Shape

/-! ## Parts as questions -/

/-- What a question is about. -/
def Inquiry.asked (inquiry : Inquiry ι) : Part ι := (inquiry.node, inquiry.input)

namespace Conversion

theorem Tried.cons_iff {refuses : ι → Prop} {P : ι → Prop} {first : ι} {rest : List ι} :
    (∃ id, Tried refuses (first :: rest) id ∧ P id) ↔
      P first ∨ refuses first ∧ ∃ id, Tried refuses rest id ∧ P id := by
  constructor
  · rintro ⟨id, rfl | ⟨hrefuses, htried⟩, h⟩
    · exact .inl h
    · exact .inr ⟨hrefuses, id, htried, h⟩
  · rintro (h | ⟨hrefuses, id, htried, h⟩)
    · exact ⟨first, .inl rfl, h⟩
    · exact ⟨id, .inr ⟨hrefuses, htried⟩, h⟩

/-- Where all refuse, all are tried. -/
theorem Tried.iff_mem {refuses : ι → Prop} {id : ι} :
    ∀ {subtypes : List ι}, (∀ other ∈ subtypes, refuses other) →
      (Tried refuses subtypes id ↔ id ∈ subtypes)
  | [], _ => ⟨False.elim, fun h => nomatch h⟩
  | first :: rest, h => by
      have hrest : Tried refuses rest id ↔ id ∈ rest :=
        Tried.iff_mem fun other hother => h other (List.mem_cons_of_mem first hother)
      rw [List.mem_cons, ← hrest]
      exact or_congr_right (and_iff_right (h first List.mem_cons_self))

theorem undeclaredParts_eq (shape : ObjectShape ι) (payload : List (String × Json)) :
    undeclaredParts shape payload = (undeclaredInquiries shape payload).map Inquiry.asked := by
  unfold undeclaredParts undeclaredInquiries
  rw [List.map_flatMap]
  congr 1
  funext entry
  dsimp only
  split
  · rfl
  · rw [List.map_map]
    rfl

theorem declaredParts_eq (skip : String → Bool) (payload : List (String × Json)) :
    ∀ properties : List (String × ι), declaredParts skip payload properties =
      (declaredInquiries skip payload properties).map Inquiry.asked
  | [] => rfl
  | (name, node) :: rest => by
      unfold declaredParts
      rw [declaredInquiries_cons, declaredParts_eq skip payload rest]
      split <;> rfl

theorem asked_subtypeInquiries (payload : Json) (subtypes : List ι) (index : Nat) :
    (subtypeInquiries payload index subtypes).map Inquiry.asked =
      subtypes.map fun node => (node, some payload) := by
  unfold subtypeInquiries
  rw [List.map_map]
  exact (List.map_map (f := Prod.fst)).symm.trans
    (congrArg (List.map fun node => (node, some payload)) (List.zipIdx_map_fst index subtypes))

end Conversion

namespace Shape

open Conversion

variable {refuses : ι → Json → Prop} {mode : Mode} {payload : Json} {part : Part ι}
  {shape : Shape ι}

theorem parts_eq (mode : Mode) (payload : Json) (shape : Shape ι) :
    shape.parts mode payload = (shape.inquiries mode payload).map Inquiry.asked := by
  cases shape with
  | array node size unique distinctBy =>
      dsimp only [parts, inquiries]
      unfold itemInquiries
      rw [List.map_map]
      exact (congrArg _ (List.zipIdx_map_fst 0 _).symm).trans (List.map_map ..)
  | map node size =>
      dsimp only [parts, inquiries]
      unfold entryInquiries
      rw [List.map_map]
      rfl
  | object shape =>
      dsimp only [parts, inquiries]
      rw [List.map_append, undeclaredParts_eq, declaredParts_eq]
  | discriminated property mapping =>
      dsimp only [parts, inquiries]
      rw [List.map_map]
      rfl
  | allOf subtypes | anyOf subtypes | oneOf subtypes | not subtypes =>
      exact (asked_subtypeInquiries payload subtypes 0).symm
  | _ => rfl

/-- One of the subtypes that are tried is one of the questions that are asked. -/
theorem tried_iff {P : Part ι → Prop} : ∀ (subtypes : List ι) (index : Nat),
    (∃ id, Tried (refuses · payload) subtypes id ∧ P (id, some payload)) ↔
      ∃ inquiry, Tried (fun other : Inquiry ι => refuses other.node payload)
        (subtypeInquiries payload index subtypes) inquiry ∧ P inquiry.asked
  | [], _ => ⟨fun ⟨_, h, _⟩ => h.elim, fun ⟨_, h, _⟩ => h.elim⟩
  | first :: rest, index => by
      unfold subtypeInquiries
      rw [Tried.cons_iff, List.zipIdx_cons, List.map_cons, Tried.cons_iff]
      exact or_congr_right (and_congr_right fun _ => tried_iff rest (index + 1))

/-- The parts that are run are asked about: where the first value decides, as long as all before
refuse. -/
theorem exists_runs_iff {P : Part ι → Prop} :
    (∃ part, shape.Runs refuses mode payload part ∧ P part) ↔
      ∃ inquiry, Tried (fun other => shape.isEager = true → refuses other.node payload)
        (shape.inquiries mode payload) inquiry ∧ P inquiry.asked := by
  have heager : ∀ subtypes : List ι,
      (∃ part, (∃ id, Tried (refuses · payload) subtypes id ∧ part = (id, some payload)) ∧ P part) ↔
        ∃ inquiry, Tried (fun other : Inquiry ι => true = true → refuses other.node payload)
          (subtypeInquiries payload 0 subtypes) inquiry ∧ P inquiry.asked := by
    intro subtypes
    simp only [true_implies]
    rw [← tried_iff]
    constructor
    · rintro ⟨_, ⟨id, htried, rfl⟩, h⟩
      exact ⟨id, htried, h⟩
    · rintro ⟨id, htried, h⟩
      exact ⟨_, ⟨id, htried, rfl⟩, h⟩
  have hall : shape.isEager = false →
      ((∃ part ∈ shape.parts mode payload, P part) ↔
        ∃ inquiry, Tried (fun other => shape.isEager = true → refuses other.node payload)
          (shape.inquiries mode payload) inquiry ∧ P inquiry.asked) := by
    intro hpatient
    have hrefuses : ∀ other ∈ shape.inquiries mode payload,
        shape.isEager = true → refuses other.node payload := by
      intro other _ heager
      rw [hpatient] at heager
      cases heager
    simp only [Tried.iff_mem hrefuses, parts_eq, List.mem_map, exists_exists_and_eq_and]
  cases shape with
  | anyOf subtypes | not subtypes => exact heager subtypes
  | _ => exact hall rfl

end Shape

/-- The parts a node runs for what it is given: only for a payload of the right type, which may
be the default. -/
inductive Node.Runs (refuses : ι → Json → Prop) (mode : Mode) :
    Node ι → Option Json → Part ι → Prop where
  | forward (target : ι) (input : Option Json) : Runs refuses mode (.forward target) input
      (target, input)
  | typed {common : Common} {shape : Shape ι} {input : Option Json} {payload : Json}
      {part : Part ι} (present : Conversion.present? mode common input = some payload)
      (there : payload.isNull = false) (admits : shape.admits payload = true)
      (runs : shape.Runs refuses mode payload part) :
      Runs refuses mode (.typed common shape) input part

namespace Node

open Conversion

variable {refuses refuses' : ι → Json → Prop} {mode : Mode} {input : Option Json} {part : Part ι}
  {node : Node ι}

/-- All parts a node may run for what it is given. -/
def parts (mode : Mode) (node : Node ι) (input : Option Json) : List (Part ι) :=
  match node with
  | .forward target => [(target, input)]
  | .reference .. => []
  | .typed common shape =>
    match present? mode common input with
    | none => []
    | some payload => shape.parts mode payload

theorem Runs.mem_parts (h : node.Runs refuses mode input part) : part ∈ node.parts mode input := by
  cases h with
  | forward target input => exact List.mem_singleton_self _
  | typed hpresent hnull hadmits hruns =>
      dsimp only [parts]
      rw [hpresent]
      exact hruns.mem_parts

theorem Runs.transfer (ends : Part ι → Prop)
    (hends : ∀ part, node.Runs refuses' mode input part → ends part)
    (hrefuses : ∀ id ∈ node.children, ∀ payload, ends (id, some payload) → refuses id payload →
      refuses' id payload)
    (h : node.Runs refuses mode input part) : node.Runs refuses' mode input part := by
  cases h with
  | forward target input => exact .forward target input
  | typed hpresent hnull hadmits hruns =>
      refine .typed hpresent hnull hadmits
        (hruns.transfer ends (fun part hpart => ?_) fun id hid => ?_)
      · exact hends part (.typed hpresent hnull hadmits hpart)
      · exact hrefuses id hid _

end Node

/-- The nodes that convert the very value this one does. -/
def Node.handed : Node ι → List ι
  | .forward target => [target]
  | .reference .. => []
  | .typed _ shape => shape.handed

namespace Conversion

variable {α β : Type} {P Q : Prop}

/-! ## What a run hinges on -/

/-- Every run gives a value or errors, unless it is stuck; then every run is out of fuel. -/
structure Hinges (stuck : Prop) (m : Conversion α) : Prop where
  exhausts : stuck → ∀ s, (m s).1 = .error .outOfFuel
  ends : ¬stuck → ∀ s, ∃ here : Except SchemaErrors α, (m s).1 = here.mapError .errors

/-- The same of a conversion that never gives errors. -/
structure Settles (stuck : Prop) (m : Conversion α) : Prop where
  exhausts : stuck → ∀ s, (m s).1 = .error .outOfFuel
  ends : ¬stuck → ∀ s, ∃ a, (m s).1 = .ok a

theorem Settles.hinges {m : Conversion α} (h : Settles P m) : Hinges P m := by
  refine ⟨h.exhausts, fun hends s => ?_⟩
  obtain ⟨a, ha⟩ := h.ends hends s
  exact ⟨.ok a, ha⟩

theorem Settles.pure (a : α) : Settles False (Pure.pure a : Conversion α) :=
  ⟨False.elim, fun _ _ => ⟨a, rfl⟩⟩

theorem Settles.congr {m : Conversion α} (h : Settles P m) (hPQ : P ↔ Q) : Settles Q m :=
  ⟨fun hQ => h.exhausts (hPQ.2 hQ), fun hQ => h.ends fun hP => hQ (hPQ.1 hP)⟩

theorem fst_bind_error {m : Conversion α} {f : α → Conversion β} {s : ConversionState}
    {failure : Failure} (h : (m s).1 = .error failure) : ((m >>= f) s).1 = .error failure := by
  rw [run_bind]
  rcases hm : m s with ⟨_ | _, t⟩ <;> rw [hm] at h <;> cases h
  rfl

theorem run_bind_ok {m : Conversion α} {f : α → Conversion β} {s : ConversionState} {a : α}
    (h : (m s).1 = .ok a) : (m >>= f) s = f a (m s).2 := by
  rw [run_bind]
  rcases hm : m s with ⟨_ | _, t⟩ <;> rw [hm] at h <;> cases h
  rfl

/-- What comes after a conversion that gives no errors runs, unless that one is stuck. -/
theorem Settles.run_bind {m : Conversion α} (hm : Settles P m) (f : α → Conversion β)
    (s : ConversionState) : P ∧ ((m >>= f) s).1 = .error .outOfFuel ∨
      ¬P ∧ ∃ a t, (m >>= f) s = f a t := by
  by_cases hP : P
  · exact .inl ⟨hP, fst_bind_error (hm.exhausts hP s)⟩
  · obtain ⟨a, ha⟩ := hm.ends hP s
    exact .inr ⟨hP, a, _, run_bind_ok ha⟩

theorem Settles.bind {m : Conversion α} {f : α → Conversion β} (hm : Settles P m)
    (hf : ∀ a, Settles Q (f a)) : Settles (P ∨ Q) (m >>= f) := by
  constructor
  · intro hstuck s
    rcases hm.run_bind f s with ⟨-, hs⟩ | ⟨hP, a, t, hs⟩
    · exact hs
    · rw [hs]
      exact (hf a).exhausts (hstuck.resolve_left hP) t
  · intro hends s
    rcases hm.run_bind f s with ⟨hP, -⟩ | ⟨-, a, t, hs⟩
    · exact absurd (.inl hP) hends
    · rw [hs]
      exact (hf a).ends (fun hQ => hends (.inr hQ)) t

namespace Hinges

theorem congr {m : Conversion α} (h : Hinges P m) (hPQ : P ↔ Q) : Hinges Q m :=
  ⟨fun hQ => h.exhausts (hPQ.2 hQ), fun hQ => h.ends fun hP => hQ (hPQ.1 hP)⟩

/-- After a conversion that may give errors comes only what never gets stuck. -/
theorem andThen {m : Conversion α} {f : α → Conversion β} (hm : Hinges P m)
    (hf : ∀ a, Hinges False (f a)) : Hinges P (m >>= f) := by
  constructor
  · exact fun hP s => fst_bind_error (hm.exhausts hP s)
  · intro hP s
    obtain ⟨here, hs⟩ := hm.ends hP s
    cases here with
    | ok a =>
        rw [run_bind_ok hs]
        exact (hf a).ends not_false _
    | error errors => exact ⟨.error errors, fst_bind_error hs⟩

theorem attempt {m : Conversion α} (h : Hinges P m) : Settles P (Conversion.attempt m) := by
  constructor
  · intro hstuck s
    have hs := h.exhausts hstuck s
    rw [run_attempt]
    rcases hm : m s with ⟨r, t⟩
    rw [hm] at hs
    cases hs
    rfl
  · intro hends s
    obtain ⟨here, hs⟩ := h.ends hends s
    refine ⟨here, ?_⟩
    rw [run_attempt]
    rcases hm : m s with ⟨r, t⟩
    rw [hm] at hs
    cases here <;> cases hs <;> rfl

end Hinges

/-! ## How nodes convert -/

/-- What is known of the conversions of some nodes: which parts get stuck, and which nodes refuse
which payloads. Only what is missing may come to no value without errors. -/
structure Rules (convert : Converting ι) (known : ι → Prop) (stuck : Part ι → Prop)
    (refuses : ι → Json → Prop) : Prop where
  present : ∀ {id}, known id → ∀ payload path,
    Hinges (stuck (id, some payload)) (convert id (some payload) path)
  missing : ∀ {id}, known id → ∀ input path,
    Settles (stuck (id, input)) (attemptMissing (convert id input path))
  refusing : ∀ {id payload}, known id → refuses id payload → ∀ path s,
    ∃ errors, (convert id (some payload) path s).1 = .error (.errors errors)
  accepting : ∀ {id payload}, known id → ¬stuck (id, some payload) → ¬refuses id payload →
    ∀ path s, ∃ value, (convert id (some payload) path s).1 = .ok value

variable {convert : Converting ι} {known : ι → Prop} {stuck : Part ι → Prop}
  {refuses : ι → Json → Prop}

/-! ## Questions -/

/-- Asking a node hinges on the part that answers. -/
theorem Rules.inquire (rules : Rules convert known stuck refuses) {inquiry : Inquiry ι}
    (hknown : known inquiry.node)
    (hinput : inquiry.slot.mayLack = false → ∃ item, inquiry.input = some item) (path : Path) :
    Settles (stuck inquiry.asked) (inquire convert path inquiry) := by
  obtain ⟨slot, node, input⟩ := inquiry
  unfold Conversion.inquire
  split
  · have hmissing := rules.missing hknown input (slot.location path)
    exact (hmissing.bind (Q := False) fun _ => .pure _).congr (iff_of_eq (or_false _))
  · rename_i hslot
    obtain ⟨item, rfl⟩ := hinput (Bool.eq_false_iff.2 hslot)
    have hpresent := (rules.present hknown item (slot.location path)).attempt
    exact (hpresent.bind (Q := False) fun _ => .pure _).congr (iff_of_eq (or_false _))

/-- Asking one node after the other hinges on the parts that are run: the first one, and each one
after those that let the next be asked. -/
theorem inquireAll_settles {path : Path} {isEager : Bool} {gone : Inquiry ι → Prop} :
    ∀ {inquiries : List (Inquiry ι)},
      (∀ inquiry ∈ inquiries, Settles (stuck inquiry.asked) (inquire convert path inquiry)) →
      (∀ inquiry ∈ inquiries, ∀ s reply t, inquire convert path inquiry s = (.ok reply, t) →
        ((isEager && reply.value?.isSome) = false ↔ gone inquiry)) →
      Settles (∃ inquiry, Tried gone inquiries inquiry ∧ stuck inquiry.asked)
        (inquireAll convert path isEager inquiries)
  | [], _, _ => (Settles.pure _).congr ⟨False.elim, fun ⟨_, h, _⟩ => h.elim⟩
  | first :: rest, hparts, hgone => by
      have hhere := hparts first List.mem_cons_self
      have hrest := inquireAll_settles
        (fun inquiry hinquiry => hparts inquiry (List.mem_cons_of_mem first hinquiry))
        (fun inquiry hinquiry => hgone inquiry (List.mem_cons_of_mem first hinquiry))
      unfold inquireAll
      by_cases hfirst : gone first
      · rw [bind_congr_of_gives fun s reply t hreply => if_neg
          (Bool.eq_false_iff.1 ((hgone first List.mem_cons_self s reply t hreply).2 hfirst))]
        refine (hhere.bind fun here => hrest.bind (Q := False) fun more => .pure _).congr ?_
        rw [or_false, Tried.cons_iff, and_iff_right hfirst]
      · rw [bind_congr_of_gives fun s reply t hreply => if_pos
          (Bool.of_not_eq_false
            (mt (hgone first List.mem_cons_self s reply t hreply).1 hfirst))]
        refine (hhere.bind (Q := False) fun here => .pure _).congr ?_
        rw [or_false, Tried.cons_iff]
        exact (or_iff_left fun h => hfirst h.1).symm

/-- Who accepts answers with a value, who refuses does not. -/
theorem Rules.accepts_iff (rules : Rules convert known stuck refuses) {slot : Slot} {node : ι}
    {payload : Json} (hknown : known node) {path : Path} {s t : ConversionState} {reply : Reply}
    (h : Conversion.inquire convert path ⟨slot, node, some payload⟩ s = (.ok reply, t)) :
    reply.value?.isSome = false ↔ refuses node payload := by
  have hlives : ¬stuck (node, some payload) := by
    intro hstuck
    have hinquire : Settles (stuck (Inquiry.asked ⟨slot, node, some payload⟩))
        (Conversion.inquire convert path ⟨slot, node, some payload⟩) :=
      rules.inquire hknown (fun _ => ⟨payload, rfl⟩) path
    have hexhausts := hinquire.exhausts hstuck s
    rw [h] at hexhausts
    cases hexhausts
  rw [run_inquire] at h
  unfold Inquiry.part at h
  constructor
  · intro hnone
    by_contra haccepts
    obtain ⟨value, hvalue⟩ := rules.accepting hknown hlives haccepts (slot.location path) s
    obtain ⟨u, hrun⟩ := exists_of_fst hvalue
    rw [hrun] at h
    cases h
    cases hnone
  · intro hrefuses
    obtain ⟨errors, hrefused⟩ := rules.refusing hknown hrefuses (slot.location path) s
    obtain ⟨u, hrun⟩ := exists_of_fst hrefused
    rw [hrun] at h
    cases h
    rfl

/-! ## Nodes -/

/-- What a node runs is what its shape runs for a payload of the right type. -/
theorem exists_typed_runs_iff {mode : Mode} {common : Common} {shape : Shape ι}
    {input : Option Json} {payload : Json} (hpresent : present? mode common input = some payload)
    {P : Part ι → Prop} :
    (∃ part, Node.Runs refuses mode (.typed common shape) input part ∧ P part) ↔
      (payload.isNull = false ∧ shape.admits payload = true) ∧
        ∃ part, shape.Runs refuses mode payload part ∧ P part := by
  constructor
  · rintro ⟨part, _ | ⟨hpresent', hnull, hadmits, hruns⟩, h⟩
    cases hpresent.symm.trans hpresent'
    exact ⟨⟨hnull, hadmits⟩, part, hruns, h⟩
  · rintro ⟨⟨hnull, hadmits⟩, part, hruns, h⟩
    exact ⟨part, .typed hpresent hnull hadmits hruns, h⟩

/-- Where the first value decides, all questions are about the payload itself. -/
theorem handed_of_eager {mode : Mode} {common : Common} {shape : Shape ι} {input : Option Json}
    {payload : Json} {path : Path} {plan : Plan ι}
    (hplan : typedPlan mode common shape input path = some plan)
    (hpresent : present? mode common input = some payload) (heager : plan.isEager = true)
    {inquiry : Inquiry ι} (h : inquiry ∈ plan.inquiries) :
    inquiry.input = some payload := by
  obtain ⟨payload', hpresent', -, -, hmem⟩ := mem_of_typedPlan hplan h
  cases hpresent.symm.trans hpresent'
  rcases isEager_of_typedPlan hplan with hnone | hsame
  · rw [hnone] at h
    cases h
  · rw [hsame] at heager
    cases shape with
    | anyOf subtypes | not subtypes =>
        obtain ⟨⟨node, index⟩, -, rfl⟩ := List.mem_map.1 hmem
        rfl
    | _ => cases heager

/-- What is made of the replies cannot get stuck. -/
theorem Hinges.run {plan : Plan ι} {path : Path}
    (h : Settles P (inquireAll convert path plan.isEager plan.inquiries)) :
    Hinges P (plan.run convert path) := by
  refine h.hinges.andThen fun replies => ⟨False.elim, fun _ s => ⟨plan.ruling replies, ?_⟩⟩
  rw [run_settle]

/-- A node that judges values hinges on the parts it runs, if there is something to judge. -/
theorem typed_hinges (rules : Rules convert known stuck refuses) (mode : Mode) (self : ι)
    (common : Common) {shape : Shape ι} (hknown : ∀ id ∈ shape.children, known id)
    {input : Option Json} {payload : Json} (hpresent : present? mode common input = some payload)
    (path : Path) :
    Hinges (∃ part, Node.Runs refuses mode (.typed common shape) input part ∧ stuck part)
      (step convert mode self (.typed common shape) input path) := by
  rw [step_typed]
  cases hplan : typedPlan mode common shape input path with
  | none =>
      rw [typedPlan_eq_none.1 hplan] at hpresent
      cases hpresent
  | some plan =>
      have hasked := asked_of_typedPlan hplan hpresent
      have hall : ∀ inquiry ∈ plan.inquiries, known inquiry.node ∧
          (inquiry.slot.mayLack = false → ∃ item, inquiry.input = some item) := by
        intro inquiry hinquiry
        obtain ⟨payload, -, -, -, hmem⟩ := mem_of_typedPlan hplan hinquiry
        exact ⟨hknown _ (Shape.calls_of_mem hmem path).mem_children, Shape.exists_input hmem⟩
      have hruns : (∃ part, Node.Runs refuses mode (.typed common shape) input part ∧ stuck part) ↔
          ∃ inquiry, Tried (fun other => plan.isEager = true → refuses other.node payload)
            plan.inquiries inquiry ∧ stuck inquiry.asked := by
        rw [exists_typed_runs_iff hpresent, hasked]
        split
        · rw [Shape.exists_runs_iff, and_iff_right ‹_›]
          rcases isEager_of_typedPlan hplan with hnone | heager
          · rw [hasked, if_pos ‹_›] at hnone
            rw [hnone]
            exact iff_of_false (fun ⟨_, h, _⟩ => h) fun ⟨_, h, _⟩ => h
          · rw [heager]
        · exact iff_of_false (fun h => ‹¬_› h.1) fun ⟨_, h, _⟩ => h
      rw [hruns]
      refine Hinges.run (inquireAll_settles (fun inquiry hinquiry => ?_) ?_)
      · exact rules.inquire (hall inquiry hinquiry).1 (hall inquiry hinquiry).2 path
      · intro inquiry hinquiry s reply t hreply
        cases heager : plan.isEager with
        | false => exact iff_of_true rfl fun h => nomatch h
        | true =>
            have hknown := (hall inquiry hinquiry).1
            have hinput := handed_of_eager hplan hpresent heager hinquiry
            obtain ⟨slot, node, _⟩ := inquiry
            cases hinput
            rw [Bool.true_and, forall_prop_of_true rfl]
            exact rules.accepts_iff hknown hreply

theorem Hinges.attemptMissing {m : Conversion Value} (h : Hinges P m) :
    Settles P (Conversion.attemptMissing m) := by
  constructor
  · intro hP s
    unfold Conversion.attemptMissing
    rw [run_bind_of_ok (run_outcome m s), h.exhausts hP s]
    rfl
  · intro hP s
    obtain ⟨here, hs⟩ := h.ends hP s
    unfold Conversion.attemptMissing
    rw [run_bind_of_ok (run_outcome m s), hs]
    cases here <;> exact ⟨_, rfl⟩

theorem exhausted_iff {m : Conversion Value} (h : Settles P (attemptMissing m))
    (s : ConversionState) : (m s).1 = .error .outOfFuel ↔ P := by
  have hrun : ((attemptMissing m) s).1 = .error .outOfFuel ↔ (m s).1 = .error .outOfFuel := by
    unfold attemptMissing
    rw [run_bind_of_ok (run_outcome m s)]
    rcases (m s).1 with (_ | _ | _ | _ | _) | _
    case error.outOfFuel => exact iff_of_true rfl rfl
    all_goals exact iff_of_false (fun h => by cases h) (fun h => by cases h)
  rw [← hrun]
  constructor
  · intro hs
    by_contra hP
    obtain ⟨a, ha⟩ := h.ends hP s
    rw [ha] at hs
    cases hs
  · exact fun hP => h.exhausts hP s

/-- What is given to a node hinges on the parts that are run. -/
theorem step_hinges (rules : Rules convert known stuck refuses) (mode : Mode) (self : ι)
    {node : Node ι} (hdirect : node.refers = false) (hknown : ∀ id ∈ node.children, known id)
    (payload : Json) (path : Path) :
    Hinges (∃ part, node.Runs refuses mode (some payload) part ∧ stuck part)
      (step convert mode self node (some payload) path) := by
  cases node with
  | reference messages target => cases hdirect
  | forward target =>
      refine (rules.present (hknown target List.mem_cons_self) payload path).congr ?_
      constructor
      · exact fun h => ⟨_, .forward target _, h⟩
      · rintro ⟨_, ⟨⟩, h⟩
        exact h
  | typed common shape => exact typed_hinges rules mode self common hknown rfl path

/-- So does what may be missing. -/
theorem step_settles (rules : Rules convert known stuck refuses) (mode : Mode) (self : ι)
    {node : Node ι} (hdirect : node.refers = false) (hknown : ∀ id ∈ node.children, known id)
    (input : Option Json) (path : Path) :
    Settles (∃ part, node.Runs refuses mode input part ∧ stuck part)
      (attemptMissing (step convert mode self node input path)) := by
  cases node with
  | reference messages target => cases hdirect
  | forward target =>
      refine (rules.missing (hknown target List.mem_cons_self) input path).congr ?_
      constructor
      · exact fun h => ⟨_, .forward target _, h⟩
      · rintro ⟨_, ⟨⟩, h⟩
        exact h
  | typed common shape =>
      cases hpresent : present? mode common input with
      | some payload =>
        exact (typed_hinges rules mode self common hknown hpresent path).attemptMissing
      | none =>
          cases input with
          | some payload => cases hpresent
          | none =>
              have hstep : step convert mode self (.typed common shape) none path =
                  fail .undefined := by
                rw [step_typed, typedPlan_eq_none.2 hpresent]
                rfl
              rw [hstep]
              refine (Settles.pure (Except.ok none)).congr (iff_of_false not_false ?_)
              rintro ⟨part, _ | ⟨hpresent', -, -, -⟩, -⟩
              rw [hpresent] at hpresent'
              cases hpresent'

end Conversion

end SchemaGraph

import SchemaGraph.Proofs.Conversion.Fuel
import SchemaGraph.Proofs.Conversion.Location

set_option autoImplicit false

/-! # Verdicts

A graph accepts a payload at a node or refuses it, with fuel enough. Where no node follows
references, the verdict is the same at every location and in every state. So a combination, which
tries its subtypes at locations of their own, judges by what the subtypes would say by themselves.
-/

namespace SchemaGraph

/-! ## Subtypes -/

namespace Conversion

variable {α ι : Type} {convert : Converting ι} {payload : Json} {accepts refuses : ι → Prop}

/-- A subtype that gives a value accepts the payload, and one that gives errors refuses it. -/
structure Decides (convert : Converting ι) (payload : Json) (accepts refuses : ι → Prop) :
    Prop where
  value : ∀ {id path s value t}, convert id (some payload) path s = (.ok value, t) → accepts id
  errors : ∀ {id path s errors t}, convert id (some payload) path s = (.error (.errors errors), t) →
    refuses id

def Decided (accepts refuses : ι → Prop) (id : ι) : Except SchemaErrors Value → Prop
  | .ok _ => accepts id
  | .error _ => refuses id

/-- What was heard of the subtypes is what they decided. -/
theorem Decides.outcomes (h : Decides convert payload accepts refuses) {path : Path} :
    ∀ {subtypes : List ι} {index : Nat} {replies : List Reply},
      Heard (Said convert path) false (subtypeInquiries payload index subtypes) replies →
      List.Forall₂ (fun id outcome => Decided accepts refuses id outcome.2) subtypes
        (Conversion.outcomes replies)
  | [], _, _, heard => by
      cases heard
      exact .nil
  | subtype :: rest, index, _, heard => by
      change Heard (Said convert path) false
        (⟨.subtype index, subtype, some payload⟩ :: subtypeInquiries payload (index + 1) rest) _
        at heard
      rcases heard with _ | ⟨_, hstops⟩ | ⟨hhere, _, hmore⟩
      · cases hstops
      · cases hhere with
        | value hanswer =>
            obtain ⟨s, hanswer⟩ := hanswer
            obtain ⟨t, hrun⟩ := exists_of_fst hanswer
            exact .cons (h.value hrun) (h.outcomes hmore)
        | errors hanswer =>
            obtain ⟨s, hanswer⟩ := hanswer
            obtain ⟨t, hrun⟩ := exists_of_fst hanswer
            exact .cons (h.errors hrun) (h.outcomes hmore)
        | nothing hslot => cases hslot

/-- Nobody refuses where there are no refusals. -/
theorem accepts_of_refusals {subtypes : List ι} {outcomes : List (Nat × Except SchemaErrors Value)}
    (h : List.Forall₂ (fun id outcome => Decided accepts refuses id outcome.2) subtypes outcomes)
    (hnone : refusals outcomes = []) : ∀ id ∈ subtypes, accepts id := by
  induction h with
  | nil => exact fun id hid => by cases hid
  | @cons first outcome rest _ hfirst _ ih =>
      obtain ⟨index, outcome⟩ := outcome
      cases outcome with
      | error errors => cases hnone
      | ok value =>
          intro id hid
          rcases List.mem_cons.1 hid with rfl | hid
          · exact hfirst
          · exact ih hnone id hid

theorem refuses_of_accepted {subtypes : List ι} {outcomes : List (Nat × Except SchemaErrors Value)}
    (h : List.Forall₂ (fun id outcome => Decided accepts refuses id outcome.2) subtypes outcomes)
    (hnone : accepted outcomes = []) : ∀ id ∈ subtypes, refuses id := by
  induction h with
  | nil => exact fun id hid => by cases hid
  | @cons first outcome rest _ hfirst _ ih =>
      obtain ⟨index, outcome⟩ := outcome
      cases outcome with
      | ok value => cases hnone
      | error errors =>
          intro id hid
          rcases List.mem_cons.1 hid with rfl | hid
          · exact hfirst
          · exact ih hnone id hid

/-- Where one outcome is accepted, all subtypes around its own refuse. -/
theorem single_of_accepted {subtypes : List ι} {outcomes : List (Nat × Except SchemaErrors Value)}
    (h : List.Forall₂ (fun id outcome => Decided accepts refuses id outcome.2) subtypes outcomes)
    {found : Nat × Value} (hone : accepted outcomes = [found]) :
    ∃ before id after, subtypes = before ++ id :: after ∧ accepts id ∧
      ∀ other ∈ before ++ after, refuses other := by
  induction h with
  | nil => cases hone
  | @cons first outcome rest _ hfirst hrest ih =>
      obtain ⟨index, outcome⟩ := outcome
      cases outcome with
      | ok value =>
          obtain ⟨-, hnone⟩ := List.cons.inj hone
          exact ⟨[], first, rest, rfl, hfirst, refuses_of_accepted hrest hnone⟩
      | error errors =>
          obtain ⟨before, id, after, rfl, hid, hothers⟩ := ih hone
          refine ⟨first :: before, id, after, rfl, hid, fun other hother => ?_⟩
          rcases List.mem_cons.1 hother with rfl | hother
          · exact hfirst
          · exact hothers other hother

variable {mode : Mode} {common : Common} {path : Path} {subtypes : List ι} {replies : List Reply}
  {value : Value}

theorem allOf_decides (h : Decides convert payload accepts refuses)
    (heard : Heard (Said convert path) false (subtypeInquiries payload 0 subtypes) replies)
    (hruling : (Shape.allOf subtypes).ruling mode common payload path replies = .ok value) :
    ∀ id ∈ subtypes, accepts id := by
  dsimp only [Shape.ruling] at hruling
  split at hruling
  · exact accepts_of_refusals (h.outcomes heard) ‹_›
  · cases hruling

theorem anyOf_decides (h : Decides convert payload accepts refuses)
    (heard : Heard (Said convert path) true (subtypeInquiries payload 0 subtypes) replies)
    (hruling : (Shape.anyOf subtypes).ruling mode common payload path replies = .ok value) :
    ∃ id ∈ subtypes, accepts id := by
  dsimp only [Shape.ruling] at hruling
  split at hruling
  · cases hruling
  · rename_i index first more haccepted
    have hfirst : first ∈ (accepted (outcomes replies)).map Prod.snd := by
      rw [haccepted]
      exact List.mem_cons_self
    obtain ⟨reply, hreply, -, hvalue⟩ := reply_of_accepted hfirst
    obtain ⟨inquiry, hinquiry, -, s, hanswer⟩ := heard.value_of_mem hreply hvalue
    obtain ⟨t, hrun⟩ := exists_of_fst hanswer
    obtain ⟨⟨id, index⟩, hid, rfl⟩ := List.mem_map.1 hinquiry
    exact ⟨id, List.mem_of_getElem? (List.mk_mem_zipIdx_iff_getElem?.1 hid), h.value hrun⟩

theorem oneOf_decides (h : Decides convert payload accepts refuses)
    (heard : Heard (Said convert path) false (subtypeInquiries payload 0 subtypes) replies)
    (hruling : (Shape.oneOf subtypes).ruling mode common payload path replies = .ok value) :
    ∃ before id after, subtypes = before ++ id :: after ∧ accepts id ∧
      ∀ other ∈ before ++ after, refuses other := by
  dsimp only [Shape.ruling] at hruling
  split at hruling
  · cases hruling
  · exact single_of_accepted (h.outcomes heard) ‹_›
  · cases hruling

theorem noneOf_decides (h : Decides convert payload accepts refuses)
    (heard : Heard (Said convert path) true (subtypeInquiries payload 0 subtypes) replies)
    (hruling : (Shape.not subtypes).ruling mode common payload path replies = .ok value) :
    ∀ id ∈ subtypes, refuses id := by
  dsimp only [Shape.ruling] at hruling
  split at hruling
  · rename_i hnone
    -- no subtype cut the others short
    have hheld : held replies = [] := by
      rw [← accepted_eq_held (subtype_of_heard heard), hnone]
      rfl
    have hpatient := heard.patient (List.filterMap_eq_nil_iff.1 hheld)
    exact refuses_of_accepted (h.outcomes hpatient) hnone
  · cases hruling

end Conversion

/-! ## Graphs -/

namespace Graph

/-- Converting the payload at a node gives a value. -/
def Accepts (graph : Graph) (mode : Mode) (entry : NodeId) (payload : Json) : Prop :=
  ∃ fuel result, graph.convert fuel entry payload mode = .converted result

/-- Converting the payload at a node gives errors. -/
def Refuses (graph : Graph) (mode : Mode) (entry : NodeId) (payload : Json) : Prop :=
  ∃ fuel errors, graph.convert fuel entry payload mode = .failed errors

variable {graph : Graph} {mode : Mode} {entry : NodeId} {payload : Json}

/-- A conversion that ends does so with more fuel, in the same way. -/
theorem convert_mono {fuel more : Nat} (h : fuel ≤ more)
    (hends : graph.convert fuel entry payload mode ≠ .outOfFuel) :
    graph.convert more entry payload mode = graph.convert fuel entry payload mode := by
  have hsame := convertWithin_approximates graph mode h entry entry rfl (some payload) .root
    (.start none)
  unfold convert convertAt at hends ⊢
  rcases hsame with hfuel | hsame
  · generalize graph.convertWithin mode fuel entry (some payload) .root (.start none) = run
      at hfuel hends
    obtain ⟨r, t⟩ := run
    cases hfuel
    exact absurd rfl hends
  · rw [hsame]

theorem Refuses.not_accepts (h : graph.Refuses mode entry payload) :
    ¬graph.Accepts mode entry payload := by
  rintro ⟨more, result, haccepts⟩
  obtain ⟨fuel, errors, hrefuses⟩ := h
  have hleft := convert_mono (Nat.le_max_left fuel more)
    (by rw [hrefuses]; exact fun h => by cases h)
  have hright := convert_mono (Nat.le_max_right fuel more)
    (by rw [haccepts]; exact fun h => by cases h)
  rw [hleft, hrefuses, haccepts] at hright
  cases hright

theorem run_of_accepts (h : graph.IsDirect) (haccepts : graph.Accepts mode entry payload) :
    ∃ fuel value t, graph.convertWithin mode fuel entry (some payload) .root (.start none) =
      (.ok value, t) := by
  obtain ⟨fuel, result, hconverts⟩ := haccepts
  have hthere := (convertWithin_moves h mode .root fuel).there entry payload .root (.start none)
  unfold convert convertAt at hconverts
  refine ⟨fuel, ?_⟩
  generalize graph.convertWithin mode fuel entry (some payload) .root (.start none) = run
    at hthere hconverts ⊢
  obtain ⟨r, t⟩ := run
  cases r with
  | ok value => exact ⟨value, t, rfl⟩
  | error failure =>
      cases failure with
      | undefined => exact absurd rfl hthere
      | _ => cases hconverts

/-- Wherever and in whatever state a node converts a payload, that is the verdict of the graph. -/
theorem convertWithin_decides (h : graph.IsDirect) (mode : Mode) (fuel : Nat) (payload : Json) :
    Conversion.Decides (graph.convertWithin mode fuel) payload
      (fun entry => graph.Accepts mode entry payload)
      (fun entry => graph.Refuses mode entry payload) := by
  have hroot : ∀ entry path s, (graph.convertWithin mode fuel entry (some payload) path s).1 =
      (graph.convertWithin mode fuel entry (some payload) .root (.start none)).1.mapError
        (Failure.moved path) := by
    intro entry path s
    have hmoves := (convertWithin_moves h mode path fuel).follows entry (some payload) .root
      (.start none) s
    rw [Path.under_root] at hmoves
    rw [hmoves]
  refine ⟨fun {entry path s value t} hrun => ?_, fun {entry path s errors t} hrun => ?_⟩
  · have hat := hroot entry path s
    rw [hrun] at hat
    refine ⟨fuel, ⟨value, (graph.convertWithin mode fuel entry (some payload) .root
      (.start none)).2.registry.links⟩, ?_⟩
    unfold convert convertAt
    generalize graph.convertWithin mode fuel entry (some payload) .root (.start none) = run at hat ⊢
    obtain ⟨r, u⟩ := run
    cases r with
    | ok found =>
        cases hat
        rfl
    | error failure => cases hat
  · have hat := hroot entry path s
    rw [hrun] at hat
    unfold Refuses convert convertAt
    refine ⟨fuel, ?_⟩
    generalize graph.convertWithin mode fuel entry (some payload) .root (.start none) = run at hat ⊢
    obtain ⟨r, u⟩ := run
    cases r with
    | ok found => cases hat
    | error failure =>
        cases failure with
        | errors found => exact ⟨found, rfl⟩
        | _ => cases hat

end Graph

end SchemaGraph

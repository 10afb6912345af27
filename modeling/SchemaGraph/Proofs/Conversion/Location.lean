import SchemaGraph.Conversion.Converted
import SchemaGraph.Proofs.Conversion.Parallel

set_option autoImplicit false

/-! # Conversions at a location

Where no node follows references, a conversion at a location is the one at the root with its
errors moved to that location. It gives the same value, leaves its state alone, and a payload
that is there is never missing.
-/

namespace SchemaGraph

/-! ## Moving errors -/

/-- A location seen from another one. -/
def Path.under (place path : Path) : Path := ⟨place.base, place.parts ++ path.parts⟩

@[simp] theorem Path.under_root (place : Path) : place.under .root = place := by
  unfold under
  rw [show Path.root.parts = [] from rfl, List.append_nil]

theorem Path.under_child (place path : Path) (part : String) :
    (place.under path).child part = place.under (path.child part) := by
  show (⟨place.base, place.parts ++ path.parts ++ [part]⟩ : Path) = _
  rw [List.append_assoc]
  rfl

theorem Path.under_item (place path : Path) (index : Nat) :
    (place.under path).item index = place.under (path.item index) :=
  Path.under_child place path (toString index)

def LocatedError.moved (place : Path) (error : LocatedError) : LocatedError :=
  { error with path := place.under error.path }

def SchemaErrors.moved (place : Path) (errors : SchemaErrors) : SchemaErrors :=
  ⟨errors.first.moved place, errors.rest.map (LocatedError.moved place)⟩

def Failure.moved (place : Path) : Failure → Failure
  | .errors found => .errors (found.moved place)
  | failure => failure

/-- A node that follows references. -/
def Node.refers {ι : Type} : Node ι → Bool
  | .reference .. => true
  | _ => false

/-- A question asked elsewhere is asked below that place. -/
theorem Slot.location_under (place path : Path) (slot : Slot) :
    slot.location (place.under path) = place.under (slot.location path) := by
  cases slot with
  | item index => exact Path.under_item place path index
  | property _ key => exact Path.under_child place path key
  | subtype index => exact Path.under_item place path index
  | whole => rfl

namespace Conversion

variable {ι : Type} {place : Path}

/-! ## Runs -/

/-- Wherever the second starts, it does what the first does, elsewhere: it gives the same value, or
its errors are moved, and its state stays. -/
def Follows (place : Path) (m m' : Conversion Value) : Prop :=
  ∀ s s', m' s' = ((m s).1.mapError (Failure.moved place), s')

/-- However a node converts, it converts elsewhere, and never lacks a payload that is there. -/
structure MovesNodes (place : Path) (convert : Converting ι) : Prop where
  follows : ∀ node input path,
    Follows place (convert node input path) (convert node input (place.under path))
  there : ∀ node payload path s, (convert node (some payload) path s).1 ≠ .error .undefined

/-- A conversion and the same one elsewhere, which stays in one state. -/
def elsewhere (place : Path) (state : ConversionState) : Comparison where
  states _ s' := s' = state
  errors found found' := found' = found.map (LocatedError.moved place)
  lost _ := False
  circles := True
  errors_empty := List.map_nil.symm
  errors_append hfound hmore := by rw [hfound, hmore, List.map_append]
  errors_nil h := by rw [h, List.map_eq_nil_iff]
  lost_cases := Comparison.lost_none

theorem elsewhere_carries (place path : Path) (state : ConversionState) :
    Carries (elsewhere place state).errors path (place.under path) where
  nil := rfl
  own _ := rfl
  append := (elsewhere place state).errors_append
  nil_iff := (elsewhere place state).errors_nil

theorem elsewhere_fails_iff {state : ConversionState} {failure failure' : Failure} :
    (elsewhere place state).Fails failure failure' ↔ failure' = failure.moved place := by
  constructor
  · intro h
    cases h with
    | @errors found found' h =>
        obtain ⟨first, rest⟩ := found'
        cases h
        rfl
    | _ => rfl
  · rintro rfl
    cases failure with
    | errors found => exact .errors rfl
    | undefined => exact .undefined
    | recursive => exact .recursive trivial
    | outOfFuel => exact .outOfFuel
    | noNode => exact .noNode

/-- To do the same elsewhere is to run in parallel, from every state that is kept. -/
theorem follows_iff {m m' : Conversion Value} :
    Follows place m m' ↔ ∀ state, (elsewhere place state).Parallel Eq m m' := by
  constructor
  · rintro h _ s s' rfl
    rw [h s s']
    rcases m s with ⟨failure | value, t⟩
    · exact .fails (elsewhere_fails_iff.2 rfl) rfl
    · exact .value rfl rfl
  · intro h s s'
    have hrun := h s' s s' rfl
    generalize m s = run at hrun ⊢
    generalize m' s' = run' at hrun ⊢
    cases hrun with
    | lost h => exact h.elim
    | fails h hstates =>
        rw [elsewhere_fails_iff.1 h, hstates]
        rfl
    | value h hstates =>
        rw [← h, hstates]
        rfl

/-! ## Nodes -/

variable {convert : Converting ι}

/-- A node that follows no references converts elsewhere as its children do. -/
theorem step_moves (nodes : MovesNodes place convert) (mode : Mode) (self : ι) {node : Node ι}
    (hnode : node.refers = false) :
    MovesNodes place (fun _ : ι => step convert mode self node) := by
  cases node with
  | reference messages target => cases hnode
  | forward target =>
      exact ⟨fun _ input path => nodes.follows target input path,
        fun _ payload path => nodes.there target payload path⟩
  | typed common shape =>
      refine ⟨fun _ input path => follows_iff.2 fun state => ?_,
        fun _ payload path => typed_there rfl (fun _ => nodes.there _ _ _) self⟩
      have hplan :=
        shape.alike_refl.typedPlan (elsewhere_carries place path state) mode common input
      rw [step_typed, step_typed]
      generalize typedPlan mode common shape input path = x at hplan
      generalize typedPlan mode common shape input (place.under path) = y at hplan
      cases hplan with
      | none => exact .fails .undefined
      | some hplan =>
          -- what is asked here is asked there as well
          refine Comparison.plan_parallel (hplan.imp ?_)
          rintro ⟨slot, node, input⟩ ⟨_, _, _⟩ ⟨rfl, rfl, rfl⟩
          refine ⟨rfl, ?_⟩
          unfold Inquiry.part
          rw [Slot.location_under]
          exact follows_iff.1 (nodes.follows node input _) state

/-- A response has what it was given and nothing else. -/
theorem present?_response {mode : Mode} (hmode : mode.entity = .response) (common : Common)
    (input : Option Json) : present? mode common input = input := by
  cases input with
  | some payload => rfl
  | none =>
      unfold present?
      rw [hmode]
      rfl

/-- So has a node without a default. -/
theorem present?_of_lacks {common : Common} (h : common.default = none) (mode : Mode)
    (input : Option Json) : present? mode common input = input := by
  cases input with
  | some payload => rfl
  | none =>
      unfold present?
      rw [h]
      exact ite_self none

end Conversion

/-! ## Graphs -/

namespace Graph

/-- No node follows references. -/
def IsDirect (graph : Graph) : Prop :=
  ∀ id node, graph.get? id = some node → node.refers = false

theorem convertWithin_moves {graph : Graph} (h : graph.IsDirect) (mode : Mode) (place : Path)
    (fuel : Nat) : Conversion.MovesNodes place (graph.convertWithin mode fuel) := by
  induction fuel with
  | zero => exact ⟨fun _ _ _ _ _ => rfl, fun _ _ _ _ h => by cases h⟩
  | succ fuel ih =>
      have hstep : ∀ id, Conversion.MovesNodes place
          (fun _ : NodeId => graph.convertWithin mode (fuel + 1) id) := by
        intro id
        unfold convertWithin
        cases hget : graph.get? id with
        | none => exact ⟨fun _ _ _ _ _ => rfl, fun _ _ _ _ h => by cases h⟩
        | some node => exact Conversion.step_moves ih mode id (h id node hget)
      exact ⟨fun id => (hstep id).follows id, fun id => (hstep id).there id⟩

end Graph

end SchemaGraph

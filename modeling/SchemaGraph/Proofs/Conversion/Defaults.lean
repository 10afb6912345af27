import SchemaGraph.Proofs.Conversion.Fuel
import SchemaGraph.Proofs.Conversion.Location

set_option autoImplicit false

/-! # Defaults and responses

The default of a node is looked at in one place, `present?`, and in a response not even there.
So a response converts through a node as it does through the node without its default
(`step_undefaulted`), and graphs that differ in their defaults alone cannot be told apart by
responses: not by what they give, and not by what they leave of a resolver.
-/

namespace SchemaGraph

variable {ι : Type}

/-! ## Nodes without their defaults -/

/-- All of it but the default. -/
def Common.undefaulted (common : Common) : Common := { common with default := none }

def Node.undefaulted : Node ι → Node ι
  | .forward target => .forward target
  | .reference messages target => .reference messages target
  | .typed common shape => .typed common.undefaulted shape

namespace Conversion

/-- Once it is clear what there is to convert, the default does not matter any more. -/
theorem typedPlan_undefaulted {mode : Mode} (hmode : mode.entity = .response) (common : Common)
    (shape : Shape ι) (input : Option Json) (path : Path) :
    typedPlan mode common.undefaulted shape input path =
      typedPlan mode common shape input path := by
  unfold typedPlan judgedPlan
  rw [present?_response hmode, present?_response hmode]
  rfl

/-- A response does not show whether a node has a default. -/
theorem step_undefaulted (convert : Converting ι) {mode : Mode} (hmode : mode.entity = .response)
    (self : ι) (node : Node ι) :
    step convert mode self node.undefaulted = step convert mode self node := by
  funext input path
  cases node with
  | forward target => rfl
  | reference messages target => rfl
  | typed common shape =>
      show step convert mode self (.typed common.undefaulted shape) input path = _
      rw [step_typed, step_typed, typedPlan_undefaulted hmode]

end Conversion

/-! ## Graphs that differ in defaults -/

namespace Graph

/-- The same nodes, except for what their defaults are and whether they have any. -/
def EqualUpToDefaults (graph other : Graph) : Prop :=
  graph.nodes.map Node.undefaulted = other.nodes.map Node.undefaulted

theorem EqualUpToDefaults.get? {graph other : Graph} (h : graph.EqualUpToDefaults other)
    (id : NodeId) :
    (graph.get? id).map Node.undefaulted = (other.get? id).map Node.undefaulted := by
  unfold Graph.get?
  rw [← List.getElem?_map, ← List.getElem?_map, h]

variable {graph other : Graph} {mode : Mode}

/-- References, lazy nodes and formats hand on what is missing, and combinations drop errors, but
none of them has more to go by than its children. -/
theorem EqualUpToDefaults.convertWithin (h : graph.EqualUpToDefaults other)
    (hmode : mode.entity = .response) (fuel : Nat) :
    graph.convertWithin mode fuel = other.convertWithin mode fuel := by
  induction fuel with
  | zero => rfl
  | succ fuel ih =>
      funext id
      have hnodes := h.get? id
      cases hnode : graph.get? id with
      | none =>
          -- then the other graph has no such node either
          rw [hnode, Option.map_none, eq_comm, Option.map_eq_none_iff] at hnodes
          unfold Graph.convertWithin
          rw [hnode, hnodes]
      | some node =>
          rw [hnode, Option.map_some, eq_comm, Option.map_eq_some_iff] at hnodes
          obtain ⟨node', hnode', hsame⟩ := hnodes
          calc graph.convertWithin mode (fuel + 1) id
              = Conversion.step (graph.convertWithin mode fuel) mode id node :=
                convertWithin_succ hnode mode fuel
            _ = Conversion.step (other.convertWithin mode fuel) mode id node.undefaulted := by
                rw [ih, Conversion.step_undefaulted _ hmode]
            _ = Conversion.step (other.convertWithin mode fuel) mode id node' := by
                rw [← hsame, Conversion.step_undefaulted _ hmode]
            _ = other.convertWithin mode (fuel + 1) id := (convertWithin_succ hnode' mode fuel).symm

/-- Nothing is ever defaulted into a response: through two graphs that differ in their defaults
alone it has the same outcome, with the same value and links, the same errors, or no value. -/
theorem response_of_equalUpToDefaults (h : graph.EqualUpToDefaults other) (strict : Bool)
    (fuel : Nat) (entry : NodeId) (input : Option Json) (path : Path)
    (resolver : Option Resolver) :
    graph.convertAt fuel entry input path ⟨.response, strict⟩ resolver =
      other.convertAt fuel entry input path ⟨.response, strict⟩ resolver := by
  unfold convertAt
  rw [h.convertWithin rfl fuel]

/-- An object with one property, a text that may have a default, behind a lazy node. -/
def pet (default : Option Json) : Graph where
  nodes := [
    .typed (.plain .builtIn)
      (.object ⟨[("name", 1)], [], [], .allow, [], [], .free⟩),
    .forward 2,
    .typed { Common.plain .builtIn with default } (.string .free)]
  closed := by
    simp [Node.children, Shape.children, Additional.children]

/-- Requests do tell such graphs apart. -/
theorem response_of_pets : (pet (some (.str "cat"))).EqualUpToDefaults (pet none) ∧
    (pet (some (.str "cat"))).convertAt 4 0 (some (.obj [])) .root ⟨.response, true⟩ none =
      (pet none).convertAt 4 0 (some (.obj [])) .root ⟨.response, true⟩ none ∧
    ((pet (some (.str "cat"))).convertAt 4 2 none .root ⟨.request, true⟩ none).1.isConverted =
      true ∧
    ((pet none).convertAt 4 2 none .root ⟨.request, true⟩ none).1.isConverted = false :=
  ⟨rfl, response_of_equalUpToDefaults rfl true 4 0 (some (.obj [])) .root none, rfl, rfl⟩

end Graph

end SchemaGraph

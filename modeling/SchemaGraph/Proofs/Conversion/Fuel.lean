import SchemaGraph.Proofs.Conversion.Parallel

set_option autoImplicit false

/-! # Fuel, and what names the children of a node

One conversion approximates another if it does exactly the same unless it runs out of fuel:
the same value or errors, and the same change of state. Run side by side from the same state, the
two share everything (`fueled`); so alike nodes convert the same as soon as their children do, and
with more fuel a conversion never ends differently.
-/

namespace SchemaGraph

namespace Conversion

variable {α ι κ : Type}

/-- The second does the same as the first, unless the first runs out of fuel. -/
def Approximates (m m' : Conversion α) : Prop :=
  ∀ s, (m s).1 = .error .outOfFuel ∨ m s = m' s

/-- Conversions that are the same until the first runs out of fuel. -/
def fueled : Comparison := .sharing Eq (· = .outOfFuel) fun _ => .inl

theorem fueled_parallel_iff {m m' : Conversion α} :
    fueled.Parallel Eq m m' ↔ Approximates m m' := by
  constructor
  · intro h s
    have hrun := h s s rfl
    generalize m s = run at hrun ⊢
    generalize m' s = run' at hrun ⊢
    cases hrun with
    | lost h => exact .inl (congrArg Except.error h)
    | fails h hstates =>
        cases hstates
        rw [h.eq id]
        exact .inr rfl
    | value h hstates =>
        cases h
        cases hstates
        exact .inr rfl
  · rintro h s _ rfl
    rcases h s with hfuel | heq
    · obtain ⟨t, hrun⟩ := exists_of_fst hfuel
      rw [hrun]
      exact .lost rfl t _
    · rw [← heq]
      rcases m s with ⟨failure | a, t⟩
      · exact .fails (.refl Eq.refl trivial failure) rfl
      · exact .value rfl rfl

theorem fueled_shares : fueled.Shares Eq where
  states {s s'} := by
    constructor
    · rintro rfl
      exact ⟨rfl, rfl, rfl⟩
    · obtain ⟨registry, visited, resolver⟩ := s
      rintro ⟨rfl, rfl, rfl⟩
      rfl
  errors := Eq.refl
  circles := trivial
  resolve _ := fueled_parallel_iff.2 fun _ => .inr rfl
  pushScope h _ := by rw [h]
  leaveScope h := by rw [h]

namespace Approximates

theorem refl (m : Conversion α) : Approximates m m := fun _ => .inr rfl

/-- No fuel approximates everything. -/
theorem outOfFuel (m : Conversion α) : Approximates (fail .outOfFuel) m := fun _ => .inl rfl

end Approximates

/-- Related nodes convert the same, as far as the fuel of the first reaches. -/
def ApproximatesNodes (R : ι → κ → Prop) (convert : Converting ι)
    (convert' : Converting κ) : Prop :=
  ∀ i k, R i k → ∀ input path, Approximates (convert i input path) (convert' k input path)

/-- Alike nodes convert the same if what they refer to does. -/
theorem step_approximates {R : ι → κ → Prop} {convert : Converting ι} {convert' : Converting κ}
    (hnodes : ApproximatesNodes R convert convert') (mode : Mode) {self : ι}
    {self' : κ} (hself : R self self') {a : Node ι} {b : Node κ} (h : Node.Alike R a b)
    (input : Option Json) (path : Path) : Approximates (step convert mode self a input path)
      (step convert' mode self' b input path) := by
  refine fueled_parallel_iff.1 (fueled_shares.step ?_ mode hself h input path)
  exact fun i k hik input path => fueled_parallel_iff.2 (hnodes i k hik input path)

end Conversion

namespace Graph

variable {graph : Graph} {id : NodeId} {node : Node}

theorem known_children (hnode : graph.get? id = some node) :
    ∀ child ∈ node.children, child < graph.length :=
  graph.closed node (List.mem_of_getElem? hnode)

/-- What holds of all nodes of a graph holds of each that is found. -/
theorem holds_of_nodes {holds : Node → Prop} (h : ∀ node ∈ graph.nodes, holds node) :
    ∀ id node, graph.get? id = some node → holds node :=
  fun _ node hnode => h node (List.mem_of_getElem? hnode)

theorem get?_of_known (hid : id < graph.length) : ∃ node, graph.get? id = some node :=
  ⟨_, List.getElem?_eq_getElem hid⟩

/-- With one more fuel a node converts as its kind does. -/
theorem convertWithin_succ (hnode : graph.get? id = some node) (mode : Mode) (fuel : Nat) :
    graph.convertWithin mode (fuel + 1) id =
      Conversion.step (graph.convertWithin mode fuel) mode id node := by
  funext input path
  rw [Graph.convertWithin]
  dsimp only
  rw [hnode]

end Graph

/-- A conversion that ends with some fuel ends in the same way with more. -/
theorem Graph.convertWithin_approximates (graph : Graph) (mode : Mode) {fuel more : Nat}
    (h : fuel ≤ more) :
    Conversion.ApproximatesNodes Eq (graph.convertWithin mode fuel)
      (graph.convertWithin mode more) := by
  induction fuel generalizing more with
  | zero => intro i k _ input path; exact .outOfFuel _
  | succ fuel ih =>
      rintro id _ rfl input path
      cases more with
      | zero => exact absurd h (Nat.not_succ_le_zero fuel)
      | succ more =>
          unfold Graph.convertWithin
          cases graph.get? id with
          | none => exact .refl _
          | some node =>
              exact Conversion.step_approximates (ih (Nat.le_of_succ_le_succ h)) mode rfl
                (Node.alike_refl node) input path

end SchemaGraph

import SchemaGraph.Proofs.Conversion.Fuel
import SchemaGraph.Proofs.Json
import SchemaGraph.Proofs.Resolver.Runs

set_option autoImplicit false

/-! # References converted anew

A conversion that remembers nothing of locations converts what a reference leads to anew each time
(`Graph.convertAnew`). It knows no registry: a reference node converts as its target converts the
value that the reference leads to, and a conversion that refers back to itself never ends.

A directory goes along with such a conversion and lets it go on only while each location is
converted by one node, from one input, and in scopes that make no difference. What becomes of a
location is then a matter of the location (`alone_unique`).
-/

namespace SchemaGraph

/-! ## Directories -/

/-- Two scopes in which references lead to the same, and from there into the same scope. -/
def Uri.Akin (refers : List String) (scope scope' : String) : Prop :=
  ∀ text ∈ refers, join scope text = join scope' text ∧
    join scope (join scope text) = join scope' (join scope' text)

namespace Uri.Akin

variable {refers : List String} {first second third : String}

instance (refers : List String) (scope scope' : String) : Decidable (Akin refers scope scope') :=
  inferInstanceAs (Decidable (∀ text ∈ refers, _))

theorem refl (refers : List String) (scope : String) : Akin refers scope scope :=
  fun _ _ => ⟨rfl, rfl⟩

theorem symm (h : Akin refers first second) : Akin refers second first :=
  fun text htext => ⟨(h text htext).1.symm, (h text htext).2.symm⟩

theorem trans (h : Akin refers first second) (h' : Akin refers second third) :
    Akin refers first third :=
  fun text htext => ⟨(h text htext).1.trans (h' text htext).1,
    (h text htext).2.trans (h' text htext).2⟩

end Uri.Akin

/-- The conversion of a location: by which node, from which input and in which scope. -/
structure Visit where
  node : NodeId
  input : Option Json
  scope : String

/-- A node follows the references that the conversion of a location meets, if there is one. -/
def Visit.IsThrough (home : Visit) (graph : Graph) (self : NodeId) : Prop :=
  home.input.bind Conversion.referenceOf? = none ∨
    ∃ messages, graph.get? self = some (.reference messages home.node)

/-- A directory tells which references are followed, and how each location is converted. -/
structure Directory where
  refers : List String
  homes : List (Path × Visit)

namespace Directory

/-- How a location is converted. -/
def home (directory : Directory) (location : Path) : Option Visit :=
  directory.homes.lookup location

/-- Inputs that are found to be equal. -/
def isSameInput : Option Json → Option Json → Bool
  | none, none => true
  | some value, some value' => value.isSame value'
  | _, _ => false

/-- A location may be converted by its own node, from its own input, and in a scope that makes no
difference. -/
def admits (directory : Directory) (location : Path) (visit : Visit) : Bool :=
  match directory.home location with
  | none => false
  | some home => visit.node == home.node && isSameInput visit.input home.input &&
      decide (Uri.Akin directory.refers visit.scope home.scope)

theorem eq_of_isSameInput : ∀ {input input' : Option Json}, isSameInput input input' = true →
    input = input'
  | none, none, _ => rfl
  | some _, some _, h => congrArg some (Json.eq_of_isSame h)

theorem home_of_admits {directory : Directory} {location : Path} {visit : Visit}
    (h : directory.admits location visit = true) :
    ∃ scope, directory.home location = some { visit with scope } ∧
      Uri.Akin directory.refers visit.scope scope := by
  unfold admits at h
  split at h
  · cases h
  · rename_i home hhome
    obtain ⟨h, hakin⟩ := Bool.and_eq_true_iff.1 h
    obtain ⟨hnode, hinput⟩ := Bool.and_eq_true_iff.1 h
    rw [eq_of_beq hnode, eq_of_isSameInput hinput]
    exact ⟨home.scope, hhome, of_decide_eq_true hakin⟩

end Directory

/-- The scope that a conversion stands in. -/
def ConversionState.scope (s : ConversionState) : String :=
  (s.resolver.map Resolver.scope).getD ""

/-- The start of a conversion in a scope. -/
def Resolver.standing (origin : Resolver) (scope : String) : ConversionState :=
  .start (some { origin with base := scope, entered := [] })

/-! ## Conversions without memory -/

namespace Conversion

/-- Convert what stands at a location: by the node that follows references, if it is a reference
again. -/
def landed (convert : Converting) (self target : NodeId) (input : Option Json) (location : Path) :
    Conversion Value :=
  match input.bind referenceOf? with
  | some _ => convert self input location
  | none => convert target input location

/-- What becomes of a location on its own. -/
def alone (origin : Resolver) (convert : Converting) (self : NodeId) (location : Path)
    (home : Visit) : Except Failure Value :=
  (landed convert self home.node home.input location (origin.standing home.scope)).1

/-- What a visit of a location gives, if the directory admits it. -/
def visit (directory : Directory) (origin : Resolver) (convert : Converting) (self : NodeId)
    (location : Path) (visit : Visit) : Except Failure Value :=
  match directory.admits location visit, directory.home location with
  | true, some home => alone origin convert self location home
  | _, _ => .error .noNode

/-- What a node that follows references gives in a scope. -/
def referenceAnew (directory : Directory) (origin : Resolver) (convert : Converting)
    (self : NodeId) (messages : Messages) (target : NodeId) (input : Option Json) (path : Path)
    (scope : String) : Except Failure Value :=
  let unresolvable := .error (.errors (.single
    (LocatedError.ofKey messages path .unresolvableReference [])))
  match input.bind referenceOf? with
  | none => visit directory origin convert self path ⟨target, input, scope⟩
  | some (.str text) =>
    if text ∈ directory.refers then
      match origin.valueAt (Uri.join scope text) with
      | .error _ => unresolvable
      | .ok value =>
        visit directory origin convert self (Path.ofUri (Uri.join scope text))
          ⟨target, some value, Uri.join scope (Uri.join scope text)⟩
    else .error .noNode
  | some _ => unresolvable

end Conversion

/-- Convert by a node, with nodes nested at most `fuel` deep, and what references lead to anew. -/
def Graph.convertAnew (graph : Graph) (mode : Mode) (directory : Directory) (origin : Resolver)
    (fuel : Nat) : Converting :=
  match fuel with
  | 0 => fun _ _ _ => Conversion.fail .outOfFuel
  | fuel + 1 => fun id input path =>
    match graph.get? id with
    | none => Conversion.fail .noNode
    | some (.reference messages target) => fun s =>
      (Conversion.referenceAnew directory origin (graph.convertAnew mode directory origin fuel) id
        messages target input path s.scope, s)
    | some node =>
      Conversion.step (graph.convertAnew mode directory origin fuel) mode id node input path

namespace Conversion

variable {graph : Graph} {mode : Mode} {directory : Directory} {origin : Resolver}
  {convert convert' : Converting} {self self' target : NodeId} {input : Option Json}
  {location : Path} {scope : String} {home : Visit} {fuel more : Nat}

/-- A visit that is admitted gives what becomes of the location on its own. -/
theorem visit_cases (here : Visit) :
    visit directory origin convert self location here = .error .noNode ∨
      ∃ scope, directory.home location = some { here with scope } ∧
        Uri.Akin directory.refers here.scope scope ∧
        visit directory origin convert self location here =
          alone origin convert self location { here with scope } := by
  unfold visit
  cases hadmits : directory.admits location here with
  | false => exact .inl rfl
  | true =>
      obtain ⟨scope, hhome, hakin⟩ := Directory.home_of_admits hadmits
      rw [hhome]
      exact .inr ⟨scope, rfl, hakin, rfl⟩

theorem convertAnew_reference {messages : Messages}
    (hself : graph.get? self = some (.reference messages target)) (input : Option Json)
    (path : Path) (s : ConversionState) :
    graph.convertAnew mode directory origin (fuel + 1) self input path s =
      (referenceAnew directory origin (graph.convertAnew mode directory origin fuel) self messages
        target input path s.scope, s) := by
  conv_lhs => unfold Graph.convertAnew
  rw [hself]

/-! ## More fuel -/

theorem landed_approximates (h : ApproximatesNodes Eq convert convert') :
    Approximates (landed convert self target input location)
      (landed convert' self target input location) := by
  unfold landed
  split
  · exact h _ _ rfl _ _
  · exact h _ _ rfl _ _

theorem alone_approximates (h : ApproximatesNodes Eq convert convert') :
    alone origin convert self location home = .error .outOfFuel ∨
      alone origin convert self location home = alone origin convert' self location home :=
  (landed_approximates h _).imp_right (congrArg Prod.fst)

theorem visit_approximates (h : ApproximatesNodes Eq convert convert') (here : Visit) :
    visit directory origin convert self location here = .error .outOfFuel ∨
      visit directory origin convert self location here =
        visit directory origin convert' self location here := by
  unfold visit
  split
  · exact alone_approximates h
  · exact .inr rfl

theorem referenceAnew_approximates (h : ApproximatesNodes Eq convert convert')
    (messages : Messages) (path : Path) :
    referenceAnew directory origin convert self messages target input path scope =
        .error .outOfFuel ∨
      referenceAnew directory origin convert self messages target input path scope =
        referenceAnew directory origin convert' self messages target input path scope := by
  unfold referenceAnew
  split
  · exact visit_approximates h _
  · split
    · split
      · exact .inr rfl
      · exact visit_approximates h _
    · exact .inr rfl
  · exact .inr rfl

/-- A conversion that ends with some fuel ends in the same way with more. -/
theorem convertAnew_approximates (h : fuel ≤ more) :
    ApproximatesNodes Eq (graph.convertAnew mode directory origin fuel)
      (graph.convertAnew mode directory origin more) := by
  induction fuel generalizing more with
  | zero => intro i k _ input path; exact .outOfFuel _
  | succ fuel ih =>
      rintro id _ rfl input path
      cases more with
      | zero => exact absurd h (Nat.not_succ_le_zero fuel)
      | succ more =>
          have hnodes := ih (Nat.le_of_succ_le_succ h)
          unfold Graph.convertAnew
          split
          · exact .refl _
          · intro s
            exact (referenceAnew_approximates hnodes _ path).imp_right fun hsame =>
              congrArg (·, s) hsame
          · exact step_approximates hnodes mode rfl (Node.alike_refl _) input path

/-! ## What a location becomes -/

/-- What a result tells of a payload: its value, or why it has none, whatever the errors are. -/
def verdict (result : Except Failure Value) : Except (Option Failure) Value :=
  result.mapError fun failure =>
    match failure with
    | .errors _ => none
    | failure => some failure

theorem verdict_eq_outOfFuel {result : Except Failure Value} :
    verdict result = .error (some .outOfFuel) ↔ result = .error .outOfFuel := by
  rcases result with (_ | _ | _ | _ | _) | _ <;> simp [verdict, Except.mapError]

theorem verdict_eq_ok {result : Except Failure Value} {value : Value} :
    verdict result = .ok value ↔ result = .ok value := by
  rcases result with (_ | _ | _ | _ | _) | _ <;> simp [verdict, Except.mapError]

theorem exists_of_verdict {result : Except Failure Value} (h : verdict result = .error none) :
    ∃ errors, result = .error (.errors errors) := by
  rcases result with (errors | _ | _ | _ | _) | _
  · exact ⟨errors, rfl⟩
  all_goals cases h

/-- Whichever of the nodes that follow references to a target follows it, the verdict is the
same. -/
theorem convertAnew_self {messages messages' : Messages}
    (hself : graph.get? self = some (.reference messages target))
    (hself' : graph.get? self' = some (.reference messages' target)) (fuel : Nat) :
    ∀ input path s,
      verdict (graph.convertAnew mode directory origin fuel self input path s).1 =
        verdict (graph.convertAnew mode directory origin fuel self' input path s).1 := by
  induction fuel with
  | zero => exact fun _ _ _ => rfl
  | succ fuel ih =>
      intro input path s
      have hvisit : ∀ location here,
          verdict (visit directory origin (graph.convertAnew mode directory origin fuel) self
            location here) =
          verdict (visit directory origin (graph.convertAnew mode directory origin fuel) self'
            location here) := by
        intro location here
        unfold visit
        split
        · rename_i home _ _
          unfold alone landed
          cases home.input.bind referenceOf? with
          | none => rfl
          | some _ => exact ih _ _ _
        · rfl
      rw [convertAnew_reference hself, convertAnew_reference hself']
      unfold referenceAnew
      split
      · exact hvisit _ _
      · split
        · split
          · rfl
          · exact hvisit _ _
        · rfl
      · rfl

theorem alone_self (h : home.IsThrough graph self) (h' : home.IsThrough graph self') :
    verdict (alone origin (graph.convertAnew mode directory origin fuel) self location home) =
      verdict (alone origin (graph.convertAnew mode directory origin fuel) self' location
        home) := by
  unfold alone landed
  cases hreference : home.input.bind referenceOf? with
  | none => rfl
  | some found =>
      rcases h with hnone | ⟨messages, hself⟩
      · rw [hnone] at hreference
        cases hreference
      · rcases h' with hnone | ⟨messages', hself'⟩
        · rw [hnone] at hreference
          cases hreference
        · exact convertAnew_self hself hself' fuel _ _ _

/-- What becomes of a location does not depend on the node that follows references there, nor on
the fuel, as long as it does not run out. -/
theorem alone_unique (h : home.IsThrough graph self) (h' : home.IsThrough graph self')
    (hfuel : alone origin (graph.convertAnew mode directory origin fuel) self location home ≠
      .error .outOfFuel)
    (hmore : alone origin (graph.convertAnew mode directory origin more) self' location home ≠
      .error .outOfFuel) :
    verdict (alone origin (graph.convertAnew mode directory origin fuel) self location home) =
      verdict (alone origin (graph.convertAnew mode directory origin more) self' location
        home) := by
  have hleft : _ ∨ _ = alone origin
      (graph.convertAnew mode directory origin (max fuel more)) self location home :=
    alone_approximates (convertAnew_approximates (Nat.le_max_left fuel more))
  have hright : _ ∨ _ = alone origin
      (graph.convertAnew mode directory origin (max fuel more)) self' location home :=
    alone_approximates (convertAnew_approximates (Nat.le_max_right fuel more))
  rw [hleft.resolve_left hfuel, hright.resolve_left hmore]
  exact alone_self h h'

end Conversion

end SchemaGraph

import SchemaGraph.Proofs.Compiler.Combinators
import SchemaGraph.Proofs.Conversion.Guarded

set_option autoImplicit false

/-! # When compiled schemas convert

A compiled graph follows no references, so what is known of such graphs says when a conversion
through it ends. A compiler looks for circles among references only: a schema that hands its value
on to itself compiles like any other, and a conversion that reaches it never ends.
-/

namespace SchemaGraph

namespace Compiler

/-- A pointer that compiles gives a graph. A conversion through it ends exactly if no chain of
parts goes on for ever, and otherwise runs out of any fuel. It always ends if handing a value on
comes down a rank and the defaults convert, with a depth bounded by the nesting of the payload and
the ranks, and never if it reaches schemas each of which insists on another one. -/
theorem conversion_halts_iff (resolver : Resolver) (config : Config) (earlier : List Call)
    {fuel : Nat} {pointer : String} {id : NodeId} {d : Compiler}
    (hcompile : ((withResolver resolver config).calls earlier).1.compile fuel pointer =
      (.ok id, d)) :
    ∃ graph, d.graph id = .ok graph ∧ ∀ mode,
      (∀ part, (graph.Halts mode part ↔ Acc (fun part whole => graph.Runs mode whole part) part) ∧
        (graph.Diverges mode part ↔ ¬graph.Halts mode part)) ∧
      (∀ (guard : graph.Guard) (depth : Nat), graph.DefaultsEnd mode depth → ∀ part path at?,
        (graph.convertAt (depth + guard.reach part + 1) part.1 part.2 path mode at?).1 ≠
          .outOfFuel) ∧
      ∀ circle : NodeId → Prop, (∀ id, circle id → ∃ node child,
          graph.get? id = some node ∧ node.Insists child ∧ circle child) →
        ∀ id, circle id → ∀ payload, payload ≠ .null → graph.Diverges mode (id, some payload) := by
  have hstays : StaysMade (withResolver resolver config)
    ((withResolver resolver config).calls earlier).1 := calls_made earlier
  have hsettled := (calls_settled earlier (settled_withResolver resolver config)).1
  have hcompiles := compile_settled hsettled fuel pointer
  have hmade := compile_made ((withResolver resolver config).calls earlier).1 fuel pointer
  rw [show Compiler.compile _ fuel pointer = _ from hcompile] at hcompiles hmade
  obtain ⟨graph, hgraph, -⟩ := graph_of_settled hcompiles.settled (hcompiles.node rfl)
  have hdirect : graph.IsDirect :=
    direct_of_graph (hmade.made (hstays.made (allMade_withResolver resolver config)))
      hcompiles.settled hgraph
  refine ⟨graph, hgraph, fun mode => ⟨fun part => ?_, fun guard depth hdefaults => ?_, ?_⟩⟩
  · exact ⟨Graph.halts_iff_acc hdirect part, Graph.diverges_iff hdirect⟩
  · exact guard.ends hdirect hdefaults
  · exact fun circle hcircle id hid payload hnull =>
      Graph.diverges_of_insists hdirect hcircle hid hnull

/-- Texts, and lists of what the schema itself accepts. -/
def nestingDocument : Json :=
  .obj [("Tree", .obj [("anyOf", .arr [.obj [("type", .str "string")],
    .obj [("items", .obj [("$ref", .str "#/Tree")]), ("type", .str "array")]])])]

/-- Only the union hands its value on, and none of its alternatives does. -/
def nestingGuard {graph : Graph} {a b c : Common} {bounds : TextBounds} {size : CountBounds}
    {unique : Bool} {distinctBy : Option (List String)}
    (h : graph.nodes = [.typed a (.anyOf [1, 2]), .typed b (.string bounds),
      .typed c (.array 0 size unique distinctBy)]) : graph.Guard where
  rank id := if id = 0 then 1 else 0
  height := 2
  bounded id := by split <;> decide
  falls := by
    intro id node hnode child hchild
    unfold Graph.get? at hnode
    rw [h] at hnode
    match id with
    | 0 =>
        cases hnode
        rcases List.mem_cons.1 hchild with rfl | hchild
        · decide
        · obtain rfl := List.mem_singleton.1 hchild
          decide
    | 1 => cases hnode; cases hchild
    | 2 => cases hnode; cases hchild
    | _ + 3 => cases hnode

/-- The nodes are a choice between a text and a list of such choices, and have no defaults. -/
def isNesting (graph : Graph) : Bool :=
  match graph.nodes with
  | [.typed a (.anyOf parts), .typed b (.string _), .typed c (.array items _ _ _)] =>
    parts == [1, 2] && items == 0 && [a, b, c].all fun common => common.default.isNone
  | _ => false

/-- Every list of lists of texts is converted, with a depth of twice its nesting. -/
theorem conversion_halts_nesting :
    let c := withResolver (.ofConfig [] nestingDocument .default) .default
    ∃ d graph, c.compile 40 "#/Tree" = (.ok 0, d) ∧ d.graph 0 = .ok graph ∧
      ∀ (payload : Json) mode path at?,
        (graph.convertAt (payload.depth * 2 + 2) 0 (some payload) path mode at?).1 ≠
          .outOfFuel := by
  intro c
  have hid : (c.compile 40 "#/Tree").1 = .ok 0 := by decide +kernel
  have hnodes : ((c.compile 40 "#/Tree").2.graph 0).toOption.any isNesting = true := by
    decide +kernel
  obtain ⟨d, hcompile⟩ := exists_of_fst hid
  rw [hcompile] at hnodes
  obtain ⟨graph, hgraph, hmodes⟩ :=
    conversion_halts_iff (.ofConfig [] nestingDocument .default) .default [] hcompile
  refine ⟨d, graph, hcompile, hgraph, fun payload mode path at? => ?_⟩
  obtain ⟨_, hsame, hnodes⟩ := exists_of_any hnodes
  cases hsame.symm.trans hgraph
  unfold isNesting at hnodes
  split at hnodes
  · rename_i a parts b bounds c items size unique distinctBy hlist
    obtain ⟨hleft, hdefaults⟩ := Bool.and_eq_true_iff.1 hnodes
    obtain ⟨hparts, hitems⟩ := Bool.and_eq_true_iff.1 hleft
    obtain rfl : parts = [1, 2] := eq_of_beq hparts
    obtain rfl : items = 0 := eq_of_beq hitems
    have hnone : graph.DefaultsEnd mode 0 := by
      refine .inr fun id common shape default hnode hdefault => ?_
      have hcommon : common ∈ [a, b, c] := by
        have hmem := List.mem_of_getElem? hnode
        rw [hlist] at hmem
        simp only [List.mem_cons, List.not_mem_nil, or_false, Node.typed.injEq] at hmem ⊢
        rcases hmem with ⟨h, -⟩ | ⟨h, -⟩ | ⟨h, -⟩ <;> simp [h]
      have habsent := List.all_eq_true.1 hdefaults common hcommon
      rw [hdefault] at habsent
      cases habsent
    have hends := (hmodes mode).2.1 (nestingGuard hlist) 0 hnone (0, some payload) path at?
    rw [Nat.zero_add] at hends
    exact hends
  · cases hnodes

/-- A schema with itself as the only alternative. -/
def circularDocument : Json :=
  .obj [("S", .obj [("anyOf", .arr [.obj [("$ref", .str "#/S")]])])]

/-- The first node is a choice of itself. -/
def choosesItself (graph : Graph) : Bool :=
  match graph.get? 0 with
  | some (.typed _ (.anyOf parts)) => parts == [0]
  | _ => false

/-- It passes all checks and compiles, and no conversion of anything by it ends. -/
theorem circular_compiles_and_diverges :
    let c := withResolver (.ofConfig [] circularDocument .default) .default
    ∃ d graph, (c.check 40 "#/S").1 = .ok () ∧ c.compile 40 "#/S" = (.ok 0, d) ∧
      d.graph 0 = .ok graph ∧ ∀ (payload : Json) mode, payload ≠ .null →
        graph.Diverges mode (0, some payload) ∧
          ∀ fuel, graph.convert fuel 0 payload mode = .outOfFuel := by
  intro c
  have hid : (c.compile 40 "#/S").1 = .ok 0 := by decide +kernel
  have hnode : ((c.compile 40 "#/S").2.graph 0).toOption.any choosesItself = true := by
    decide +kernel
  have hcheck : (c.check 40 "#/S").1 = .ok () := by decide +kernel
  obtain ⟨d, hcompile⟩ := exists_of_fst hid
  rw [hcompile] at hnode
  obtain ⟨graph, hgraph, hmodes⟩ :=
    conversion_halts_iff (.ofConfig [] circularDocument .default) .default [] hcompile
  refine ⟨d, graph, hcheck, hcompile, hgraph, fun payload mode hnull => ?_⟩
  obtain ⟨_, hsame, hnode⟩ := exists_of_any hnode
  cases hsame.symm.trans hgraph
  unfold choosesItself at hnode
  split at hnode
  · rename_i common parts hentry
    obtain rfl : parts = [0] := eq_of_beq hnode
    have hdiverges : graph.Diverges mode (0, some payload) := by
      refine (hmodes mode).2.2 (· = 0) ?_ 0 rfl payload hnull
      rintro _ rfl
      exact ⟨_, 0, hentry, rfl, rfl⟩
    refine ⟨hdiverges, fun fuel => ?_⟩
    have hroot := hdiverges fuel .root none
    unfold Graph.convert
    rw [hroot]
  · cases hnode

/-- A schema whose default lacks a property that has this very default. -/
def growingDocument : Json :=
  .obj [("D", .obj [("default", .obj []),
    ("properties", .obj [("next", .obj [("$ref", .str "#/D")])])])]

/-- The first node is an object with itself as a property, which its default lacks. -/
def growsItself (graph : Graph) : Bool :=
  match graph.get? 0 with
  | some (.typed ⟨_, some (.obj []), _, _, _⟩ (.object shape)) =>
    shape.properties == [("next", 0)] &&
      !Conversion.skips shape (Options.ofEntity .request).mode [] "next"
  | _ => false

/-- Defaults close circles too: a request is completed without end. -/
theorem growing_compiles_and_diverges :
    let c := withResolver (.ofConfig [] growingDocument .default) .default
    ∃ d graph, c.compile 40 "#/D" = (.ok 0, d) ∧ d.graph 0 = .ok graph ∧
      graph.Diverges (Options.ofEntity .request).mode (0, some (.obj [])) := by
  intro c
  have hid : (c.compile 40 "#/D").1 = .ok 0 := by decide +kernel
  have hnode : ((c.compile 40 "#/D").2.graph 0).toOption.any growsItself = true := by
    decide +kernel
  obtain ⟨d, hcompile⟩ := exists_of_fst hid
  rw [hcompile] at hnode
  obtain ⟨graph, hgraph, hmodes⟩ :=
    conversion_halts_iff (.ofConfig [] growingDocument .default) .default [] hcompile
  refine ⟨d, graph, hcompile, hgraph, ?_⟩
  obtain ⟨_, hsame, hnode⟩ := exists_of_any hnode
  cases hsame.symm.trans hgraph
  unfold growsItself at hnode
  split at hnode
  · rename_i messages nullable allowed checks shape hentry
    obtain ⟨hproperties, hskips⟩ := Bool.and_eq_true_iff.1 hnode
    have hproperties : shape.properties = [("next", 0)] := eq_of_beq hproperties
    have hmissing : (0, none) ∈ (Shape.object shape).parts (Options.ofEntity .request).mode
        (.obj []) := by
      refine List.mem_append_right _ ?_
      rw [hproperties]
      show (0, none) ∈ if Conversion.skips shape _ [] "next" then _ else [(0, none)]
      rw [if_neg (by simpa using hskips)]
      exact List.mem_cons_self
    -- the missing property is completed by the default, in which it is missing again
    have hcircle : ∀ whole : Part, (whole = (0, some (.obj [])) ∨ whole = (0, none)) →
        ∃ part, graph.Runs (Options.ofEntity .request).mode whole part ∧
          (part = (0, some (.obj [])) ∨ part = (0, none)) := by
      rintro whole (rfl | rfl)
      · exact ⟨(0, none), ⟨_, hentry, .typed rfl rfl rfl hmissing⟩, .inr rfl⟩
      · exact ⟨(0, none), ⟨_, hentry, .typed rfl rfl rfl hmissing⟩, .inr rfl⟩
    have hends := (hmodes (Options.ofEntity .request).mode).1 (0, some (.obj []))
    rw [hends.2, hends.1]
    exact Graph.not_acc_of_runs hcircle (.inl rfl)
  · cases hnode

end Compiler

end SchemaGraph

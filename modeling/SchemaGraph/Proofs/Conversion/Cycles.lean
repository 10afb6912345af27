import Mathlib.Data.List.Chain
import SchemaGraph.Proofs.Conversion.Bounded
import SchemaGraph.Proofs.Conversion.Lookups

set_option autoImplicit false

/-! # Cycles of a graph

A recursive schema is a graph with a cycle in it. Where every cycle of edges descends into the
payload somewhere (`Graph.IsGuarded`), the edges that hand a value on make no cycle, and the number
of nodes that they lead to is a rank that falls along them (`IsGuarded.exists_guard`). So without
defaults everything converts, with a depth that the nesting of the payload and the number of nodes
bound (`Graph.guarded_converts`).
-/

namespace SchemaGraph

/-! ## Relations without cycles -/

section Relations

open Relation

variable {α : Type} {R : α → α → Prop} {a b : α}

/-- A way from one to another passes through finitely many. -/
theorem exists_walk (h : TransGen R a b) : ∃ walk, List.IsChain R (a :: (walk ++ [b])) := by
  induction h using TransGen.head_induction_on with
  | single hab => exact ⟨[], .cons_cons hab (.singleton b)⟩
  | @head a c hac _ ih =>
      obtain ⟨walk, hwalk⟩ := ih
      exact ⟨c :: walk, .cons_cons hac hwalk⟩

open Classical in
/-- How many of some things can be reached. -/
noncomputable def reached (R : α → α → Prop) (things : List α) (a : α) : Nat :=
  things.countP fun x => decide (TransGen R a x)

variable {things : List α}

open Classical in
/-- A step that cannot be undone leaves less to be reached. -/
theorem reached_lt (hab : R a b) (hb : b ∈ things) (hcycle : ¬TransGen R b b) :
    reached R things b < reached R things a := by
  refine countP_lt (fun x _ hx => ?_) hb (decide_eq_false hcycle) ?_
  · exact decide_eq_true (.head hab (of_decide_eq_true hx))
  · exact decide_eq_true (.single hab)

open Classical in
/-- Not everything can be reached where there is no cycle. -/
theorem reached_lt_length (hne : things ≠ []) (hcycle : ∀ x ∈ things, ¬TransGen R x x) (a : α)
    (ha : ∀ b, R a b → a ∈ things) : reached R things a < things.length := by
  have hall : things.countP (fun _ => true) = things.length :=
    List.countP_eq_length.2 fun _ _ => rfl
  have hmissed : ∃ x ∈ things, ¬TransGen R a x := by
    by_cases hmem : a ∈ things
    · exact ⟨a, hmem, hcycle a hmem⟩
    · -- nothing at all can be reached from there
      obtain ⟨x, hx⟩ := List.exists_mem_of_ne_nil things hne
      refine ⟨x, hx, fun hway => ?_⟩
      obtain ⟨b, hab, -⟩ := TransGen.head'_iff.1 hway
      exact hmem (ha b hab)
  obtain ⟨x, hx, hmissed⟩ := hmissed
  rw [← hall]
  exact countP_lt (fun _ _ _ => rfl) hx (decide_eq_false hmissed) rfl

end Relations

/-! ## Edges -/

namespace Node

variable {ι : Type} {node : Node ι} {child : ι}

/-- The children convert items, values under keys or properties of the payload, not the payload
itself. -/
def descends : Node ι → Bool
  | .typed _ (.array ..) => true
  | .typed _ (.map ..) => true
  | .typed _ (.object _) => true
  | _ => false

/-- What a value is handed on to is a child, and no part of the value. -/
theorem child_of_handed (h : child ∈ node.handed) :
    child ∈ node.children ∧ node.descends = false := by
  cases node with
  | forward target => exact ⟨h, rfl⟩
  | reference messages target => cases h
  | typed common shape =>
      cases shape with
      | discriminated property mapping => exact ⟨h, rfl⟩
      | allOf subtypes => exact ⟨h, rfl⟩
      | anyOf subtypes => exact ⟨h, rfl⟩
      | oneOf subtypes => exact ⟨h, rfl⟩
      | not subtypes => exact ⟨h, rfl⟩
      | _ => cases h

/-- But for references, a child either converts parts of the value or is handed it. -/
theorem handed_of_child (hdirect : node.refers = false) (hdescends : node.descends = false)
    (h : child ∈ node.children) : child ∈ node.handed := by
  cases node with
  | forward target => exact h
  | reference messages target => cases hdirect
  | typed common shape =>
      cases shape with
      | array items size unique distinctBy => cases hdescends
      | map values size => cases hdescends
      | object shape => cases hdescends
      | discriminated property mapping => exact h
      | allOf subtypes => exact h
      | anyOf subtypes => exact h
      | oneOf subtypes => exact h
      | not subtypes => exact h
      | _ => cases h

end Node

namespace Graph

open Relation

variable {graph : Graph} {id child : NodeId} {mode : Mode}

/-- An edge from a node to one of its children. -/
def Leads (graph : Graph) (id child : NodeId) : Prop :=
  ∃ node, graph.get? id = some node ∧ child ∈ node.children

/-- An edge along which a part of the payload is converted: an item, a value under a key, a
property, or what a pattern or the policy for additional keys takes. -/
def Descends (graph : Graph) (id child : NodeId) : Prop :=
  ∃ node, graph.get? id = some node ∧ child ∈ node.children ∧ node.descends = true

/-- An edge along which the payload is handed on as it is. -/
def HandsOn (graph : Graph) (id child : NodeId) : Prop :=
  ∃ node, graph.get? id = some node ∧ child ∈ node.handed

/-- Every cycle of edges has one that descends. -/
def IsGuarded (graph : Graph) : Prop :=
  ∀ (id : NodeId) (walk : List NodeId), List.IsChain graph.Leads (id :: (walk ++ [id])) →
    ∃ a b, [a, b] <:+: id :: (walk ++ [id]) ∧ graph.Descends a b

theorem HandsOn.leads (h : graph.HandsOn id child) : graph.Leads id child := by
  obtain ⟨node, hnode, hchild⟩ := h
  exact ⟨node, hnode, (Node.child_of_handed hchild).1⟩

theorem HandsOn.not_descends (h : graph.HandsOn id child) : ¬graph.Descends id child := by
  rintro ⟨other, hother, -, hdescends⟩
  obtain ⟨node, hnode, hchild⟩ := h
  obtain rfl : node = other := Option.some.inj (hnode.symm.trans hother)
  rw [(Node.child_of_handed hchild).2] at hdescends
  cases hdescends

theorem Leads.handsOn (h : graph.IsDirect) (hedge : graph.Leads id child)
    (hnot : ¬graph.Descends id child) : graph.HandsOn id child := by
  obtain ⟨node, hnode, hchild⟩ := hedge
  refine ⟨node, hnode, Node.handed_of_child (h id node hnode) ?_ hchild⟩
  exact Bool.eq_false_iff.2 fun hdescends => hnot ⟨node, hnode, hchild, hdescends⟩

/-- In a guarded graph a value is never handed on back to the node it comes from. -/
theorem IsGuarded.acyclic (h : graph.IsGuarded) (id : NodeId) : ¬TransGen graph.HandsOn id id := by
  intro hcycle
  obtain ⟨walk, hwalk⟩ := exists_walk hcycle
  obtain ⟨a, b, hinfix, hdescends⟩ := h id walk (hwalk.imp fun _ _ => HandsOn.leads)
  have hpair : List.IsChain graph.HandsOn [a, b] := List.IsChain.infix hwalk hinfix
  have hedge : graph.HandsOn a b := List.isChain_pair.1 hpair
  exact hedge.not_descends hdescends

/-- In a guarded graph there are ranks that fall wherever a value is handed on, as many as nodes. -/
theorem IsGuarded.exists_guard (h : graph.IsGuarded) (hne : 0 < graph.length) :
    ∃ guard : graph.Guard, guard.height = graph.length := by
  have hknown : ∀ {a b}, graph.HandsOn a b → a < graph.length ∧ b < graph.length := by
    rintro a b ⟨node, hnode, hb⟩
    exact ⟨(List.getElem?_eq_some_iff.1 hnode).1,
      known_children hnode b (Node.child_of_handed hb).1⟩
  have hlength : (List.range graph.length).length = graph.length := List.length_range
  refine ⟨⟨reached graph.HandsOn (List.range graph.length), graph.length, fun a => ?_,
    fun {a node} hnode b hb => ?_⟩, rfl⟩
  · have hnonempty : List.range graph.length ≠ [] := by
      rw [ne_eq, List.range_eq_nil]
      omega
    have hless := reached_lt_length hnonempty (fun x _ => h.acyclic x) a
      fun b hab => List.mem_range.2 (hknown hab).1
    rwa [hlength] at hless
  · have hedge : graph.HandsOn a b := ⟨node, hnode, hb⟩
    exact reached_lt hedge (List.mem_range.2 (hknown hedge).2) (h.acyclic b)

/-- Along a walk that does not descend the ranks fall. -/
theorem Guard.falls_or_descends (guard : graph.Guard) (h : graph.IsDirect) {last : NodeId} :
    ∀ {first : NodeId} {walk : List NodeId},
      List.IsChain graph.Leads (first :: (walk ++ [last])) →
      guard.rank last < guard.rank first ∨
        ∃ a b, [a, b] <:+: first :: (walk ++ [last]) ∧ graph.Descends a b := by
  intro first walk hwalk
  induction walk generalizing first with
  | nil =>
      have hedge : graph.Leads first last := List.isChain_pair.1 hwalk
      by_cases hdescends : graph.Descends first last
      · exact .inr ⟨first, last, List.infix_rfl, hdescends⟩
      · obtain ⟨node, hnode, hlast⟩ := hedge.handsOn h hdescends
        exact .inl (guard.falls hnode last hlast)
  | cons next walk ih =>
      obtain ⟨hedge, hrest⟩ := List.isChain_cons_cons.1 hwalk
      by_cases hdescends : graph.Descends first next
      · exact .inr ⟨first, next, ⟨[], walk ++ [last], rfl⟩, hdescends⟩
      · obtain ⟨node, hnode, hnext⟩ := hedge.handsOn h hdescends
        have hfalls := guard.falls hnode next hnext
        rcases ih hrest with hrank | ⟨a, b, hinfix, hab⟩
        · exact .inl (Nat.lt_trans hrank hfalls)
        · exact .inr ⟨a, b, List.infix_cons hinfix, hab⟩

/-- A graph with ranks that fall wherever a value is handed on is guarded. -/
theorem Guard.isGuarded (guard : graph.Guard) (h : graph.IsDirect) : graph.IsGuarded := by
  intro id walk hwalk
  rcases guard.falls_or_descends h hwalk with hrank | hdescends
  · exact absurd hrank (Nat.lt_irrefl _)
  · exact hdescends

/-! ## Conversions -/

/-- An outcome other than to run out of fuel stays the same with more. -/
theorem convertAt_mono {fuel more : Nat} (hle : fuel ≤ more) {input : Option Json} {path : Path}
    {resolver : Option Resolver}
    (hends : (graph.convertAt fuel id input path mode resolver).1 ≠ .outOfFuel) :
    graph.convertAt more id input path mode resolver =
      graph.convertAt fuel id input path mode resolver := by
  have hsame := graph.convertWithin_approximates mode hle id id rfl input path (.start resolver)
  unfold convertAt at hends ⊢
  rcases hsame with hfuel | hsame
  · obtain ⟨s, hrun⟩ := exists_of_fst hfuel
    rw [hrun] at hends
    exact absurd rfl hends
  · rw [hsame]

/-- In a guarded graph without references every node converts every input, wherever it stands, as
long as nothing is defaulted: it is enough to nest as deep as the nodes are many for each level of
the payload, and more makes no difference. -/
theorem guarded_converts (h : graph.IsDirect) (hguarded : graph.IsGuarded)
    (hdefaults : mode.entity = .response ∨ graph.LacksDefaults) {root : NodeId}
    (hroot : root < graph.length) (input : Option Json) (path : Path)
    (resolver : Option Resolver) :
    let enough := (input.elim 0 Json.depth + 1) * graph.length
    let outcome := graph.convertAt enough root input path mode resolver
    outcome.1 ≠ .outOfFuel ∧ outcome.1 ≠ .noNode ∧
      ∀ fuel, enough ≤ fuel → graph.convertAt fuel root input path mode resolver = outcome := by
  intro enough outcome
  obtain ⟨guard, hheight⟩ := hguarded.exists_guard (Nat.zero_lt_of_lt hroot)
  have hdefaultsEnd : graph.DefaultsEnd mode 0 := by
    refine hdefaults.imp_right fun hlacks id common shape default hnode hdefault => ?_
    rw [hlacks id common shape hnode] at hdefault
    cases hdefault
  have hreach : 0 + guard.reach (root, input) + 1 ≤ enough := by
    have hrank := guard.bounded root
    have henough : enough = input.elim 0 Json.depth * graph.length + graph.length :=
      Nat.succ_mul _ _
    unfold Guard.reach
    rw [henough, hheight]
    dsimp only
    omega
  have hends := guard.ends h hdefaultsEnd (root, input) path resolver
  have hsame : outcome = _ := convertAt_mono hreach hends
  have houtcome : outcome.1 ≠ .outOfFuel := by
    rw [hsame]
    exact hends
  exact ⟨houtcome, graph.convertAt_ne_noNode enough ⟨root, hroot⟩ input path mode resolver,
    fun fuel hfuel => convertAt_mono hfuel houtcome⟩

/-- Objects with an integer and a next object of the same sort. -/
def chained : Graph where
  nodes := [
    .typed (.plain .builtIn)
      (.object ⟨[("next", 2), ("value", 1)], [], [], .allow, [], [], .free⟩),
    .typed (.plain .builtIn) (.integer .free),
    .forward 0]
  closed := by
    simp [Node.children, Shape.children, Additional.children]

/-- Only the last node hands a value on. -/
def chainedGuard : chained.Guard where
  rank id := if id = 2 then 1 else 0
  height := 2
  bounded id := by split <;> decide
  falls {id node} hnode := by
    match id with
    | 0 => cases hnode; exact fun _ h => nomatch h
    | 1 => cases hnode; exact fun _ h => nomatch h
    | 2 =>
        cases hnode
        intro child hchild
        obtain rfl := List.mem_singleton.1 hchild
        decide
    | _ + 3 => cases hnode

/-- The cycle from an object to the next one descends, so a chain of three converts within twelve
steps, and its end is read as an integer. -/
theorem guarded_converts_chained :
    let payload := Json.obj [("next", .obj [("next", .obj [("value", .str "7")])])]
    let outcome := chained.convertAt ((payload.depth + 1) * 3) 0 (some payload) .root
      ⟨.request, false⟩ none
    chained.IsDirect ∧ chained.IsGuarded ∧ chained.LacksDefaults ∧ payload.depth = 3 ∧
      outcome.1 ≠ .outOfFuel ∧ outcome.1 ≠ .noNode ∧ outcome.1.isConverted = true ∧
      ∀ fuel, 12 ≤ fuel →
        chained.convertAt fuel 0 (some payload) .root ⟨.request, false⟩ none = outcome := by
  intro payload outcome
  have hdirect : chained.IsDirect := holds_of_nodes (by simp [chained, Node.refers])
  have hguarded : chained.IsGuarded := chainedGuard.isGuarded hdirect
  have hlacks : chained.LacksDefaults :=
    lacksDefaults_of_nodes (by simp [chained, Common.plain])
  have hdefaults : (⟨.request, false⟩ : Mode).entity = .response ∨ chained.LacksDefaults :=
    .inr hlacks
  obtain ⟨hfuel, hnode, hmore⟩ := guarded_converts hdirect hguarded hdefaults
    (show 0 < chained.length by decide) (some payload) .root none
  exact ⟨hdirect, hguarded, hlacks, by decide, hfuel, hnode, by decide +kernel, hmore⟩

end Graph

end SchemaGraph

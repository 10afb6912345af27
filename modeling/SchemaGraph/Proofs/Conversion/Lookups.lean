import SchemaGraph.Conversion.Converted
import SchemaGraph.Proofs.Conversion.Fuel
import SchemaGraph.Proofs.Conversion.Signals

set_option autoImplicit false

/-! # Looking up nodes

A draft builds if every slot is defined and every child of a node exists; else the first slot at
fault is reported, with the first child that does not exist (`GraphDraft.build_eq_error`).

So the nodes of a graph may name their children by numbers below the length of the graph
(`Graph.node`), and a conversion of such nodes looks nothing up that might not be there
(`Graph.convertTotal`). It does exactly what the conversion of the graph does
(`Graph.convertWithin_eq`).
-/

namespace SchemaGraph

/-! ## Building -/

namespace GraphDraft

/-- A step of putting a graph together. -/
inductive Step where
  | reserve
  | add (node : Node)
  | define (id : NodeId) (node : Node)

/-- The draft after a step. A definition that is refused changes nothing. -/
def after (draft : GraphDraft) : Step → GraphDraft
  | .reserve => draft.reserve
  | .add node => draft.add node
  | .define id node => (draft.define id node).toOption.getD draft

/-- The draft that steps put together. -/
def ofSteps (steps : List Step) : GraphDraft := steps.foldl after .empty

/-- A slot is defined, and every child of its node is below `length`. -/
def IsSound (length : Nat) (slot : Option Node) : Prop :=
  ∃ node, slot = some node ∧ ∀ child ∈ node.children, child < length

/-- What is wrong with a slot: it is empty, or a child of its node, the first such, is not below
`length`. -/
inductive Fault (length index : Nat) : Option Node → BuildError → Prop where
  | pending : Fault length index none (.pendingNode index)
  | unknown {node : Node} {before after : List NodeId} {child : NodeId}
      (children : node.children = before ++ child :: after) (known : ∀ id ∈ before, id < length)
      (dangling : ¬child < length) : Fault length index (some node) (.unknownNode child)

variable {draft : GraphDraft} {length index : Nat} {slot : Option Node} {e : BuildError}
  {slots : List (Option Node)}

theorem Fault.not_isSound (h : Fault length index slot e) : ¬IsSound length slot := by
  rintro ⟨node, rfl, hchildren⟩
  cases h with
  | unknown children _ dangling =>
      refine dangling (hchildren _ ?_)
      rw [children]
      exact List.mem_append_right _ List.mem_cons_self

/-- Something is wrong with a slot that is not sound. -/
theorem exists_fault (index : Nat) (h : ¬IsSound length slot) :
    ∃ e, Fault length index slot e := by
  cases slot with
  | none => exact ⟨_, .pending⟩
  | some node =>
      have hdangling : dangling? length node ≠ none := fun hnone => h
        ⟨node, rfl, fun child hchild => by simpa using List.find?_eq_none.1 hnone child hchild⟩
      obtain ⟨child, hchild⟩ := Option.ne_none_iff_exists'.1 hdangling
      obtain ⟨hfound, before, after, hchildren, hbefore⟩ := List.find?_eq_some_iff_append.1 hchild
      refine ⟨_, .unknown hchildren (fun id hid => ?_) (by simpa using hfound)⟩
      simpa using hbefore id hid

theorem collect_of_fault (h : Fault length index slot e) :
    collect length index (slot :: slots) = .error e := by
  cases h with
  | pending => rfl
  | @unknown node before after child children known dangling =>
      have hfound : dangling? length node = some child := by
        refine List.find?_eq_some_iff_append.2
          ⟨by simpa using dangling, before, after, children, fun id hid => ?_⟩
        simpa using known id hid
      unfold collect
      rw [hfound]

theorem collect_of_isSound (h : IsSound length slot) : collect length index (slot :: slots) =
    (collect length (index + 1) slots).map fun nodes => slot.toList ++ nodes := by
  obtain ⟨node, rfl, hchildren⟩ := h
  have hnone : dangling? length node = none :=
    List.find?_eq_none.2 fun child hchild => by simpa using hchildren child hchild
  rw [collect, hnone]
  rfl

theorem collect_of_first {before after : List (Option Node)}
    (hbefore : ∀ slot ∈ before, IsSound length slot)
    (hfault : Fault length (index + before.length) slot e) :
    collect length index (before ++ slot :: after) = .error e := by
  induction before generalizing index with
  | nil => exact collect_of_fault hfault
  | cons first rest ih =>
      obtain ⟨hfirst, hrest⟩ := List.forall_mem_cons.1 hbefore
      rw [List.length_cons, Nat.add_comm rest.length, ← Nat.add_assoc] at hfault
      rw [List.cons_append, collect_of_isSound hfirst, ih hrest hfault]
      rfl

theorem exists_first (h : collect length index slots = .error e) :
    ∃ before slot after, slots = before ++ slot :: after ∧ (∀ slot ∈ before, IsSound length slot) ∧
      Fault length (index + before.length) slot e := by
  induction slots generalizing index with
  | nil => cases h
  | cons slot rest ih =>
      by_cases hsound : IsSound length slot
      · rw [collect_of_isSound hsound] at h
        cases hrest : collect length (index + 1) rest with
        | ok nodes =>
            rw [hrest] at h
            cases h
        | error found =>
            rw [hrest] at h
            cases h
            obtain ⟨before, fault, after, rfl, hbefore, hfault⟩ := ih hrest
            refine ⟨slot :: before, fault, after, rfl, ?_, ?_⟩
            · exact List.forall_mem_cons.2 ⟨hsound, hbefore⟩
            · rwa [List.length_cons, Nat.add_comm before.length, ← Nat.add_assoc]
      · obtain ⟨found, hfault⟩ := exists_fault index hsound
        cases (collect_of_fault hfault).symm.trans h
        exact ⟨[], slot, rest, rfl, List.forall_mem_nil _, hfault⟩

/-- Collecting fails at the first slot at fault. -/
theorem collect_eq_error : collect length index slots = .error e ↔
    ∃ before slot after, slots = before ++ slot :: after ∧ (∀ slot ∈ before, IsSound length slot) ∧
      Fault length (index + before.length) slot e := by
  refine ⟨exists_first, ?_⟩
  rintro ⟨before, slot, after, rfl, hbefore, hfault⟩
  exact collect_of_first hbefore hfault

/-- What is collected are the nodes of the slots. -/
theorem collect_eq_ok {nodes : List Node} (h : collect length index slots = .ok nodes) :
    slots = nodes.map some := by
  induction slots generalizing index nodes with
  | nil =>
      cases h
      rfl
  | cons slot rest ih =>
      by_cases hsound : IsSound length slot
      · rw [collect_of_isSound hsound] at h
        obtain ⟨node, rfl, -⟩ := hsound
        cases hrest : collect length (index + 1) rest with
        | error e =>
            rw [hrest] at h
            cases h
        | ok more =>
            rw [hrest] at h
            cases h
            exact congrArg (List.cons (some node)) (ih hrest)
      · obtain ⟨e, hfault⟩ := exists_fault index hsound
        cases (collect_of_fault hfault).symm.trans h

theorem build_eq_error : draft.build = .error e ↔
    ∃ before slot after, draft.slots = before ++ slot :: after ∧
      (∀ slot ∈ before, IsSound draft.length slot) ∧ Fault draft.length before.length slot e := by
  have hbuild : draft.build = .error e ↔ collect draft.length 0 draft.slots = .error e := by
    unfold build
    split
    · rename_i found hfound
      rw [hfound]
      exact ⟨fun h => by cases h; rfl, fun h => by cases h; rfl⟩
    · rename_i nodes hnodes
      exact ⟨fun h => (by cases h), fun h => (by cases hnodes.symm.trans h)⟩
  rw [hbuild, collect_eq_error]
  simp only [Nat.zero_add]

theorem slots_of_build {graph : Graph} (h : draft.build = .ok graph) :
    draft.slots = graph.nodes.map some := by
  unfold build at h
  split at h
  · cases h
  · rename_i nodes hnodes
    cases h
    exact collect_eq_ok hnodes

theorem build_eq_ok : (∃ graph, draft.build = .ok graph) ↔
    ∀ slot ∈ draft.slots, IsSound draft.length slot := by
  constructor
  · rintro ⟨graph, h⟩ slot hslot
    have hslots := slots_of_build h
    have hlength : draft.length = graph.length := by
      rw [length, hslots, List.length_map, Graph.length]
    rw [hslots] at hslot
    obtain ⟨node, hnode, rfl⟩ := List.mem_map.1 hslot
    exact ⟨node, rfl, hlength ▸ graph.closed node hnode⟩
  · intro h
    cases hbuild : draft.build with
    | ok graph => exact ⟨graph, rfl⟩
    | error e =>
        obtain ⟨before, slot, after, hslots, -, hfault⟩ := build_eq_error.1 hbuild
        refine absurd (h slot ?_) hfault.not_isSound
        rw [hslots]
        exact List.mem_append_right _ List.mem_cons_self

end GraphDraft

/-! ## Other names for the children of a node -/

variable {ι κ : Type} {p : ι → Prop} {R : ι → κ → Prop}

namespace Entries

/-- Entries with other values under their keys. -/
def pmap {α : Type} (f : ∀ i, p i → κ) (entries : List (α × ι))
    (h : ∀ i ∈ entries.map Prod.snd, p i) : List (α × κ) :=
  entries.pmap (fun entry hentry => (entry.1, f entry.2 hentry)) fun _ hentry =>
    h _ (List.mem_map_of_mem hentry)

theorem alike_pmap {α : Type} {f : ∀ i, p i → κ} (hf : ∀ i hi, R i (f i hi)) :
    ∀ (entries : List (α × ι)) (h : ∀ i ∈ entries.map Prod.snd, p i),
      Alike R entries (pmap f entries h)
  | [], _ => .nil
  | _ :: rest, h => .cons (hf _ _) (alike_pmap hf rest fun i hi => h i (List.mem_cons_of_mem _ hi))

end Entries

theorem forall₂_pmap {f : ∀ i, p i → κ} (hf : ∀ i hi, R i (f i hi)) :
    ∀ (is : List ι) (h : ∀ i ∈ is, p i), List.Forall₂ R is (is.pmap f h)
  | [], _ => .nil
  | _ :: rest, h =>
      .cons (hf _ _) (forall₂_pmap hf rest fun i hi => h i (List.mem_cons_of_mem _ hi))

def Additional.pmap (f : ∀ i, p i → κ) :
    (policy : Additional ι) → (∀ i ∈ policy.children, p i) → Additional κ
  | .allow, _ => .allow
  | .deny, _ => .deny
  | .schema node, h => .schema (f node (h node List.mem_cons_self))

def ObjectShape.pmap (f : ∀ i, p i → κ) (shape : ObjectShape ι)
    (h : ∀ i ∈ (Shape.object shape).children, p i) : ObjectShape κ where
  properties := Entries.pmap f shape.properties fun i hi =>
    h i (List.mem_append_left _ (List.mem_append_left _ hi))
  required := shape.required
  patterns := Entries.pmap f shape.patterns fun i hi =>
    h i (List.mem_append_left _ (List.mem_append_right _ hi))
  additional := shape.additional.pmap f fun i hi => h i (List.mem_append_right _ hi)
  readOnly := shape.readOnly
  writeOnly := shape.writeOnly
  size := shape.size

def Shape.pmap (f : ∀ i, p i → κ) : (shape : Shape ι) → (∀ i ∈ shape.children, p i) → Shape κ
  | .any, _ => .any
  | .string bounds, _ => .string bounds
  | .text format bounds, _ => .text format bounds
  | .number bounds, _ => .number bounds
  | .integer bounds, _ => .integer bounds
  | .boolean, _ => .boolean
  | .array items size unique distinctBy, h =>
    .array (f items (h items List.mem_cons_self)) size unique distinctBy
  | .map values size, h => .map (f values (h values List.mem_cons_self)) size
  | .object shape, h => .object (shape.pmap f h)
  | .discriminated property mapping, h => .discriminated property (Entries.pmap f mapping h)
  | .allOf subtypes, h => .allOf (subtypes.pmap f h)
  | .anyOf subtypes, h => .anyOf (subtypes.pmap f h)
  | .oneOf subtypes, h => .oneOf (subtypes.pmap f h)
  | .not subtypes, h => .not (subtypes.pmap f h)

/-- The node with other names for its children. -/
def Node.pmap (f : ∀ i, p i → κ) : (node : Node ι) → (∀ i ∈ node.children, p i) → Node κ
  | .forward target, h => .forward (f target (h target List.mem_cons_self))
  | .reference messages target, h => .reference messages (f target (h target List.mem_cons_self))
  | .typed common shape, h => .typed common (shape.pmap f h)

theorem Additional.alike_pmap {f : ∀ i, p i → κ} (hf : ∀ i hi, R i (f i hi))
    (policy : Additional ι) (h : ∀ i ∈ policy.children, p i) :
    Additional.Alike R policy (policy.pmap f h) := by
  cases policy with
  | allow => exact .allow
  | deny => exact .deny
  | schema node => exact .schema (hf _ _)

theorem ObjectShape.alike_pmap {f : ∀ i, p i → κ} (hf : ∀ i hi, R i (f i hi))
    (shape : ObjectShape ι) (h : ∀ i ∈ (Shape.object shape).children, p i) :
    ObjectShape.Alike R shape (shape.pmap f h) where
  properties := Entries.alike_pmap hf shape.properties fun i hi =>
    h i (List.mem_append_left _ (List.mem_append_left _ hi))
  required := rfl
  patterns := Entries.alike_pmap hf shape.patterns fun i hi =>
    h i (List.mem_append_left _ (List.mem_append_right _ hi))
  additional := shape.additional.alike_pmap hf _
  readOnly := rfl
  writeOnly := rfl
  size := rfl

theorem Shape.alike_pmap {f : ∀ i, p i → κ} (hf : ∀ i hi, R i (f i hi)) (shape : Shape ι)
    (h : ∀ i ∈ shape.children, p i) : Shape.Alike R shape (shape.pmap f h) := by
  cases shape with
  | any => exact .any
  | string bounds => exact .string bounds
  | text format bounds => exact .text format bounds
  | number bounds => exact .number bounds
  | integer bounds => exact .integer bounds
  | boolean => exact .boolean
  | array items size unique distinctBy => exact .array (hf _ _) size unique distinctBy
  | map values size => exact .map (hf _ _) size
  | object shape => exact .object (shape.alike_pmap hf h)
  | discriminated property mapping => exact .discriminated property (Entries.alike_pmap hf _ _)
  | allOf subtypes => exact .allOf (forall₂_pmap hf _ _)
  | anyOf subtypes => exact .anyOf (forall₂_pmap hf _ _)
  | oneOf subtypes => exact .oneOf (forall₂_pmap hf _ _)
  | not subtypes => exact .not (forall₂_pmap hf _ _)

theorem Node.alike_pmap {f : ∀ i, p i → κ} (hf : ∀ i hi, R i (f i hi)) (node : Node ι)
    (h : ∀ i ∈ node.children, p i) : Node.Alike R node (node.pmap f h) := by
  cases node with
  | forward target => exact .forward (hf _ _)
  | reference messages target => exact .reference messages (hf _ _)
  | typed common shape => exact .typed common (shape.alike_pmap hf h)

/-! ## Conversions that do the same -/

namespace Conversion

variable {α : Type} {holds : ConversionState → Prop}

/-- Conversions that do exactly the same share everything. -/
theorem exactly_shares : (exactly fun _ => True).Shares Eq where
  states {s s'} := by
    obtain ⟨registry, visited, resolver⟩ := s
    constructor
    · rintro ⟨rfl, -⟩
      exact ⟨rfl, rfl, rfl⟩
    · rintro ⟨rfl, rfl, rfl⟩
      exact ⟨rfl, trivial⟩
  errors := Eq.refl
  circles := trivial
  resolve _ := exactly_parallel_iff.2 fun _ _ => ⟨rfl, trivial⟩
  pushScope h _ := by rw [h]
  leaveScope h := by rw [h]

end Conversion

/-! ## Conversions that find every node -/

namespace Graph

open Conversion

/-- The node under a number below the length of the graph. So are the names of its children. -/
def node (graph : Graph) (id : Fin graph.length) : Node (Fin graph.length) :=
  (graph.nodes.get id).pmap Fin.mk (graph.closed _ (List.get_mem _ _))

/-- The conversion of a node in which every number is below the length of the graph, so that each
node that is looked up is there. -/
def convertTotal (graph : Graph) (mode : Mode) : Nat → Converting (Fin graph.length)
  | 0 => fun _ _ _ => fail .outOfFuel
  | fuel + 1 => fun id input path =>
    step (graph.convertTotal mode fuel) mode id (graph.node id) input path

theorem node_alike (graph : Graph) (id : Fin graph.length) :
    Node.Alike (fun child named => child = named.val) (graph.nodes.get id) (graph.node id) :=
  Node.alike_pmap (R := fun (child : NodeId) (named : Fin graph.length) => child = named.val)
    (fun _ _ => rfl) _ _

theorem convertWithin_parallel (graph : Graph) (mode : Mode) (fuel : Nat) :
    (exactly fun _ => True).ParallelNodes (fun id named => id = named.val)
      (graph.convertWithin mode fuel) (graph.convertTotal mode fuel) := by
  induction fuel with
  | zero => exact fun _ _ _ _ _ => .fails .outOfFuel
  | succ fuel ih =>
      rintro _ id rfl input path
      have hnode : graph.get? id = some (graph.nodes.get id) := List.getElem?_eq_getElem id.isLt
      rw [convertWithin_succ hnode]
      exact exactly_shares.step ih mode rfl (graph.node_alike id) input path

/-- A conversion does what the one does that finds every node. -/
theorem convertWithin_eq (graph : Graph) (mode : Mode) (fuel : Nat) (id : Fin graph.length)
    (input : Option Json) (path : Path) :
    graph.convertWithin mode fuel id input path = graph.convertTotal mode fuel id input path :=
  funext fun s => (exactly_parallel_iff.1
    (graph.convertWithin_parallel mode fuel id id rfl input path) s trivial).1

theorem convertWithin_ne_noNode (graph : Graph) (mode : Mode) (fuel : Nat) (id : Fin graph.length)
    (input : Option Json) (path : Path) {s : ConversionState} (hs : s.visited = []) :
    (graph.convertWithin mode fuel id input path s).1 ≠ .error .noNode := by
  intro h
  rcases graph.convertWithin_cases mode fuel id.isLt input path hs with
    ⟨value, t, hrun, -⟩ | ⟨errors, t, hrun, -⟩ | ⟨t, hrun, -⟩ | hrun <;>
  · rw [hrun] at h
    cases h

theorem convertAt_ne_noNode (graph : Graph) (fuel : Nat) (id : Fin graph.length)
    (input : Option Json) (path : Path) (mode : Mode) (resolver : Option Resolver) :
    (graph.convertAt fuel id input path mode resolver).1 ≠ .noNode := by
  have hrun := graph.convertWithin_ne_noNode mode fuel id input path
    (s := .start resolver) rfl
  unfold convertAt
  -- every other way to end has an outcome of its own
  generalize graph.convertWithin mode fuel id input path (.start resolver) = run at hrun ⊢
  rcases run with ⟨(errors | _ | _ | _ | _) | value, t⟩
  case error.noNode => exact absurd rfl hrun
  all_goals exact fun h => by cases h

/-- Whatever steps put a draft together, it builds if and only if every slot is defined and every
child of a node is below the length, to the graph of the nodes in the slots; else it reports the
first slot at fault, which is empty or has a child that is not below the length, the first such.
Whatever graph is converted from whatever node of it, no number is looked up but those below its
length: it is done exactly as it is where there are no others, and no node is missing. -/
theorem built_never_dangles :
    (∀ steps : List GraphDraft.Step, let draft := GraphDraft.ofSteps steps
      ((∃ graph, draft.build = .ok graph) ↔
        ∀ slot ∈ draft.slots, GraphDraft.IsSound draft.length slot) ∧
      (∀ graph, draft.build = .ok graph → draft.slots = graph.nodes.map some) ∧
      ∀ e, draft.build = .error e ↔ ∃ before slot after, draft.slots = before ++ slot :: after ∧
        (∀ slot ∈ before, GraphDraft.IsSound draft.length slot) ∧
        GraphDraft.Fault draft.length before.length slot e) ∧
    ∀ (graph : Graph) (mode : Mode) (fuel : Nat) (root : Fin graph.length) (input : Option Json)
      (path : Path),
      graph.convertWithin mode fuel root input path =
        graph.convertTotal mode fuel root input path ∧
      ∀ resolver, (graph.convertAt fuel root input path mode resolver).1 ≠ .noNode := by
  refine ⟨fun steps => ?_, fun graph mode fuel root input path => ?_⟩
  · exact ⟨GraphDraft.build_eq_ok, fun _ => GraphDraft.slots_of_build,
      fun _ => GraphDraft.build_eq_error⟩
  · exact ⟨graph.convertWithin_eq mode fuel root input path,
      graph.convertAt_ne_noNode fuel root input path mode⟩

/-- A node that is defined after one that refers to it, and drafts in which it is not. -/
theorem built_never_dangles_forward :
    (∃ graph, (GraphDraft.ofSteps [.reserve, .add (.forward 0),
        .define 0 (.typed (.plain .builtIn) .any)]).build = .ok graph ∧
      graph.nodes.map Node.children = [[], [0]]) ∧
    (GraphDraft.ofSteps [.reserve, .add (.forward 0)]).build = .error (.pendingNode 0) ∧
    (GraphDraft.ofSteps [.add (.forward 1)]).build = .error (.unknownNode 1) := by
  obtain ⟨hbuilds, -⟩ := built_never_dangles
  have hsound : ∀ slot ∈ (GraphDraft.ofSteps [.reserve, .add (.forward 0),
      .define 0 (.typed (.plain .builtIn) .any)]).slots, GraphDraft.IsSound 2 slot := by
    refine List.forall_mem_cons.2 ⟨⟨_, rfl, List.forall_mem_nil _⟩, ?_⟩
    refine List.forall_mem_cons.2 ⟨⟨_, rfl, ?_⟩, List.forall_mem_nil _⟩
    exact List.forall_mem_cons.2 ⟨Nat.zero_lt_two, List.forall_mem_nil _⟩
  obtain ⟨graph, hgraph⟩ := (hbuilds _).1.2 hsound
  refine ⟨⟨graph, hgraph, ?_⟩, ?_, ?_⟩
  · have hslots := congrArg (List.map fun slot => (slot.map Node.children).getD [])
      ((hbuilds _).2.1 graph hgraph)
    rw [List.map_map] at hslots
    exact hslots.symm
  · exact ((hbuilds _).2.2 _).2 ⟨[], none, _, rfl, List.forall_mem_nil _, .pending⟩
  · have hfault : GraphDraft.Fault 1 0 (some (.forward 1)) (.unknownNode 1) :=
      @GraphDraft.Fault.unknown 1 0 (.forward 1) [] [] 1 rfl (List.forall_mem_nil _) (by decide)
    exact ((hbuilds _).2.2 _).2 ⟨[], _, [], rfl, List.forall_mem_nil _, hfault⟩

end Graph

end SchemaGraph

import SchemaGraph.Node.Basic

set_option autoImplicit false

/-! # Schema graphs

A graph is a list of nodes in which every child index names a node. It is put together as a
draft: `reserve` hands out an index before its node exists, `define` fills it in, and `build`
checks that nothing is left open. `GraphDraft.build` reports the first slot at fault, so a graph
never dangles.
-/

namespace SchemaGraph

/-- Nodes all of whose children exist. -/
structure Graph where
  nodes : List Node
  closed : ∀ node ∈ nodes, ∀ child ∈ node.children, child < nodes.length

namespace Graph

def length (graph : Graph) : Nat := graph.nodes.length

def get? (graph : Graph) (id : NodeId) : Option Node := graph.nodes[id]?

end Graph

/-- A graph being put together: a slot is empty until its node is defined. -/
structure GraphDraft where
  slots : List (Option Node)
  deriving Repr, Inhabited

namespace GraphDraft

def empty : GraphDraft := ⟨[]⟩

def length (draft : GraphDraft) : Nat := draft.slots.length

/-- The index the next node gets. -/
def next (draft : GraphDraft) : NodeId := draft.length

/-- Hand out an index whose node is defined later. -/
def reserve (draft : GraphDraft) : GraphDraft := ⟨draft.slots ++ [none]⟩

/-- Add a node at the next index. -/
def add (draft : GraphDraft) (node : Node) : GraphDraft := ⟨draft.slots ++ [some node]⟩

/-- Fill a reserved slot. -/
def define (draft : GraphDraft) (id : NodeId) (node : Node) : Except BuildError GraphDraft :=
  match draft.slots[id]? with
  | none => .error (.unknownNode id)
  | some (some _) => .error (.alreadyDefined id)
  | some none => .ok ⟨draft.slots.set id (some node)⟩

def isDefined (draft : GraphDraft) (id : NodeId) : Bool :=
  match draft.slots[id]? with
  | some (some _) => true
  | _ => false

/-- Drop every node from an index on. -/
def truncate (draft : GraphDraft) (length : Nat) : GraphDraft := ⟨draft.slots.take length⟩

/-- The first child of a node that is not below `length`. -/
def dangling? (length : Nat) (node : Node) : Option NodeId :=
  node.children.find? fun child => !decide (child < length)

/-- The nodes of the slots from `index` on, or what is wrong with the first slot at fault. -/
def collect (length : Nat) : Nat → List (Option Node) → Except BuildError (List Node)
  | _, [] => .ok []
  | index, none :: _ => .error (.pendingNode index)
  | index, some node :: rest =>
    match dangling? length node with
    | some child => .error (.unknownNode child)
    | none => (collect length (index + 1) rest).map fun nodes => node :: nodes

theorem collect_ok {length : Nat} {slots : List (Option Node)} :
    ∀ {index : Nat} {nodes : List Node}, collect length index slots = .ok nodes →
      nodes.length = slots.length ∧
        ∀ node ∈ nodes, ∀ child ∈ node.children, child < length := by
  induction slots with
  | nil =>
    intro index nodes h
    simp only [collect, Except.ok.injEq] at h
    subst h
    simp
  | cons slot rest ih =>
    intro index nodes h
    cases slot with
    | none => simp [collect] at h
    | some node =>
      simp only [collect] at h
      split at h
      · simp at h
      next hfind =>
        cases hrest : collect length (index + 1) rest with
        | error e => simp [hrest, Except.map] at h
        | ok tail =>
          simp only [hrest, Except.map, Except.ok.injEq] at h
          subst h
          obtain ⟨hlength, hclosed⟩ := ih hrest
          refine ⟨by simp [hlength], ?_⟩
          intro n hn child hchild
          cases hn with
          | head =>
            have := List.find?_eq_none.1 hfind child hchild
            simpa using this
          | tail _ hn => exact hclosed n hn child hchild

/-- The graph of a draft, if every slot is defined and every child exists. -/
def build (draft : GraphDraft) : Except BuildError Graph :=
  match h : collect draft.length 0 draft.slots with
  | .error e => .error e
  | .ok nodes =>
    .ok ⟨nodes, by
      have hc := collect_ok h
      rw [hc.1]
      exact hc.2⟩

end GraphDraft

end SchemaGraph

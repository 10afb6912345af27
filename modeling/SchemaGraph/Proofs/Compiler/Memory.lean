import SchemaGraph.Compiler.Basic
import SchemaGraph.Proofs.Json

set_option autoImplicit false

/-! # The memory and the draft of a compiler

What is known after an entry was set and after entries were forgotten, and which slots a draft
has after a slot was reserved, defined or dropped.
-/

namespace SchemaGraph

/-! ## Memory -/

/-- What is known names no node from a length on. -/
def Compiled.isBelow (length : Nat) (state : Compiled) : Bool :=
  state.node?.all fun node => decide (node < length)

namespace CompileMemory

/-- No location has two entries. -/
def Single (memory : CompileMemory) : Prop := (memory.entries.map Prod.fst).Nodup

theorem find?_set (memory : CompileMemory) (key other : CompileKey) (state : Compiled) :
    (memory.set key state).find? other =
      if other = key then some state else memory.find? other := by
  unfold find? set
  rw [List.lookup_cons, lookup_without]
  by_cases hother : other = key
  · subst hother
    rw [beq_self_eq_true]
    exact (if_pos rfl).symm
  · have hne : (other == key) = false := by simpa using hother
    rw [hne, if_neg hother, if_neg hother]

@[simp] theorem find?_set_self (memory : CompileMemory) (key : CompileKey) (state : Compiled) :
    (memory.set key state).find? key = some state := by
  rw [find?_set, if_pos rfl]

theorem find?_set_of_ne {memory : CompileMemory} {key other : CompileKey} {state : Compiled}
    (h : other ≠ key) : (memory.set key state).find? other = memory.find? other := by
  rw [find?_set, if_neg h]

/-- What is known after a change is what was changed, or was known before. -/
theorem find?_set_cases {memory : CompileMemory} {key other : CompileKey} {state found : Compiled}
    (h : (memory.set key state).find? other = some found) :
    (other = key ∧ state = found) ∨ (other ≠ key ∧ memory.find? other = some found) := by
  rw [find?_set] at h
  split at h
  · rename_i heq
    exact .inl ⟨heq, Option.some.inj h⟩
  · rename_i hne
    exact .inr ⟨hne, h⟩

/-- What is reserved after a location was settled was reserved before, elsewhere. -/
theorem reserved_of_set {memory : CompileMemory} {key other : CompileKey} {state : Compiled}
    {id : NodeId} (hstate : ∀ id, state ≠ .reserved id)
    (h : (memory.set key state).find? other = some (.reserved id)) :
    other ≠ key ∧ memory.find? other = some (.reserved id) := by
  rcases find?_set_cases h with ⟨-, hsame⟩ | hbefore
  · exact absurd hsame (hstate id)
  · exact hbefore

theorem single_set {memory : CompileMemory} (h : memory.Single) (key : CompileKey)
    (state : Compiled) : (memory.set key state).Single := by
  unfold Single set
  rw [List.map_cons, List.nodup_cons]
  constructor
  · intro hmem
    obtain ⟨⟨k, found⟩, hentry, rfl⟩ := List.mem_map.1 hmem
    have hne := (List.mem_filter.1 hentry).2
    simp at hne
  · exact h.sublist (List.Sublist.map _ List.filter_sublist)

/-- Forgetting keeps exactly the failures and the nodes below the length. -/
theorem forgetFrom_cons (key : CompileKey) (state : Compiled)
    (rest : List (CompileKey × Compiled)) (length : Nat) :
    forgetFrom ⟨(key, state) :: rest⟩ length =
      if state.isBelow length then ⟨(key, state) :: (forgetFrom ⟨rest⟩ length).entries⟩
      else forgetFrom ⟨rest⟩ length := by
  unfold forgetFrom
  rw [List.filter_cons]
  exact apply_ite CompileMemory.mk (state.isBelow length = true) _ _

theorem find?_forgetFrom {memory : CompileMemory} (h : memory.Single) (length : Nat)
    (key : CompileKey) :
    (memory.forgetFrom length).find? key = (memory.find? key).filter (Compiled.isBelow length) := by
  obtain ⟨entries⟩ := memory
  unfold find? Single at *
  dsimp only at h ⊢
  induction entries with
  | nil => rfl
  | cons entry rest ih =>
      obtain ⟨k, state⟩ := entry
      rw [List.map_cons, List.nodup_cons] at h
      obtain ⟨hk, hrest⟩ := h
      specialize ih hrest
      rw [forgetFrom_cons, List.lookup_cons]
      by_cases hkey : key = k
      · subst hkey
        have hnone : rest.lookup key = none := by
          rw [List.lookup_eq_none_iff]
          rintro ⟨other, found⟩ hentry
          have hne : key ≠ other := by
            rintro rfl
            exact hk (List.mem_map.2 ⟨_, hentry, rfl⟩)
          simpa using hne
        rw [beq_self_eq_true]
        cases hstate : state.isBelow length with
        | true =>
            rw [if_pos rfl, List.lookup_cons, beq_self_eq_true]
            dsimp only
            rw [Option.filter_some_pos hstate]
        | false =>
            rw [if_neg Bool.false_ne_true, ih, hnone]
            dsimp only
            rw [Option.filter_some_neg hstate]
            rfl
      · have hne : (key == k) = false := by simpa using hkey
        rw [hne]
        split
        · rw [List.lookup_cons, hne]
          exact ih
        · exact ih

theorem single_forgetFrom {memory : CompileMemory} (h : memory.Single) (length : Nat) :
    (memory.forgetFrom length).Single :=
  h.sublist (List.Sublist.map _ List.filter_sublist)

end CompileMemory

/-! ## Draft -/

namespace GraphDraft

theorem length_reserve (draft : GraphDraft) : draft.reserve.length = draft.length + 1 :=
  List.length_append

theorem slot_reserve_of_lt {draft : GraphDraft} {i : Nat} (h : i < draft.length) :
    draft.reserve.slots[i]? = draft.slots[i]? :=
  List.getElem?_append_left h

theorem slot_reserve_next (draft : GraphDraft) : draft.reserve.slots[draft.next]? = some none := by
  show (draft.slots ++ [none])[draft.slots.length]? = some none
  rw [List.getElem?_append_right (Nat.le_refl _), Nat.sub_self]
  rfl

/-- A slot that was reserved and is still empty can be defined. -/
theorem define_of_empty {draft : GraphDraft} {id : NodeId} (h : draft.slots[id]? = some none)
    (node : Node) : draft.define id node = .ok ⟨draft.slots.set id (some node)⟩ := by
  unfold define
  rw [h]

theorem slot_lt {draft : GraphDraft} {i : Nat} {slot : Option Node}
    (h : draft.slots[i]? = some slot) : i < draft.length :=
  (List.getElem?_eq_some_iff.1 h).1

/-- A graph has the nodes of a draft. -/
def Draws (draft : GraphDraft) (graph : Graph) : Prop :=
  ∀ (i : Nat) (node : Node), graph.get? i = some node ↔ draft.slots[i]? = some (some node)

/-- Slots that are all defined, by nodes that refer below a bound, are collected. -/
theorem collect_of_defined {bound : Nat} {slots : List (Option Node)} :
    ∀ {index : Nat},
      (∀ slot ∈ slots, ∃ node : Node, slot = some node ∧ ∀ child ∈ node.children, child < bound) →
      ∃ nodes, collect bound index slots = .ok nodes ∧ slots = nodes.map some := by
  induction slots with
  | nil => intro index _; exact ⟨[], rfl, rfl⟩
  | cons slot rest ih =>
      intro index h
      obtain ⟨node, rfl, hchildren⟩ := h slot List.mem_cons_self
      obtain ⟨nodes, hnodes, hrest⟩ :=
        @ih (index + 1) fun slot hslot => h slot (List.mem_cons_of_mem _ hslot)
      have hdangling : dangling? bound node = none := by
        rw [dangling?, List.find?_eq_none]
        intro child hchild
        simpa using hchildren child hchild
      refine ⟨node :: nodes, ?_, by rw [hrest]; rfl⟩
      unfold collect
      rw [hdangling, hnodes]
      rfl

/-- A draft builds if every slot is defined and no node refers beyond it. -/
theorem build_ok {draft : GraphDraft}
    (hdefined : ∀ i < draft.length, ∃ node : Node, draft.slots[i]? = some (some node))
    (hclosed : ∀ (i : Nat) (node : Node), draft.slots[i]? = some (some node) →
      ∀ child ∈ node.children, child < draft.length) :
    ∃ graph, draft.build = .ok graph ∧ graph.length = draft.length ∧ Draws draft graph := by
  have hslot : ∀ slot ∈ draft.slots, ∃ node : Node, slot = some node ∧
      ∀ child ∈ node.children, child < draft.length := by
    intro slot hslot
    obtain ⟨i, hi⟩ := List.getElem?_of_mem hslot
    obtain ⟨node, hnode⟩ := hdefined i (slot_lt hi)
    rw [hi] at hnode
    cases hnode
    exact ⟨node, rfl, hclosed i node hi⟩
  obtain ⟨nodes, hnodes, hslots⟩ :
      ∃ nodes, collect draft.length 0 draft.slots = .ok nodes ∧ draft.slots = nodes.map some :=
    collect_of_defined hslot
  unfold build
  split
  · rename_i e he
    rw [hnodes] at he
    cases he
  · rename_i found hfound
    rw [hnodes] at hfound
    cases hfound
    refine ⟨_, rfl, ?_, ?_⟩
    · show nodes.length = draft.slots.length
      rw [hslots, List.length_map]
    · intro i node
      show nodes[i]? = some node ↔ _
      rw [hslots, List.getElem?_map]
      simp

end GraphDraft

end SchemaGraph

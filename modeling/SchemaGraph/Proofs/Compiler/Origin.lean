import SchemaGraph.Proofs.Compiler.Made
import SchemaGraph.Proofs.Compiler.WideFrame
import SchemaGraph.Proofs.Conversion.Location

set_option autoImplicit false

/-! # The schemas of nodes

Whatever is called, and whatever of it fails, every node that stays was put together from a
schema, by a run on the way to the compiler it stays in. Later steps define no node anew.
-/

namespace SchemaGraph

open Compiling

namespace Compiler

variable {α : Type} {c d u : Compiler}

/-! ## Origins -/

/-- The settings and formats are as before, and every node that was defined still is. -/
structure Preserves (c d : Compiler) : Prop where
  config : d.config = c.config
  formats : d.formats = c.formats
  node : ∀ {i : Nat} {node : Node}, c.draft.slots[i]? = some (some node) →
    d.draft.slots[i]? = some (some node)

theorem preserves_composes : Composes Preserves where
  refl _ := ⟨rfl, rfl, fun h => h⟩
  trans hab hbc := ⟨hbc.config.trans hab.config, hbc.formats.trans hab.formats,
    fun h => hbc.node (hab.node h)⟩

/-- A schema that is no reference became a node, on the way to a compiler. -/
structure MadeFrom (c : Compiler) (entries : List (String × Json)) (key : CompileKey)
    (node : Node) :
    Prop where
  plain : Entries.find? "$ref" entries = none
  run : ∃ fuel depth u u', Compiling.node (value fuel) depth entries key.path key.polymorphic u =
    (.ok node, u') ∧ Preserves u' c

theorem MadeFrom.mono {entries : List (String × Json)} {key : CompileKey} {node : Node}
    (h : MadeFrom c entries key node) (hcd : Preserves c d) : MadeFrom d entries key node := by
  obtain ⟨fuel, depth, u, u', hrun, hpreserves⟩ := h.run
  exact ⟨h.plain, fuel, depth, u, u', hrun, preserves_composes.trans hpreserves hcd⟩

/-- Every node of a compiler was made from a schema. -/
def AllMade (c : Compiler) : Prop :=
  ∀ (i : Nat) (node : Node), c.draft.slots[i]? = some (some node) →
    ∃ entries key, MadeFrom c entries key node

/-- Nodes stay as they are, and new ones are made from schemas. -/
structure StaysMade (c d : Compiler) : Prop where
  preserves : Preserves c d
  made : AllMade c → AllMade d

/-- What leaves the settings, the formats and the draft alone makes no nodes. -/
theorem staysMade_of_draft (hconfig : d.config = c.config) (hformats : d.formats = c.formats)
    (hdraft : d.draft = c.draft) : StaysMade c d := by
  have hpreserves : Preserves c d := ⟨hconfig, hformats, fun h => by rw [hdraft]; exact h⟩
  refine ⟨hpreserves, fun hc i node hnode => ?_⟩
  rw [hdraft] at hnode
  obtain ⟨entries, key, hmade⟩ := hc i node hnode
  exact ⟨entries, key, hmade.mono hpreserves⟩

theorem staysMade_frame : Frame StaysMade anyPlace where
  refl c := staysMade_of_draft rfl rfl rfl
  trans hab hbc := ⟨preserves_composes.trans hab.preserves hbc.preserves,
    fun h => hbc.made (hab.made h)⟩
  onlyResolver {c d} h := by
    rw [h.same]
    exact staysMade_of_draft rfl rfl rfl
  entry _ _ := trivial
  item _ _ := trivial
  extension _ _ := .inl trivial

theorem staysMade_wideFrame : WideFrame StaysMade where
  toFrame := staysMade_frame
  remember _ _ := staysMade_of_draft rfl rfl rfl
  within url chain part hpart c := by
    have hbefore : StaysMade c { c with resolver := c.resolver.pushScope url, chain } :=
      staysMade_of_draft rfl rfl rfl
    have hinside := staysMade_frame.trans hbefore (hpart _)
    exact staysMade_frame.trans hinside (staysMade_of_draft rfl rfl rfl)

/-! ## Schemas -/

theorem opened_made (key : CompileKey) : StaysMade c (opened c key) := by
  have hslots : (opened c key).draft.slots = c.draft.slots ++ [none] := rfl
  have hpreserves : Preserves c (opened c key) := by
    refine ⟨rfl, rfl, fun {i node} hnode => ?_⟩
    rw [hslots, List.getElem?_append_left (GraphDraft.slot_lt hnode)]
    exact hnode
  refine ⟨hpreserves, fun hc i node hnode => ?_⟩
  rw [hslots] at hnode
  by_cases hi : i < c.draft.slots.length
  · rw [List.getElem?_append_left hi] at hnode
    obtain ⟨entries, key, hmade⟩ := hc i node hnode
    exact ⟨entries, key, hmade.mono hpreserves⟩
  · rw [List.getElem?_append_right (Nat.le_of_not_lt hi)] at hnode
    rcases List.mem_singleton.1 (List.mem_of_getElem? hnode) with ⟨⟩

/-- The slot that is defined at the end of a schema was empty. -/
theorem ended_preserves {key : CompileKey} (h : Extends (opened c key) u) (node : Node)
    (state : Compiled) :
    Preserves u (ended c u key ⟨u.draft.slots.set c.draft.next (some node)⟩ state) := by
  refine ⟨rfl, rfl, fun {i found} hfound => ?_⟩
  have hne : c.draft.next ≠ i := by
    rintro rfl
    rw [reserved_slot h] at hfound
    cases hfound
  show (u.draft.slots.set c.draft.next (some node))[i]? = _
  rw [List.getElem?_set_ne hne]
  exact hfound

theorem schema_made {fuel : Nat} {entries : List (String × Json)} (key : CompileKey)
    (hplain : Entries.find? "$ref" entries = none)
    (hparts : KeepsParts StaysMade anyPlace (value fuel)) :
    Keeps StaysMade (schema (value fuel) fuel entries key) := by
  intro c
  have hextends := grows_frame.node (value_sound fuel).keeps fuel key.polymorphic
    (show anyPlace (.obj entries) key.path from trivial) (opened c key)
  have hkeep := staysMade_frame.node hparts fuel key.polymorphic
    (show anyPlace (.obj entries) key.path from trivial) (opened c key)
  rcases hrun : Compiling.node (value fuel) fuel entries key.path key.polymorphic (opened c key)
    with ⟨r, u⟩
  rw [hrun] at hextends hkeep
  have hcu : StaysMade c u := staysMade_frame.trans (opened_made key) hkeep
  rw [run_schema hrun hextends.1]
  cases r with
  | error failure => exact staysMade_frame.trans hcu (staysMade_of_draft rfl rfl rfl)
  | ok node =>
      have hended := ended_preserves hextends.1 node (.defined c.draft.next)
      refine staysMade_frame.trans hcu ⟨hended, fun hu i found hslot => ?_⟩
      change (u.draft.slots.set c.draft.next (some node))[i]? = _ at hslot
      by_cases hi : c.draft.next = i
      · subst hi
        rw [List.getElem?_set_self (GraphDraft.slot_lt (reserved_slot hextends.1))] at hslot
        cases hslot
        exact ⟨entries, key, hplain, fuel, fuel, _, u, hrun, hended⟩
      · rw [List.getElem?_set_ne hi] at hslot
        obtain ⟨entries, key, hmade⟩ := hu i found hslot
        exact ⟨entries, key, hmade.mono hended⟩

theorem compilePointer_made (fuel : Nat) (reference : String) :
    Keeps StaysMade (compilePointer fuel reference) :=
  staysMade_wideFrame.compilePointer (staysMade_wideFrame.value schema_made fuel) reference

/-! ## Calls -/

/-- What a compilation that failed takes back is what it made. -/
theorem undone_made (h : Extends c u) : StaysMade c (undone c u) :=
  staysMade_of_draft h.config h.formats (draft_undone h)

theorem compile_made (c : Compiler) (fuel : Nat) (pointer : String) :
    StaysMade c (c.compile fuel pointer).2 := by
  have hchecked := checkIfAsked_onlyResolver fuel pointer c
  rw [run_compile]
  generalize checkIfAsked fuel pointer c = run at hchecked ⊢
  obtain ⟨r, d⟩ := run
  have hcd : StaysMade c d := staysMade_frame.onlyResolver hchecked
  cases r with
  | error failure => exact hcd
  | ok _ =>
      have hpointer := compilePointer_made fuel pointer d
      have hsound := compilePointer_sound fuel pointer d
      dsimp only
      rw [run_undoOnFailure]
      generalize compilePointer fuel pointer d = run at hpointer hsound ⊢
      obtain ⟨r, u⟩ := run
      cases r with
      | ok id => exact staysMade_frame.trans hcd hpointer
      | error failure => exact staysMade_frame.trans hcd (undone_made hsound.grows.1)

theorem calls_made (calls : List Call) : ∀ {c : Compiler}, StaysMade c (c.calls calls).1 := by
  induction calls with
  | nil => intro c; exact staysMade_frame.refl c
  | cons first rest ih =>
      intro c
      refine staysMade_frame.trans ?_ ih
      cases first with
      | compile fuel pointer => exact compile_made c fuel pointer
      | check fuel pointer => exact staysMade_frame.onlyResolver (check_onlyResolver fuel pointer c)

theorem allMade_withResolver (resolver : Resolver) (config : Config) :
    AllMade (withResolver resolver config) := by
  intro i node hnode
  cases hnode

/-! ## What nodes are like -/

theorem node_of_made {entries : List (String × Json)} {key : CompileKey} {node : Node}
    (h : MadeFrom c entries key node) : ∃ u, Judges u ⟨entries, key.path, c.messages⟩ node ∧
      u.formats = c.formats := by
  obtain ⟨fuel, depth, u, u', hrun, hpreserves⟩ := h.run
  have hextends := grows_frame.node (value_sound fuel).keeps depth key.polymorphic
    (show anyPlace (.obj entries) key.path from trivial) u
  rw [hrun] at hextends
  have hmessages : c.messages = u.messages :=
    congrArg Config.messages (hpreserves.config.trans hextends.1.config)
  refine ⟨u, ?_, (hpreserves.formats.trans hextends.1.formats).symm⟩
  rw [hmessages]
  exact node_judges (value_sound fuel).keeps hrun

/-- Strict responses pass through every node that does not take texts for bytes. -/
theorem MadeFrom.echoes {entries : List (String × Json)} {key : CompileKey} {node : Node}
    (h : MadeFrom c entries key node) (hbytes : node.takesBytes = false) : node.echoes = true := by
  obtain ⟨u, hjudges, -⟩ := node_of_made h
  rcases hjudges with hechoes | ⟨_, _, _, -, -, rfl⟩
  · exact hechoes
  · cases hbytes

/-- Only a schema of the format `byte` becomes a node that takes texts for bytes. -/
theorem MadeFrom.byte {entries : List (String × Json)} {key : CompileKey} {node : Node}
    (h : MadeFrom c entries key node) (hformats : c.formats = .builtIn)
    (hbytes : node.takesBytes = true) :
    (Keywords.string ⟨entries, key.path, c.messages⟩ "format").value = some "byte" := by
  obtain ⟨u, hjudges, hsame⟩ := node_of_made h
  exact byte_of_judges (hsame.trans hformats) hjudges hbytes

theorem MadeFrom.refers {entries : List (String × Json)} {key : CompileKey} {node : Node}
    (h : MadeFrom c entries key node) : node.refers = false := by
  cases node with
  | reference messages target => cases h.echoes rfl
  | _ => rfl

/-- A node of a graph is the node of a schema. -/
theorem made_of_graph (h : AllMade c) (hc : Settled c) {id : NodeId} {graph : Graph}
    (hgraph : c.graph id = .ok graph) {i : NodeId} {node : Node}
    (hnode : graph.get? i = some node) :
    ∃ entries key, MadeFrom c entries key node :=
  h i node ((draws_of_graph hc hgraph i node).1 hnode)

end Compiler

end SchemaGraph

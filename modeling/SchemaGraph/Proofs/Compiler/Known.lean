import SchemaGraph.Proofs.Compiler.Origin

set_option autoImplicit false

/-! # What is known after a compilation

A location that compiled has its node. At a location of which nothing was known, that is the node
of the schema that stands there, and the locations of its parts have the nodes it refers to.
-/

namespace SchemaGraph

open Compiling

namespace Compiler

variable {c d u : Compiler} {fuel : Nat} {id : NodeId} {path referencing : Path} {flag : Bool}
  {entries : List (String × Json)}

/-! ## Schemas -/

/-- A schema that gives a node defines it at the end: what the parts made stays, and its location
has the node. -/
theorem schema_defined {depth : Nat} {key : CompileKey}
    (h : schema (value fuel) depth entries key c = (.ok id, d)) :
    ∃ node u, Compiling.node (value fuel) depth entries key.path key.polymorphic (opened c key) =
      (.ok node, u) ∧ Extends (opened c key) u ∧ id = c.draft.next ∧
      d = ended c u key ⟨u.draft.slots.set c.draft.next (some node)⟩ (.defined c.draft.next) := by
  have hextends := grows_frame.node (value_sound fuel).keeps depth key.polymorphic
    (show anyPlace (.obj entries) key.path from trivial) (opened c key)
  rcases hrun : Compiling.node (value fuel) depth entries key.path key.polymorphic (opened c key)
    with ⟨r, u⟩
  rw [hrun] at hextends
  rw [run_schema hrun hextends.1] at h
  cases r with
  | error failure => cases h
  | ok node =>
      cases h
      exact ⟨node, u, rfl, hextends.1, rfl, rfl⟩

/-- A location that compiled is known by its node. -/
theorem value_known {written : Json}
    (h : value fuel written path referencing flag c = (.ok id, d)) :
    ∃ state, d.memory.find? ⟨path, flag⟩ = some state ∧ state.node? = some id := by
  cases fuel with
  | zero => cases h
  | succ fuel =>
      unfold value at h
      rw [run_reuse] at h
      cases hkey : c.memory.find? ⟨path, flag⟩ with
      | some state =>
          rw [hkey] at h
          cases state with
          | poisoned => cases h
          | _ =>
              cases h
              exact ⟨_, hkey, rfl⟩
      | none =>
          rw [hkey] at h
          cases written with
          | obj entries =>
              dsimp only at h
              cases href : Entries.find? "$ref" entries with
              | none =>
                  rw [href] at h
                  obtain ⟨node, u, -, -, rfl, rfl⟩ := schema_defined h
                  exact ⟨_, CompileMemory.find?_set_self _ _ _, rfl⟩
              | some reference =>
                  rw [href] at h
                  obtain ⟨result, u, -, h⟩ := bind_ok h
                  cases result with
                  | error failure =>
                      obtain ⟨_, v, -, h⟩ := bind_ok h
                      cases h
                  | ok node =>
                      cases h
                      exact ⟨_, CompileMemory.find?_set_self _ _ _, rfl⟩
          | _ => cases h

/-! ## Parts -/

/-- The locations of parts have their nodes. -/
def HasParts (c : Compiler) (parts : List (Json × Path × Bool)) (nodes : List NodeId) : Prop :=
  List.Forall₂ (fun part node => c.memory.find? ⟨part.2.1, part.2.2⟩ = some (.defined node))
    parts nodes

theorem HasParts.mono {parts : List (Json × Path × Bool)} {nodes : List NodeId}
    (h : HasParts c parts nodes) (hcd : Extends c d) : HasParts d parts nodes :=
  h.imp fun _ _ hpart => hcd.known hpart

/-- Where nothing is reserved but the location of a schema, the parts it compiled have their
nodes. -/
theorem hasParts_of_compile {parts : List (Json × Path × Bool)} {nodes : List NodeId}
    {key : CompileKey} (hreserved : ∀ other node, c.memory.find? other ≠ some (.reserved node))
    (hu : Extends (opened c key) u) (hparts : ∀ part ∈ parts, part.2.1 ≠ key.path)
    (h : PartsCompile (value fuel) u parts nodes) (draft : GraphDraft) (state : Compiled) :
    HasParts (ended c u key draft state) parts nodes := by
  induction h with
  | nil => exact .nil
  | @cons part node parts nodes hfirst _ ih =>
      refine .cons ?_ (ih fun part hpart => hparts part (List.mem_cons_of_mem _ hpart))
      have hne : (⟨part.2.1, part.2.2⟩ : CompileKey) ≠ key := by
        rintro rfl
        exact hparts part List.mem_cons_self rfl
      obtain ⟨v, v', hvalue, hgrows⟩ := hfirst
      obtain ⟨found, hfound, hnode⟩ := value_known hvalue
      have hknown := hgrows.1.known hfound
      refine (CompileMemory.find?_set_of_ne hne).trans ?_
      cases found with
      | poisoned => cases hnode
      | defined other =>
          cases hnode
          exact hknown
      | reserved other =>
          -- only the schema itself is reserved, and it is not one of its parts
          have hopened := hu.reserved hknown
          change (c.memory.set key (.reserved c.draft.next)).find? _ = _ at hopened
          rw [CompileMemory.find?_set_of_ne hne] at hopened
          exact absurd hopened (hreserved _ _)

/-! ## New locations -/

/-- A schema compiled at the location of a pointer, on the way from a compiler to another one. -/
structure CompilesAt (c : Compiler) (url : String) (written : Json) (id : NodeId) (fuel : Nat)
    (d : Compiler) : Prop where
  run : ∃ start v, value fuel written (Path.ofUri url) (Path.ofUri url) c.config.allowPolymorphism
    start = (.ok id, v) ∧ start.memory = c.memory ∧ d.memory = v.memory ∧ StaysMade v d

theorem compilePointer_value {pointer : String} (h : compilePointer fuel pointer c = (.ok id, d)) :
    ∃ url written, (Compiling.pointer pointer c).1 = .ok (url, written) ∧
      CompilesAt c url written id fuel d := by
  obtain ⟨⟨url, written⟩, u, hread, hvalue⟩ := bind_ok h
  have honly := pointer_onlyResolver pointer c
  rw [hread] at honly ⊢
  refine ⟨url, written, rfl, ?_⟩
  have hsame : u = { c with resolver := u.resolver } := honly.same
  rw [hsame] at hvalue
  dsimp only at hvalue
  rw [run_bind_of_ok (run_get _), run_bind_of_ok (run_outcome _ _), run_inScope, run_withChain]
    at hvalue
  generalize hrun : value fuel written (Path.ofUri url) (Path.ofUri url) _ _ = run at hvalue
  obtain ⟨r, v⟩ := run
  cases r with
  | error failure =>
      cases failure with
      | recursive =>
          obtain ⟨_, w, -, hvalue⟩ := bind_ok hvalue
          cases hvalue
      | _ => cases hvalue
  | ok node =>
      cases hvalue
      exact ⟨_, v, hrun, rfl, rfl, staysMade_of_draft rfl rfl rfl⟩

theorem compile_value {pointer : String} (h : c.compile fuel pointer = (.ok id, d)) :
    ∃ url written, (Compiling.pointer pointer (checkIfAsked fuel pointer c).2).1 =
        .ok (url, written) ∧ CompilesAt c url written id fuel d := by
  have hchecked := checkIfAsked_onlyResolver fuel pointer c
  rw [run_compile] at h
  generalize checkIfAsked fuel pointer c = run at hchecked h ⊢
  obtain ⟨r, u⟩ := run
  cases r with
  | error failure => cases h
  | ok _ =>
      dsimp only at h
      rw [run_undoOnFailure] at h
      cases hcompile : compilePointer fuel pointer u with
      | mk r v =>
          rw [hcompile] at h
          cases r with
          | error failure => cases h
          | ok found =>
              cases h
              obtain ⟨url, written, hread, hat⟩ := compilePointer_value hcompile
              have hsame : u = { c with resolver := u.resolver } := hchecked.same
              rw [hsame] at hat
              exact ⟨url, written, hread, ⟨hat.run⟩⟩

/-- At a location of which nothing was known, the node is that of the schema that stands there, and
its parts are known. -/
theorem CompilesAt.new {url : String} (h : CompilesAt c url (.obj entries) id fuel d)
    (hc : Settled c)
    (hplain : Entries.find? "$ref" entries = none)
    (hnew : c.memory.find? ⟨Path.ofUri url, c.config.allowPolymorphism⟩ = none) :
    ∃ depth start node u, Compiling.node (value depth) depth entries (Path.ofUri url)
        c.config.allowPolymorphism start = (.ok node, u) ∧ Preserves u d ∧
      d.draft.slots[id]? = some (some node) ∧
      ∀ parts nodes, (∀ part ∈ parts, part.2.1 ≠ Path.ofUri url) →
        PartsCompile (value depth) u parts nodes → HasParts d parts nodes := by
  obtain ⟨start, v, hrun, hstart, hd, hstays⟩ := h.run
  cases fuel with
  | zero => cases hrun
  | succ depth =>
      unfold value at hrun
      rw [run_reuse, hstart, hnew] at hrun
      dsimp only at hrun
      rw [hplain] at hrun
      obtain ⟨node, u, hnode, hextends, rfl, rfl⟩ := schema_defined hrun
      refine ⟨depth, _, node, u, hnode, ?_, ?_, fun parts nodes hne hparts => ?_⟩
      · exact preserves_composes.trans (ended_preserves hextends node _) hstays.preserves
      · refine hstays.preserves.node ?_
        show (u.draft.slots.set start.draft.next (some node))[start.draft.next]? = _
        rw [List.getElem?_set_self (GraphDraft.slot_lt (reserved_slot hextends))]
      · have hreserved : ∀ key node, start.memory.find? key ≠ some (.reserved node) := by
          rw [hstart]
          exact fun _ _ => hc.unreserved
        have hended := hasParts_of_compile hreserved hextends hne hparts
          ⟨u.draft.slots.set start.draft.next (some node)⟩ (.defined start.draft.next)
        unfold HasParts at hended ⊢
        rw [hd]
        exact hended

theorem compilePointer_known {pointer url : String} {written : Json}
    (hread : (Compiling.pointer pointer c).1 = .ok (url, written))
    (hknown : c.memory.find? ⟨Path.ofUri url, c.config.allowPolymorphism⟩ = some (.defined id)) :
    (compilePointer (fuel + 1) pointer c).1 = .ok id := by
  have hpointer := pointer_onlyResolver pointer c
  cases hrun : Compiling.pointer pointer c with
  | mk r u =>
      rw [hrun] at hread hpointer
      cases hread
      have hsame : u = { c with resolver := u.resolver } := hpointer.same
      have hvalue : ∀ start : Compiler, start.memory = c.memory →
          value (fuel + 1) written (Path.ofUri url) (Path.ofUri url) c.config.allowPolymorphism
            start = (.ok id, start) := by
        intro start hstart
        unfold value
        rw [run_reuse, hstart, hknown]
        rfl
      unfold compilePointer
      rw [run_bind_of_ok hrun, hsame]
      dsimp only
      rw [run_bind_of_ok (run_get _), run_bind_of_ok (run_outcome _ _), run_inScope, run_withChain]
      dsimp only
      rw [hvalue { c with resolver := u.resolver.pushScope url, chain := [Path.ofUri url] } rfl]
      rfl

/-- A new location compiles if its schema becomes a node. -/
theorem compilePointer_new {pointer url : String}
    (hread : (Compiling.pointer pointer c).1 = .ok (url, .obj entries))
    (hplain : Entries.find? "$ref" entries = none)
    (hnew : c.memory.find? ⟨Path.ofUri url, c.config.allowPolymorphism⟩ = none)
    (hnode : ∀ start, ∃ node, (Compiling.node (value fuel) fuel entries (Path.ofUri url)
      c.config.allowPolymorphism start).1 = .ok node) :
    ∃ id, (compilePointer (fuel + 1) pointer c).1 = .ok id := by
  have hpointer := pointer_onlyResolver pointer c
  cases hrun : Compiling.pointer pointer c with
  | mk r u =>
      rw [hrun] at hread hpointer
      cases hread
      have hsame : u = { c with resolver := u.resolver } := hpointer.same
      have hvalue : ∀ start : Compiler, start.memory = c.memory →
          ∃ id d, value (fuel + 1) (.obj entries) (Path.ofUri url) (Path.ofUri url)
            c.config.allowPolymorphism start = (.ok id, d) := by
        intro start hstart
        unfold value
        rw [run_reuse, hstart, hnew]
        dsimp only [reuse]
        rw [hplain]
        dsimp only
        have hresult := schema_result fuel fuel entries
          ⟨Path.ofUri url, c.config.allowPolymorphism⟩ start
        obtain ⟨node, hnode⟩ := hnode (opened start ⟨Path.ofUri url, c.config.allowPolymorphism⟩)
        rw [hnode] at hresult
        exact ⟨_, exists_of_fst hresult⟩
      obtain ⟨id, d, hid⟩ := hvalue
        { c with resolver := u.resolver.pushScope url, chain := [Path.ofUri url] } rfl
      refine ⟨id, ?_⟩
      unfold compilePointer
      rw [run_bind_of_ok hrun, hsame]
      dsimp only
      rw [run_bind_of_ok (run_get _), run_bind_of_ok (run_outcome _ _), run_inScope, run_withChain]
      dsimp only
      rw [hid]
      rfl

/-- A check that finds nothing does not keep a schema from compiling. -/
theorem compile_of_pointer {pointer : String} (hchecked : (checkIfAsked fuel pointer c).1 = .ok ())
    (h : (compilePointer fuel pointer (checkIfAsked fuel pointer c).2).1 = .ok id) :
    (c.compile fuel pointer).1 = .ok id := by
  rw [run_compile]
  generalize checkIfAsked fuel pointer c = run at hchecked h ⊢
  obtain ⟨r, u⟩ := run
  cases hchecked
  dsimp only at h ⊢
  rw [run_undoOnFailure]
  generalize compilePointer fuel pointer u = run at h ⊢
  obtain ⟨r, v⟩ := run
  cases h
  rfl

/-- A check leaves everything as it is that is known. -/
theorem find?_checked (fuel : Nat) (pointer url : String) :
    (checkIfAsked fuel pointer c).2.memory.find?
        ⟨Path.ofUri url, (checkIfAsked fuel pointer c).2.config.allowPolymorphism⟩ =
      c.memory.find? ⟨Path.ofUri url, c.config.allowPolymorphism⟩ := by
  rw [(checkIfAsked_onlyResolver fuel pointer c).same]

/-- A location that has a node compiles to it again. -/
theorem compile_known {pointer url : String} {written : Json}
    (hchecked : (checkIfAsked (fuel + 1) pointer c).1 = .ok ())
    (hread : (Compiling.pointer pointer (checkIfAsked (fuel + 1) pointer c).2).1 =
      .ok (url, written))
    (hknown : c.memory.find? ⟨Path.ofUri url, c.config.allowPolymorphism⟩ = some (.defined id)) :
    (c.compile (fuel + 1) pointer).1 = .ok id :=
  compile_of_pointer hchecked
    (compilePointer_known hread ((find?_checked (fuel + 1) pointer url).trans hknown))

/-- A new location compiles if its schema becomes a node and the check finds nothing. -/
theorem compile_new {pointer url : String}
    (hchecked : (checkIfAsked (fuel + 1) pointer c).1 = .ok ())
    (hread : (Compiling.pointer pointer (checkIfAsked (fuel + 1) pointer c).2).1 =
      .ok (url, .obj entries))
    (hplain : Entries.find? "$ref" entries = none)
    (hnew : c.memory.find? ⟨Path.ofUri url, c.config.allowPolymorphism⟩ = none)
    (hnode : ∀ flag start, ∃ node, (Compiling.node (value fuel) fuel entries (Path.ofUri url)
      flag start).1 = .ok node) :
    ∃ id, (c.compile (fuel + 1) pointer).1 = .ok id := by
  obtain ⟨id, hid⟩ := compilePointer_new hread hplain
    ((find?_checked (fuel + 1) pointer url).trans hnew) (hnode _)
  exact ⟨id, compile_of_pointer hchecked hid⟩

/-- A part and its node: its location has the node, and so the part compiles to it when it is
compiled on its own. -/
structure Entered (c : Compiler) (part : Json × Path × Bool) (node : NodeId) : Prop where
  known : c.memory.find? ⟨part.2.1, part.2.2⟩ = some (.defined node)
  compiles : c.config.allowPolymorphism = part.2.2 → ∀ fuel pointer url written,
    (checkIfAsked (fuel + 1) pointer c).1 = .ok () →
    (Compiling.pointer pointer (checkIfAsked (fuel + 1) pointer c).2).1 = .ok (url, written) →
    Path.ofUri url = part.2.1 → (c.compile (fuel + 1) pointer).1 = .ok node

theorem HasParts.entered {parts : List (Json × Path × Bool)} {nodes : List NodeId}
    (h : HasParts c parts nodes) : List.Forall₂ (Entered c) parts nodes := by
  refine h.imp fun part node hpart =>
    ⟨hpart, fun hflag fuel pointer url written hchecked hread hpath => ?_⟩
  refine compile_known hchecked hread ?_
  rw [hpath, hflag]
  exact hpart

end Compiler

end SchemaGraph

import SchemaGraph.Proofs.Compiler.Coherence
import SchemaGraph.Proofs.Conversion.Frame

set_option autoImplicit false

/-! # Calls on a compiler

Its user checks and compiles schemas in any order, and some of this fails. A check leaves
everything but the resolver as it is. A compilation that succeeds extends a compiler; one that
fails also does, by what is known only, since its nodes are taken back. So between calls a
compiler is settled, and a node that was handed out once stays and can be entered at any time.
-/

namespace SchemaGraph

open Compiling

namespace Compiler

variable {c d u : Compiler}

/-! ## Checks -/

theorem pointer_onlyResolver (reference : String) : Keeps OnlyResolver (pointer reference) := by
  refine onlyResolver_composes.bind (onlyResolver_resolve reference) fun resolved => ?_
  split
  · exact onlyResolver_composes.pure _
  · exact onlyResolver_composes.bind onlyResolver_composes.get fun _ =>
      keeps_failWith onlyResolver_composes _ _

theorem check_onlyResolver (fuel : Nat) (reference : String) :
    Keeps OnlyResolver (Compiling.check fuel reference) := by
  refine onlyResolver_composes.bind (pointer_onlyResolver reference) fun found => ?_
  refine onlyResolver_composes.bind onlyResolver_composes.get fun compiler => ?_
  refine onlyResolver_scope _ ?_
  intro c
  rw [run_bind_of_ok (run_get c)]
  obtain ⟨r, hr, hkept⟩ :=
    Conversion.keepsResolver_frame.convertWithin (Model.graph compiler.messages)
    (Options.ofEntity .specification).mode fuel Model.entry (some found.2) (Path.ofUri found.1)
    (.start (some c.resolver)) c.resolver rfl
  have hresolver : ((Model.graph compiler.messages).convertAt fuel Model.entry (some found.2)
      (Path.ofUri found.1) (Options.ofEntity .specification).mode (some c.resolver)).2 =
        some r := hr
  dsimp only
  generalize (Model.graph compiler.messages).convertAt fuel Model.entry (some found.2)
    (Path.ofUri found.1) (Options.ofEntity .specification).mode (some c.resolver) = run
    at hresolver ⊢
  obtain ⟨outcome, resolver⟩ := run
  cases hresolver
  have hchanged : OnlyResolver c { c with resolver := r } := ⟨rfl, hkept⟩
  rw [run_bind_of_ok (run_modify _ c)]
  cases outcome <;> exact hchanged

theorem checkIfAsked_onlyResolver (fuel : Nat) (reference : String) :
    Keeps OnlyResolver (checkIfAsked fuel reference) := by
  refine onlyResolver_composes.bind onlyResolver_composes.get fun compiler => ?_
  split
  · exact check_onlyResolver fuel reference
  · exact onlyResolver_composes.pure _

theorem extends_of_onlyResolver (h : OnlyResolver c d) : Extends c d := by
  rw [h.same]
  exact (Extends.refl c).withResolver

theorem settled_of_onlyResolver (h : OnlyResolver c d) (hc : Settled c) : Settled d := by
  rw [h.same]
  exact ⟨⟨hc.single, hc.known, hc.closed⟩, hc.filled, hc.unreserved⟩

/-! ## Compilations -/

/-- A chain that comes back to itself was followed because nothing was known of its start. -/
theorem unknown_of_recursive {fuel : Nat} {written : Json} {path referencing : Path} {flag : Bool}
    (h : (value fuel written path referencing flag c).1 = .error .recursive) :
    c.memory.find? ⟨path, flag⟩ = none := by
  cases fuel with
  | zero => cases h
  | succ fuel =>
      unfold value at h
      rw [run_reuse] at h
      cases hkey : c.memory.find? ⟨path, flag⟩ with
      | none => rfl
      | some state =>
          rw [hkey] at h
          cases state <;> cases h

theorem compilePointer_sound (fuel : Nat) (reference : String) (c : Compiler) :
    Sound c (compilePointer fuel reference c) := by
  have hpointer := pointer_onlyResolver reference c
  unfold compilePointer
  rw [run_bind]
  rcases hrun : pointer reference c with ⟨r, d⟩
  rw [hrun] at hpointer
  have hsame : d = { c with resolver := d.resolver } := hpointer.same
  cases r with
  | error failure =>
      rw [hsame]
      exact Sound.error (grows_frame.refl c).withResolver
  | ok found =>
      obtain ⟨url, written⟩ := found
      rw [hsame]
      refine Sound.resolved (r := d.resolver) ?_
      generalize ({ c with resolver := d.resolver } : Compiler) = c
      dsimp only
      rw [run_bind_of_ok (run_get c), run_bind_of_ok (run_outcome _ c)]
      have hsound := Sound.inScope (Sound.ownChain (value_sound fuel written (Path.ofUri url)
        (Path.ofUri url) c.config.allowPolymorphism) [Path.ofUri url]) url c
      rcases hvalue : inScope url (withChain [Path.ofUri url] (value fuel written (Path.ofUri url)
        (Path.ofUri url) c.config.allowPolymorphism)) c with ⟨r, u⟩
      rw [hvalue] at hsound
      cases r with
      | ok node => exact hsound
      | error failure =>
          cases failure with
          | errors errors => exact Sound.error hsound.grows
          | outOfFuel => exact Sound.error hsound.grows
          | recursive =>
              refine Sound.error (hsound.grows.set ?_ (fun id => by simp) ?_)
              · rw [run_inScope, run_withChain] at hvalue
                injection hvalue with hfirst
                exact unknown_of_recursive (c := { c with
                  resolver := c.resolver.pushScope url, chain := [Path.ofUri url] }) hfirst
              · intro id hid
                cases hid

/-- A compiler after a compilation was taken back. -/
def undone (c u : Compiler) : Compiler :=
  { u with draft := u.draft.truncate c.length, memory := u.memory.forgetFrom c.length }

theorem run_undoOnFailure (part : Compiling NodeId) (c : Compiler) :
    undoOnFailure part c = match part c with
      | (.ok node, u) => (.ok node, u)
      | (.error failure, u) => (.error failure, undone c u) := by
  unfold undoOnFailure
  rw [run_bind_of_ok (run_get c), run_bind_of_ok (run_outcome _ c)]
  rcases part c with ⟨_ | _, _⟩ <;> rfl

theorem draft_undone (h : Extends c u) : (undone c u).draft = c.draft := by
  have hslots : u.draft.slots.take c.length = c.draft.slots := by
    refine List.ext_getElem? fun i => ?_
    by_cases hi : i < c.length
    · rw [List.getElem?_take_of_lt hi]
      exact h.slot hi
    · have hle : c.draft.slots.length ≤ i := Nat.le_of_not_lt hi
      rw [List.getElem?_eq_none hle, List.getElem?_eq_none]
      rw [List.length_take]
      exact Nat.le_trans (Nat.min_le_left _ _) hle
  show (⟨u.draft.slots.take c.length⟩ : GraphDraft) = c.draft
  rw [hslots]

theorem find?_undone (hu : Coherent u) (key : CompileKey) :
    (undone c u).memory.find? key = (u.memory.find? key).filter (Compiled.isBelow c.length) :=
  CompileMemory.find?_forgetFrom hu.single c.length key

/-- What was taken back still extends a settled compiler, namely by what is known. -/
theorem undone_extends (hc : Settled c) (h : Grows c u) : Extends c (undone c u) where
  config := h.1.config
  formats := h.1.formats
  chain := h.1.chain
  length := by
    have hsame : (undone c u).draft.length = c.draft.length := by rw [draft_undone h.1]
    exact Nat.le_of_eq hsame.symm
  slot _ := by rw [draft_undone h.1]
  known {key state} hknown := by
    rw [find?_undone (h.2 hc.toCoherent), h.1.known hknown]
    refine Option.filter_some_pos ?_
    unfold Compiled.isBelow
    cases hnode : state.node? with
    | none => rfl
    | some id => exact decide_eq_true (hc.known hknown hnode)
  reserved {key id} hreserved := by
    rw [find?_undone (h.2 hc.toCoherent)] at hreserved
    exact h.1.reserved (Option.eq_some_of_filter_eq_some hreserved)

theorem undone_settled (hc : Settled c) (h : Grows c u) : Settled (undone c u) where
  single := CompileMemory.single_forgetFrom (h.2 hc.toCoherent).single c.length
  known {key state id} hknown hid := by
    rw [find?_undone (h.2 hc.toCoherent)] at hknown
    have hbelow := (Option.filter_eq_some_iff.1 hknown).2
    unfold Compiled.isBelow at hbelow
    rw [hid] at hbelow
    show id < (undone c u).draft.length
    rw [draft_undone h.1]
    exact of_decide_eq_true hbelow
  closed {i node} hslot child hchild := by
    show child < (undone c u).draft.length
    rw [draft_undone h.1] at hslot ⊢
    exact hc.closed hslot child hchild
  filled i _ hi := by
    change i < (undone c u).draft.length at hi
    rw [draft_undone h.1] at hi ⊢
    exact hc.filled i (Nat.zero_le i) hi
  unreserved {key id} hreserved :=
    hc.unreserved ((undone_extends hc h).reserved hreserved)

/-- A run that gives a node leaves nothing open. -/
theorem Sound.settled {id : NodeId} (h : Sound c (.ok id, u)) (hc : Settled c) : Settled u where
  toCoherent := h.grows.2 hc.toCoherent
  filled := hc.filled.extend h.grows.1 (h.result rfl hc.toCoherent).2
  unreserved hreserved := hc.unreserved (h.grows.1.reserved hreserved)

/-- What a compilation does to a settled compiler. -/
structure Compiles (c : Compiler) (run : Except CompileFailure NodeId × Compiler) : Prop where
  settled : Settled run.2
  extended : Extends c run.2
  node : ∀ {id}, run.1 = .ok id → id < run.2.length
  undone : ∀ {failure}, run.1 = .error failure → run.2.draft = c.draft

theorem Compiles.error {failure : CompileFailure} (hd : Settled d) (hcd : Extends c d)
    (hdraft : d.draft = c.draft) : Compiles c (.error failure, d) :=
  ⟨hd, hcd, (fun h => nomatch h), fun _ => hdraft⟩

theorem undoOnFailure_compiles {part : Compiling NodeId} (hpart : Sound c (part c))
    (hc : Settled c) :
    Compiles c (undoOnFailure part c) := by
  rw [run_undoOnFailure]
  generalize part c = run at hpart ⊢
  obtain ⟨r, u⟩ := run
  cases r with
  | error failure =>
      exact .error (undone_settled hc hpart.grows) (undone_extends hc hpart.grows)
        (draft_undone hpart.grows.1)
  | ok node =>
      refine ⟨hpart.settled hc, hpart.grows.1, fun hid => ?_, nofun⟩
      cases hid
      exact (hpart.result rfl hc.toCoherent).1

theorem run_compile (c : Compiler) (fuel : Nat) (pointer : String) :
    c.compile fuel pointer = match checkIfAsked fuel pointer c with
      | (.ok _, d) => undoOnFailure (compilePointer fuel pointer) d
      | (.error failure, d) => (.error failure, d) := by
  show (checkIfAsked fuel pointer >>= fun _ => undoOnFailure (compilePointer fuel pointer)) c = _
  rw [run_bind]
  rcases checkIfAsked fuel pointer c with ⟨_ | _, _⟩ <;> rfl

theorem compile_settled (hc : Settled c) (fuel : Nat) (pointer : String) :
    Compiles c (c.compile fuel pointer) := by
  have hchecked := checkIfAsked_onlyResolver fuel pointer c
  rw [run_compile]
  generalize checkIfAsked fuel pointer c = run at hchecked ⊢
  obtain ⟨r, d⟩ := run
  have hd : OnlyResolver c d := hchecked
  cases r with
  | error failure =>
      refine .error (settled_of_onlyResolver hd hc) (extends_of_onlyResolver hd) ?_
      rw [hd.same]
  | ok _ =>
      have hcompiles := undoOnFailure_compiles (compilePointer_sound fuel pointer d)
        (settled_of_onlyResolver hd hc)
      refine ⟨hcompiles.settled, (extends_of_onlyResolver hd).trans hcompiles.extended,
        hcompiles.node, fun h => ?_⟩
      rw [hcompiles.undone h, hd.same]

/-! ## Runs of calls -/

/-- One call of a user. -/
inductive Call where
  | compile (fuel : Nat) (pointer : String)
  | check (fuel : Nat) (pointer : String)

/-- The compiler after a call, and the node the call gave. -/
def call (c : Compiler) : Call → Compiler × Option NodeId
  | .compile fuel pointer => ((c.compile fuel pointer).2, (c.compile fuel pointer).1.toOption)
  | .check fuel pointer => ((c.check fuel pointer).2, none)

/-- The compiler after a run of calls, and the nodes they gave. -/
def calls (c : Compiler) : List Call → Compiler × List NodeId
  | [] => (c, [])
  | first :: rest =>
    let (d, node) := c.call first
    let (e, nodes) := d.calls rest
    (e, node.toList ++ nodes)

theorem settled_withResolver (resolver : Resolver) (config : Config) :
    Settled (withResolver resolver config) where
  single := List.nodup_nil
  known h := by cases h
  closed h := by cases h
  filled i _ hi := absurd hi (Nat.not_lt_zero i)
  unreserved h := by cases h

theorem call_settled (hc : Settled c) (call : Call) :
    Settled (c.call call).1 ∧ Extends c (c.call call).1 ∧
      ∀ id ∈ (c.call call).2, id < (c.call call).1.length := by
  cases call with
  | compile fuel pointer =>
      obtain ⟨hsettled, hextends, hnode, -⟩ := compile_settled hc fuel pointer
      refine ⟨hsettled, hextends, fun id hid => hnode ?_⟩
      change (c.compile fuel pointer).1.toOption = some id at hid
      cases hresult : (c.compile fuel pointer).1 with
      | error failure =>
          rw [hresult] at hid
          cases hid
      | ok found =>
          rw [hresult] at hid
          cases hid
          rfl
  | check fuel pointer =>
      have hd : OnlyResolver c (c.check fuel pointer).2 := check_onlyResolver fuel pointer c
      exact ⟨settled_of_onlyResolver hd hc, extends_of_onlyResolver hd, fun id hid => by cases hid⟩

theorem calls_settled (calls : List Call) : ∀ {c : Compiler}, Settled c →
    Settled (c.calls calls).1 ∧ Extends c (c.calls calls).1 ∧
      ∀ id ∈ (c.calls calls).2, id < (c.calls calls).1.length := by
  induction calls with
  | nil =>
      intro c hc
      exact ⟨hc, .refl c, fun id hid => by cases hid⟩
  | cons first rest ih =>
      intro c hc
      obtain ⟨hd, hcd, hfirst⟩ := call_settled hc first
      obtain ⟨he, hde, hrest⟩ := ih hd
      refine ⟨he, hcd.trans hde, fun id hid => ?_⟩
      rcases List.mem_append.1 hid with hid | hid
      · exact Nat.lt_of_lt_of_le (hfirst id (Option.mem_toList.1 hid)) hde.length
      · exact hrest id hid

/-- The draft of a settled compiler builds. -/
theorem Settled.builds (hc : Settled c) :
    ∃ graph, c.draft.build = .ok graph ∧ graph.length = c.length ∧ c.draft.Draws graph :=
  GraphDraft.build_ok (fun i hi => hc.filled i (Nat.zero_le i) hi) fun _ _ hslot => hc.closed hslot

/-- Everything below the length of a settled compiler can be entered. -/
theorem graph_of_settled (hc : Settled c) {id : NodeId} (hid : id < c.length) :
    ∃ graph, c.graph id = .ok graph ∧ c.draft.Draws graph := by
  obtain ⟨built, hbuild, hlength, hdraws⟩ := hc.builds
  refine ⟨built, ?_, hdraws⟩
  have hlt : id < built.length := hlength ▸ hid
  unfold Compiler.graph
  rw [hbuild]
  show (if id < built.length then _ else _) = _
  rw [if_pos hlt]
  rfl

/-- A graph has the nodes of its compiler. -/
theorem draws_of_graph (hc : Settled c) {id : NodeId} {graph : Graph} (h : c.graph id = .ok graph) :
    c.draft.Draws graph := by
  obtain ⟨built, hbuild, -, hdraws⟩ := hc.builds
  unfold Compiler.graph at h
  rw [hbuild] at h
  change (if id < built.length then Except.ok built else throw (BuildError.unknownNode id)) = _ at h
  split at h
  · cases h
    exact hdraws
  · cases h

/-- A schema fails only if its node does: what is reserved for it can always be defined. -/
theorem schema_result (fuel depth : Nat) (entries : List (String × Json)) (key : CompileKey)
    (c : Compiler) : (schema (value fuel) depth entries key c).1 =
      (Compiling.node (value fuel) depth entries key.path key.polymorphic (opened c key)).1.map
        fun _ => c.draft.next := by
  have hkeep := grows_frame.node (value_sound fuel).keeps depth key.polymorphic
    (show anyPlace (.obj entries) key.path from trivial) (opened c key)
  rcases hrun : Compiling.node (value fuel) depth entries key.path key.polymorphic (opened c key)
    with ⟨r, u⟩
  rw [hrun] at hkeep
  rw [run_schema hrun hkeep.1]
  cases r <;> rfl

/-- A compiler stays coherent over every run of calls, whatever succeeds or fails in it.
Between calls it is settled; a compilation that fails leaves the draft as it was; later calls
change no node that is there; so the draft builds at any time, and everything an earlier call
gave can be entered. While a schema compiles, its node can be defined when it is there. -/
theorem calls_coherent (resolver : Resolver) (config : Config) (earlier later : List Call) :
    let start := withResolver resolver config
    let c := (start.calls earlier).1
    let d := (c.calls later).1
    Settled c ∧
      (∀ fuel pointer failure, (c.compile fuel pointer).1 = .error failure →
        (c.compile fuel pointer).2.draft = c.draft) ∧
      (c.length ≤ d.length ∧ ∀ i : Nat, i < c.length → d.draft.slots[i]? = c.draft.slots[i]?) ∧
      (∃ graph, d.draft.build = .ok graph) ∧
      (∀ id ∈ (start.calls earlier).2, ∃ graph, d.graph id = .ok graph) ∧
      ∀ fuel depth entries key (e : Compiler), (schema (value fuel) depth entries key e).1 =
        (Compiling.node (value fuel) depth entries key.path key.polymorphic (opened e key)).1.map
          fun _ => e.draft.next := by
  intro start c d
  obtain ⟨hc, -, hnodes⟩ := calls_settled earlier (settled_withResolver resolver config)
  obtain ⟨hd, hcd, -⟩ := calls_settled later hc
  refine ⟨hc, ?_, ⟨hcd.length, fun i hi => hcd.slot hi⟩, ?_, ?_, ?_⟩
  · intro fuel pointer failure hfailed
    exact (compile_settled hc fuel pointer).undone hfailed
  · obtain ⟨graph, hbuild, -⟩ := hd.builds
    exact ⟨graph, hbuild⟩
  · intro id hid
    obtain ⟨graph, hgraph, -⟩ := graph_of_settled hd (Nat.lt_of_lt_of_le (hnodes id hid) hcd.length)
    exact ⟨graph, hgraph⟩
  · intro fuel depth entries key e
    exact schema_result fuel depth entries key e

end Compiler

end SchemaGraph

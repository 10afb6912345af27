import SchemaGraph.Proofs.Compiler.Compilable
import SchemaGraph.Proofs.Compiler.Known
import SchemaGraph.Proofs.Compiler.Unfolding

set_option autoImplicit false

/-! # What a compilation leaves in memory

Poison stays when a failed compilation is taken back, so it has to be right for ever: only what does
not compile is poisoned (`Wary`). In turn, as long as poison is right, what compiles has a node,
unless fuel runs out. Where a run gives a node, every schema it defined rests on parts that have
nodes too (`Backed`), and schemas get nodes that were not there before (`Novel`).

All this is kept by each step of a compilation (`Careful`), for a reference as long as the chain
that leads to it has not come back to itself (`Trails`).
-/

namespace SchemaGraph

open Compiling

/-- The node of a location, defined or not. -/
def CompileMemory.node? (memory : CompileMemory) (key : CompileKey) : Option NodeId :=
  (memory.find? key).bind Compiled.node?

namespace CompileMemory

variable {memory : CompileMemory} {key other : CompileKey} {state : Compiled} {id : NodeId}

theorem node?_of_find? (h : memory.find? key = some state) : memory.node? key = state.node? := by
  unfold node?
  rw [h]
  rfl

theorem node?_set_self : (memory.set key state).node? key = state.node? :=
  node?_of_find? (find?_set_self memory key state)

theorem node?_set_of_ne (h : other ≠ key) :
    (memory.set key state).node? other = memory.node? other := by
  unfold node?
  rw [find?_set_of_ne h]

theorem node?_eq_some : memory.node? key = some id ↔
    ∃ state, memory.find? key = some state ∧ state.node? = some id :=
  Option.bind_eq_some_iff

end CompileMemory

namespace Compiler

variable {document : Json} {config : Config} {c d u : Compiler} {key other : CompileKey}
  {memory before after : CompileMemory} {state : Compiled} {id : NodeId} {length : Nat}

/-! ## Invariants of a memory -/

/-- Only what does not compile is poisoned. -/
def Wary (document : Json) (config : Config) (memory : CompileMemory) : Prop :=
  ∀ key, memory.find? key = some .poisoned → ¬Compilable document config key

/-- Schemas that are defined rest on parts that have nodes. -/
def Backed (document : Json) (config : Config) (memory : CompileMemory) : Prop :=
  ∀ key id, memory.find? key = some (.defined id) → IsOwn document key →
    ∃ parts, RestsOn document config parts key ∧
      ∀ part, parts part = true → (memory.node? part).isSome = true

/-- Schemas that have nodes had them before, or have nodes from a length on. -/
def Novel (document : Json) (length : Nat) (before after : CompileMemory) : Prop :=
  ∀ key id, IsOwn document key → after.node? key = some id →
    before.node? key = some id ∨ length ≤ id

theorem Wary.set (h : Wary document config memory)
    (hstate : state = .poisoned → ¬Compilable document config key) :
    Wary document config (memory.set key state) := by
  intro other hother
  rcases CompileMemory.find?_set_cases hother with ⟨rfl, rfl⟩ | ⟨-, hbefore⟩
  · exact hstate rfl
  · exact h other hbefore

theorem Backed.set (h : Backed document config memory) (hnode : state.node?.isSome = true)
    (hdefined : ∀ id, state = .defined id → IsOwn document key →
      ∃ parts, RestsOn document config parts key ∧
        ∀ part, parts part = true → (memory.node? part).isSome = true) :
    Backed document config (memory.set key state) := by
  have hstays : ∀ part, (memory.node? part).isSome = true →
      ((memory.set key state).node? part).isSome = true := by
    intro part hpart
    by_cases hsame : part = key
    · rw [hsame, CompileMemory.node?_set_self]
      exact hnode
    · rw [CompileMemory.node?_set_of_ne hsame]
      exact hpart
  intro other id hother hown
  have hbefore : ∃ parts, RestsOn document config parts other ∧
      ∀ part, parts part = true → (memory.node? part).isSome = true := by
    rcases CompileMemory.find?_set_cases hother with ⟨rfl, hstate⟩ | ⟨-, hother⟩
    · exact hdefined id hstate hown
    · exact h other id hother hown
  obtain ⟨parts, hrests, hparts⟩ := hbefore
  exact ⟨parts, hrests, fun part hpart => hstays part (hparts part hpart)⟩

theorem Novel.refl (document : Json) (length : Nat) (memory : CompileMemory) :
    Novel document length memory memory :=
  fun _ _ _ h => .inl h

theorem Novel.trans {between : CompileMemory} {more : Nat}
    (h : Novel document length before between) (hafter : Novel document more between after)
    (hle : length ≤ more) : Novel document length before after := by
  intro key id hown hnode
  rcases hafter key id hown hnode with hnode | hmore
  · exact h key id hown hnode
  · exact .inr (Nat.le_trans hle hmore)

theorem Novel.set (h : Novel document length before after)
    (hstate : ∀ id, state.node? = some id → IsOwn document key → length ≤ id) :
    Novel document length before (after.set key state) := by
  intro other id hown hnode
  by_cases hsame : other = key
  · subst hsame
    rw [CompileMemory.node?_set_self] at hnode
    exact .inr (hstate id hnode hown)
  · rw [CompileMemory.node?_set_of_ne hsame] at hnode
    exact h other id hown hnode

/-! ## Careful runs -/

/-- What a run for a location does to the memory: it gives schemas new nodes; if it gives a node,
all it defined is backed; and unless fuel runs out, it poisons only what does not compile, and gives
a node where something compiles. -/
structure Careful (document : Json) (config : Config) (key : CompileKey) (c : Compiler)
    (run : Except CompileFailure NodeId × Compiler) : Prop where
  novel : Novel document c.length c.memory run.2.memory
  backed : ∀ id, run.1 = .ok id → Backed document config c.memory →
    Backed document config run.2.memory
  wary : Wary document config c.memory → run.1 = .error .outOfFuel ∨
    Wary document config run.2.memory ∧
      (Compilable document config key → ∃ id, run.1 = .ok id)

/-- The references at the locations of a chain lead to a location. -/
def Trails (document : Json) (chain : List Path) (key : CompileKey) : Prop :=
  ∀ location ∈ chain, Relation.ReflTransGen (Refers document) ⟨location, key.polymorphic⟩ key

def CarefulParts (document : Json) (config : Config) (compile : CompilingValue) : Prop :=
  ∀ written path referencing flag c, document.StandsAt written path →
    Mirrors document config c → Trails document c.chain ⟨path, flag⟩ →
    Careful document config ⟨path, flag⟩ c (compile written path referencing flag c)

namespace Careful

/-- What cannot compile may fail at once. -/
theorem refused (h : ¬Compilable document config key) (failure : CompileFailure)
    (hmemory : d.memory = c.memory) : Careful document config key c (.error failure, d) where
  novel := by
    rw [hmemory]
    exact .refl document c.length c.memory
  backed := nofun
  wary hwary := by
    rw [hmemory]
    exact .inr ⟨hwary, fun hcompiles => absurd hcompiles h⟩

variable {failure : CompileFailure}

/-- What failed may be poisoned. -/
theorem poison (h : Careful document config key c (.error failure, d)) :
    Careful document config key c
      (.error failure, { d with memory := d.memory.poison key }) where
  novel := h.novel.set nofun
  backed := nofun
  wary hwary := by
    refine (h.wary hwary).imp_right fun ⟨hd, hcompiles⟩ =>
      ⟨hd.set fun _ hcompilable => ?_, hcompiles⟩
    obtain ⟨id, hid⟩ := hcompiles hcompilable
    cases hid

/-- What failed may fail in another way. -/
theorem failed (h : Careful document config key c (.error failure, d))
    (hfailure : failure ≠ .outOfFuel) (other : CompileFailure) :
    Careful document config key c (.error other, d) where
  novel := h.novel
  backed := nofun
  wary hwary := by
    rcases h.wary hwary with hfuel | ⟨hd, hcompiles⟩
    · exact absurd (Except.error.inj hfuel) hfailure
    · refine .inr ⟨hd, fun hcompilable => ?_⟩
      obtain ⟨id, hid⟩ := hcompiles hcompilable
      cases hid

/-- Looking a location up first is careful if what follows is, where nothing is known. -/
theorem reuse (referencing : Path) {otherwise : Compiling NodeId}
    (h : c.memory.find? key = none → Careful document config key c (otherwise c)) :
    Careful document config key c
      ((Compiling.known key >>= fun known => Compiling.reuse known referencing otherwise) c) := by
  rw [run_reuse]
  have hnovel := Novel.refl document c.length c.memory
  cases hkey : c.memory.find? key with
  | none => exact h hkey
  | some state =>
      cases state with
      | poisoned =>
          exact ⟨hnovel, nofun, fun hwary => .inr
            ⟨hwary, fun hcompiles => absurd hcompiles (hwary key hkey)⟩⟩
      | _ => exact ⟨hnovel, fun _ _ h => h, fun hwary => .inr ⟨hwary, fun _ => ⟨_, rfl⟩⟩⟩

end Careful

/-! ## References -/

variable {fuel : Nat}

/-- A reference within the document is followed in its own scope, with a chain of its own. -/
theorem within_careful (hparts : CarefulParts document config (value fuel)) {reference : String}
    (hlocal : Uri.isLocal reference = true) {written : Json} (key : CompileKey)
    (hplace : document.StandsAt written key.path) {chain : List Path}
    (htrails : Trails document chain key) (hc : Mirrors document config c) :
    Careful document config key c (inScope reference (Compiling.withChain chain
      (value fuel written key.path key.path key.polymorphic)) c) := by
  have hentered := (hc.withResolver (hc.toHosts.enter hlocal)).withChain chain
  have hcareful := hparts written key.path key.path key.polymorphic _ hplace hentered htrails
  rw [run_inScope, run_withChain]
  exact ⟨hcareful.novel, hcareful.backed, hcareful.wary⟩

theorem follow_careful (hparts : CarefulParts document config (value fuel)) {reference : String}
    (hlocal : Uri.isLocal reference = true) {written : Json} (key : CompileKey)
    (hplace : document.StandsAt written key.path) {chain : List Path}
    (htrails : Trails document (key.path :: chain) key) (referencing : Path)
    (hc : Mirrors document config c) :
    Careful document config key c
      (follow (value fuel) reference written chain referencing key c) := by
  have hcareful := within_careful hparts hlocal key hplace htrails hc
  unfold follow
  rw [run_bind_of_ok (run_outcome _ c)]
  generalize inScope reference (Compiling.withChain (key.path :: chain)
    (value fuel written key.path key.path key.polymorphic)) c = run at hcareful ⊢
  obtain ⟨r, d⟩ := run
  cases r with
  | ok id => exact hcareful
  | error failure =>
      cases failure with
      | errors errors => exact hcareful.failed nofun _
      | outOfFuel => exact hcareful
      | recursive => exact hcareful.poison.failed nofun _

theorem target_careful (hparts : CarefulParts document config (value fuel)) {reference : String}
    (hlocal : Uri.isLocal reference = true) (referencing : Path) (flag : Bool)
    (htrails : ∀ location ∈ c.chain,
      Relation.TransGen (Refers document) ⟨location, flag⟩ ⟨Path.ofUri reference, flag⟩)
    (hc : Mirrors document config c) :
    Careful document config ⟨Path.ofUri reference, flag⟩ c
      (target (value fuel) reference referencing flag c) := by
  have hresolved := Resolver.kept_resolve c.resolver reference
  unfold target
  rw [run_bind_of_ok (run_resolve reference c), hc.toHosts.resolve hlocal]
  generalize (c.resolver.resolve reference).2 = resolver at hresolved ⊢
  have hd := hc.withResolver (hc.toHosts.withResolver hresolved)
  cases hwalk : document.walk? (Path.ofUri reference).parts with
  | none =>
      refine .refused (fun hcompiles => ?_) _ rfl
      obtain ⟨entries, hplace, -⟩ := hcompiles.stands
      have hfound := hplace.2
      rw [hwalk] at hfound
      cases hfound
  | some part =>
      dsimp only
      rw [run_bind_of_ok (run_get _)]
      dsimp only
      split
      -- a location that was passed leads back to itself, which nothing that compiles does
      · rename_i hpassed
        refine .refused (fun hcompiles => hcompiles.not_circular ?_) _ rfl
        exact htrails _ (List.contains_iff_mem.1 hpassed)
      · have hchain : Trails document (Path.ofUri reference :: c.chain)
            ⟨Path.ofUri reference, flag⟩ := by
          intro location hlocation
          rcases List.mem_cons.1 hlocation with rfl | hlocation
          · exact .refl
          · exact (htrails location hlocation).to_reflTransGen
        obtain ⟨hnovel, hbacked, hwary⟩ := Careful.reuse referencing fun _ =>
          follow_careful hparts hlocal ⟨Path.ofUri reference, flag⟩
            (Json.standsAt_ofUri hlocal hwalk) hchain referencing hd
        exact ⟨hnovel, hbacked, hwary⟩

theorem referenced_careful (closed : document.SelfContained)
    (hparts : CarefulParts document config (value fuel)) {entries : List (String × Json)}
    {reference : Json} (hplace : document.StandsAt (.obj entries) key.path)
    (href : Entries.find? "$ref" entries = some reference) (htrails : Trails document c.chain key)
    (hc : Mirrors document config c) :
    Careful document config key c (referenced (value fuel) reference key c) := by
  cases reference with
  | str text =>
      have hlocal : Uri.isLocal text = true := closed.isLocal hplace
        (Option.bind_eq_some_iff.2 ⟨.str text, href, rfl⟩)
      have hrefers : Refers document key ⟨Path.ofUri text, key.polymorphic⟩ :=
        ⟨entries, text, hplace, href, rfl⟩
      have hcareful := target_careful hparts hlocal key.path key.polymorphic
        (fun location hlocation => .tail' (htrails location hlocation) hrefers) hc
      exact ⟨hcareful.novel, hcareful.backed, fun hwary => (hcareful.wary hwary).imp_right
        fun ⟨hd, hcompiles⟩ => ⟨hd, fun h => hcompiles (h.next hrefers)⟩⟩
  -- where something compiles, `$ref` is a text or is not there
  | _ =>
      refine .refused (fun hcompiles => ?_) _ rfl
      obtain ⟨other, hother, hshape⟩ := hcompiles.stands
      have hsame := hother.2.symm.trans hplace.2
      cases hsame
      rcases hshape with hnone | ⟨text, htext⟩
      · rw [hnone] at href
        cases href
      · rw [htext] at href
        cases href

theorem referenceOnly_careful (closed : document.SelfContained)
    (hparts : CarefulParts document config (value fuel)) {entries : List (String × Json)}
    {reference : Json} (hplace : document.StandsAt (.obj entries) key.path)
    (href : Entries.find? "$ref" entries = some reference) (htrails : Trails document c.chain key)
    (hc : Mirrors document config c) :
    Careful document config key c (referenceOnly (value fuel) reference key c) := by
  have hown := not_isOwn_of_reference hplace href
  have hcareful := referenced_careful closed hparts hplace href htrails hc
  unfold referenceOnly
  rw [run_bind_of_ok (run_outcome _ c)]
  generalize referenced (value fuel) reference key c = run at hcareful ⊢
  obtain ⟨r, d⟩ := run
  cases r with
  | error failure => exact hcareful.poison
  | ok id =>
      refine ⟨hcareful.novel.set fun _ _ h => absurd h hown, fun _ _ hbacked => ?_,
        fun hwary => .inr ⟨?_, fun _ => ⟨_, rfl⟩⟩⟩
      · exact (hcareful.backed id rfl hbacked).set rfl fun _ _ h => absurd h hown
      · exact ((hcareful.wary hwary).resolve_left nofun).1.set nofun

/-! ## Schemas -/

/-- What the assembly of a node does as long as its parts are careful. -/
def carefulCourse (document : Json) (config : Config) : Course := fun c failure d =>
  Mirrors document config c → c.chain = [] →
    Mirrors document config d ∧ Extends c d ∧ Novel document c.length c.memory d.memory ∧
      (Wary document config c.memory →
        failure = some .outOfFuel ∨ Wary document config d.memory)

theorem carefulCourse_laws (closed : document.SelfContained) (fuel : Nat) :
    (carefulCourse document config).NodeLaws document.StandsAt fuel where
  entry hplace hmem := hplace.entry closed.regular hmem
  item hplace hindex := hplace.item closed.regular hindex
  done c hc _ := ⟨hc, .refl c, .refl document c.length c.memory, .inr⟩
  refused c _ hc _ := ⟨hc, .refl c, .refl document c.length c.memory, .inr⟩
  next hfirst hsecond hc hchain := by
    obtain ⟨hd, hextends, hnovel, hwary⟩ := hfirst hc hchain
    obtain ⟨he, hextends', hnovel', hwary'⟩ := hsecond hd (hextends.chain.trans hchain)
    refine ⟨he, hextends.trans hextends', hnovel.trans hnovel' hextends.length, fun hc => ?_⟩
    exact hwary' ((hwary hc).resolve_left nofun)
  caught h hc hchain := by
    obtain ⟨hd, hextends, hnovel, hwary⟩ := h hc hchain
    exact ⟨hd, hextends, hnovel, fun hc => .inr ((hwary hc).resolve_left nofun)⟩
  access {schema path} _ c hc _ := by
    have honly := access_onlyResolver fuel schema c
    have hmemory : (access fuel schema c).2.memory = c.memory := by rw [honly.same]
    rw [hmemory]
    exact ⟨mirrors_of_onlyResolver hc honly, extends_of_onlyResolver honly,
      .refl document c.length c.memory, .inr⟩
  extension {c entries path name schema} hplace hmem := by
    by_cases h : Mirrors document config c
    · exact .inl (h.toHosts.beside closed hplace.1 hmem)
    · exact .inr fun _ _ hc => absurd hc h

/-- What the compilation of a part does, within a schema. -/
theorem CarefulParts.part (hparts : CarefulParts document config (value fuel))
    (closed : document.SelfContained) (hbase : config.baseUri = "") {written : Json} {path : Path}
    {flag : Bool} (hplace : document.StandsAt written path) (hc : Mirrors document config c)
    (hchain : c.chain = []) {run : Except CompileFailure NodeId × Compiler}
    (hrun : value fuel written path path flag c = run) :
    Mirrors document config run.2 ∧ Extends c run.2 ∧ run.2.chain = [] ∧
      Careful document config ⟨path, flag⟩ c run := by
  subst hrun
  obtain ⟨hd, -⟩ := value_faithful closed hbase fuel written path path flag c hplace hc
  have hextends := (value_sound fuel written path path flag c).grows.1
  refine ⟨hd, hextends, hextends.chain.trans hchain, hparts _ _ _ _ c hplace hc ?_⟩
  rw [hchain]
  exact fun _ h => nomatch h

theorem CarefulParts.takes (hparts : CarefulParts document config (value fuel))
    (closed : document.SelfContained) (hbase : config.baseUri = "") :
    TakesParts (carefulCourse document config) document.StandsAt (value fuel) := by
  intro written path flag hplace c hc hchain
  obtain ⟨hd, hextends, -, hcareful⟩ := hparts.part closed hbase hplace hc hchain rfl
  refine ⟨hd, hextends, hcareful.novel, fun hwary => ?_⟩
  refine (hcareful.wary hwary).imp (fun hfuel => ?_) And.left
  rw [hfuel]
  rfl

/-- Where a schema compiles, its node is put together as far as fuel goes. -/
theorem node_of_compilable (closed : document.SelfContained) (hbase : config.baseUri = "")
    (hparts : CarefulParts document config (value fuel))
    (hcompiles : Compilable document config key) {entries : List (String × Json)}
    (hplace : document.StandsAt (.obj entries) key.path)
    (hnone : Entries.find? "$ref" entries = none) (hc : Mirrors document config c)
    (hchain : c.chain = []) (hwary : Wary document config c.memory) :
    (Compiling.node (value fuel) fuel entries key.path key.polymorphic c).1 = .error .outOfFuel ∨
      ∃ node, (Compiling.node (value fuel) fuel entries key.path key.polymorphic c).1 =
        .ok node := by
  obtain ⟨parts, hrests, hcompilable⟩ := hcompiles.rests ⟨entries, hplace, hnone⟩
  -- poison stays right from part to part, so no part that compiles is refused for it
  let inv : Compiler → Prop :=
    fun c => Mirrors document config c ∧ c.chain = [] ∧ Wary document config c.memory
  refine hrests.node closed hbase inv (fun h => h.1.toHosts) ?_ ?_ hplace fuel ⟨hc, hchain, hwary⟩
  · rintro c d honly ⟨hc, hchain, hwary⟩
    refine ⟨mirrors_of_onlyResolver hc honly, ?_⟩
    rw [honly.same]
    exact ⟨hchain, hwary⟩
  · rintro written path flag c hpart hplace ⟨hc, hchain, hwary⟩
    obtain ⟨hd, -, hchain, hcareful⟩ := hparts.part closed hbase hplace hc hchain rfl
    rcases hcareful.wary hwary with hfuel | ⟨hwary, hok⟩
    · exact .inl hfuel
    · obtain ⟨id, hid⟩ := hok (hcompilable _ hpart)
      exact .inr ⟨id, _, Prod.ext hid rfl, ⟨hd, hchain, hwary⟩, trivial⟩

/-- A schema whose node was put together rests on the locations that have nodes then. -/
theorem node_backed (closed : document.SelfContained) (hbase : config.baseUri = "")
    (hparts : CarefulParts document config (value fuel)) {entries : List (String × Json)}
    {node : Node} (hplace : document.StandsAt (.obj entries) key.path)
    (hnone : Entries.find? "$ref" entries = none) (hc : Mirrors document config c)
    (hchain : c.chain = []) (hbacked : Backed document config c.memory)
    (h : Compiling.node (value fuel) fuel entries key.path key.polymorphic c = (.ok node, u)) :
    Backed document config u.memory ∧
      RestsOn document config (fun part => (u.memory.node? part).isSome) key := by
  obtain ⟨ample, hample⟩ := exists_ample closed hbase
  have frame : Frame (MirrorsOn document config) document.StandsAt := mirrorsOn_frame closed
  have hkeeps := (value_faithful closed hbase fuel).keeps (value_sound fuel)
  -- a part that gave a node still has it in the end, so `among` takes the same parts
  let inv : Compiler → Prop :=
    fun c => Mirrors document config c ∧ c.chain = [] ∧ Backed document config c.memory
  have lock : Lockstep (MirrorsOn document config) document.StandsAt u
      (fun c c' => inv c ∧ Hosts document config c') (fun _ _ => True)
      (value fuel) fuel (among fun part => (u.memory.node? part).isSome) ample := by
    refine Hosts.lockstep closed frame hkeeps (fun h => h.1.toHosts) (fun h => h) ?_
      (fun honly h => h.after honly) ?_
    · rintro c d honly ⟨hc, hchain, hbacked⟩
      refine ⟨mirrors_of_onlyResolver hc honly, ?_⟩
      rw [honly.same]
      exact ⟨hchain, hbacked⟩
    · rintro c c' written path flag i d ⟨hc, hchain, hbacked⟩ hc' hplace hpart hlast
      obtain ⟨hd, -, hchain, hcareful⟩ := hparts.part closed hbase hplace hc hchain hpart
      obtain ⟨state, hfind, hnode⟩ := value_known hpart
      have hlisted : (u.memory.node? ⟨path, flag⟩).isSome = true := by
        rw [CompileMemory.node?_of_find? ((hlast hd).2.1.known hfind), hnode]
        rfl
      refine .inr ⟨⟨path, flag⟩, c', ?_, ⟨⟨hd, hchain, hcareful.backed i rfl hbacked⟩, hc'⟩,
        trivial⟩
      unfold among
      rw [if_pos hlisted]
      rfl
  rcases lock.node key.polymorphic hplace ⟨⟨hc, hchain, hbacked⟩, Hosts.ofDocument [] hbase⟩ h
    (frame.refl u) with hfuel | ⟨node', d', hrun, ⟨⟨-, -, hu⟩, -⟩, -⟩
  · exact absurd hfuel (hample _ _ _ _ hplace)
  · exact ⟨hu, ⟨entries, ample, node', d', hplace, hnone, hrun⟩⟩

theorem schema_careful (closed : document.SelfContained) (hbase : config.baseUri = "")
    (hparts : CarefulParts document config (value fuel)) {entries : List (String × Json)}
    (hplace : document.StandsAt (.obj entries) key.path)
    (hnone : Entries.find? "$ref" entries = none) (hkey : c.memory.find? key = none)
    (hc : Mirrors document config c) :
    Careful document config key c (schema (value fuel) fuel entries key c) := by
  have hopened := hc.opened ⟨entries, hplace, hnone⟩ hkey
  have hcourse := (carefulCourse_laws closed fuel).node (hparts.takes closed hbase)
    key.polymorphic hplace (opened c key) hopened rfl
  have hreserved : Novel document c.length c.memory (opened c key).memory :=
    (Novel.refl document c.length c.memory).set fun id hid _ => Nat.le_of_eq (Option.some.inj hid)
  rcases hrun : Compiling.node (value fuel) fuel entries key.path key.polymorphic (opened c key)
    with ⟨r, u⟩
  rw [hrun] at hcourse
  obtain ⟨-, hextends, hnovel, hwary⟩ := hcourse
  have hlength : c.length ≤ (opened c key).length := by
    rw [length_opened]
    exact Nat.le_succ _
  have hnew := hreserved.trans hnovel hlength
  have hopenedWary : Wary document config c.memory → Wary document config (opened c key).memory :=
    fun h => h.set nofun
  rw [run_schema hrun hextends]
  cases r with
  | error failure =>
      have hfailed : Careful document config key c (.error failure, u) := by
        refine ⟨hnew, nofun, fun h => ?_⟩
        rcases hwary (hopenedWary h) with hfuel | hu
        · cases hfuel
          exact .inl rfl
        -- a schema that compiles would have had its node put together
        · by_cases hcompiles : Compilable document config key
          · have hnode := node_of_compilable closed hbase hparts hcompiles hplace hnone hopened rfl
              (hopenedWary h)
            rw [hrun] at hnode
            rcases hnode with hfuel | ⟨node, hnode⟩
            · cases hfuel
              exact .inl rfl
            · cases hnode
          · exact .inr ⟨hu, fun h => absurd h hcompiles⟩
      obtain ⟨hnovel, hbacked, hwary⟩ := hfailed.poison
      exact ⟨hnovel, hbacked, hwary⟩
  | ok node =>
      refine ⟨hnew.set fun id hid _ => Nat.le_of_eq (Option.some.inj hid), fun _ _ h => ?_,
        fun h => .inr ⟨?_, fun _ => ⟨_, rfl⟩⟩⟩
      · obtain ⟨hu, hrests⟩ := node_backed closed hbase hparts hplace hnone hopened rfl
          (h.set rfl nofun) hrun
        exact hu.set rfl fun _ _ _ => ⟨_, hrests, fun _ h => h⟩
      · exact ((hwary (hopenedWary h)).resolve_left nofun).set nofun

/-- Whatever compiles within a document, poison stays right, and what is there to compile does. -/
theorem value_careful (closed : document.SelfContained) (hbase : config.baseUri = "")
    (fuel : Nat) : CarefulParts document config (value fuel) := by
  induction fuel with
  | zero =>
      intro written path referencing flag c _ _ _
      exact ⟨.refl document c.length c.memory, nofun, fun _ => .inl rfl⟩
  | succ fuel ih =>
      intro written path referencing flag c hplace hc htrails
      refine Careful.reuse referencing fun hkey => ?_
      cases written with
      | obj entries =>
          dsimp only
          cases href : Entries.find? "$ref" entries with
          | some reference => exact referenceOnly_careful closed ih hplace href htrails hc
          | none => exact schema_careful closed hbase ih hplace href hkey hc
      | _ =>
          refine .refused (fun hcompiles => ?_) _ rfl
          obtain ⟨entries, hother, -⟩ := hcompiles.stands
          cases hother.2.symm.trans hplace.2

/-! ## Pointers -/

theorem compilePointer_careful (closed : document.SelfContained) (hbase : config.baseUri = "")
    (fuel : Nat) {reference : String} (hlocal : Uri.isLocal reference = true)
    (hc : Mirrors document config c) :
    Careful document config ⟨Path.ofUri reference, config.allowPolymorphism⟩ c
      (compilePointer fuel reference c) := by
  have hresolved := Resolver.kept_resolve c.resolver reference
  unfold compilePointer pointer
  rw [run_bind, run_bind_of_ok (run_resolve reference c), hc.toHosts.resolve hlocal]
  generalize (c.resolver.resolve reference).2 = resolver at hresolved ⊢
  have hd := hc.withResolver (hc.toHosts.withResolver hresolved)
  cases hwalk : document.walk? (Path.ofUri reference).parts with
  | none =>
      refine .refused (fun hcompiles => ?_) _ rfl
      obtain ⟨entries, hplace, -⟩ := hcompiles.stands
      cases hwalk.symm.trans hplace.2
  | some part =>
      -- the chain starts with the pointer, and no reference has been followed
      have htrails : Trails document [Path.ofUri reference]
          ⟨Path.ofUri reference, config.allowPolymorphism⟩ := by
        intro location hlocation
        rw [List.mem_singleton.1 hlocation]
      have hcareful := within_careful (value_careful closed hbase fuel) hlocal
        ⟨Path.ofUri reference, config.allowPolymorphism⟩ (Json.standsAt_ofUri hlocal hwalk) htrails
        hd
      dsimp only [run_pure]
      rw [run_bind_of_ok (run_get _), run_bind_of_ok (run_outcome _ _)]
      dsimp only
      rw [show c.config.allowPolymorphism = config.allowPolymorphism by rw [hc.settings]]
      dsimp only at hcareful
      generalize inScope reference (Compiling.withChain [Path.ofUri reference]
        (value fuel part (Path.ofUri reference) (Path.ofUri reference) config.allowPolymorphism))
        { c with resolver } = run at hcareful ⊢
      have hfrom : Careful document config ⟨Path.ofUri reference, config.allowPolymorphism⟩ c run :=
        ⟨hcareful.novel, hcareful.backed, hcareful.wary⟩
      obtain ⟨r, d⟩ := run
      cases r with
      | ok id => exact hfrom
      | error failure =>
          cases failure with
          | errors errors => exact hfrom
          | outOfFuel => exact hfrom
          | recursive => exact hfrom.poison.failed nofun _

end Compiler

end SchemaGraph

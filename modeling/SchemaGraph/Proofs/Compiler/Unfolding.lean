import SchemaGraph.Proofs.Compiler.Mirror
import SchemaGraph.Proofs.Conversion.Fuel

set_option autoImplicit false

/-! # Compiled graphs unfold to the document

Every run of a compiler within a document keeps what it knows right, on failures too, and the
node it gives is that of its location. So converting by a compiled graph is converting by the
document.
-/

namespace SchemaGraph

open Compiling

namespace Compiler

variable {document : Json} {config : Config} {c d u : Compiler} {key : CompileKey} {id : NodeId}

/-! ## Runs -/

/-- A run for the node of a location that keeps what is known right, in its document. -/
def Faithful (document : Json) (config : Config) (key : CompileKey) (c : Compiler)
    (run : Except CompileFailure NodeId × Compiler) : Prop :=
  Mirrors document config c → Mirrors document config run.2 ∧
    Resolver.Kept c.resolver run.2.resolver ∧ ∀ id, run.1 = .ok id → Leads document run.2 id key

def FaithfulParts (document : Json) (config : Config) (compile : CompilingValue) : Prop :=
  ∀ written path referencing flag c, document.StandsAt written path →
    Faithful document config ⟨path, flag⟩ c (compile written path referencing flag c)

theorem mirrors_of_onlyResolver (h : Mirrors document config c) (honly : OnlyResolver c d) :
    Mirrors document config d := by
  rw [honly.same]
  exact h.withResolver (h.toHosts.withResolver honly.kept)

/-- What a run within a document does to a compiler that mirrors it. -/
def MirrorsOn (document : Json) (config : Config) (c d : Compiler) : Prop :=
  Mirrors document config c →
    Mirrors document config d ∧ Extends c d ∧ Resolver.Kept c.resolver d.resolver

theorem mirrorsOn_frame (closed : document.SelfContained) :
    Frame (MirrorsOn document config) document.StandsAt where
  refl c h := ⟨h, .refl c, .refl c.resolver⟩
  trans hab hbc h := by
    obtain ⟨hb, hextends, hkept⟩ := hab h
    obtain ⟨hc, hextends', hkept'⟩ := hbc hb
    exact ⟨hc, hextends.trans hextends', hkept.trans hkept'⟩
  onlyResolver honly h :=
    ⟨mirrors_of_onlyResolver h honly, extends_of_onlyResolver honly, honly.kept⟩
  entry hplace hmem := hplace.entry closed.regular hmem
  item hplace hindex := hplace.item closed.regular hindex
  extension {c entries path name schema} hplace hmem := by
    by_cases h : Mirrors document config c
    · exact .inl (h.toHosts.beside closed hplace.1 hmem)
    · exact .inr fun d hc => absurd hc h

variable {compile : CompilingValue}

theorem FaithfulParts.keeps (hparts : FaithfulParts document config compile)
    (hsound : SoundParts compile) :
    KeepsParts (MirrorsOn document config) document.StandsAt compile := by
  intro written path flag hplace c hc
  obtain ⟨hd, hkept, -⟩ := hparts written path path flag c hplace hc
  exact ⟨hd, (hsound written path path flag c).grows.1, hkept⟩

/-- The node of a schema looks like what is read at its location. -/
theorem node_depicts (closed : document.SelfContained)
    (hparts : FaithfulParts document config compile)
    (hsound : SoundParts compile) {entries : List (String × Json)} {fuel : Nat} {node : Node}
    (hplace : document.StandsAt (.obj entries) key.path)
    (hown : Entries.find? "$ref" entries = none) (hbase : config.baseUri = "")
    (hc : Mirrors document config c)
    (h : Compiling.node compile fuel entries key.path key.polymorphic c = (.ok node, u)) :
    Depicts document config u key node := by
  intro fuel'
  have frame : Frame (MirrorsOn document config) document.StandsAt := mirrorsOn_frame closed
  have lock : Lockstep (MirrorsOn document config) document.StandsAt u
      (fun c c' => Mirrors document config c ∧ Hosts document config c') (Leads document u)
      compile fuel Interpreter.byPlace fuel' := by
    refine Hosts.lockstep closed frame (hparts.keeps hsound) (·.toHosts) (fun h => h)
      (fun honly h => mirrors_of_onlyResolver h honly) (fun honly h => h.after honly) ?_
    intro c c' written path flag i d hc hc' hplace hpart hlast
    have hfaithful := hparts written path path flag c hplace hc
    rw [hpart] at hfaithful
    obtain ⟨hd, -, hleads⟩ := hfaithful
    exact .inr ⟨_, c', rfl, ⟨hd, hc'⟩, (hleads i rfl).extend (hlast hd).2.1⟩
  have hread : Interpreter.read document config fuel' key =
      (Compiling.node Interpreter.byPlace fuel'
      entries key.path key.polymorphic (ofDocument [] document config)).1 := by
    unfold Interpreter.read Interpreter.reading
    rw [hplace.2]
    dsimp only
    rw [hown]
  rw [hread]
  rcases lock.node key.polymorphic hplace ⟨hc, Hosts.ofDocument [] hbase⟩ h (frame.refl u)
    with hfuel | ⟨node', d', hrun, -, halike⟩
  · exact .inl hfuel
  · exact .inr ⟨node', congrArg Prod.fst hrun, halike⟩

/-! ## References -/

/-- Looking a location up first is faithful if what follows is, where nothing is known. -/
theorem Faithful.reuse (referencing : Path) {otherwise : Compiling NodeId}
    (h : c.memory.find? key = none → Faithful document config key c (otherwise c)) :
    Faithful document config key c
      ((Compiling.known key >>= fun known => Compiling.reuse known referencing otherwise) c) := by
  rw [run_reuse]
  cases hkey : c.memory.find? key with
  | none => exact h hkey
  | some state =>
      intro hc
      cases state with
      | poisoned => exact ⟨hc, .refl c.resolver, fun id hid => by cases hid⟩
      | reserved node =>
          refine ⟨hc, .refl c.resolver, fun id hid => ?_⟩
          cases hid
          exact hc.leads hkey rfl
      | defined node =>
          refine ⟨hc, .refl c.resolver, fun id hid => ?_⟩
          cases hid
          exact hc.leads hkey rfl

/-- A reference within the document is followed in its own scope, with a chain of its own. -/
theorem Faithful.within {reference : String} (hlocal : Uri.isLocal reference = true)
    {part : Compiling NodeId} (hpart : ∀ c, Faithful document config key c (part c))
    (chain : List Path) (c : Compiler) :
    Faithful document config key c (inScope reference (Compiling.withChain chain part) c) := by
  intro hc
  have hinside := hc.withResolver (hc.toHosts.enter hlocal)
  obtain ⟨hu, hkept, hleads⟩ := hpart _ (hinside.withChain chain)
  rw [run_inScope, run_withChain]
  generalize part { c with resolver := c.resolver.pushScope reference, chain } =
    run at hu hkept hleads ⊢
  obtain ⟨r, u⟩ := run
  have hleft : Resolver.Kept c.resolver u.resolver.leaveScope := hkept.inScope
  have hhosts : Hosts document config { u with resolver := u.resolver.leaveScope } := by
    refine ⟨hu.settings, hu.formats, hleft.serves hc.serves, ?_⟩
    show Uri.IsInside u.resolver.leaveScope.scope
    rw [hleft.scope]
    exact hc.inside
  exact ⟨(hu.withResolver hhosts).withChain c.chain, hleft, hleads⟩

/-- A chain that came back to itself has poisoned where it came back to. -/
theorem poisoned_of_recursive {fuel : Nat} {written : Json} {referencing : Path}
    (h : (value fuel written key.path referencing key.polymorphic c).1 = .error .recursive) :
    (value fuel written key.path referencing key.polymorphic c).2.memory.find? key =
      some .poisoned := by
  have hkey := unknown_of_recursive h
  cases fuel with
  | zero => cases h
  | succ fuel =>
      unfold value at h ⊢
      rw [run_reuse, hkey] at h ⊢
      cases written with
      | obj entries =>
          dsimp only [Compiling.reuse] at h ⊢
          cases href : Entries.find? "$ref" entries with
          | some reference =>
              rw [href] at h
              dsimp only at h ⊢
              unfold referenceOnly at h ⊢
              rw [run_bind_of_ok (run_outcome _ c)] at h ⊢
              cases hresult : (referenced (value fuel) reference key c).1 with
              | ok id =>
                  rw [hresult] at h
                  cases h
              | error failure => exact CompileMemory.find?_set_self _ _ _
          | none =>
              rw [href] at h
              dsimp only at h ⊢
              have hkeep := grows_frame.node (value_sound fuel).keeps fuel key.polymorphic
                (show anyPlace (.obj entries) key.path from trivial) (opened c key)
              rcases hrun : Compiling.node (value fuel) fuel entries key.path key.polymorphic
                (opened c key) with ⟨r, u⟩
              rw [hrun] at hkeep
              rw [run_schema hrun hkeep.1] at h ⊢
              cases r with
              | ok node => cases h
              | error failure => exact CompileMemory.find?_set_self _ _ _
      | _ => cases h

theorem poisoned_within (fuel : Nat) (written : Json) (key : CompileKey) (reference : String)
    (chain : List Path) (c : Compiler)
    (h : (inScope reference (Compiling.withChain chain
      (value fuel written key.path key.path key.polymorphic)) c).1 = .error .recursive) :
    (inScope reference (Compiling.withChain chain
      (value fuel written key.path key.path key.polymorphic)) c).2.memory.find? key =
        some .poisoned := by
  rw [run_inScope, run_withChain] at h ⊢
  exact poisoned_of_recursive h

theorem follow_faithful {fuel : Nat} (hparts : FaithfulParts document config (value fuel))
    {reference : String} (hlocal : Uri.isLocal reference = true) {written : Json} (key : CompileKey)
    (hplace : document.StandsAt written key.path) (chain : List Path) (referencing : Path)
    (c : Compiler) :
    Faithful document config key c
      (follow (value fuel) reference written chain referencing key c) := by
  intro hc
  have hfaithful := Faithful.within hlocal (fun c => hparts written key.path key.path
    key.polymorphic c hplace) (key.path :: chain) c hc
  have hpoisoned := poisoned_within fuel written key reference (key.path :: chain) c
  unfold follow
  rw [run_bind_of_ok (run_outcome _ c)]
  generalize inScope reference (Compiling.withChain (key.path :: chain)
    (value fuel written key.path key.path key.polymorphic)) c = run at hfaithful hpoisoned ⊢
  obtain ⟨r, d⟩ := run
  obtain ⟨hd, hkept, hleads⟩ := hfaithful
  cases r with
  | ok id => exact ⟨hd, hkept, hleads⟩
  | error failure =>
      cases failure with
      | errors errors => exact ⟨hd, hkept, fun id hid => by cases hid⟩
      | outOfFuel => exact ⟨hd, hkept, fun id hid => by cases hid⟩
      | recursive => exact ⟨hd.poison (hpoisoned rfl), hkept, fun id hid => by cases hid⟩

theorem target_faithful {fuel : Nat} (hparts : FaithfulParts document config (value fuel))
    {reference : String} (hlocal : Uri.isLocal reference = true) (referencing : Path) (flag : Bool)
    (c : Compiler) :
    Faithful document config ⟨Path.ofUri reference, flag⟩ c
      (target (value fuel) reference referencing flag c) := by
  intro hc
  have hresolved := Resolver.kept_resolve c.resolver reference
  unfold target
  rw [run_bind_of_ok (run_resolve reference c), hc.toHosts.resolve hlocal]
  generalize (c.resolver.resolve reference).2 = resolver at hresolved ⊢
  have hd := hc.withResolver (hc.toHosts.withResolver hresolved)
  cases hwalk : document.walk? (Path.ofUri reference).parts with
  | none => exact ⟨hd, hresolved, fun id hid => by cases hid⟩
  | some part =>
      dsimp only
      rw [run_bind_of_ok (run_get _)]
      dsimp only
      split
      · exact ⟨hd, hresolved, fun id hid => by cases hid⟩
      · obtain ⟨he, hkept, hleads⟩ :=
          Faithful.reuse referencing (fun _ => follow_faithful hparts hlocal
            ⟨Path.ofUri reference, flag⟩ (Json.standsAt_ofUri hlocal hwalk) _ referencing
            { c with resolver }) hd
        exact ⟨he, hresolved.trans hkept, hleads⟩

/-- What is only a reference has the node of its target. -/
theorem referenced_faithful (closed : document.SelfContained) {fuel : Nat}
    (hparts : FaithfulParts document config (value fuel)) {entries : List (String × Json)}
    {reference : Json} (hplace : document.StandsAt (.obj entries) key.path)
    (href : Entries.find? "$ref" entries = some reference) (c : Compiler) :
    Faithful document config key c (referenced (value fuel) reference key c) := by
  intro hc
  cases reference with
  | str text =>
      have hlocal : Uri.isLocal text = true := closed.isLocal hplace
        (Option.bind_eq_some_iff.2 ⟨.str text, href, rfl⟩)
      obtain ⟨hd, hkept, hleads⟩ := target_faithful hparts hlocal key.path key.polymorphic c hc
      exact ⟨hd, hkept, fun id hid => (hleads id hid).through hplace href⟩
  | _ => exact ⟨hc, .refl c.resolver, fun id hid => by cases hid⟩

theorem referenceOnly_faithful (closed : document.SelfContained) {fuel : Nat}
    (hparts : FaithfulParts document config (value fuel)) {entries : List (String × Json)}
    {reference : Json} (hplace : document.StandsAt (.obj entries) key.path)
    (href : Entries.find? "$ref" entries = some reference) (c : Compiler) :
    Faithful document config key c (referenceOnly (value fuel) reference key c) := by
  intro hc
  have hown := not_isOwn_of_reference hplace href
  have hsound := referenced_sound (value_sound fuel) reference key c
  obtain ⟨hd, hkept, hleads⟩ := referenced_faithful closed hparts hplace href c hc
  unfold referenceOnly
  rw [run_bind_of_ok (run_outcome _ c)]
  generalize referenced (value fuel) reference key c = run at hsound hd hkept hleads ⊢
  obtain ⟨r, d⟩ := run
  cases r with
  | error failure =>
      exact ⟨hd.set hown (fun id => by simp) (fun id hid => by cases hid), hkept,
        fun id hid => by cases hid⟩
  | ok id =>
      have hset : Mirrors document config { d with memory := d.memory.set key (.defined id) } := by
        refine hd.set hown (fun id => by simp) fun found hfound => ?_
        cases hfound
        exact ⟨(hsound.result rfl hc.toCoherent).1, hleads id rfl⟩
      refine ⟨hset, hkept, fun found hfound => ?_⟩
      cases hfound
      exact hset.leads (CompileMemory.find?_set_self d.memory key _) rfl

/-! ## Schemas -/

theorem schema_faithful (closed : document.SelfContained) (hbase : config.baseUri = "") {fuel : Nat}
    (hparts : FaithfulParts document config (value fuel)) {entries : List (String × Json)}
    (hplace : document.StandsAt (.obj entries) key.path)
    (hnone : Entries.find? "$ref" entries = none) (hkey : c.memory.find? key = none) :
    Faithful document config key c (schema (value fuel) fuel entries key c) := by
  intro hc
  have hown : IsOwn document key := ⟨entries, hplace, hnone⟩
  have hopened := hc.opened hown hkey
  have hsound := schema_sound (value_sound fuel) fuel entries hkey
  have hkeep := (mirrorsOn_frame closed).node (hparts.keeps (value_sound fuel)) fuel key.polymorphic
    hplace (opened c key) hopened
  rcases hrun : Compiling.node (value fuel) fuel entries key.path key.polymorphic (opened c key)
    with ⟨r, u⟩
  rw [hrun] at hkeep
  obtain ⟨hu, hextends, hkept⟩ := hkeep
  rw [run_schema hrun hextends] at hsound ⊢
  cases r with
  | error failure =>
      exact ⟨hu.failed hc.toCoherent hextends ⟨hu.settings, hu.formats, hu.serves, hu.inside⟩
        (hsound.grows.2 hc.toCoherent), hkept, fun id hid => by cases hid⟩
  | ok node =>
      have hdepicts := node_depicts closed hparts (value_sound fuel) hplace hnone hbase hopened hrun
      have hd := hu.succeeded hextends hdepicts rfl ⟨hu.settings, hu.formats, hu.serves, hu.inside⟩
        (hsound.grows.2 hc.toCoherent)
      refine ⟨hd, hkept, fun id hid => ?_⟩
      cases hid
      exact hd.leads (CompileMemory.find?_set_self u.memory key _) rfl

/-- Whatever compiles within a document, what is known stays right, and a node that comes out is
that of its location. -/
theorem value_faithful (closed : document.SelfContained) (hbase : config.baseUri = "")
    (fuel : Nat) :
    FaithfulParts document config (value fuel) := by
  induction fuel with
  | zero =>
      intro written path referencing flag c _ hc
      exact ⟨hc, .refl c.resolver, fun id hid => by cases hid⟩
  | succ fuel ih =>
      intro written path referencing flag c hplace
      refine Faithful.reuse referencing fun hkey => ?_
      cases written with
      | obj entries =>
          dsimp only
          cases href : Entries.find? "$ref" entries with
          | some reference => exact referenceOnly_faithful closed ih hplace href c
          | none => exact schema_faithful closed hbase ih hplace href hkey
      | _ => exact fun hc => ⟨hc, .refl c.resolver, fun id hid => by cases hid⟩

/-! ## Calls -/

theorem compilePointer_faithful (closed : document.SelfContained) (hbase : config.baseUri = "")
    (fuel : Nat) {reference : String} (hlocal : Uri.isLocal reference = true) (c : Compiler) :
    Faithful document config ⟨Path.ofUri reference, config.allowPolymorphism⟩ c
      (compilePointer fuel reference c) := by
  intro hc
  have hresolved := Resolver.kept_resolve c.resolver reference
  unfold compilePointer pointer
  rw [run_bind, run_bind_of_ok (run_resolve reference c), hc.toHosts.resolve hlocal]
  generalize (c.resolver.resolve reference).2 = resolver at hresolved ⊢
  have hd := hc.withResolver (hc.toHosts.withResolver hresolved)
  cases hwalk : document.walk? (Path.ofUri reference).parts with
  | none => exact ⟨hd, hresolved, fun id hid => by cases hid⟩
  | some part =>
      have hplace := Json.standsAt_ofUri hlocal hwalk
      have hfaithful := Faithful.within hlocal (fun c => value_faithful closed hbase fuel part
        (Path.ofUri reference) (Path.ofUri reference) config.allowPolymorphism c hplace)
        [Path.ofUri reference] { c with resolver } hd
      have hpoisoned := poisoned_within fuel part ⟨Path.ofUri reference, config.allowPolymorphism⟩
        reference [Path.ofUri reference] { c with resolver }
      dsimp only [run_pure] at hpoisoned ⊢
      rw [run_bind_of_ok (run_get _), run_bind_of_ok (run_outcome _ _)]
      dsimp only
      rw [show c.config.allowPolymorphism = config.allowPolymorphism by rw [hc.settings]]
      generalize inScope reference (Compiling.withChain [Path.ofUri reference]
        (value fuel part (Path.ofUri reference) (Path.ofUri reference) config.allowPolymorphism))
        { c with resolver } = run at hfaithful hpoisoned ⊢
      obtain ⟨r, d⟩ := run
      obtain ⟨he, hkept, hleads⟩ := hfaithful
      cases r with
      | ok id => exact ⟨he, hresolved.trans hkept, hleads⟩
      | error failure =>
          cases failure with
          | errors errors => exact ⟨he, hresolved.trans hkept, fun id hid => by cases hid⟩
          | outOfFuel => exact ⟨he, hresolved.trans hkept, fun id hid => by cases hid⟩
          | recursive =>
              exact ⟨he.poison (hpoisoned rfl), hresolved.trans hkept, fun id hid => by cases hid⟩

/-- A compilation keeps what is known right, whether it succeeds or fails. -/
theorem compile_faithful (closed : document.SelfContained) (hbase : config.baseUri = "")
    (hc : Settled c) (fuel : Nat) {pointer : String} (hlocal : Uri.isLocal pointer = true) :
    Faithful document config ⟨Path.ofUri pointer, config.allowPolymorphism⟩ c
      (c.compile fuel pointer) := by
  intro h
  have hchecked := checkIfAsked_onlyResolver fuel pointer c
  rw [run_compile]
  generalize checkIfAsked fuel pointer c = run at hchecked ⊢
  obtain ⟨r, d⟩ := run
  have hd := mirrors_of_onlyResolver h hchecked
  cases r with
  | error failure => exact ⟨hd, hchecked.kept, fun id hid => by cases hid⟩
  | ok _ =>
      have hsound := compilePointer_sound fuel pointer d
      obtain ⟨hu, hkept, hleads⟩ := compilePointer_faithful closed hbase fuel hlocal d hd
      dsimp only
      rw [run_undoOnFailure]
      generalize compilePointer fuel pointer d = run at hsound hu hkept hleads ⊢
      obtain ⟨r, u⟩ := run
      cases r with
      | error failure =>
          exact ⟨hu.undone (settled_of_onlyResolver hchecked hc) hsound.grows,
            hchecked.kept.trans hkept, fun id hid => by cases hid⟩
      | ok id => exact ⟨hu, hchecked.kept.trans hkept, hleads⟩

/-- A call that compiles, if it does, what stands in the document. -/
def Call.IsLocal : Call → Prop
  | .compile _ pointer => Uri.isLocal pointer = true
  | .check _ _ => True

theorem calls_mirrors (closed : document.SelfContained) (hbase : config.baseUri = "")
    (calls : List Call) : ∀ {c : Compiler}, (∀ call ∈ calls, call.IsLocal) → Settled c →
    Mirrors document config c → Mirrors document config (c.calls calls).1 := by
  induction calls with
  | nil => intro c _ _ h; exact h
  | cons first rest ih =>
      intro c hlocal hc h
      refine ih (fun call hcall => hlocal call (List.mem_cons_of_mem _ hcall))
        (call_settled hc first).1 ?_
      have hfirst := hlocal first List.mem_cons_self
      cases first with
      | compile fuel pointer => exact (compile_faithful closed hbase hc fuel hfirst h).1
      | check fuel pointer => exact mirrors_of_onlyResolver h (check_onlyResolver fuel pointer c)

theorem mirrors_ofDocument (retrievers : List (String × Retriever)) (document : Json)
    (hbase : config.baseUri = "") :
    Mirrors document config (ofDocument retrievers document config) where
  toHosts := Hosts.ofDocument retrievers hbase
  toCoherent := (settled_withResolver _ config).toCoherent
  leads h := by cases h
  depicts h := by cases h

/-! ## Conversions -/

/-- What is read at a reference is only to go on. -/
theorem read_reference {key : CompileKey} {entries : List (String × Json)} {reference : String}
    (hplace : document.StandsAt (.obj entries) key.path)
    (href : Entries.find? "$ref" entries = some (.str reference)) (fuel : Nat) :
    Interpreter.read document config fuel key =
      .ok (.forward ⟨Path.ofUri reference, key.polymorphic⟩) := by
  unfold Interpreter.read Interpreter.reading
  rw [hplace.2]
  dsimp only
  rw [href]
  rfl

/-- Converting by the graph is converting by the document: at every node, for every location that
leads to it, as far as the fuel of the second reaches. -/
theorem interpret_approximates (h : Mirrors document config d) (hd : Settled d) {graph : Graph}
    (hdraws : d.draft.Draws graph) (mode : Mode) (fuel : Nat) :
    ∀ {more : Nat}, fuel ≤ more →
      Conversion.ApproximatesNodes (fun key id => Leads document d id key)
        (Interpreter.interpret document config mode fuel) (graph.convertWithin mode more) := by
  induction fuel with
  | zero => intro more _ key id _ input path; exact .outOfFuel _
  | succ fuel ih =>
      intro more hmore key id hleads input path
      obtain ⟨target, hreaches, hfind⟩ := hleads.of_settled hd
      unfold Interpreter.interpret
      cases hreaches with
      | @through _ entries reference hplace href hnext =>
          -- the graph has no node for a reference: only the interpreter takes a step
          rw [read_reference hplace href fuel]
          exact ih (Nat.le_of_succ_le hmore) _ _ (.inl ⟨target, _, hnext, hfind, rfl⟩) input path
      | here hown =>
          obtain ⟨node, hslot, hdepicts⟩ := h.depicts hfind hown
          cases more with
          | zero => exact absurd hmore (Nat.not_succ_le_zero fuel)
          | succ more =>
              unfold Graph.convertWithin
              rw [(hdraws id node).2 hslot]
              rcases hdepicts fuel with hfuel | ⟨node', hread, halike⟩
              · rw [hfuel]
                exact .outOfFuel _
              · rw [hread]
                exact Conversion.step_approximates (ih (Nat.le_of_succ_le_succ hmore)) mode
                  (.inl ⟨_, _, .here hown, hfind, rfl⟩) halike.flip input path

/-- Compilation is a faithful unfolding. Whatever was compiled and checked before and after, and
whatever of it failed, the node of a location converts as the schema does that is read there, and
again wherever it leads to: the same value or the same errors, and the same state. -/
theorem compile_unfolds {document : Json} {config : Config} (retrievers : List (String × Retriever))
    (closed : document.SelfContained) (hbase : config.baseUri = "") (earlier later : List Call)
    (hearlier : ∀ call ∈ earlier, call.IsLocal) (hlater : ∀ call ∈ later, call.IsLocal)
    (fuel : Nat) {pointer : String} (hpointer : Uri.isLocal pointer = true) {id : NodeId}
    {d : Compiler}
    (hcompiled : ((ofDocument retrievers document config).calls earlier).1.compile fuel pointer =
      (.ok id, d)) :
    ∃ graph, (d.calls later).1.graph id = .ok graph ∧ ∀ mode enough more, enough ≤ more →
      ∀ input path s,
        (Interpreter.interpret document config mode enough
          ⟨Path.ofUri pointer, config.allowPolymorphism⟩ input path s).1 ≠ .error .outOfFuel →
        graph.convertWithin mode more id input path s =
          Interpreter.interpret document config mode enough
            ⟨Path.ofUri pointer, config.allowPolymorphism⟩ input path s := by
  have hstart : Settled (ofDocument retrievers document config) := settled_withResolver _ config
  have hbefore := (calls_settled earlier hstart).1
  have hmirrors := calls_mirrors closed hbase earlier hearlier hstart
    (mirrors_ofDocument retrievers document hbase)
  have hcompiles := compile_settled hbefore fuel pointer
  obtain ⟨hd, -, hleads⟩ := compile_faithful closed hbase hbefore fuel hpointer hmirrors
  rw [hcompiled] at hcompiles hd hleads
  obtain ⟨hsettled, hextends, -⟩ := calls_settled later hcompiles.settled
  have hlt := Nat.lt_of_lt_of_le (hcompiles.node rfl) hextends.length
  obtain ⟨graph, hgraph, hdraws⟩ := graph_of_settled hsettled hlt
  have hfinal := calls_mirrors closed hbase later hlater hcompiles.settled hd
  refine ⟨graph, hgraph, fun mode enough more hmore input path s hends => ?_⟩
  rcases interpret_approximates hfinal hsettled hdraws mode enough hmore _ id
    ((hleads id rfl).extend hextends) input path s with hfuel | hsame
  · exact absurd hfuel hends
  · exact hsame.symm

/-- A document with a schema that refers back to itself. -/
def cyclicDocument : Json :=
  .obj [("List", .obj [("properties", .obj [("rest", .obj [("$ref", .str "#/List")])])])]

theorem compile_unfolds_cycle :
    (Interpreter.interpret cyclicDocument .default ⟨.request, true⟩ 8 ⟨Path.ofUri "#/List", true⟩
      (some (.obj [("rest", .obj [])])) .root (.start none)).1.toOption.isSome = true ∧
    ∃ graph, ((((ofDocument [] cyclicDocument .default).calls [.compile 8 "#/None"]).1.compile 8
        "#/List").2.calls [.check 8 "#"]).1.graph 0 = .ok graph ∧ ∀ mode enough more,
          enough ≤ more →
      ∀ input path s,
        (Interpreter.interpret cyclicDocument .default mode enough ⟨Path.ofUri "#/List", true⟩
          input path s).1 ≠ .error .outOfFuel →
        graph.convertWithin mode more 0 input path s =
          Interpreter.interpret cyclicDocument .default mode enough ⟨Path.ofUri "#/List", true⟩
            input path s := by
  have hearlier : ∀ call ∈ [Call.compile 8 "#/None"], call.IsLocal := by
    intro call hcall
    rw [List.mem_singleton.1 hcall]
    exact (by decide : Uri.isLocal "#/None" = true)
  have hlater : ∀ call ∈ [Call.check 8 "#"], call.IsLocal := by
    intro call hcall
    rw [List.mem_singleton.1 hcall]
    trivial
  refine ⟨by decide +kernel, ?_⟩
  exact compile_unfolds [] ⟨by decide, by decide⟩ rfl _ _ hearlier hlater 8 (by decide)
    (Prod.ext (by decide +kernel) rfl)

end Compiler

end SchemaGraph

import SchemaGraph.Proofs.Compiler.Lockstep
import SchemaGraph.Proofs.Compiler.Memory

set_option autoImplicit false

/-! # Coherence of a compiler

While a schema compiles, its node is reserved and not defined yet, references to it are known
already, and a failure may leave reserved slots behind until everything is taken back. What
holds all the time is that a run only adds (`Extends`), and that whatever is known or referred
to has a slot (`Coherent`). A run that succeeds has also defined every slot it added (`Filled`).
Between the calls of its user a compiler is then `Settled`: nothing is left open.
-/

namespace SchemaGraph

open Compiling

namespace Compiler

/-! ## Invariants -/

/-- What any run does to a compiler, whether it succeeds or fails: slots are added behind those
that are there, something becomes known of further locations, and no location it reserved is
reserved at its end. -/
structure Extends (c d : Compiler) : Prop where
  config : d.config = c.config
  formats : d.formats = c.formats
  chain : d.chain = c.chain
  length : c.length ≤ d.length
  slot : ∀ {i : Nat}, i < c.length → d.draft.slots[i]? = c.draft.slots[i]?
  known : ∀ {key state}, c.memory.find? key = some state → d.memory.find? key = some state
  reserved : ∀ {key id}, d.memory.find? key = some (.reserved id) →
    c.memory.find? key = some (.reserved id)

/-- What is known or referred to has a slot. -/
structure Coherent (c : Compiler) : Prop where
  single : c.memory.Single
  known : ∀ {key state id}, c.memory.find? key = some state → state.node? = some id → id < c.length
  closed : ∀ {i : Nat} {node : Node}, c.draft.slots[i]? = some (some node) →
    ∀ child ∈ node.children, child < c.length

/-- Every slot from a length on is defined. -/
def Filled (length : Nat) (c : Compiler) : Prop :=
  ∀ i, length ≤ i → i < c.length → ∃ node : Node, c.draft.slots[i]? = some (some node)

/-- Nothing is left open: every slot is defined and no location is reserved. -/
structure Settled (c : Compiler) : Prop extends Coherent c where
  filled : Filled 0 c
  unreserved : ∀ {key id}, c.memory.find? key ≠ some (.reserved id)

namespace Extends

variable {a b c d : Compiler} {key : CompileKey}

theorem refl (c : Compiler) : Extends c c :=
  ⟨rfl, rfl, rfl, Nat.le_refl _, fun _ => rfl, fun h => h, fun h => h⟩

theorem trans (hab : Extends a b) (hbc : Extends b c) : Extends a c where
  config := hbc.config.trans hab.config
  formats := hbc.formats.trans hab.formats
  chain := hbc.chain.trans hab.chain
  length := Nat.le_trans hab.length hbc.length
  slot hi := (hbc.slot (Nat.lt_of_lt_of_le hi hab.length)).trans (hab.slot hi)
  known h := hbc.known (hab.known h)
  reserved h := hab.reserved (hbc.reserved h)

/-- The resolver does not matter, before or after. -/
theorem withResolver {r s : Resolver} (h : Extends { c with resolver := r } d) :
    Extends c { d with resolver := s } :=
  ⟨h.config, h.formats, h.chain, h.length, h.slot, h.known, h.reserved⟩

/-- A chain of its own does not matter if it is given up at the end. -/
theorem withChain {chain : List Path} (h : Extends { c with chain } d) :
    Extends c { d with chain := c.chain } :=
  ⟨h.config, h.formats, rfl, h.length, h.slot, h.known, h.reserved⟩

/-- Something may become known of a location of which nothing was known before the run. -/
theorem set (h : Extends c d) (hkey : c.memory.find? key = none) {state : Compiled}
    (hstate : ∀ id, state ≠ .reserved id) :
    Extends c { d with memory := d.memory.set key state } where
  config := h.config
  formats := h.formats
  chain := h.chain
  length := h.length
  slot := h.slot
  known {other found} hknown := by
    have hne : other ≠ key := by
      rintro rfl
      rw [hkey] at hknown
      cases hknown
    exact (CompileMemory.find?_set_of_ne hne).trans (h.known hknown)
  reserved hreserved := h.reserved (CompileMemory.reserved_of_set hstate hreserved).2

end Extends

/-- A run that also keeps a compiler coherent. -/
def Grows (c d : Compiler) : Prop := Extends c d ∧ (Coherent c → Coherent d)

theorem grows_composes : Composes Grows where
  refl c := ⟨.refl c, fun h => h⟩
  trans hab hbc := ⟨hab.1.trans hbc.1, fun h => hbc.2 (hab.2 h)⟩

theorem Grows.withResolver {c d : Compiler} {r s : Resolver}
    (h : Grows { c with resolver := r } d) :
    Grows c { d with resolver := s } := by
  refine ⟨h.1.withResolver, fun hc => ?_⟩
  have hd := h.2 ⟨hc.single, hc.known, hc.closed⟩
  exact ⟨hd.single, hd.known, hd.closed⟩

/-- Anywhere in a document, or nowhere in particular. -/
def anyPlace (_ : Json) (_ : Path) : Prop := True

theorem grows_frame : Frame Grows anyPlace where
  toComposes := grows_composes
  onlyResolver {c d} h := by
    rw [h.same]
    exact (grows_composes.refl c).withResolver
  entry _ _ := trivial
  item _ _ := trivial
  extension _ _ := .inl trivial

/-- Below what it extends, a compiler is as filled as that. -/
theorem Filled.extend {length : Nat} {c d : Compiler} (hc : Filled length c) (hcd : Extends c d)
    (hd : Filled c.length d) : Filled length d := by
  intro i hlength hi
  by_cases hlt : i < c.length
  · obtain ⟨node, hnode⟩ := hc i hlength hlt
    exact ⟨node, (hcd.slot hlt).trans hnode⟩
  · exact hd i (Nat.le_of_not_lt hlt) hi

theorem filled_length (c : Compiler) : Filled c.length c :=
  fun _ hle hlt => absurd hlt (Nat.not_lt_of_le hle)

/-! ## Runs that give a node -/

/-- A run that only adds; if it gives a node, then the node has a slot and every slot it added
is defined. -/
structure Sound (c : Compiler) (run : Except CompileFailure NodeId × Compiler) : Prop where
  grows : Grows c run.2
  result : ∀ {id}, run.1 = .ok id → Coherent c → id < run.2.length ∧ Filled c.length run.2

def SoundParts (compile : CompilingValue) : Prop :=
  ∀ written path referencing flag c, Sound c (compile written path referencing flag c)

variable {compile : CompilingValue} {c d u : Compiler}

theorem SoundParts.keeps (hparts : SoundParts compile) : KeepsParts Grows anyPlace compile :=
  fun written path flag _ c => (hparts written path path flag c).grows

theorem Sound.error {failure : CompileFailure} (h : Grows c d) : Sound c (.error failure, d) :=
  ⟨h, fun hok => by cases hok⟩

/-- What a node refers to is there when it is put together, and nothing is open but what was. -/
theorem node_sound (hparts : SoundParts compile) {fuel : Nat} {entries : List (String × Json)}
    {path : Path} {flag : Bool} {node : Node} (hc : Coherent c)
    (h : Compiling.node compile fuel entries path flag c = (.ok node, d)) :
    (∀ child ∈ node.children, child < d.length) ∧ Filled c.length d := by
  have lock : Lockstep Grows anyPlace d (fun u u' => u' = u ∧ Grows c u ∧ Filled c.length u)
      (fun i k : NodeId => i = k ∧ i < d.length) compile fuel compile fuel :=
    { grows_frame with
      parts := hparts.keeps
      config := by rintro _ u ⟨rfl, -⟩; rfl
      formats := by rintro _ u ⟨rfl, -⟩; rfl
      extensions := by rintro _ u entries path ⟨rfl, -⟩ -; rfl
      beside := fun _ _ _ => trivial
      reads := by
        rintro _ u schema _ a v ⟨rfl, hgrows, hfilled⟩ - haccess -
        have hkeep := grows_frame.access fuel schema u
        have honly := access_onlyResolver fuel schema u
        rw [haccess] at hkeep honly
        refine .inr ⟨a, v, haccess, ⟨rfl, grows_frame.trans hgrows hkeep, ?_⟩, rfl⟩
        have hsame : v = { u with resolver := v.resolver } := honly.same
        rw [hsame]
        exact hfilled
      part := by
        rintro _ u written path flag i v ⟨rfl, hgrows, hfilled⟩ - hpart hlast
        have hsound := hparts written path path flag u
        rw [hpart] at hsound
        obtain ⟨hi, hv⟩ := hsound.result rfl (hgrows.2 hc)
        exact .inr ⟨i, v, hpart, ⟨rfl, grows_frame.trans hgrows hsound.grows,
          hfilled.extend hsound.grows.1 hv⟩, rfl, Nat.lt_of_lt_of_le hi hlast.1.length⟩ }
  rcases lock.node flag trivial ⟨rfl, grows_frame.refl c, filled_length c⟩ h (grows_frame.refl d)
    with hfuel | ⟨node', _, hrun, ⟨rfl, -, hfilled⟩, halike⟩
  · rw [h] at hfuel
    cases hfuel
  · refine ⟨fun child hchild => ?_, hfilled⟩
    obtain ⟨k, -, hlt⟩ := halike.related child hchild
    exact hlt

/-! ## Schemas -/

/-- The compiler in which the parts of a schema compile: the node of the schema is reserved. -/
def opened (c : Compiler) (key : CompileKey) : Compiler :=
  { c with
    draft := c.draft.reserve, memory := c.memory.reserve key c.draft.next, chain := [] }

/-- The compiler after a schema, given the one after its parts: what the draft has become and
what is known of the schema. -/
def ended (c u : Compiler) (key : CompileKey) (draft : GraphDraft) (state : Compiled) : Compiler :=
  { u with draft, memory := u.memory.set key state, chain := c.chain }

theorem length_opened (c : Compiler) (key : CompileKey) : (opened c key).length = c.length + 1 :=
  c.draft.length_reserve

theorem slot_opened {i : Nat} (h : i < c.length) (key : CompileKey) :
    (opened c key).draft.slots[i]? = c.draft.slots[i]? :=
  GraphDraft.slot_reserve_of_lt h

/-- The slot that was reserved is still empty when the parts are there. -/
theorem reserved_slot {key : CompileKey} (h : Extends (opened c key) u) :
    u.draft.slots[c.draft.next]? = some none := by
  rw [h.slot (by rw [length_opened]; exact Nat.lt_succ_self _)]
  exact c.draft.slot_reserve_next

/-- A schema fails as its node does, and otherwise its node is defined: the slot was reserved, and
nothing else has defined it. -/
theorem run_schema {fuel : Nat} {entries : List (String × Json)} {key : CompileKey}
    {r : Except CompileFailure Node}
    (h : Compiling.node compile fuel entries key.path key.polymorphic (opened c key) = (r, u))
    (hu : Extends (opened c key) u) :
    schema compile fuel entries key c = match r with
      | .error failure => (.error failure, ended c u key u.draft .poisoned)
      | .ok node => (.ok c.draft.next,
        ended c u key ⟨u.draft.slots.set c.draft.next (some node)⟩ (.defined c.draft.next)) := by
  have hchain : withChain [] (Compiling.node compile fuel entries key.path key.polymorphic)
      { c with draft := c.draft.reserve, memory := c.memory.reserve key c.draft.next } =
      (r, { u with chain := c.chain }) := by
    rw [run_withChain]
    show ((Compiling.node compile fuel entries key.path key.polymorphic (opened c key)).1,
      { (Compiling.node compile fuel entries key.path key.polymorphic (opened c key)).2 with
        chain := c.chain }) = _
    rw [h]
  unfold schema
  rw [run_bind_of_ok (run_get c), run_bind_of_ok (run_modify _ c), run_bind_of_ok (run_outcome _ _),
    hchain]
  cases r with
  | error failure => rfl
  | ok node =>
      dsimp only
      rw [run_bind_of_ok (run_get _), GraphDraft.define_of_empty (reserved_slot hu) node]
      rfl

theorem extends_ended {key : CompileKey} (hkey : c.memory.find? key = none)
    (hu : Extends (opened c key) u) {state : Compiled} (hstate : ∀ id, state ≠ .reserved id)
    {draft : GraphDraft} (hlength : draft.length = u.length)
    (hslot : ∀ i : Nat, i < c.length → draft.slots[i]? = u.draft.slots[i]?) :
    Extends c (ended c u key draft state) where
  config := hu.config
  formats := hu.formats
  chain := rfl
  length := by
    show c.length ≤ draft.length
    have := hu.length
    rw [length_opened] at this
    omega
  slot {i} hi := by
    refine (hslot i hi).trans ((hu.slot ?_).trans (slot_opened hi key))
    rw [length_opened]
    omega
  known {other found} hknown := by
    have hne : other ≠ key := by
      rintro rfl
      rw [hkey] at hknown
      cases hknown
    refine (CompileMemory.find?_set_of_ne hne).trans (hu.known ?_)
    exact (CompileMemory.find?_set_of_ne hne).trans hknown
  reserved hreserved := by
    obtain ⟨hne, hbefore⟩ := CompileMemory.reserved_of_set hstate hreserved
    exact (CompileMemory.find?_set_of_ne hne).symm.trans (hu.reserved hbefore)

/-- What is known may be added to, as long as it names a slot. -/
theorem Coherent.set (h : Coherent c) (key : CompileKey) {state : Compiled}
    (hstate : ∀ id, state.node? = some id → id < c.length) :
    Coherent { c with memory := c.memory.set key state } where
  single := CompileMemory.single_set h.single key state
  known {other found id} hknown hid := by
    rcases CompileMemory.find?_set_cases hknown with ⟨-, rfl⟩ | ⟨-, hbefore⟩
    · exact hstate id hid
    · exact h.known hbefore hid
  closed := h.closed

theorem Coherent.opened (h : Coherent c) (key : CompileKey) : Coherent (opened c key) where
  single := CompileMemory.single_set h.single key _
  known {other found id} hknown hid := by
    rw [length_opened]
    rcases CompileMemory.find?_set_cases hknown with ⟨-, rfl⟩ | ⟨-, hbefore⟩
    · cases hid
      exact Nat.lt_succ_self _
    · exact Nat.lt_succ_of_lt (h.known hbefore hid)
  closed {i node} hslot child hchild := by
    rw [length_opened]
    by_cases hi : i < c.length
    · rw [slot_opened hi] at hslot
      exact Nat.lt_succ_of_lt (h.closed hslot child hchild)
    · have hlt := GraphDraft.slot_lt hslot
      have hnext : i = c.draft.next := by
        have : i < c.length + 1 := length_opened c key ▸ hlt
        show i = c.length
        omega
      subst hnext
      rw [show (Compiler.opened c key).draft.slots[c.draft.next]? = some none from
        c.draft.slot_reserve_next] at hslot
      cases hslot

/-- Defining the node of a schema keeps a compiler coherent if what the node refers to is there. -/
theorem Coherent.ended (h : Coherent u) (key : CompileKey) {node : Node}
    (hnext : c.draft.next < u.length) (hchildren : ∀ child ∈ node.children, child < u.length) :
    Coherent (ended c u key ⟨u.draft.slots.set c.draft.next (some node)⟩
      (.defined c.draft.next)) := by
  have hlength : (u.draft.slots.set c.draft.next (some node)).length = u.length := List.length_set
  refine ⟨CompileMemory.single_set h.single _ _, ?_, ?_⟩
  · intro other found id hknown hid
    show id < (u.draft.slots.set c.draft.next (some node)).length
    rw [hlength]
    rcases CompileMemory.find?_set_cases hknown with ⟨-, rfl⟩ | ⟨-, hbefore⟩
    · cases hid
      exact hnext
    · exact h.known hbefore hid
  · intro i other hslot child hchild
    change (u.draft.slots.set c.draft.next (some node))[i]? = _ at hslot
    show child < (u.draft.slots.set c.draft.next (some node)).length
    rw [hlength]
    by_cases hi : c.draft.next = i
    · subst hi
      rw [List.getElem?_set_self hnext] at hslot
      cases hslot
      exact hchildren child hchild
    · rw [List.getElem?_set_ne hi] at hslot
      exact h.closed hslot child hchild

/-- With the node of a schema, every slot from its own on is defined. -/
theorem Filled.ended {key : CompileKey} (h : Filled (opened c key).length u) (node : Node)
    (hnext : c.draft.next < u.length) :
    Filled c.length (ended c u key ⟨u.draft.slots.set c.draft.next (some node)⟩
      (.defined c.draft.next)) := by
  intro i hle hlt
  show ∃ other : Node, (u.draft.slots.set c.draft.next (some node))[i]? = some (some other)
  change i < (u.draft.slots.set c.draft.next (some node)).length at hlt
  rw [List.length_set] at hlt
  by_cases hi : c.draft.next = i
  · subst hi
    exact ⟨node, List.getElem?_set_self hnext⟩
  · rw [List.getElem?_set_ne hi]
    refine h i ?_ hlt
    rw [length_opened]
    have hne : i ≠ c.length := fun heq => hi heq.symm
    omega

/-- A schema only adds, and its node is there if it gives one. -/
theorem schema_sound (hparts : SoundParts compile) (fuel : Nat) (entries : List (String × Json))
    {key : CompileKey} (hkey : c.memory.find? key = none) :
    Sound c (schema compile fuel entries key c) := by
  have hkeep := grows_frame.node hparts.keeps fuel key.polymorphic
    (show anyPlace (.obj entries) key.path from trivial) (opened c key)
  rcases hrun : Compiling.node compile fuel entries key.path key.polymorphic (opened c key)
    with ⟨r, u⟩
  rw [hrun] at hkeep
  obtain ⟨hu, hcoherent⟩ := hkeep
  have hnext : c.draft.next < u.length := by
    have hlength := hu.length
    rw [length_opened] at hlength
    exact hlength
  rw [run_schema hrun hu]
  cases r with
  | error failure =>
      refine Sound.error ⟨extends_ended hkey hu (by simp) rfl (fun _ _ => rfl), fun hc => ?_⟩
      have hnone : ∀ id, Compiled.poisoned.node? = some id → id < u.length := by
        intro id hid
        cases hid
      have hd := (hcoherent (hc.opened key)).set key hnone
      exact ⟨hd.single, hd.known, hd.closed⟩
  | ok node =>
      have hlength : (u.draft.slots.set c.draft.next (some node)).length = u.draft.slots.length :=
        List.length_set
      refine ⟨⟨extends_ended hkey hu (by simp) hlength ?_, fun hc => ?_⟩, ?_⟩
      · intro i hi
        exact List.getElem?_set_ne (Nat.ne_of_gt hi)
      · obtain ⟨hchildren, -⟩ := node_sound hparts (hc.opened key) hrun
        exact (hcoherent (hc.opened key)).ended key hnext hchildren
      · intro id hid hc
        cases hid
        obtain ⟨-, hfilled⟩ := node_sound hparts (hc.opened key) hrun
        refine ⟨?_, hfilled.ended node hnext⟩
        show c.draft.next < (u.draft.slots.set c.draft.next (some node)).length
        rw [hlength]
        exact hnext

/-! ## References -/

theorem Grows.withChain {chain : List Path} (h : Grows { c with chain } d) :
    Grows c { d with chain := c.chain } := by
  refine ⟨h.1.withChain, fun hc => ?_⟩
  have hd := h.2 ⟨hc.single, hc.known, hc.closed⟩
  exact ⟨hd.single, hd.known, hd.closed⟩

theorem Grows.set (h : Grows c d) {key : CompileKey} (hkey : c.memory.find? key = none)
    {state : Compiled} (hstate : ∀ id, state ≠ .reserved id)
    (hid : ∀ id, state.node? = some id → Coherent c → id < d.length) :
    Grows c { d with memory := d.memory.set key state } :=
  ⟨h.1.set hkey hstate, fun hc => (h.2 hc).set key fun id hnode => hid id hnode hc⟩

theorem Sound.withResolver {r s : Resolver} {run : Except CompileFailure NodeId × Compiler}
    (h : Sound { c with resolver := r } run) : Sound c (run.1, { run.2 with resolver := s }) :=
  ⟨h.grows.withResolver, fun hid hc => h.result hid ⟨hc.single, hc.known, hc.closed⟩⟩

/-- What was resolved before a run does not matter. -/
theorem Sound.resolved {r : Resolver} {run : Except CompileFailure NodeId × Compiler}
    (h : Sound { c with resolver := r } run) : Sound c run :=
  h.withResolver

theorem Sound.withChain {chain : List Path} {run : Except CompileFailure NodeId × Compiler}
    (h : Sound { c with chain } run) : Sound c (run.1, { run.2 with chain := c.chain }) :=
  ⟨h.grows.withChain, fun hid hc => h.result hid ⟨hc.single, hc.known, hc.closed⟩⟩

theorem Sound.inScope {m : Compiling NodeId} (h : ∀ c, Sound c (m c)) (url : String)
    (c : Compiler) :
    Sound c (inScope url m c) := (h _).withResolver

theorem Sound.ownChain {m : Compiling NodeId} (h : ∀ c, Sound c (m c)) (chain : List Path)
    (c : Compiler) : Sound c (Compiling.withChain chain m c) := (h _).withChain

/-- What is known is there already. -/
theorem Sound.known {key : CompileKey} {state : Compiled} (h : c.memory.find? key = some state)
    (referencing : Path) (otherwise : Compiling NodeId) :
    Sound c (reuse (some state) referencing otherwise c) := by
  cases state with
  | reserved node =>
      refine ⟨grows_frame.refl c, fun hid hc => ?_⟩
      cases hid
      exact ⟨hc.known h rfl, filled_length c⟩
  | defined node =>
      refine ⟨grows_frame.refl c, fun hid hc => ?_⟩
      cases hid
      exact ⟨hc.known h rfl, filled_length c⟩
  | poisoned => exact Sound.error (grows_frame.refl c)

theorem run_reuse (key : CompileKey) (referencing : Path) (otherwise : Compiling NodeId)
    (c : Compiler) : (Compiling.known key >>= fun known => reuse known referencing otherwise) c =
      reuse (c.memory.find? key) referencing otherwise c :=
  run_bind_of_ok (run_known key c) _

/-- Looking a location up first is sound if what follows is, where nothing is known. -/
theorem Sound.reuse {key : CompileKey} (referencing : Path) {otherwise : Compiling NodeId}
    (h : c.memory.find? key = none → Sound c (otherwise c)) :
    Sound c ((Compiling.known key >>= fun known => reuse known referencing otherwise) c) := by
  rw [run_reuse]
  cases hkey : c.memory.find? key with
  | some state => exact Sound.known hkey referencing otherwise
  | none => exact h hkey

theorem follow_sound (hparts : SoundParts compile) {key : CompileKey} (url : String) (value : Json)
    (chain : List Path) (referencing : Path) (hkey : c.memory.find? key = none) :
    Sound c (follow compile url value chain referencing key c) := by
  have hsound := Sound.inScope (Sound.ownChain (hparts value key.path key.path key.polymorphic)
    (key.path :: chain)) url c
  unfold follow
  rw [run_bind_of_ok (run_outcome _ c)]
  generalize Compiling.inScope url (Compiling.withChain (key.path :: chain)
    (compile value key.path key.path key.polymorphic)) c = run at hsound ⊢
  obtain ⟨r, d⟩ := run
  cases r with
  | ok node => exact hsound
  | error failure =>
      cases failure with
      | errors errors => exact Sound.error hsound.grows
      | recursive =>
          refine Sound.error (hsound.grows.set hkey (fun id => by simp) ?_)
          intro id hid
          cases hid
      | outOfFuel => exact Sound.error hsound.grows

theorem target_sound (hparts : SoundParts compile) (reference : String) (referencing : Path)
    (flag : Bool) (c : Compiler) : Sound c (target compile reference referencing flag c) := by
  unfold target
  rw [run_bind_of_ok (run_resolve reference c)]
  generalize (c.resolver.resolve reference).2 = resolver
  refine Sound.resolved (r := resolver) ?_
  cases (c.resolver.resolve reference).1 with
  | error e => exact Sound.error (grows_frame.refl _)
  | ok found =>
      obtain ⟨url, value⟩ := found
      dsimp only
      rw [run_bind_of_ok (run_get _)]
      dsimp only
      split
      · exact Sound.error (grows_frame.refl _)
      · exact Sound.reuse referencing fun hkey => follow_sound hparts url value _ referencing hkey

theorem referenced_sound (hparts : SoundParts compile) (reference : Json) (key : CompileKey)
    (c : Compiler) : Sound c (referenced compile reference key c) := by
  cases reference with
  | str text => exact target_sound hparts text key.path key.polymorphic c
  | _ => exact Sound.error (grows_frame.refl c)

theorem referenceOnly_sound (hparts : SoundParts compile) (reference : Json) {key : CompileKey}
    (hkey : c.memory.find? key = none) : Sound c (referenceOnly compile reference key c) := by
  have hsound := referenced_sound hparts reference key c
  unfold referenceOnly
  rw [run_bind_of_ok (run_outcome _ c)]
  generalize referenced compile reference key c = run at hsound ⊢
  obtain ⟨r, d⟩ := run
  cases r with
  | error failure =>
      refine Sound.error (hsound.grows.set hkey (fun id => by simp) ?_)
      intro id hid
      cases hid
  | ok node =>
      refine ⟨hsound.grows.set hkey (fun id => by simp) ?_, fun hid hc => ?_⟩
      · intro id hid hc
        cases hid
        exact (hsound.result rfl hc).1
      · cases hid
        exact hsound.result rfl hc

/-- Whatever a compilation does to a compiler, it only adds to it, and what succeeds leaves
nothing open. -/
theorem value_sound (fuel : Nat) : SoundParts (value fuel) := by
  induction fuel with
  | zero => intro written path referencing flag c; exact Sound.error (grows_frame.refl c)
  | succ fuel ih =>
      intro written path referencing flag c
      refine Sound.reuse referencing fun hkey => ?_
      cases written with
      | obj entries =>
          dsimp only
          cases Entries.find? "$ref" entries with
          | some reference => exact referenceOnly_sound ih reference hkey
          | none => exact schema_sound ih fuel entries hkey
      | _ => exact Sound.error (grows_frame.refl c)

end Compiler

end SchemaGraph

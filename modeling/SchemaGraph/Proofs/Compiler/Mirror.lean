import SchemaGraph.Proofs.Compiler.Calls
import SchemaGraph.Proofs.Compiler.Interpreter

set_option autoImplicit false

/-! # What nodes are nodes of

A location that is only a reference shares the node of its target, and a schema that refers back
to itself closes a cycle through the node reserved for it. So the node of a location is that of
the schema its references lead to (`Leads`), and the node of a schema looks like what is read at
its location, with children that lead to the locations of its parts (`Mirrors`).

A failure may leave a reserved slot behind that nothing defines any more. It may be taken for
anything, since no compilation that succeeds leaves one.
-/

namespace SchemaGraph

open Compiling

namespace Compiler

variable {document : Json} {config : Config} {c d u : Compiler} {key : CompileKey} {id : NodeId}

/-! ## What stands for what -/

/-- A schema stands at a location, and is not only a reference. -/
def IsOwn (document : Json) (key : CompileKey) : Prop :=
  ∃ entries, document.StandsAt (.obj entries) key.path ∧ Entries.find? "$ref" entries = none

/-- The references at a location lead to a schema. -/
inductive Reaches (document : Json) (target : CompileKey) : CompileKey → Prop where
  | here (own : IsOwn document target) : Reaches document target target
  | through {key : CompileKey} {entries : List (String × Json)} {reference : String}
      (place : document.StandsAt (.obj entries) key.path)
      (ref : Entries.find? "$ref" entries = some (.str reference))
      (next : Reaches document target ⟨Path.ofUri reference, key.polymorphic⟩) :
      Reaches document target key

/-- A slot that was reserved and will not be defined any more. -/
def Abandoned (c : Compiler) (id : NodeId) : Prop :=
  c.draft.slots[id]? = some none ∧ ∀ key, c.memory.find? key ≠ some (.reserved id)

/-- A node is that of the schema a location leads to. -/
def Leads (document : Json) (c : Compiler) (id : NodeId) (key : CompileKey) : Prop :=
  (∃ target state, Reaches document target key ∧ c.memory.find? target = some state ∧
    state.node? = some id) ∨ Abandoned c id

/-- A node looks like what is read at a location. -/
def Depicts (document : Json) (config : Config) (c : Compiler) (key : CompileKey) (node : Node) :
    Prop :=
  ∀ fuel, Interpreter.read document config fuel key = .error .outOfFuel ∨
    ∃ node', Interpreter.read document config fuel key = .ok node' ∧
      Node.Alike (Leads document c) node node'

/-- What is known of locations is known rightly. -/
structure Mirrors (document : Json) (config : Config) (c : Compiler) : Prop
    extends Hosts document config c, Coherent c where
  leads : ∀ {key state id}, c.memory.find? key = some state → state.node? = some id →
    Leads document c id key
  depicts : ∀ {key id}, c.memory.find? key = some (.defined id) → IsOwn document key →
    ∃ node, c.draft.slots[id]? = some (some node) ∧ Depicts document config c key node

theorem not_isOwn_of_reference {entries : List (String × Json)} {reference : Json}
    (hplace : document.StandsAt (.obj entries) key.path)
    (href : Entries.find? "$ref" entries = some reference) : ¬IsOwn document key := by
  rintro ⟨other, hother, hnone⟩
  have hsame := hother.2.symm.trans hplace.2
  cases hsame
  rw [hnone] at href
  cases href

theorem Reaches.own {target : CompileKey} (h : Reaches document target key) :
    IsOwn document target := by
  induction h with
  | here own => exact own
  | through _ _ _ ih => exact ih

/-! ## Leading on -/

theorem Leads.through {entries : List (String × Json)} {reference : String}
    (hplace : document.StandsAt (.obj entries) key.path)
    (href : Entries.find? "$ref" entries = some (.str reference))
    (h : Leads document c id ⟨Path.ofUri reference, key.polymorphic⟩) :
    Leads document c id key := by
  rcases h with ⟨target, state, hreaches, hfind, hnode⟩ | habandoned
  · exact .inl ⟨target, state, .through hplace href hreaches, hfind, hnode⟩
  · exact .inr habandoned

/-- A node leads to a location in another compiler if what is known of schemas goes along. -/
theorem Leads.carry (h : Leads document c id key)
    (hknown : ∀ {target state}, IsOwn document target → c.memory.find? target = some state →
      state.node? = some id →
      (∃ state', d.memory.find? target = some state' ∧ state'.node? = some id) ∨ Abandoned d id)
    (habandoned : Abandoned c id → Abandoned d id) : Leads document d id key := by
  rcases h with ⟨target, state, hreaches, hfind, hnode⟩ | h
  · rcases hknown hreaches.own hfind hnode with ⟨state', hfind', hnode'⟩ | h
    · exact .inl ⟨target, state', hreaches, hfind', hnode'⟩
    · exact .inr h
  · exact .inr (habandoned h)

theorem Leads.extend (h : Leads document c id key) (hextends : Extends c d) :
    Leads document d id key := by
  refine h.carry (fun {_ state} _ hfind hnode => .inl ⟨state, hextends.known hfind, hnode⟩) ?_
  rintro ⟨hslot, hunreserved⟩
  refine ⟨(hextends.slot (GraphDraft.slot_lt hslot)).trans hslot, fun key hreserved => ?_⟩
  exact hunreserved key (hextends.reserved hreserved)

/-- Where nothing is left open, a node that leads to a location is defined for a schema. -/
theorem Leads.of_settled (h : Leads document c id key) (hc : Settled c) :
    ∃ target, Reaches document target key ∧ c.memory.find? target = some (.defined id) := by
  rcases h with ⟨target, state, hreaches, hfind, hnode⟩ | ⟨hslot, -⟩
  · refine ⟨target, hreaches, ?_⟩
    cases state with
    | reserved found => exact absurd hfind hc.unreserved
    | defined found =>
        cases hnode
        exact hfind
    | poisoned => cases hnode
  · obtain ⟨node, hnode⟩ := hc.filled id (Nat.zero_le id) (GraphDraft.slot_lt hslot)
    rw [hnode] at hslot
    cases hslot

/-- What a node looks like carries over as far as its children lead on. -/
theorem Depicts.carry {node : Node} (h : Depicts document config c key node)
    (hleads : ∀ i ∈ node.children, ∀ k, Leads document c i k → Leads document d i k) :
    Depicts document config d key node := by
  intro fuel
  rcases h fuel with hfuel | ⟨node', hread, halike⟩
  · exact .inl hfuel
  · exact .inr ⟨node', hread, halike.imp hleads⟩

namespace Mirrors

/-- A compiler that knows what another one does, and more that is right, knows everything
rightly. -/
theorem carry (h : Mirrors document config c) (hhosts : Hosts document config d)
    (hcoherent : Coherent d) (hleads : ∀ {i k}, Leads document c i k → Leads document d i k)
    (hslot : ∀ {i : Nat} {node : Node}, c.draft.slots[i]? = some (some node) →
      d.draft.slots[i]? = some (some node))
    (hknown : ∀ {key state id}, d.memory.find? key = some state → state.node? = some id →
      c.memory.find? key = some state ∨ Leads document d id key ∧
        (state = .defined id → IsOwn document key →
          ∃ node, d.draft.slots[id]? = some (some node) ∧ Depicts document config d key node)) :
    Mirrors document config d := by
  refine ⟨hhosts, hcoherent, ?_, ?_⟩
  · intro key state id hfind hnode
    rcases hknown hfind hnode with hbefore | ⟨hlead, -⟩
    · exact hleads (h.leads hbefore hnode)
    · exact hlead
  · intro key id hfind hown
    rcases hknown hfind rfl with hbefore | ⟨-, hdepicts⟩
    · obtain ⟨node, hnode, hdepicts⟩ := h.depicts hbefore hown
      exact ⟨node, hslot hnode, hdepicts.carry fun _ _ _ hlead => hleads hlead⟩
    · exact hdepicts rfl hown

theorem withResolver (h : Mirrors document config c) {r : Resolver}
    (hhosts : Hosts document config { c with resolver := r }) :
    Mirrors document config { c with resolver := r } :=
  ⟨hhosts, ⟨h.single, h.known, h.closed⟩, h.leads, h.depicts⟩

theorem withChain (h : Mirrors document config c) (chain : List Path) :
    Mirrors document config { c with chain } :=
  ⟨⟨h.settings, h.formats, h.serves, h.inside⟩, ⟨h.single, h.known, h.closed⟩, h.leads, h.depicts⟩

/-- What is known of a location that is only a reference may be replaced, by what is right. -/
theorem set (h : Mirrors document config c) (hown : ¬IsOwn document key) {state : Compiled}
    (hreserved : ∀ id, state ≠ .reserved id)
    (hstate : ∀ id, state.node? = some id → id < c.length ∧ Leads document c id key) :
    Mirrors document config { c with memory := c.memory.set key state } := by
  have hleads : ∀ {i k}, Leads document c i k →
      Leads document { c with memory := c.memory.set key state } i k := by
    intro i k hlead
    refine hlead.carry ?_ ?_
    · intro target found htarget hfind hnode
      have hne : target ≠ key := fun heq => hown (heq ▸ htarget)
      exact .inl ⟨found, (CompileMemory.find?_set_of_ne hne).trans hfind, hnode⟩
    · rintro ⟨hslot, hunreserved⟩
      exact ⟨hslot, fun other hother =>
        hunreserved other (CompileMemory.reserved_of_set hreserved hother).2⟩
  refine h.carry ⟨h.settings, h.formats, h.serves, h.inside⟩
    (h.toCoherent.set key fun id hid => (hstate id hid).1) hleads (fun hslot => hslot) ?_
  intro other found id hfind hnode
  rcases CompileMemory.find?_set_cases hfind with ⟨rfl, rfl⟩ | ⟨-, hbefore⟩
  · exact .inr ⟨hleads (hstate id hnode).2, fun _ hother => absurd hother hown⟩
  · exact .inl hbefore

/-- Poison that is there already changes nothing. -/
theorem poison (h : Mirrors document config c) (hpoisoned : c.memory.find? key = some .poisoned) :
    Mirrors document config { c with memory := c.memory.poison key } := by
  have hsame : ∀ other, (c.memory.poison key).find? other = c.memory.find? other := by
    intro other
    show (c.memory.set key .poisoned).find? other = _
    rw [CompileMemory.find?_set]
    split
    · rename_i heq
      rw [heq]
      exact hpoisoned.symm
    · rfl
  have hleads : ∀ {i k}, Leads document c i k →
      Leads document { c with memory := c.memory.poison key } i k := by
    intro i k hlead
    refine hlead.carry ?_ ?_
    · intro target found _ hfind hnode
      exact .inl ⟨found, (hsame target).trans hfind, hnode⟩
    · rintro ⟨hslot, hunreserved⟩
      exact ⟨hslot, fun other hother => hunreserved other ((hsame other).symm.trans hother)⟩
  exact h.carry ⟨h.settings, h.formats, h.serves, h.inside⟩
    (h.toCoherent.set key fun id hid => by cases hid) hleads (fun hslot => hslot)
    fun hfind _ => .inl ((hsame _).symm.trans hfind)

/-! ## Schemas of their own -/

/-- To reserve a node for a schema breaks nothing. -/
theorem opened (h : Mirrors document config c) (hown : IsOwn document key)
    (hkey : c.memory.find? key = none) : Mirrors document config (Compiler.opened c key) := by
  have hfind : ∀ {other state}, c.memory.find? other = some state →
      (Compiler.opened c key).memory.find? other = some state := by
    intro other state hother
    refine (CompileMemory.find?_set_of_ne ?_).trans hother
    rintro rfl
    rw [hkey] at hother
    cases hother
  have hleads : ∀ {i k}, Leads document c i k → Leads document (Compiler.opened c key) i k := by
    intro i k hlead
    refine hlead.carry (fun {_ state} _ hother hnode => .inl ⟨state, hfind hother, hnode⟩) ?_
    rintro ⟨hslot, hunreserved⟩
    have hlt : i < c.length := GraphDraft.slot_lt hslot
    refine ⟨(slot_opened hlt key).trans hslot, fun other hother => ?_⟩
    rcases CompileMemory.find?_set_cases hother with ⟨-, hsame⟩ | ⟨-, hbefore⟩
    · cases hsame
      exact Nat.lt_irrefl _ hlt
    · exact hunreserved other hbefore
  refine h.carry ⟨h.settings, h.formats, h.serves, h.inside⟩ (h.toCoherent.opened key) hleads
    (fun hslot => (slot_opened (GraphDraft.slot_lt hslot) key).trans hslot) ?_
  intro other state id hother hnode
  rcases CompileMemory.find?_set_cases hother with ⟨rfl, rfl⟩ | ⟨-, hbefore⟩
  · exact .inr ⟨.inl ⟨_, _, .here hown, hother, hnode⟩, fun hdefined => by cases hdefined⟩
  · exact .inl hbefore

/-- Only the schema itself is reserved under its node. -/
theorem reserved_unique (hc : Coherent c) (hu : Extends (Compiler.opened c key) u)
    {other : CompileKey}
    (h : u.memory.find? other = some (.reserved c.draft.next)) : other = key := by
  rcases CompileMemory.find?_set_cases (hu.reserved h) with ⟨heq, -⟩ | ⟨-, hbefore⟩
  · exact heq
  · exact absurd (hc.known hbefore rfl) (Nat.lt_irrefl _)

/-- A schema that fails leaves its slot behind, and poison. -/
theorem failed (h : Mirrors document config u) (hc : Coherent c)
    (hu : Extends (Compiler.opened c key) u)
    (hhosts : Hosts document config (ended c u key u.draft .poisoned))
    (hcoherent : Coherent (ended c u key u.draft .poisoned)) :
    Mirrors document config (ended c u key u.draft .poisoned) := by
  have hreserved : u.memory.find? key = some (.reserved c.draft.next) :=
    hu.known (CompileMemory.find?_set_self c.memory key _)
  have hempty := reserved_slot hu
  have hpoisoned : ∀ i, Compiled.poisoned ≠ .reserved i := fun i => by simp
  have hleads : ∀ {i k}, Leads document u i k →
      Leads document (ended c u key u.draft .poisoned) i k := by
    intro i k hlead
    refine hlead.carry ?_ ?_
    · intro target found htarget hfind hnode
      by_cases heq : target = key
      · subst heq
        have hsame := hreserved.symm.trans hfind
        cases hsame
        cases hnode
        refine .inr ⟨hempty, fun other hother => ?_⟩
        obtain ⟨hne, hbefore⟩ := CompileMemory.reserved_of_set hpoisoned hother
        exact hne (reserved_unique hc hu hbefore)
      · exact .inl ⟨found, (CompileMemory.find?_set_of_ne heq).trans hfind, hnode⟩
    · rintro ⟨hslot, hnone⟩
      exact ⟨hslot, fun other hother =>
        hnone other (CompileMemory.reserved_of_set hpoisoned hother).2⟩
  refine h.carry hhosts hcoherent hleads (fun hslot => hslot) ?_
  intro other found id hfind hnode
  rcases CompileMemory.find?_set_cases hfind with ⟨-, rfl⟩ | ⟨-, hbefore⟩
  · cases hnode
  · exact .inl hbefore

/-- A schema that succeeds defines its slot with what is read at its location. -/
theorem succeeded (h : Mirrors document config u)
    (hu : Extends (Compiler.opened c key) u) {node : Node}
    (hnode : Depicts document config u key node) {draft : GraphDraft}
    (hdraft : draft = ⟨u.draft.slots.set c.draft.next (some node)⟩)
    (hhosts : Hosts document config (ended c u key draft (.defined c.draft.next)))
    (hcoherent : Coherent (ended c u key draft (.defined c.draft.next))) :
    Mirrors document config (ended c u key draft (.defined c.draft.next)) := by
  subst hdraft
  have hreserved : u.memory.find? key = some (.reserved c.draft.next) :=
    hu.known (CompileMemory.find?_set_self c.memory key _)
  have hempty := reserved_slot hu
  have hleads : ∀ {i k}, Leads document u i k → Leads document
      (ended c u key ⟨u.draft.slots.set c.draft.next (some node)⟩ (.defined c.draft.next)) i k := by
    intro i k hlead
    refine hlead.carry ?_ ?_
    · intro target found htarget hfind hfound
      by_cases heq : target = key
      · subst heq
        have hsame := hreserved.symm.trans hfind
        cases hsame
        exact .inl ⟨_, CompileMemory.find?_set_self u.memory target _, hfound⟩
      · exact .inl ⟨found, (CompileMemory.find?_set_of_ne heq).trans hfind, hfound⟩
    · rintro ⟨hslot, hnone⟩
      have hne : c.draft.next ≠ i := fun heq => hnone key (heq ▸ hreserved)
      refine ⟨(List.getElem?_set_ne hne).trans hslot, fun other hother => ?_⟩
      exact hnone other (CompileMemory.reserved_of_set (fun id => by simp) hother).2
  refine h.carry hhosts hcoherent hleads ?_ ?_
  · intro i found hslot
    have hne : c.draft.next ≠ i := by
      rintro rfl
      rw [hempty] at hslot
      cases hslot
    exact (List.getElem?_set_ne hne).trans hslot
  · intro other found id hfind hfound
    rcases CompileMemory.find?_set_cases hfind with ⟨rfl, rfl⟩ | ⟨-, hbefore⟩
    · cases hfound
      refine .inr ⟨hleads (h.leads hreserved rfl), fun _ _ => ⟨node, ?_, ?_⟩⟩
      · exact List.getElem?_set_self (GraphDraft.slot_lt hempty)
      · exact hnode.carry fun _ _ _ hlead => hleads hlead
    · exact .inl hbefore

/-! ## Taking back -/

/-- What is known after a compilation was taken back is still right. -/
theorem undone (h : Mirrors document config u) (hc : Settled c) (hu : Grows c u) :
    Mirrors document config (undone c u) := by
  have hfind : ∀ {other state}, (Compiler.undone c u).memory.find? other = some state →
      u.memory.find? other = some state ∧ ∀ id, state.node? = some id → id < c.length := by
    intro other state hother
    rw [find?_undone h.toCoherent] at hother
    obtain ⟨hbefore, hbelow⟩ := Option.filter_eq_some_iff.1 hother
    refine ⟨hbefore, fun id hid => ?_⟩
    unfold Compiled.isBelow at hbelow
    rw [hid] at hbelow
    exact of_decide_eq_true hbelow
  have hleads : ∀ {i k}, i < c.length → Leads document u i k →
      Leads document (Compiler.undone c u) i k := by
    intro i k hi hlead
    refine hlead.carry ?_ ?_
    · intro target state _ htarget hnode
      refine .inl ⟨state, ?_, hnode⟩
      rw [find?_undone h.toCoherent, htarget]
      refine Option.filter_some_pos ?_
      unfold Compiled.isBelow
      rw [hnode]
      exact decide_eq_true hi
    · rintro ⟨hslot, -⟩
      obtain ⟨node, hnode⟩ := hc.filled i (Nat.zero_le i) hi
      rw [hu.1.slot hi, hnode] at hslot
      cases hslot
  refine ⟨⟨h.settings, h.formats, h.serves, h.inside⟩, (undone_settled hc hu).toCoherent, ?_, ?_⟩
  · intro other state id hother hnode
    obtain ⟨hbefore, hbelow⟩ := hfind hother
    exact hleads (hbelow id hnode) (h.leads hbefore hnode)
  · intro other id hother hown
    obtain ⟨hbefore, hbelow⟩ := hfind hother
    have hlt := hbelow id rfl
    obtain ⟨node, hslot, hdepicts⟩ := h.depicts hbefore hown
    rw [hu.1.slot hlt] at hslot
    refine ⟨node, by rw [draft_undone hu.1]; exact hslot, hdepicts.carry fun i hi k hlead => ?_⟩
    exact hleads (hc.closed hslot i hi) hlead

end Mirrors

end Compiler

end SchemaGraph

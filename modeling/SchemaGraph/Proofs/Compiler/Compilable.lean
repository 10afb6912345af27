import SchemaGraph.Proofs.Compiler.Ending
import SchemaGraph.Proofs.Compiler.Mirror
import SchemaGraph.Proofs.Resolver.Caches
import Mathlib.Logic.Relation

set_option autoImplicit false

/-! # Schemas that compile

A schema compiles if its parts do, and a part may refer back to it. So whether a location compiles
is not found by going down from it: it compiles if it is one of some locations, all of which lead to
schemas that compile if these locations do (`Compilable`). No compiler and no memory is involved.

What a schema takes of its parts is told by putting its node together from parts that compile where
a table says so, and nowhere else (`RestsOn`).
-/

namespace SchemaGraph

open Compiling

/-! ## Parts that compile where a table says so -/

/-- A part compiles if a table says so of its location, and is named by it. -/
def Compiling.among (parts : CompileKey → Bool) : CompilingValue CompileKey :=
  fun _ path referencing polymorphic =>
    if parts ⟨path, polymorphic⟩ then pure ⟨path, polymorphic⟩
    else failWith referencing .badReference

namespace Compiler

variable {document : Json} {config : Config} {c d u : Compiler} {own key further : CompileKey}
  {parts : CompileKey → Bool}

/-- A schema stands at a location and is not only a reference, and its node can be put together if
its parts compile where the table says so. -/
structure RestsOn (document : Json) (config : Config) (parts : CompileKey → Bool)
    (key : CompileKey) : Prop where
  run : ∃ entries fuel node d, document.StandsAt (.obj entries) key.path ∧
    Entries.find? "$ref" entries = none ∧
    Compiling.node (among parts) fuel entries key.path key.polymorphic
      (ofDocument [] document config) = (.ok node, d)

/-- All given locations lead to schemas that rest on given locations. -/
def Sustained (document : Json) (config : Config) (given : CompileKey → Prop) : Prop :=
  ∀ key, given key → ∃ own parts, Reaches document own key ∧ RestsOn document config parts own ∧
    ∀ part, parts part = true → given part

/-- A location is one of some that compile as long as these do. -/
def Compilable (document : Json) (config : Config) (key : CompileKey) : Prop :=
  ∃ given, Sustained document config given ∧ given key

theorem Compilable.unfold (h : Compilable document config key) :
    ∃ own parts, Reaches document own key ∧ RestsOn document config parts own ∧
      ∀ part, parts part = true → Compilable document config part := by
  obtain ⟨given, hgiven, hkey⟩ := h
  obtain ⟨own, parts, hreaches, hrests, hparts⟩ := hgiven key hkey
  exact ⟨own, parts, hreaches, hrests, fun part hpart => ⟨given, hgiven, hparts part hpart⟩⟩

/-! ## References -/

/-- Only a reference stands at a location, and this is where it leads. -/
def Refers (document : Json) (key further : CompileKey) : Prop :=
  ∃ entries reference, document.StandsAt (.obj entries) key.path ∧
    Entries.find? "$ref" entries = some (.str reference) ∧
    further = ⟨Path.ofUri reference, key.polymorphic⟩

theorem Refers.not_isOwn (h : Refers document key further) : ¬IsOwn document key := by
  obtain ⟨entries, reference, hplace, href, -⟩ := h
  exact not_isOwn_of_reference hplace href

theorem Refers.unique {other : CompileKey} (h : Refers document key further)
    (hother : Refers document key other) : further = other := by
  obtain ⟨entries, reference, hplace, href, rfl⟩ := h
  obtain ⟨entries', reference', hplace', href', rfl⟩ := hother
  have hsame := hplace'.2.symm.trans hplace.2
  cases hsame
  rw [href] at href'
  cases href'
  rfl

namespace Reaches

theorem eq_of_own (h : Reaches document own key) (hown : IsOwn document key) : own = key := by
  cases h with
  | here _ => rfl
  | through hplace href _ => exact absurd hown (not_isOwn_of_reference hplace href)

theorem next (h : Reaches document own key) (hrefers : Refers document key further) :
    Reaches document own further := by
  cases h with
  | here hown => exact absurd hown hrefers.not_isOwn
  | through hplace href hnext =>
      rw [hrefers.unique ⟨_, _, hplace, href, rfl⟩]
      exact hnext

/-- References that lead to a schema do not come back to where they started. -/
theorem not_circular (h : Reaches document own key) :
    ¬Relation.TransGen (Refers document) key key := by
  induction h with
  | here hown =>
      intro hcircle
      obtain ⟨next, hrefers, -⟩ := Relation.TransGen.head'_iff.1 hcircle
      exact hrefers.not_isOwn hown
  -- a circle would pass the next location too, since there is only one way to go
  | through hplace href _ ih =>
      intro hcircle
      obtain ⟨next, hrefers, hback⟩ := Relation.TransGen.head'_iff.1 hcircle
      cases hrefers.unique ⟨_, _, hplace, href, rfl⟩
      exact ih (Relation.TransGen.tail' hback hrefers)

end Reaches

namespace Compilable

/-- A reference that compiles leads to a location that compiles. -/
theorem next (h : Compilable document config key) (hrefers : Refers document key further) :
    Compilable document config further := by
  obtain ⟨given, hgiven, hkey⟩ := h
  -- one location more, which leads to the same schema
  refine ⟨fun k => given k ∨ k = further, fun k hk => ?_, .inr rfl⟩
  rcases hk with hk | rfl
  · obtain ⟨own, parts, hreaches, hrests, hparts⟩ := hgiven k hk
    exact ⟨own, parts, hreaches, hrests, fun part hpart => .inl (hparts part hpart)⟩
  · obtain ⟨own, parts, hreaches, hrests, hparts⟩ := hgiven key hkey
    exact ⟨own, parts, hreaches.next hrefers, hrests, fun part hpart => .inl (hparts part hpart)⟩

/-- A schema that is not only a reference rests on locations that compile. -/
theorem rests (h : Compilable document config key) (hown : IsOwn document key) :
    ∃ parts, RestsOn document config parts key ∧
      ∀ part, parts part = true → Compilable document config part := by
  obtain ⟨own, parts, hreaches, hrests, hparts⟩ := h.unfold
  cases hreaches.eq_of_own hown
  exact ⟨parts, hrests, hparts⟩

/-- Where something compiles, a schema or a reference stands. -/
theorem stands (h : Compilable document config key) : ∃ entries,
    document.StandsAt (.obj entries) key.path ∧
      (Entries.find? "$ref" entries = none ∨
        ∃ reference, Entries.find? "$ref" entries = some (.str reference)) := by
  obtain ⟨own, -, hreaches, -⟩ := h.unfold
  cases hreaches with
  | here hown =>
      obtain ⟨entries, hplace, hnone⟩ := hown
      exact ⟨entries, hplace, .inl hnone⟩
  | through hplace href _ => exact ⟨_, hplace, .inr ⟨_, href⟩⟩

theorem not_circular (h : Compilable document config key) :
    ¬Relation.TransGen (Refers document) key key := by
  obtain ⟨own, -, hreaches, -⟩ := h.unfold
  exact hreaches.not_circular

end Compilable

/-! ## Putting nodes together -/

theorem hosts_frame (closed : document.SelfContained) :
    Frame (fun c d => Hosts document config c → Hosts document config d) document.StandsAt where
  refl _ h := h
  trans hab hbc h := hbc (hab h)
  onlyResolver honly h := h.after honly
  entry hplace hmem := hplace.entry closed.regular hmem
  item hplace hindex := hplace.item closed.regular hindex
  extension {c entries path name schema} hplace hmem := by
    by_cases h : Hosts document config c
    · exact .inl (h.beside closed hplace.1 hmem)
    · exact .inr fun d hc => absurd hc h

theorem among_keeps (R : Compiler → Compiler → Prop) (hrefl : ∀ c, R c c)
    (place : Json → Path → Prop) : KeepsParts R place (among parts) := by
  intro written path flag _ c
  unfold among
  split <;> exact hrefl c

/-- A schema that rests on some parts has a node wherever these parts compile, as far as fuel
goes. -/
theorem RestsOn.node (h : RestsOn document config parts key) (closed : document.SelfContained)
    (hbase : config.baseUri = "") (inv : Compiler → Prop) {compile : CompilingValue}
    (hosts : ∀ {c}, inv c → Hosts document config c)
    (honly : ∀ {c d}, OnlyResolver c d → inv c → inv d)
    (hparts : ∀ written path flag c, parts ⟨path, flag⟩ = true → document.StandsAt written path →
      inv c → Follows (fun _ => inv) (fun _ : NodeId => True) (compile written path path flag c) c)
    {entries : List (String × Json)} (hplace : document.StandsAt (.obj entries) key.path)
    (fuel : Nat) (hc : inv c) :
    (Compiling.node compile fuel entries key.path key.polymorphic c).1 = .error .outOfFuel ∨
      ∃ node, (Compiling.node compile fuel entries key.path key.polymorphic c).1 = .ok node := by
  obtain ⟨entries', fuel', node', d', hplace', -, hrun⟩ := h.run
  have hsame := hplace'.2.symm.trans hplace.2
  cases hsame
  have frame : Frame (fun c d => Hosts document config c → Hosts document config d)
    document.StandsAt := hosts_frame closed
  have lock : Lockstep (fun c d => Hosts document config c → Hosts document config d)
      document.StandsAt d' (fun c c' => Hosts document config c ∧ inv c') (fun _ _ => True)
      (among parts) fuel' compile fuel := by
    refine Hosts.lockstep closed frame (among_keeps _ frame.refl _) (fun h => h) hosts
      (fun honly h => h.after honly) honly ?_
    intro c c' written path flag i d hc hc' hplace hpart _
    unfold among at hpart
    split at hpart
    · rename_i hlisted
      cases hpart
      rcases hparts written path flag c' hlisted hplace hc' with hfuel | hok
      · exact .inl hfuel
      · obtain ⟨id, d', hrun, hd', -⟩ := hok
        exact .inr ⟨id, d', hrun, ⟨hc, hd'⟩, trivial⟩
    · cases hpart
  rcases lock.node key.polymorphic hplace ⟨Hosts.ofDocument [] hbase, hc⟩ hrun (frame.refl d')
    with hfuel | ⟨node, _, hrun, -⟩
  · exact .inl hfuel
  · exact .inr ⟨node, congrArg Prod.fst hrun⟩

/-- References within a document do not lead out of it, whatever retrievers would answer. -/
theorem holds_inner (retrievers : List (String × Retriever)) (closed : document.SelfContained)
    (hbase : config.baseUri = "") (references : List String) :
    (Territory.inner document references closed.isInside).Holds
      (ofDocument retrievers document config).resolver :=
  Resolver.holds_inner (Resolver.serves_ofConfig retrievers document hbase) ⟨rfl, rfl⟩ rfl
    references closed.isInside

/-- With some fuel, putting nodes together from parts that need none does not run out of it. -/
theorem exists_ample (closed : document.SelfContained) (hbase : config.baseUri = "") :
    ∃ ample, ∀ parts entries path flag, document.StandsAt (.obj entries) path →
      (Compiling.node (among parts) ample entries path flag (ofDocument [] document config)).1 ≠
        .error .outOfFuel := by
  let territory := Territory.inner document [] closed.isInside
  have hholds : territory.Holds (ofDocument [] document config).resolver :=
    holds_inner [] closed hbase []
  have hdocument : document ∈ territory.values :=
    Territory.mem_inner_values document [] closed.isInside
  let inv : Compiler → Prop := fun c => Hosts document config c ∧ territory.Holds c.resolver
  have frame : Frame (fun c d => Hosts document config c → Hosts document config d)
    document.StandsAt := hosts_frame closed
  -- only the ends of references take fuel, and these do not leave the territory
  have laws : (lasting inv).NodeLaws document.StandsAt (territory.urls.length + 1) :=
    { frame with
      done := fun _ hc => ⟨hc, nofun⟩
      refused := fun _ _ hc => ⟨hc, nofun⟩
      next := fun hfirst hsecond hc => hsecond (hfirst hc).1
      caught := fun h hc => ⟨(h hc).1, nofun⟩
      access := by
        refine fun {schema path} hplace => takes_lasting.2 fun c ⟨hhosts, hc⟩ => ?_
        have hwithin : Within territory 0 (territory.keys 0).length territory.locations.length c :=
          ⟨hc, List.countP_le_length, unpassed_le _ _⟩
        have hlasts := access_lasts hwithin
          (Json.holds_of_walk territory.parts hdocument hplace.2) (Nat.lt_succ_self _)
        exact ⟨⟨hhosts.after (access_onlyResolver _ schema c), hlasts.holds.resolver⟩,
          hlasts.fueled⟩
      extension := by
        intro c entries path name schema hplace hmem
        by_cases h : Hosts document config c
        · exact .inl (h.beside closed hplace.1 hmem)
        · exact .inr fun _ _ hc => absurd hc.1 h }
  have hparts : ∀ parts, TakesParts (lasting inv) document.StandsAt (among parts) := by
    intro parts written path flag _ c hc
    unfold among
    split <;> exact ⟨hc, nofun⟩
  refine ⟨territory.urls.length + 1, fun parts entries path flag hplace => ?_⟩
  exact (takes_lasting.1 (laws.node (hparts parts) flag hplace) _
    ⟨Hosts.ofDocument [] hbase, hholds⟩).fueled

end Compiler

end SchemaGraph

import SchemaGraph.Proofs.Conversion.Following
import SchemaGraph.Proofs.Conversion.Guarded
import SchemaGraph.Proofs.Resolver.Territory
import SchemaGraph.Schema.Model

set_option autoImplicit false

/-! # Conversions that follow references end

In a guarded graph without defaults a conversion comes down the payload and the ranks, until it
follows a reference. What a reference leads to may nest deeper than the payload did, but its
location was not being converted before and is from then on. The territory of the resolver has
finitely many locations, so references nest no deeper than that (`Graph.ends_within`).

A location that failed may be converted once more. That does not matter: whatever becomes of a
location, the same ones are being converted after it as before (`Contract.bounded`).

The model of a schema is such a graph (`Model.guard`).
-/

namespace SchemaGraph

/-! ## Idle locations -/

/-- A location is being converted. -/
def Registry.isPending (registry : Registry) (path : Path) : Bool :=
  match registry.find? path with
  | some .pending => true
  | _ => false

theorem Registry.isPending_iff {registry : Registry} {path : Path} :
    registry.isPending path = true ↔ registry.find? path = some .pending := by
  unfold isPending
  rcases registry.find? path with _ | _ | _ | value <;> simp

namespace Territory

variable {territory : Territory} {g h : Registry} {path : Path}

/-- How many locations are not being converted. -/
def idle (territory : Territory) (registry : Registry) : Nat :=
  territory.locations.countP fun path => !registry.isPending path

theorem idle_samePending (hsame : g.SamePending h) : territory.idle h = territory.idle g := by
  have hpending : h.isPending = g.isPending := by
    funext path
    rw [Bool.eq_iff_iff, Registry.isPending_iff, Registry.isPending_iff]
    exact hsame path
  unfold idle
  rw [hpending]

theorem isPending_start (h : g.isPending path = true) (other : Path) :
    (g.start other).isPending path = true := by
  rw [Registry.isPending_iff] at h ⊢
  by_cases heq : path = other
  · subst heq
    exact Registry.find?_start_self g path
  · rw [Registry.find?_start_of_ne heq]
    exact h

theorem not_isPending_of_start {other : Path} (h : (!(g.start other).isPending path) = true) :
    (!g.isPending path) = true := by
  cases hpending : g.isPending path with
  | false => rfl
  | true =>
      rw [isPending_start hpending other] at h
      cases h

theorem idle_start_le (g : Registry) (path : Path) :
    territory.idle (g.start path) ≤ territory.idle g :=
  List.countP_mono_left fun _ _ => not_isPending_of_start

/-- A location that starts to convert is idle no longer. -/
theorem idle_start_lt (hopen : g.IsOpen path) (hpath : path ∈ territory.locations) :
    territory.idle (g.start path) < territory.idle g := by
  have hstarted : (g.start path).isPending path = true :=
    Registry.isPending_iff.2 (Registry.find?_start_self g path)
  have hbefore : g.isPending path = false :=
    Bool.eq_false_iff.2 fun h => hopen.ne_pending (Registry.isPending_iff.1 h)
  refine countP_lt (fun _ _ => not_isPending_of_start) hpath ?_ ?_
  · rw [hstarted]
    rfl
  · rw [hbefore]
    rfl

/-! ## Contracts -/

/-- Resolvers that know nothing outside of the territory. -/
def world (territory : Territory) : Conversion.World where
  holds := territory.Holds
  meets := territory.meets
  resolve h _ hmeets := (h.resolve hmeets).1
  enter h _ _ _ hmeets hresolved :=
    (h.resolve hmeets).1.pushScope ((h.resolve hmeets).2 _ _ hresolved).2.1
  leave h := h.leaveScope

end Territory

namespace Conversion

namespace Contract

open Registry

variable {territory : Territory} {path : Path} {part : Conversion Value}

/-- With fewer idle locations than the bound, a conversion ends, and the same locations are being
converted as before. -/
def bounded (territory : Territory) (bound : Nat) : Contract territory.world where
  holds g := territory.idle g < bound
  done := SamePending
  failed := SamePending
  skipped := SamePending
  linkable _ _ _ := True
  tires := False
  skipped_refl _ _ := Iff.rfl
  done_of_skipped := id
  failed_of_done := id
  done_trans := SamePending.trans
  failed_trans := SamePending.trans
  linkable_before _ _ := trivial
  linkable_after _ _ := trivial

variable {bound inner : Nat}

theorem bounded_hands : (bounded territory bound).Hands where
  link hg _ := ⟨hg, fun _ => Iff.rfl, trivial⟩
  reuse _ _ _ := trivial

theorem bounded_opens (hstart : ∀ {g}, territory.idle g < bound → g.IsOpen path →
      territory.idle (g.start path) < inner) :
    Opens (bounded territory bound) (bounded territory inner) path part where
  start := hstart
  finish {g s value t} hg hopen _ _ _ hdone _ := by
    have hsame : SamePending g (t.registry.finish path value) := by
      refine SamePending.close hopen hdone (fun _ h => find?_finish_of_ne h) ?_
      rw [find?_finish_self]
      exact fun h => nomatch h
    exact ⟨Nat.lt_of_le_of_lt (Nat.le_of_eq (Territory.idle_samePending hsame)) hg, hsame,
      fun _ _ => trivial⟩
  poison {g h} hg hopen _ hfailed := by
    have hsame : SamePending g (h.poison path) := by
      refine SamePending.close hopen hfailed (fun _ h => find?_poison_of_ne h) ?_
      rw [find?_poison_self]
      exact fun h => nomatch h
    exact ⟨Nat.lt_of_le_of_lt (Nat.le_of_eq (Territory.idle_samePending hsame)) hg, hsame⟩
  forget {g h} hg hopen _ hskipped := by
    have hsame : SamePending g (h.remove path) := by
      refine SamePending.close hopen hskipped (fun _ h => find?_remove_of_ne h) ?_
      rw [find?_remove_self]
      exact fun h => nomatch h
    exact ⟨Nat.lt_of_le_of_lt (Nat.le_of_eq (Territory.idle_samePending hsame)) hg, hsame⟩
  tires := id

end Contract

end Conversion

/-! ## Guarded graphs -/

namespace Graph

open Conversion Contract

variable {graph : Graph} {mode : Mode} {territory : Territory} {id : NodeId} {node : Node}

/-- No node has a default. -/
def LacksDefaults (graph : Graph) : Prop :=
  ∀ id common shape, graph.get? id = some (.typed common shape) → common.default = none

theorem lacksDefaults_of_nodes (h : ∀ node ∈ graph.nodes, ∀ common shape,
    node = .typed common shape → common.default = none) : graph.LacksDefaults :=
  fun id common shape hnode => holds_of_nodes h id _ hnode common shape rfl

/-- Ranks fall at references, too. -/
def Guard.FallsAcross (guard : Guard graph) : Prop :=
  ∀ id messages target, graph.get? id = some (.reference messages target) →
    guard.rank target < guard.rank id

namespace Guard

variable (guard : Guard graph)

/-- What comes after a reference takes no more than this, but for further references. -/
def span (depth : Nat) : Nat := (depth + 2) * guard.height

/-- How deep a conversion nests at most, with values of some depth to be found behind references,
and references to be followed that often. -/
def extent (depth follows : Nat) (part : Part) : Nat :=
  follows * guard.span depth + (part.2.elim 0 fun payload => payload.depth + 1) * guard.height +
    guard.rank part.1

variable {guard} {depth follows : Nat} {child : NodeId} {input : Option Json} {payload : Json}

theorem extent_of_rank (h : guard.rank child < guard.rank id) :
    guard.extent depth follows (child, input) < guard.extent depth follows (id, input) :=
  Nat.add_lt_add_left h _

/-- A part of a payload converts with less. -/
theorem extent_of_part {item : Json} (h : item.depth < payload.depth) :
    guard.extent depth follows (child, some item) <
      guard.extent depth follows (id, some payload) := by
  have hrank := guard.bounded child
  have hlayers : (item.depth + 1 + 1) * guard.height ≤ (payload.depth + 1) * guard.height :=
    Nat.mul_le_mul_right _ (Nat.succ_le_succ h)
  rw [Nat.add_mul, Nat.one_mul] at hlayers
  unfold extent
  dsimp only [Option.elim_some]
  omega

theorem extent_of_missing :
    guard.extent depth follows (child, none) < guard.extent depth follows (id, some payload) := by
  have hrank := guard.bounded child
  have hlayers : 1 * guard.height ≤ (payload.depth + 1) * guard.height :=
    Nat.mul_le_mul_right _ (Nat.succ_le_succ (Nat.zero_le _))
  unfold extent
  dsimp only [Option.elim_none, Option.elim_some]
  omega

/-- So does what a reference leads to. -/
theorem extent_of_target {value : Json} (h : value.depth ≤ depth) :
    guard.extent depth follows (child, some value) <
      guard.extent depth (follows + 1) (id, input) := by
  have hrank := guard.bounded child
  have hlayers : (value.depth + 1) * guard.height ≤ (depth + 1) * guard.height :=
    Nat.mul_le_mul_right _ (Nat.succ_le_succ h)
  have hspan : guard.span depth = (depth + 1) * guard.height + guard.height := Nat.succ_mul _ _
  have hfollows :
      (follows + 1) * guard.span depth = follows * guard.span depth + guard.span depth :=
    Nat.succ_mul _ _
  unfold extent
  dsimp only [Option.elim_some]
  omega

end Guard

/-- The conversions of what is in the territory keep the bounded contracts, as far as their fuel
goes. -/
structure EndsWithin (graph : Graph) (mode : Mode) (territory : Territory) (guard : Guard graph)
    (depth fuel : Nat) : Prop where
  starts : ∀ {bound id input}, id < graph.length → (∀ payload ∈ input, payload ∈ territory.values) →
    guard.extent depth bound (id, input) < fuel →
    (bounded territory bound).AllowsPart (graph.convertWithin mode fuel)
      (graph.convertWithin mode fuel) (id, input)
  continues : ∀ {bound id messages target payload},
    graph.get? id = some (.reference messages target) → payload ∈ territory.values →
    (referenceOf? payload).isSome = true → guard.extent depth bound (id, some payload) < fuel →
    ∀ path, (bounded territory bound).Continues path
      (graph.convertWithin mode fuel id (some payload) path)
      (graph.convertWithin mode fuel id (some payload) path)

namespace EndsWithin

variable {guard : Guard graph} {depth fuel bound : Nat} {input : Option Json}

/-- A node that follows references ends if what it calls does. -/
theorem reference_ends (h : EndsWithin graph mode territory guard depth fuel)
    (hdepth : ∀ value ∈ territory.values, value.depth ≤ depth) (hacross : guard.FallsAcross)
    {messages : Messages} {target : NodeId}
    (hnode : graph.get? id = some (.reference messages target))
    (hinput : ∀ payload ∈ input, payload ∈ territory.values)
    (hextent : guard.extent depth (bound + 1) (id, input) < fuel + 1) (path : Path)
    {s : ConversionState} (hready : (bounded territory (bound + 1)).Ready s)
    (hs : input.bind referenceOf? = none → s.visited = []) :
    Meets ((bounded territory (bound + 1)).ending s (input = none))
      (reference (graph.convertWithin mode fuel) id messages target input path)
      (reference (graph.convertWithin mode fuel) id messages target input path) s := by
  have htarget : target < graph.length :=
    known_children hnode target List.mem_cons_self
  refine Contract.reference_meets bounded_hands messages (fun _ => ?_) (fun {text} htext => ?_)
    hready hs
  -- without a reference the location counts for nothing, but the rank falls
  · refine ⟨bounded territory (bound + 1), bounded_opens fun hg _ => ?_, ?_⟩
    · exact Nat.lt_of_le_of_lt (Territory.idle_start_le _ _) hg
    · refine h.starts htarget hinput ?_
      exact Nat.lt_of_lt_of_le (Guard.extent_of_rank (hacross id messages target hnode))
        (Nat.le_of_lt_succ hextent)
  · obtain ⟨payload, rfl, hpayload⟩ := Option.bind_eq_some_iff.1 htext
    have hmeets : territory.meets text := by
      refine territory.references (hinput payload rfl) ?_
      show (referenceOf? payload).bind Json.asStr? = some text
      rw [hpayload]
      rfl
    refine ⟨hmeets, fun {r url value} hworld hresolved => ?_⟩
    obtain ⟨hurl, -, hvalue⟩ := (Territory.Holds.resolve hworld hmeets).2 url value hresolved
    have hless : ∀ child, guard.extent depth bound (child, some value) < fuel := fun child =>
      Nat.lt_of_lt_of_le (Guard.extent_of_target (hdepth value hvalue)) (Nat.le_of_lt_succ hextent)
    -- behind a reference one location less is idle, which pays for a payload of any depth
    refine ⟨bounded territory bound, bounded_opens fun hg hopen => ?_, fun _ => ?_,
      fun hagain => ?_⟩
    · have hidle := Territory.idle_start_lt hopen (Territory.mem_locations hurl)
      exact Nat.lt_of_lt_of_le hidle (Nat.le_of_lt_succ hg)
    · refine h.starts htarget (fun payload hpayload => ?_) (hless target)
      cases hpayload
      exact hvalue
    · exact h.continues hnode hvalue hagain (hless id) _

/-- Any other node that converts values ends if what it calls does. -/
theorem typed_ends (h : EndsWithin graph mode territory guard depth fuel)
    (hdefaults : graph.LacksDefaults) {common : Common} {shape : Shape NodeId}
    (hnode : graph.get? id = some (.typed common shape))
    (hinput : ∀ payload ∈ input, payload ∈ territory.values)
    (hextent : guard.extent depth bound (id, input) < fuel + 1) (path : Path) :
    (bounded territory bound).Allows (input = none)
      (step (graph.convertWithin mode fuel) mode id (.typed common shape) input path)
      (step (graph.convertWithin mode fuel) mode id (.typed common shape) input path) := by
  refine step_typed fun part hpart => ?_
  -- errors bring about what values do, so it makes no difference where they are dropped
  have hsame : (if shape.swallows then (bounded territory bound).tolerant
      else bounded territory bound) = bounded territory bound := ite_self _
  rw [hsame]
  have hchild : part.1 < graph.length :=
    known_children hnode part.1 (Node.parts_children hpart)
  obtain ⟨child, given⟩ := part
  unfold Node.parts at hpart
  cases input with
  | none =>
      dsimp only at hpart
      rw [present?_of_lacks (hdefaults id common shape hnode)] at hpart
      cases hpart
  | some payload =>
      have hpayload := hinput payload rfl
      rcases Shape.handed_or_part hpart with ⟨hhanded, rfl⟩ | ⟨item, rfl, hitem⟩ | rfl
      · refine h.starts hchild hinput (Nat.lt_of_lt_of_le ?_ (Nat.le_of_lt_succ hextent))
        exact Guard.extent_of_rank (guard.falls hnode child hhanded)
      · refine h.starts hchild (fun other hother => ?_)
          (Nat.lt_of_lt_of_le (Guard.extent_of_part hitem.depth_lt) (Nat.le_of_lt_succ hextent))
        cases hother
        exact territory.parts hpayload hitem
      · exact h.starts hchild (fun _ h => nomatch h)
          (Nat.lt_of_lt_of_le Guard.extent_of_missing (Nat.le_of_lt_succ hextent))

theorem convertWithin (mode : Mode) (hdefaults : graph.LacksDefaults) (hacross : guard.FallsAcross)
    (hdepth : ∀ value ∈ territory.values, value.depth ≤ depth) (fuel : Nat) :
    EndsWithin graph mode territory guard depth fuel := by
  induction fuel with
  | zero =>
      exact ⟨fun _ _ h => absurd h (Nat.not_lt_zero _),
        fun _ _ _ h => absurd h (Nat.not_lt_zero _)⟩
  | succ fuel ih =>
      constructor
      · intro bound id input hid hinput hextent path s hready hs
        obtain ⟨node, hnode⟩ := get?_of_known hid
        obtain ⟨bound, rfl⟩ := Nat.exists_eq_succ_of_ne_zero (Nat.ne_zero_of_lt hready.holds)
        rw [Graph.convertWithin_succ hnode mode fuel]
        cases node with
        | forward target =>
            have htarget : target < graph.length :=
              known_children hnode target List.mem_cons_self
            have hfalls := guard.falls hnode target List.mem_cons_self
            exact ih.starts htarget hinput (Nat.lt_of_lt_of_le (Guard.extent_of_rank hfalls)
              (Nat.le_of_lt_succ hextent)) path s hready hs
        | reference messages target =>
            exact ih.reference_ends hdepth hacross hnode hinput hextent path hready fun _ => hs
        | typed common shape => exact ih.typed_ends hdefaults hnode hinput hextent path s hready hs
      · intro bound id messages target payload hnode hpayload hagain hextent path s hready hs
        obtain ⟨bound, rfl⟩ := Nat.exists_eq_succ_of_ne_zero (Nat.ne_zero_of_lt hready.holds)
        rw [Graph.convertWithin_succ hnode mode fuel]
        have hmeets := ih.reference_ends hdepth hacross hnode
          (fun other hother => by cases hother; exact hpayload) hextent path hready
          fun hnone => by
            rw [Option.bind_some] at hnone
            rw [hnone] at hagain
            cases hagain
        exact meets_mono hmeets fun habsent => by cases habsent

end EndsWithin

/-- Where references lead to finitely many URLs, every conversion by a guarded graph without
defaults ends, and knows no more than before of what is outside of the territory. -/
theorem ends_within (guard : Guard graph) (hdefaults : graph.LacksDefaults)
    (hacross : guard.FallsAcross) (hid : id < graph.length) {depth fuel : Nat}
    (hdepth : ∀ value ∈ territory.values, value.depth ≤ depth)
    (hfuel : guard.extent depth (territory.locations.length + 2) (id, none) ≤ fuel)
    {r : Resolver} (hr : territory.Holds r) {payload : Json} (hpayload : payload ∈ territory.values)
    (path : Path) (mode : Mode) :
    (graph.convertAt fuel id (some payload) path mode (some r)).1 ≠ .outOfFuel ∧
      ∀ s, (graph.convertAt fuel id (some payload) path mode (some r)).2 = some s →
        territory.Holds s := by
  have hextent : guard.extent depth (territory.locations.length + 1) (id, some payload) <
      guard.extent depth (territory.locations.length + 2) (id, none) :=
    Guard.extent_of_target (hdepth payload hpayload)
  have hends := (EndsWithin.convertWithin mode hdefaults hacross hdepth fuel).starts hid
    (fun other hother => by cases hother; exact hpayload)
    (Nat.lt_of_lt_of_le hextent hfuel) path (.start (some r))
    ⟨Nat.lt_succ_of_le List.countP_le_length, fun s hs => by cases hs; exact hr⟩ rfl
  have hallows := hends.allows
  unfold convertAt
  dsimp only
  generalize graph.convertWithin mode fuel id (some payload) path (.start (some r)) = run
    at hallows ⊢
  rcases run with ⟨(errors | _ | _ | _ | _) | value, t⟩
  · exact ⟨nofun, hallows.1.world⟩
  · exact ⟨nofun, hallows.2.1.world⟩
  · exact ⟨nofun, hallows.2.1.world⟩
  · exact hallows.elim
  · exact hallows.elim
  · exact ⟨nofun, hallows.1.world⟩

end Graph

/-! ## The model of a schema -/

namespace Model

/-- Only lists and maps, negations and additional properties convert a schema where they stand. -/
def rank (id : NodeId) : Nat :=
  if id = negation ∨ id = additional then 3
  else if id = entry then 2
  else if id = schemaAgain then 1
  else 0

/-- What the nodes hand on does not depend on the messages. -/
theorem handed_falls : ∀ id < 21, ∀ child ∈ (((nodes .builtIn).map Node.handed)[id]?).getD [],
    rank child < rank id := by decide

def guard (messages : Messages) : Graph.Guard (graph messages) where
  rank := rank
  height := 4
  bounded id := by
    unfold rank
    split
    · decide
    · split
      · decide
      · split <;> decide
  falls {id node} hnode := by
    have hlt : id < 21 := (List.getElem?_eq_some_iff.1 hnode).1
    have hsame : (nodes messages).map Node.handed = (nodes .builtIn).map Node.handed := rfl
    have hhanded : ((nodes messages).map Node.handed)[id]? = some node.handed := by
      rw [List.getElem?_map]
      exact congrArg (Option.map Node.handed) hnode
    have hfalls := handed_falls id hlt
    rw [← hsame, hhanded] at hfalls
    exact hfalls

theorem lacksDefaults (messages : Messages) : (graph messages).LacksDefaults :=
  Graph.lacksDefaults_of_nodes (show ∀ node ∈ nodes messages, _ by simp [nodes, Common.plain])

theorem fallsAcross (messages : Messages) : (guard messages).FallsAcross := by
  have hreferences : ∀ i : Fin 21, ∀ messages' target,
      (graph messages).get? i = some (.reference messages' target) → rank target < rank i := by
    intro i messages' target hnode
    match i with
    | 2 =>
        cases hnode
        decide
    | 0 | 1 | 3 | 4 | 5 | 6 | 7 | 8 | 9 | 10 | 11 | 12 | 13 | 14 | 15 | 16 | 17 | 18 | 19 | 20 =>
        cases hnode
  exact fun id messages' target hnode =>
    hreferences ⟨id, (List.getElem?_eq_some_iff.1 hnode).1⟩ messages' target hnode

/-- Checking a schema ends, whatever references in it lead to. -/
theorem check_ends (territory : Territory) :
    ∃ enough, ∀ fuel, enough ≤ fuel → ∀ messages mode {r payload}, territory.Holds r →
      payload ∈ territory.values → ∀ path,
        ((graph messages).convertAt fuel entry (some payload) path mode (some r)).1 ≠ .outOfFuel ∧
          ∀ s, ((graph messages).convertAt fuel entry (some payload) path mode (some r)).2 =
            some s → territory.Holds s := by
  obtain ⟨depth, hdepth⟩ := exists_bound territory.values Json.depth
  refine ⟨(guard .builtIn).extent depth (territory.locations.length + 2) (entry, none),
    fun fuel hfuel messages mode r payload hr hpayload path => ?_⟩
  exact Graph.ends_within (guard messages) (lacksDefaults messages) (fallsAcross messages)
    (show 2 < 21 by decide) hdepth hfuel hr hpayload path mode

end Model

end SchemaGraph

import SchemaGraph.Proofs.Conversion.Termination

set_option autoImplicit false

/-! # Guarded graphs

Conversions descend into the payload, except where a node hands on the very value it got or a
default takes the place of a missing one. In a guarded graph handing on comes down a rank. If its
defaults convert, so does everything else, with a depth that the nesting of the payload and the
ranks bound (`Guard.ends`). Nodes that insist on each other in a circle never end, with whatever
payload they are reached (`diverges_of_insists`).
-/

namespace SchemaGraph

open Conversion

variable {ι : Type} {mode : Mode} {payload : Json} {part : Part ι}

/-- A part of a payload is called on. -/
theorem Shape.calls_of_part {shape : Shape ι} (h : part ∈ shape.parts mode payload) :
    ∃ path, shape.Calls payload .root part.1 part.2 path := by
  rw [Shape.parts_eq] at h
  obtain ⟨inquiry, hinquiry, rfl⟩ := List.mem_map.1 h
  exact ⟨_, Shape.calls_of_mem hinquiry .root⟩

/-- A part of a payload is the payload itself, handed on, or stands in it, or is missing. -/
theorem Shape.handed_or_part {shape : Shape ι} (h : part ∈ shape.parts mode payload) :
    (part.1 ∈ shape.handed ∧ part.2 = some payload) ∨
      (∃ item, part.2 = some item ∧ payload.Has item) ∨ part.2 = none := by
  obtain ⟨path, hcall⟩ := Shape.calls_of_part h
  obtain ⟨node, given⟩ := part
  cases hcall with
  | item hitem => exact .inr (.inl ⟨_, rfl, .inl (List.mem_of_getElem? hitem)⟩)
  | entry hitem => exact .inr (.inl ⟨_, rfl, .inr ⟨_, hitem⟩⟩)
  | undeclared hitem => exact .inr (.inl ⟨_, rfl, .inr ⟨_, hitem⟩⟩)
  | @declared _ _ name _ =>
      cases hfind : Entries.find? name (payload.asObj?.getD []) with
      | some item => exact .inr (.inl ⟨item, rfl, .inr ⟨name, Entries.mem_of_find? hfind⟩⟩)
      | none => exact .inr (.inr rfl)
  | selected hname => exact .inl ⟨List.mem_map.2 ⟨_, hname, rfl⟩, rfl⟩
  | subtype hsubtype =>
      refine .inl ⟨?_, rfl⟩
      cases shape with
      | allOf | anyOf | oneOf | not => exact List.mem_of_getElem? hsubtype
      | _ => cases hsubtype

/-- Only an object of the right type lacks parts. -/
theorem Shape.depth_of_missing {shape : Shape ι} (hadmits : shape.admits payload = true)
    (h : part ∈ shape.parts mode payload) (hmissing : part.2 = none) : 0 < payload.depth := by
  obtain ⟨path, hcall⟩ := Shape.calls_of_part h
  obtain ⟨node, given⟩ := part
  cases hcall with
  | declared =>
      cases payload with
      | obj entries => exact Nat.succ_pos _
      | _ => cases hadmits
  | _ => cases hmissing

namespace Graph

variable {graph : Graph} {fuel : Nat}

/-! ## Guards -/

/-- Ranks of the nodes of a graph that fall wherever a value is handed on. -/
structure Guard (graph : Graph) where
  rank : NodeId → Nat
  height : Nat
  bounded : ∀ id, rank id < height
  falls : ∀ {id node}, graph.get? id = some node → ∀ child ∈ node.handed, rank child < rank id

/-- No default takes the place of anything, or every default converts with some fuel. -/
def DefaultsEnd (graph : Graph) (mode : Mode) (fuel : Nat) : Prop :=
  mode.entity = .response ∨ ∀ id common shape default,
    graph.get? id = some (.typed common shape) → common.default = some default →
      (graph.convertAt fuel id (some default) .root mode none).1 ≠ .outOfFuel

namespace Guard

/-- How deep the conversion of a part nests at most, defaults apart. -/
def reach (guard : Guard graph) (part : Part) : Nat :=
  (part.2.elim 0 Json.depth) * guard.height + guard.rank part.1

/-- A node that does not exist does not nest. -/
theorem answer_of_noNode {part : Part} (hnode : graph.get? part.1 = none) :
    graph.answer mode (fuel + 1) part ≠ .error .outOfFuel := by
  unfold answer convertWithin
  rw [hnode]
  exact fun h => by cases h

/-- What is missing nests no deeper than the defaults, and the ranks in between. -/
theorem missing_ends (h : graph.IsDirect) (guard : Guard graph)
    (hdefaults : graph.DefaultsEnd mode fuel) (id : NodeId) :
    graph.answer mode (fuel + guard.rank id + 1) (id, none) ≠ .error .outOfFuel := by
  induction hrank : guard.rank id using Nat.strongRecOn generalizing id with
  | ind rank ih =>
      cases hnode : graph.get? id with
      | none => exact answer_of_noNode hnode
      | some node =>
          intro hstuck
          have hsucc := answer_succ h (rulesWithin h mode (fuel + rank)) hnode
          obtain ⟨part, hruns, hpart⟩ := (hsucc none).1 hstuck
          cases hruns with
          | forward target =>
              have hfalls : guard.rank target < rank :=
                hrank ▸ guard.falls hnode target List.mem_cons_self
              have hends := ih _ hfalls target rfl
              rw [answer_mono (show fuel + guard.rank target + 1 ≤ fuel + rank by omega) hends]
                at hpart
              exact hends hpart
          | @typed common shape _ default part hpresent hnull hadmits hruns =>
              -- the default runs the same parts when it is given
              have hgiven := (hsucc (some default)).2 ⟨part, .typed rfl hnull hadmits hruns, hpart⟩
              unfold present? at hpresent
              dsimp only at hpresent
              split at hpresent
              · cases hpresent
              · rename_i hentity
                rcases hdefaults with hresponse | hdefaults
                · rw [hresponse] at hentity
                  exact hentity rfl
                · have hends := hdefaults id common shape default hnode hpresent
                  rw [ne_eq, convertAt_eq_outOfFuel h fuel (id, some default)] at hends
                  rw [answer_mono (show fuel ≤ fuel + rank + 1 by omega) hends] at hgiven
                  exact hends hgiven

theorem given_ends (h : graph.IsDirect) (guard : Guard graph)
    (hdefaults : graph.DefaultsEnd mode fuel) (id : NodeId) (payload : Json) :
    graph.answer mode (fuel + guard.reach (id, some payload) + 1) (id, some payload) ≠
      .error .outOfFuel := by
  induction hreach : guard.reach (id, some payload) using Nat.strongRecOn
    generalizing id payload with
  | ind reach ih =>
      have hless : ∀ other value, guard.reach (other, some value) < reach →
          graph.answer mode (fuel + reach) (other, some value) ≠ .error .outOfFuel := by
        intro other value hlt
        have hends := ih _ hlt other value rfl
        rw [answer_mono (show fuel + guard.reach (other, some value) + 1 ≤ fuel + reach by omega)
          hends]
        exact hends
      have hmissing : ∀ other, guard.rank other < reach →
          graph.answer mode (fuel + reach) (other, none) ≠ .error .outOfFuel := by
        intro other hlt
        have hends := missing_ends h guard hdefaults other
        rw [answer_mono (show fuel + guard.rank other + 1 ≤ fuel + reach by omega) hends]
        exact hends
      cases hnode : graph.get? id with
      | none => exact answer_of_noNode hnode
      | some node =>
          intro hstuck
          obtain ⟨part, hruns, hpart⟩ :=
            (answer_succ h (rulesWithin h mode (fuel + reach)) hnode (some payload)).1 hstuck
          have hsame : ∀ child ∈ node.handed, guard.reach (child, some payload) < reach := by
            intro child hchild
            have hfalls := guard.falls hnode child hchild
            subst hreach
            exact Nat.add_lt_add_left hfalls _
          cases hruns with
          | forward target =>
              exact hless target payload (hsame target List.mem_cons_self) hpart
          | @typed common shape _ found part hpresent hnull hadmits hruns =>
              cases hpresent
              obtain ⟨child, input⟩ := part
              rcases Shape.handed_or_part hruns.mem_parts with
                ⟨hchild, rfl⟩ | ⟨item, rfl, hitem⟩ | rfl
              · exact hless child payload (hsame child hchild) hpart
              · refine hless child item ?_ hpart
                have hdepth := hitem.depth_lt
                have hbounded := guard.bounded child
                have hlayers : (item.depth + 1) * guard.height ≤ payload.depth * guard.height :=
                  Nat.mul_le_mul_right _ hdepth
                rw [Nat.add_mul, Nat.one_mul] at hlayers
                show item.depth * guard.height + guard.rank child < reach
                rw [← hreach]
                show _ < payload.depth * guard.height + guard.rank id
                omega
              · refine hmissing child ?_ hpart
                have hdepth := Shape.depth_of_missing hadmits hruns.mem_parts rfl
                have hbounded := guard.bounded child
                have hlayers : 1 * guard.height ≤ payload.depth * guard.height :=
                  Nat.mul_le_mul_right _ hdepth
                rw [← hreach]
                show _ < payload.depth * guard.height + guard.rank id
                omega

/-- If the defaults of a guarded graph convert, so does everything else, and no deeper than the
nesting of the payload and the ranks allow. -/
theorem ends (h : graph.IsDirect) (guard : Guard graph) (hdefaults : graph.DefaultsEnd mode fuel)
    (part : Part) (path : Path) (at? : Option Resolver) :
    (graph.convertAt (fuel + guard.reach part + 1) part.1 part.2 path mode at?).1 ≠
      .outOfFuel := by
  rw [ne_eq, convertAt_eq_outOfFuel h]
  obtain ⟨id, _ | payload⟩ := part
  · have hends := missing_ends h guard hdefaults id
    unfold reach
    rw [Option.elim_none, Nat.zero_mul, Nat.zero_add]
    exact hends
  · exact given_ends h guard hdefaults id payload

end Guard

end Graph

/-! ## Circles -/

/-- A node that has another one convert the very value it got, whatever that is. -/
def Node.Insists : Node ι → ι → Prop
  | .forward target, id => id = target
  | .typed _ (.allOf subtypes), id => id ∈ subtypes
  | .typed _ (.anyOf subtypes), id => subtypes.head? = some id
  | .typed _ (.oneOf subtypes), id => id ∈ subtypes
  | .typed _ (.not subtypes), id => subtypes.head? = some id
  | _, _ => False

theorem Node.Insists.runs {node : Node ι} {id : ι} (h : node.Insists id)
    (refuses : ι → Json → Prop) (hnull : payload ≠ .null) :
    node.Runs refuses mode (some payload) (id, some payload) := by
  have hthere : payload.isNull = false := by
    cases payload with
    | null => exact absurd rfl hnull
    | _ => rfl
  have hfirst : ∀ {subtypes : List ι}, subtypes.head? = some id →
      Tried (refuses · payload) subtypes id := by
    intro subtypes hhead
    cases subtypes with
    | nil => cases hhead
    | cons first rest =>
        cases hhead
        exact .inl rfl
  cases node with
  | forward target =>
      obtain rfl : id = target := h
      exact .forward id _
  | reference messages target => cases h
  | typed common shape =>
      cases shape with
      | allOf subtypes => exact .typed rfl hthere rfl (List.mem_map.2 ⟨id, h, rfl⟩)
      | oneOf subtypes => exact .typed rfl hthere rfl (List.mem_map.2 ⟨id, h, rfl⟩)
      | anyOf subtypes => exact .typed rfl hthere rfl ⟨id, hfirst h, rfl⟩
      | not subtypes => exact .typed rfl hthere rfl ⟨id, hfirst h, rfl⟩
      | _ => cases h

namespace Graph

variable {graph : Graph}

/-- Parts each of which runs another one of them are the start of a chain without end. -/
theorem not_acc_of_runs {circle : Part → Prop}
    (hcircle : ∀ whole, circle whole → ∃ part, graph.Runs mode whole part ∧ circle part)
    {whole : Part} (hwhole : circle whole) :
    ¬Acc (fun part whole => graph.Runs mode whole part) whole := by
  intro hacc
  induction hacc with
  | intro whole _ ih =>
      obtain ⟨part, hruns, hpart⟩ := hcircle whole hwhole
      exact ih part hruns hpart

/-- Nodes each of which insists on another one of them never come to an end. -/
theorem diverges_of_insists (h : graph.IsDirect) {circle : NodeId → Prop}
    (hcircle : ∀ id, circle id → ∃ node child, graph.get? id = some node ∧
      node.Insists child ∧ circle child) {id : NodeId} (hid : circle id)
    (hnull : payload ≠ .null) : graph.Diverges mode (id, some payload) := by
  have hparts : ∀ whole : Part, (circle whole.1 ∧ whole.2 = some payload) →
      ∃ part, graph.Runs mode whole part ∧ circle part.1 ∧ part.2 = some payload := by
    rintro ⟨whole, _⟩ ⟨hwhole, rfl⟩
    obtain ⟨node, child, hnode, hinsists, hchild⟩ := hcircle whole hwhole
    exact ⟨(child, some payload), ⟨node, hnode, hinsists.runs _ hnull⟩, hchild, rfl⟩
  rw [diverges_iff h, halts_iff_acc h]
  exact not_acc_of_runs hparts ⟨hid, rfl⟩

end Graph

end SchemaGraph

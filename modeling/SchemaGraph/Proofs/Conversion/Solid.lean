import SchemaGraph.Proofs.Conversion.Following
import SchemaGraph.Proofs.Conversion.Judgements
import SchemaGraph.Proofs.Conversion.Registry

set_option autoImplicit false

/-! # Where links come from

Only a node that follows references makes a link. A node that hands nothing on to such a node
comes to other values (`step_solid`), and where a chain of references comes to a link, it leads to
a location outside the chain (`KeepsChain`).
-/

namespace SchemaGraph

namespace Value

/-- Merging makes no link. -/
theorem isLink_merge {results : List Value} (h : ∀ value ∈ results, value.isLink = false) :
    (merge results).isLink = false := by
  unfold merge
  split
  · rfl
  · split
    · rfl
    · cases hlast : results.getLast? with
      | none => rfl
      | some value => exact h value (List.mem_of_getLast? hlast)

theorem isLink_ofJson (payload : Json) : (ofJson payload).isLink = false := by
  cases hvalue : ofJson payload with
  | link path => exact absurd (hvalue ▸ Links.here path) (not_links_ofJson payload)
  | _ => rfl

theorem isLink_finish {format : TextFormat} {entity : Entity} {text : String} {value : Value}
    (h : format.finish? entity text = some value) : value.isLink = false := by
  cases value with
  | link path => exact absurd (Links.here path) (not_links_finish h)
  | _ => rfl

end Value

namespace Conversion

variable {α β ι : Type}

/-! ## What runs give -/

/-- Every value a part gives is good. -/
def Gives (good : α → Prop) (part : Conversion α) : Prop :=
  ∀ s a t, part s = (.ok a, t) → good a

namespace Gives

variable {good : α → Prop} {better : β → Prop}

theorem fail (failure : Failure) : Gives good (Conversion.fail failure) := by
  rintro s _ _ ⟨⟩

theorem anything (part : Conversion α) : Gives (fun _ => True) part := fun _ _ _ _ => trivial

theorem withOwnChain {m : Conversion α} (h : Gives good m) :
    Gives good (Conversion.withOwnChain m) := by
  intro s a t hrun
  unfold Conversion.withOwnChain at hrun
  rcases hm : m { s with visited := [] } with ⟨result, u⟩
  rw [hm] at hrun
  cases hrun
  exact h _ _ _ hm

end Gives

/-! ## Results -/

/-- A node that never comes to a link. -/
def MakesNoLink (convert : Converting ι) (node : ι) : Prop :=
  ∀ input path, Gives (fun value => value.isLink = false) (convert node input path)

variable {convert : Converting ι} {mode : Mode} {common : Common} {shape : Shape ι}
  {payload : Json} {path : Path} {s t : ConversionState} {location x : Path} {id target : ι}

/-- A value is no link if what it was made of is none. -/
theorem Made.isLink {replies : List Reply} {value : Value} (h : Made payload replies shape value)
    (hreplies : ∀ reply ∈ replies, reply.slot.isHanded = true → ∀ value, reply.value? = some value →
      value.isLink = false) : value.isLink = false := by
  cases h with
  | same => exact Value.isLink_ofJson payload
  | list | map | object => rfl
  | merged =>
      refine Value.isLink_merge fun value hvalue => ?_
      obtain ⟨reply, hreply, hslot, hgiven⟩ := reply_of_accepted hvalue
      exact hreplies reply hreply hslot value hgiven
  | passed hvalue =>
      obtain ⟨reply, hreply, hslot, hgiven⟩ := hvalue
      exact hreplies reply hreply hslot value hgiven

theorem typed_solid (h : ∀ child ∈ shape.handed, MakesNoLink convert child) (input : Option Json)
    (path : Path) : Gives (fun value => value.isLink = false)
      (step convert mode id (.typed common shape) input path) := by
  intro s value t hrun
  obtain ⟨payload, replies, -, hjudgement⟩ := typed_ok (congrArg Prod.fst hrun)
  cases hjudgement with
  | null => rfl
  | made _ _ _ heard ruled _ finished =>
      rcases finished_ok finished with rfl | ⟨format, text, hfinish⟩
      · refine (made_of_ruling ruled).isLink fun reply hreply hslot value hvalue => ?_
        obtain ⟨inquiry, hinquiry, hsame, u, hsaid⟩ := heard.value_of_mem hreply hvalue
        obtain ⟨v, hpart⟩ := exists_of_fst hsaid
        exact h _ (Shape.mem_handed_of_mem hinquiry (hsame ▸ hslot)) _ _ u value v hpart
      · exact Value.isLink_finish hfinish

/-- A node that follows no references makes no link of its own. -/
theorem step_solid {node : Node ι} (hnode : node.refers = false)
    (h : ∀ child ∈ node.handed, MakesNoLink convert child) (input : Option Json) (path : Path) :
    Gives (fun value => value.isLink = false) (step convert mode id node input path) := by
  cases node with
  | forward target => exact h target List.mem_cons_self input path
  | reference messages target => cases hnode
  | typed common shape => exact typed_solid h input path

/-! ## Chains -/

/-- Where a node goes on with a chain of references and comes to a link, nothing of what is being
followed is linked on the way. -/
def KeepsChain (convert : Converting ι) (id : ι) : Prop :=
  ∀ {payload}, (referenceOf? payload).isSome = true → ∀ {path s x t},
    convert id (some payload) path s = (.ok (.link x), t) →
    ∀ q ∈ s.visited, q ∈ t.registry.linked → q ∈ s.registry.linked

theorem deeper_chain (hchain : KeepsChain convert id) (htarget : MakesNoLink convert target)
    (h : following location (deeper convert id target payload location) s = (.ok (.link x), t)) :
    ∀ q, q = location ∨ q ∈ s.visited → q ∈ t.registry.linked → q ∈ s.registry.linked := by
  intro q hq hlinked
  unfold following at h
  rcases hrun : deeper convert id target payload location
    { s with visited := location :: s.visited } with ⟨result, u⟩
  rw [hrun] at h
  cases h
  unfold deeper at hrun
  cases hpayload : referenceOf? payload with
  | some found =>
      rw [hpayload] at hrun
      exact hchain (by rw [hpayload]; rfl) hrun q (List.mem_cons.2 hq) hlinked
  | none =>
      rw [hpayload] at hrun
      cases (htarget _ _).withOwnChain _ _ _ hrun

theorem arrive_chain {messages : Messages} (hchain : KeepsChain convert id)
    (htarget : MakesNoLink convert target)
    (h : arrive convert id messages target payload location path s = (.ok (.link x), t)) :
    ∀ q ∈ s.visited, q ∈ t.registry.linked → q ∈ s.registry.linked := by
  intro q hq hlinked
  rw [run_arrive] at h
  split at h
  · cases h
  rename_i hvisited
  -- only a location that converts is linked, and it is new to the chain
  rcases hfind : s.registry.find? location with _ | _ | _ | value <;> rw [hfind] at h
  · dsimp only at h
    rcases hrun : following location (deeper convert id target payload location)
      { s with registry := s.registry.start location } with ⟨(_ | _ | _ | _ | _) | value, u⟩ <;>
      rw [hrun] at h <;> cases h
    exact deeper_chain hchain htarget hrun q (.inr hq) hlinked
  · cases h
    rcases Registry.mem_linked_link.1 hlinked with rfl | hlinked
    · exact absurd (List.contains_iff_mem.2 hq) hvisited
    · exact hlinked
  · cases h
  · cases h
    exact hlinked

theorem reference_chain {messages : Messages} (hchain : KeepsChain convert id)
    (htarget : MakesNoLink convert target) (hpayload : (referenceOf? payload).isSome = true)
    (h : reference convert id messages target (some payload) path s = (.ok (.link x), t)) :
    ∀ q ∈ s.visited, q ∈ t.registry.linked → q ∈ s.registry.linked := by
  obtain ⟨found, hfound⟩ := Option.isSome_iff_exists.1 hpayload
  unfold reference at h
  rw [Option.bind_some, hfound] at h
  unfold follow at h
  cases found with
  | str text =>
      obtain ⟨answer, u, hresolved, hnext⟩ := bind_ok h
      have hsame : u.registry = s.registry ∧ u.visited = s.visited := by
        unfold resolve? at hresolved
        split at hresolved <;> cases hresolved <;> exact ⟨rfl, rfl⟩
      cases answer with
      | none => cases hnext
      | some answer =>
          obtain ⟨url, value⟩ := answer
          unfold inScope at hnext
          dsimp only at hnext
          rcases hrun : arrive convert id messages target value (Path.ofUri url) path
            { u with resolver := u.resolver.map fun resolver => resolver.pushScope url } with
            ⟨result, v⟩
          rw [hrun] at hnext
          cases hnext
          intro q hq hlinked
          exact hsame.1 ▸ arrive_chain hchain htarget hrun q (hsame.2 ▸ hq) hlinked
  | _ => cases h

end Conversion

end SchemaGraph

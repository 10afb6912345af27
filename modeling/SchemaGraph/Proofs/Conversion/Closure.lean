import SchemaGraph.Conversion.Converted
import SchemaGraph.Proofs.Conversion.Response
import SchemaGraph.Proofs.Conversion.Solid

set_option autoImplicit false

/-! # Closure of links

A link is handed out while its location converts. What becomes of the location decides whether
the link leads anywhere: every link of a result was handed out by its conversion, nothing converts
any more at the end, and a link has a value exactly if its location is done
(`Graph.links_lead_to_values`).

A location that was handed out may still fail, and that shows in the result if the errors were
dropped around it: under `anyOf`, `oneOf` and `not`. Where such a node reaches no node that follows
references (`Graph.IsCareful`), every link has a value. That value may be a link itself, to the
very same location even, if the target of a reference is entered by a second node that follows
references; where no target hands its payload on to another one (`Graph.IsSolid`), it is not.
-/

namespace SchemaGraph

namespace Registry

variable {g h k : Registry} {path : Path} {fine : Value → Prop}

/-- Links in values that are done were handed out. -/
def Traced (registry : Registry) : Prop :=
  ∀ path value, registry.find? path = some (.done value) → ∀ other, value.Links other →
    other ∈ registry.linked

/-- What was handed out still converts, or is done with a fine value. -/
def Settled (fine : Value → Prop) (registry : Registry) : Prop :=
  ∀ path ∈ registry.linked, registry.find? path = some .pending ∨
    ∃ value, registry.find? path = some (.done value) ∧ fine value

theorem traced_empty : empty.Traced := fun _ _ h => nomatch h

theorem Traced.change (value? : Option Value) (hg : g.Traced) (hlinked : h.linked = g.linked)
    (hothers : ∀ other, other ≠ path → h.find? other = g.find? other)
    (hpath : ∀ value, h.find? path = some (.done value) → value? = some value)
    (hvalue : ∀ value ∈ value?, ∀ other, value.Links other → other ∈ g.linked) : h.Traced := by
  intro place value hdone other hlinks
  rw [hlinked]
  by_cases hplace : place = path
  · subst hplace
    exact hvalue value (hpath value hdone) other hlinks
  · exact hg place value (hothers place hplace ▸ hdone) other hlinks

theorem settled_empty : empty.Settled fine := fun _ h => nomatch h

theorem Settled.start (hg : g.Settled fine) (path : Path) : (g.start path).Settled fine := by
  intro other hother
  by_cases heq : other = path
  · subst heq
    exact .inl (find?_start_self g other)
  · rw [find?_start_of_ne heq]
    exact hg other hother

theorem Settled.finish {value : Value} (hg : g.Settled fine)
    (hvalue : path ∈ g.linked → fine value) : (g.finish path value).Settled fine := by
  intro other hother
  by_cases heq : other = path
  · subst heq
    exact .inr ⟨value, find?_finish_self g other value, hvalue hother⟩
  · rw [find?_finish_of_ne heq]
    exact hg other hother

theorem Settled.not_open (hg : g.Settled fine) (hpath : path ∈ g.linked) : ¬g.IsOpen path := by
  intro hopen
  rcases hg path hpath with hpending | ⟨value, hdone, -⟩
  · exact hopen.ne_pending hpending
  · exact hopen.ne_done value hdone

theorem Settled.link (hg : g.Settled fine) (hpending : g.find? path = some .pending) :
    (g.link path).Settled fine := by
  intro other hother
  rcases mem_linked_link.1 hother with rfl | hother
  · exact .inl hpending
  · exact hg other hother

end Registry

namespace Conversion

open Registry

/-! ## Contracts of links -/

namespace Contract

variable {convert : Converting} {path : Path} {fine : Value → Prop}

/-- Links come from locations that are handed out, whatever the end is. -/
def tracing : Contract World.any where
  holds := Traced
  done g h := g.linked ⊆ h.linked ∧ SamePending g h
  failed g h := g.linked ⊆ h.linked ∧ SamePending g h
  skipped g h := g.linked ⊆ h.linked ∧ SamePending g h
  linkable _ h path := path ∈ h.linked
  tires := True
  skipped_refl _ := ⟨fun _ => id, fun _ => Iff.rfl⟩
  done_of_skipped := id
  failed_of_done := id
  done_trans h h' := ⟨List.Subset.trans h.1 h'.1, h.2.trans h'.2⟩
  failed_trans h h' := ⟨List.Subset.trans h.1 h'.1, h.2.trans h'.2⟩
  linkable_before _ h := h
  linkable_after h h' := h'.1 h

theorem tracing_hands : tracing.Hands where
  link {g path} hg _ := by
    have hsub : g.linked ⊆ (g.link path).linked := fun _ hother => mem_linked_link.2 (.inr hother)
    refine ⟨fun place value hdone other hlinks => hsub (hg place value hdone other hlinks),
      ⟨hsub, fun _ => Iff.rfl⟩, mem_linked_link.2 (.inl rfl)⟩
  reuse hg hdone hlinks := hg _ _ hdone _ hlinks

theorem tracing_opens (path : Path) (part : Conversion Value) :
    Opens tracing tracing path part where
  start hg _ := hg.change none rfl (fun _ h => find?_start_of_ne h)
    (fun value h => by rw [find?_start_self] at h; cases h) fun _ h => nomatch h
  finish {_ _ value t} _ hopen _ _ hh hdone hlinks := by
    refine ⟨?_, ⟨hdone.1, hdone.2.close hopen (fun _ h => find?_finish_of_ne h) ?_⟩, hlinks⟩
    · refine hh.change (some value) rfl (fun _ h => find?_finish_of_ne h)
        (fun found h => ?_) fun found h => ?_
      · rw [find?_finish_self] at h
        cases h
        rfl
      · cases h
        exact hlinks
    · rw [find?_finish_self]
      exact fun h => nomatch h
  poison _ hopen hh hfailed := by
    refine ⟨hh.change none rfl (fun _ h => find?_poison_of_ne h) (fun value h => ?_)
      (fun _ h => nomatch h), hfailed.1, hfailed.2.close hopen (fun _ h => find?_poison_of_ne h) ?_⟩
    · rw [find?_poison_self] at h
      cases h
    · rw [find?_poison_self]
      exact fun h => nomatch h
  forget _ hopen hh hskipped := by
    refine ⟨hh.change none rfl (fun _ h => find?_remove_of_ne h) (fun value h => ?_)
      (fun _ h => nomatch h), hskipped.1,
      hskipped.2.close hopen (fun _ h => find?_remove_of_ne h) ?_⟩
    · rw [find?_remove_self] at h
      cases h
    · rw [find?_remove_self]
      exact fun h => nomatch h
  tires := id

/-- Nothing changes and nothing is linked. -/
def inert : Contract World.any where
  holds _ := True
  done g h := g = h
  failed g h := g = h
  skipped g h := g = h
  linkable _ _ _ := False
  tires := True
  skipped_refl _ := rfl
  done_of_skipped := id
  failed_of_done := id
  done_trans := Eq.trans
  failed_trans := Eq.trans
  linkable_before _ h := h
  linkable_after h _ := h

/-- What changes nothing keeps every contract that lets fuel run out, also where errors are
dropped. -/
theorem tolerant_of_inert {contract : Contract World.any} (htires : contract.tires)
    {part : Part} (h : inert.AllowsPart convert convert part) :
    contract.tolerant.AllowsPart convert convert part := by
  intro path s hready hs
  have hback : ∀ {t}, inert.Back s.visited t → s.registry = t.registry →
      contract.tolerant.Back s.visited t ∧ contract.done s.registry t.registry :=
    fun hback hsame => ⟨⟨⟨hsame ▸ hready.holds, hback.world⟩, hback.visited⟩,
      hsame ▸ contract.done_refl _⟩
  refine (h path s ⟨trivial, hready.world⟩ hs).mono
    ⟨fun t ht => hback ht.1 ht.2, fun t ht => ?_, fun t ht => ?_, fun _ => htires⟩
    fun value t ht => ?_
  · exact ⟨ht.1, (hback ht.2.1 ht.2.2).1, ht.2.2 ▸ contract.skipped_refl _⟩
  · exact ⟨ht.1, hback ht.2.1 ht.2.2⟩
  · exact ⟨(hback ht.1 ht.2.1).1, (hback ht.1 ht.2.1).2,
      fun path hlinks => (ht.2.2 path hlinks).elim⟩

/-- As long as nothing fails, what was handed out still converts or is done with a fine value. -/
def settling (fine : Value → Prop) : Contract World.any where
  holds _ := True
  done g h := g.Settled fine → h.Settled fine ∧ SamePending g h
  failed _ _ := True
  skipped g h := h.linked = g.linked ∧
    ∀ path, h.find? path = g.find? path ∨ (g.IsOpen path ∧ h.IsOpen path)
  linkable _ _ _ := True
  tires := True
  skipped_refl _ := ⟨rfl, fun _ => .inl rfl⟩
  done_of_skipped {g h} hskipped hg := by
    obtain ⟨hlinked, hsame⟩ := hskipped
    refine ⟨fun path hpath => ?_, fun path => ?_⟩
    · rw [hlinked] at hpath
      rcases hsame path with hsame | ⟨hopen, -⟩
      · exact hsame ▸ hg path hpath
      · exact absurd hopen (hg.not_open hpath)
    · rcases hsame path with hsame | ⟨hopen, hopen'⟩
      · rw [hsame]
      · exact ⟨fun h => absurd h hopen'.ne_pending, fun h => absurd h hopen.ne_pending⟩
  failed_of_done _ := trivial
  done_trans hgh hhk hg := ⟨(hhk (hgh hg).1).1, (hgh hg).2.trans (hhk (hgh hg).1).2⟩
  failed_trans _ _ := trivial
  linkable_before _ _ := trivial
  linkable_after _ _ := trivial

theorem settling_hands : (settling fine).Hands where
  link _ hpending := ⟨trivial, fun hg => ⟨hg.link hpending, fun _ => Iff.rfl⟩, trivial⟩
  reuse _ _ _ := trivial

/-- A location may be done with a value that is not fine if it was not linked while it
converted. -/
theorem settling_opens {part : Conversion Value}
    (hpart : ∀ s value t, part s = (.ok value, t) → fine value ∨
      (path ∈ t.registry.linked → path ∈ s.registry.linked)) :
    Opens (settling fine) (settling fine) path part where
  start _ _ := trivial
  finish {g s value t} _ hopen hs hrun _ hdone _ := by
    refine ⟨trivial, fun hg => ?_, fun _ _ => trivial⟩
    obtain ⟨ht, hsame⟩ := hdone (hg.start path)
    refine ⟨ht.finish fun hlinked => ?_,
      hsame.close hopen (fun _ h => find?_finish_of_ne h) ?_⟩
    · refine (hpart s value t hrun).resolve_right fun hbefore => ?_
      have hpath : path ∈ (g.start path).linked := hs ▸ hbefore hlinked
      exact hg.not_open hpath hopen
    · rw [find?_finish_self]
      exact fun h => nomatch h
  poison _ _ _ _ := ⟨trivial, trivial⟩
  forget {g h} _ hopen _ hskipped := by
    refine ⟨trivial, hskipped.1, fun other => ?_⟩
    by_cases hother : other = path
    · subst hother
      exact .inr ⟨hopen, .inl (find?_remove_self h other)⟩
    · have hstarted := hskipped.2 other
      unfold Registry.IsOpen at hstarted ⊢
      rw [find?_start_of_ne hother] at hstarted
      rw [find?_remove_of_ne hother]
      exact hstarted
  tires := id

end Contract

end Conversion

/-! ## Graphs -/

namespace Graph

open Conversion Contract

variable {graph : Graph} {mode : Mode} {entry id : NodeId} {contract : Contract World.any}
  {node : Node} {convert : Converting}

/-- What is reached from a node is a node. -/
theorem Reaches.exists_node (hentry : entry < graph.length) (h : graph.Reaches entry id) :
    ∃ node, graph.get? id = some node := by
  induction h with
  | here => exact get?_of_known hentry
  | child parent found mem ih =>
      exact get?_of_known (known_children found _ mem)

/-- The conversions of all nodes reached from an entry keep a contract. -/
structure Upholds (contract : Contract World.any) (graph : Graph) (entry : NodeId)
    (convert : Converting) : Prop where
  starts : ∀ id, graph.Reaches entry id → ∀ input, contract.AllowsPart convert convert (id, input)
  continues : ∀ {id messages target}, graph.Reaches entry id →
    graph.get? id = some (.reference messages target) →
    ∀ payload, (referenceOf? payload).isSome = true → ∀ path,
      contract.Continues path (convert id (some payload) path) (convert id (some payload) path)

theorem Upholds.calls (h : Upholds contract graph entry convert) (hid : graph.Reaches entry id)
    (hnode : graph.get? id = some node) (hhands : node.refers = true → contract.Hands)
    (hswallowed : node.swallows = true → ∀ child ∈ node.children, ∀ input,
      contract.tolerant.AllowsPart convert convert (child, input))
    (henters : ∀ {messages target}, node = .reference messages target → ∀ input path,
      Opens contract contract path (withOwnChain (convert target input path)))
    (harrives : ∀ {messages target}, node = .reference messages target → ∀ value path,
      Opens contract contract path (following path (deeper convert id target value path))) :
    contract.Calls convert convert id node where
  hands := hhands
  parts child hchild := h.starts child (.child hid hnode hchild)
  swallowed := hswallowed
  enters := henters
  arrives := harrives
  continues href := h.continues hid (hnode.trans (congrArg some href))

/-- A contract is kept if each node keeps it whose calls do. -/
theorem upholds_convertWithin (hentry : entry < graph.length) (htires : contract.tires)
    (hcalls : ∀ fuel id node, graph.Reaches entry id → graph.get? id = some node →
      Upholds contract graph entry (graph.convertWithin mode fuel) →
      contract.Calls (graph.convertWithin mode fuel) (graph.convertWithin mode fuel) id node)
    (fuel : Nat) : Upholds contract graph entry (graph.convertWithin mode fuel) := by
  induction fuel with
  | zero => exact ⟨fun _ _ _ _ _ _ _ => ⟨rfl, htires⟩, fun _ _ _ _ _ _ _ _ => ⟨rfl, htires⟩⟩
  | succ fuel ih =>
      constructor
      · intro id hid input path
        obtain ⟨node, hnode⟩ := hid.exists_node hentry
        rw [convertWithin_succ hnode mode fuel]
        exact (hcalls fuel id node hid hnode ih).step_allows input path
      · intro id messages target hid hnode payload hpayload path
        rw [convertWithin_succ hnode mode fuel]
        exact (hcalls fuel id _ hid hnode ih).step_continues rfl hpayload path

theorem upholds_tracing (mode : Mode) (hentry : entry < graph.length) (fuel : Nat) :
    Upholds tracing graph entry (graph.convertWithin mode fuel) :=
  upholds_convertWithin hentry trivial (fun _ _ _ hid hnode ih =>
    ih.calls hid hnode (fun _ => tracing_hands)
      (fun _ child hchild => ih.starts child (.child hid hnode hchild))
      (fun _ _ _ => tracing_opens _ _) fun _ _ _ => tracing_opens _ _) fuel

theorem upholds_inert (mode : Mode) (hentry : entry < graph.length)
    (hdirect : ∀ id node, graph.Reaches entry id → graph.get? id = some node →
      node.refers = false) (fuel : Nat) :
    Upholds inert graph entry (graph.convertWithin mode fuel) := by
  refine upholds_convertWithin hentry trivial (fun fuel id node hid hnode ih => ?_) fuel
  have hnone : ∀ {P : Prop} {messages target}, node = .reference messages target → P := by
    rintro P messages target rfl
    cases hdirect id _ hid hnode
  refine ih.calls hid hnode (fun hrefers => ?_)
    (fun _ child hchild => ih.starts child (.child hid hnode hchild)) hnone hnone
  rw [hdirect id node hid hnode] at hrefers
  cases hrefers

/-- No node that follows references is reached through one that drops errors. -/
def IsCareful (graph : Graph) (entry : NodeId) : Prop :=
  ∀ id node, graph.Reaches entry id → graph.get? id = some node → node.swallows = true →
    ∀ child ∈ node.children, ∀ other found, graph.Reaches child other →
      graph.get? other = some found → found.refers = false

/-- A node that converts the very payload another one does. -/
inductive HandsTo (graph : Graph) (entry : NodeId) : NodeId → Prop where
  | here : HandsTo graph entry entry
  | next {id child : NodeId} {node : Node} (parent : HandsTo graph entry id)
      (found : graph.get? id = some node) (mem : child ∈ node.handed) : HandsTo graph entry child

/-- What references lead to is not handed on to a node that follows references again. -/
def IsSolid (graph : Graph) (entry : NodeId) : Prop :=
  ∀ id messages target, graph.Reaches entry id →
    graph.get? id = some (.reference messages target) →
    ∀ other node, graph.HandsTo target other → graph.get? other = some node → node.refers = false

theorem makesNoLink {target : NodeId} (h : ∀ other node, graph.HandsTo target other →
      graph.get? other = some node → node.refers = false) (fuel : Nat) :
    ∀ other, graph.HandsTo target other → MakesNoLink (graph.convertWithin mode fuel) other := by
  induction fuel with
  | zero => exact fun _ _ _ _ => .fail _
  | succ fuel ih =>
      intro other hother input path
      unfold convertWithin
      cases hnode : graph.get? other with
      | none => exact .fail _
      | some node =>
          exact step_solid (h other node hother hnode)
            (fun child hchild => ih child (.next hother hnode hchild)) input path

theorem keepsChain {messages : Messages} {target : NodeId}
    (hnode : graph.get? id = some (.reference messages target))
    (h : ∀ fuel, MakesNoLink (graph.convertWithin mode fuel) target) (fuel : Nat) :
    KeepsChain (graph.convertWithin mode fuel) id := by
  induction fuel with
  | zero =>
      intro payload hpayload path s x t hrun
      cases hrun
  | succ fuel ih =>
      intro payload hpayload path s x t hrun
      unfold convertWithin at hrun
      rw [hnode] at hrun
      exact reference_chain ih (h fuel) hpayload hrun

theorem upholds_settling (mode : Mode) (fine : Value → Prop) (hentry : entry < graph.length)
    (hcareful : graph.IsCareful entry)
    (hfine : ∀ fuel id messages target, graph.Reaches entry id →
      graph.get? id = some (.reference messages target) →
      (∀ input path, Gives fine (graph.convertWithin mode fuel target input path)) ∧
      ∀ payload path s value t, following path
        (deeper (graph.convertWithin mode fuel) id target payload path) s = (.ok value, t) →
        fine value ∨ (path ∈ t.registry.linked → path ∈ s.registry.linked))
    (fuel : Nat) : Upholds (settling fine) graph entry (graph.convertWithin mode fuel) := by
  refine upholds_convertWithin hentry trivial (fun fuel id node hid hnode ih => ?_) fuel
  refine ih.calls hid hnode (fun _ => settling_hands) (fun hswallows child hchild input => ?_)
    (fun {messages target} href input path => ?_) fun {messages target} href payload path => ?_
  · have hreached : graph.Reaches entry child := .child hid hnode hchild
    obtain ⟨found, hfound⟩ := hreached.exists_node hentry
    have hinert := upholds_inert mode (List.getElem?_eq_some_iff.1 hfound).1
      (hcareful id node hid hnode hswallows child hchild) fuel
    exact tolerant_of_inert trivial (hinert.starts child .here input)
  · obtain ⟨henters, -⟩ := hfine fuel id messages target hid (hnode.trans (congrArg some href))
    exact settling_opens fun s value t hrun =>
      .inl ((henters input path).withOwnChain s value t hrun)
  · obtain ⟨-, harrives⟩ := hfine fuel id messages target hid (hnode.trans (congrArg some href))
    exact settling_opens (harrives payload path)

end Graph

namespace Converted

/-- A link to a location stands somewhere in the value or in the value of a link. -/
def Links (converted : Converted) (path : Path) : Prop :=
  converted.value.Links path ∨ ∃ entry ∈ converted.links, entry.2.Links path

end Converted

namespace Graph

open Conversion Contract

variable {graph : Graph} {mode : Mode} {entry : NodeId}

/-- A result comes from the run of a node, and its links are those of the registry at the end. -/
theorem run_of_converted {fuel : Nat} {input : Option Json} {path : Path}
    {resolver : Option Resolver} {result : Converted}
    (h : (graph.convertAt fuel entry input path mode resolver).1 = .converted result) :
    entry < graph.length ∧ ∃ t, graph.convertWithin mode fuel entry input path (.start resolver) =
      (.ok result.value, t) ∧ result.links = t.registry.links := by
  obtain ⟨t, hrun, hlinks⟩ : ∃ t, graph.convertWithin mode fuel entry input path
      (.start resolver) = (.ok result.value, t) ∧ result.links = t.registry.links := by
    unfold convertAt at h
    rcases hrun : graph.convertWithin mode fuel entry input path (.start resolver) with
      ⟨(_ | _ | _ | _ | _) | value, t⟩ <;> rw [hrun] at h <;> cases h
    exact ⟨t, rfl, rfl⟩
  refine ⟨?_, t, hrun, hlinks⟩
  by_contra hnot
  have hnone : graph.get? entry = none := List.getElem?_eq_none_iff.2 (Nat.le_of_not_lt hnot)
  cases fuel with
  | zero => cases hrun
  | succ fuel =>
      unfold convertWithin at hrun
      rw [hnone] at hrun
      cases hrun

/-- At the end of a run from the start nothing is pending, and every link was handed out. -/
theorem traced_of_run {fuel : Nat} {input : Option Json} {path : Path}
    {resolver : Option Resolver} {value : Value} {t : ConversionState}
    (hentry : entry < graph.length)
    (hrun : graph.convertWithin mode fuel entry input path (.start resolver) = (.ok value, t)) :
    (∀ q, t.registry.find? q ≠ some .pending) ∧
      ∀ q, (Converted.mk value t.registry.links).Links q → q ∈ t.registry.linked := by
  have hallows := ((upholds_tracing mode hentry fuel).starts entry .here input path
    (.start resolver) ⟨Registry.traced_empty, fun _ _ => trivial⟩ rfl).allows
  dsimp only at hallows
  rw [hrun] at hallows
  obtain ⟨⟨⟨htraced, -⟩, -⟩, ⟨-, hsame⟩, hvalue⟩ := hallows
  constructor
  · intro q hq
    cases (hsame q).1 hq
  · rintro q (hq | ⟨⟨location, found⟩, hmem, hq⟩)
    · exact hvalue q hq
    · exact htraced location found (Registry.mem_links hmem).2 q hq

/-- What is handed out in a conversion from the start that gives a value. -/
theorem settled_of_run {fine : Value → Prop} {fuel : Nat} {input : Option Json} {path : Path}
    {resolver : Option Resolver} {value : Value} {t : ConversionState}
    (h : Upholds (settling fine) graph entry (graph.convertWithin mode fuel))
    (hrun : graph.convertWithin mode fuel entry input path (.start resolver) = (.ok value, t))
    (hpending : ∀ q, t.registry.find? q ≠ some .pending) :
    ∀ q ∈ t.registry.linked, ∃ found, t.registry.links.lookup q = some found ∧ fine found := by
  have hallows := (h.starts entry .here input path (.start resolver)
    ⟨trivial, fun _ _ => trivial⟩ rfl).allows
  dsimp only at hallows
  rw [hrun] at hallows
  intro q hq
  obtain ⟨hsettled, -⟩ := hallows.2.1 Registry.settled_empty
  obtain ⟨found, hdone, hfine⟩ := (hsettled q hq).resolve_left (hpending q)
  exact ⟨found, Registry.lookup_links.2 ⟨hq, hdone⟩, hfine⟩

/-- Where errors are not dropped, no location that was handed out fails. -/
theorem upholds_settled (mode : Mode) (hentry : entry < graph.length)
    (hcareful : graph.IsCareful entry) (fuel : Nat) :
    Upholds (settling fun _ => True) graph entry (graph.convertWithin mode fuel) :=
  upholds_settling mode (fun _ => True) hentry hcareful
    (fun _ _ _ _ _ _ => ⟨fun _ _ => .anything _, fun _ _ _ _ _ _ => .inl trivial⟩) fuel

/-- Where references do not lead to references either, none of them comes to a link. -/
theorem upholds_settled_solid (mode : Mode) (hentry : entry < graph.length)
    (hcareful : graph.IsCareful entry) (hsolid : graph.IsSolid entry) (fuel : Nat) :
    Upholds (settling fun value => value.isLink = false) graph entry
      (graph.convertWithin mode fuel) := by
  refine upholds_settling mode _ hentry hcareful (fun fuel id messages target hid hnode => ?_) fuel
  -- a reference comes to a link only by a chain, and then no location of the chain was linked
  have hplain : ∀ fuel, MakesNoLink (graph.convertWithin mode fuel) target := fun fuel =>
    makesNoLink (hsolid id messages target hid hnode) fuel target .here
  refine ⟨hplain fuel, fun payload path s value t hrun => ?_⟩
  cases value with
  | link other =>
      exact .inr (deeper_chain (keepsChain hnode hplain fuel) (hplain fuel) hrun path (.inl rfl))
  | _ => exact .inl rfl

/-- Every link of a result was handed out by the conversion, and it has a value exactly if its
location is done; otherwise the location failed after it was handed out. Every link has a value
if no errors are dropped around references, and no link leads to another one if references do not
lead to references. -/
theorem links_lead_to_values {fuel : Nat} {input : Option Json} {path : Path}
    {resolver : Option Resolver} {result : Converted}
    (h : (graph.convertAt fuel entry input path mode resolver).1 = .converted result) :
    (∃ t, graph.convertWithin mode fuel entry input path (.start resolver) =
        (.ok result.value, t) ∧ result.links = t.registry.links ∧
      ∀ q, result.Links q → q ∈ t.registry.linked ∧
        ((∃ value, t.registry.find? q = some (.done value) ∧ result.links.lookup q = some value) ∨
          (t.registry.IsOpen q ∧ result.links.lookup q = none))) ∧
    (graph.IsCareful entry → ∀ q, result.Links q → ∃ value, result.links.lookup q = some value) ∧
    (graph.IsCareful entry → graph.IsSolid entry → ∀ q, result.Links q → ∃ value,
      result.links.lookup q = some value ∧ result.resolve (.link q) = value ∧
        value.isLink = false) := by
  obtain ⟨hentry, t, hrun, hlinks⟩ := run_of_converted h
  obtain ⟨hpending, hlinked⟩ := traced_of_run hentry hrun
  rw [← hlinks] at hlinked
  refine ⟨⟨t, hrun, hlinks, fun q hq => ⟨hlinked q hq, ?_⟩⟩, fun hcareful q hq => ?_,
    fun hcareful hsolid q hq => ?_⟩
  · rw [hlinks]
    exact Registry.lookup_links_cases (hlinked q hq) (hpending q)
  · obtain ⟨value, hfound, -⟩ :=
      settled_of_run (upholds_settled mode hentry hcareful fuel) hrun hpending q (hlinked q hq)
    exact ⟨value, hlinks ▸ hfound⟩
  · obtain ⟨value, hfound, hvalue⟩ := settled_of_run
      (upholds_settled_solid mode hentry hcareful hsolid fuel) hrun hpending q (hlinked q hq)
    rw [← hlinks] at hfound
    refine ⟨value, hfound, ?_, hvalue⟩
    unfold Converted.resolve
    dsimp only
    rw [hfound]
    rfl

/-- Objects with a next one of their kind, or a reference to it. -/
def rings : Graph where
  nodes := [.reference .builtIn 1, .typed (.plain .builtIn) (.object {
    properties := [("next", 0)], required := [], patterns := [], additional := .deny
    readOnly := [], writeOnly := [], size := .free })]
  closed := by decide

/-- A result is an object with a link to where it stands. -/
def linksBack : Outcome → Bool
  | .converted ⟨.object ⟨[(_, .link path)], [], []⟩, _⟩ => path == ⟨"", ["a"]⟩
  | _ => false

/-- An object that is its own next one: the link leads to the object it stands in. -/
theorem links_lead_to_values_ring :
    let document : Json := .obj [("a", .obj [("next", .obj [("$ref", .str "#/a")])])]
    let outcome := (rings.convertAt 9 0 (some (.obj [("$ref", .str "#/a")])) .root
      (Options.ofEntity .request).mode (some (.ofDocument [] "" document))).1
    ∃ result value, outcome = .converted result ∧ result.Links ⟨"", ["a"]⟩ ∧
      rings.IsCareful 0 ∧ rings.IsSolid 0 ∧ result.links.lookup ⟨"", ["a"]⟩ = some value ∧
      result.resolve (.link ⟨"", ["a"]⟩) = value ∧ value.isLink = false := by
  intro document outcome
  have hnodes : ∀ node ∈ rings.nodes, node.swallows = false ∧
      (node.refers = true → node = .reference .builtIn 1) := by
    intro node hnode
    rcases List.mem_pair.1 hnode with rfl | rfl
    · exact ⟨rfl, fun _ => rfl⟩
    · exact ⟨rfl, fun h => by cases h⟩
  have hcareful : rings.IsCareful 0 := by
    intro id node _ hnode hswallows
    rw [(hnodes node (List.mem_of_getElem? hnode)).1] at hswallows
    cases hswallows
  have hsolid : rings.IsSolid 0 := by
    intro id messages target _ hnode other node hother hfound
    cases (hnodes _ (List.mem_of_getElem? hnode)).2 rfl
    -- objects hand their payload to no other node
    have hone : other = 1 := by
      clear hfound
      induction hother with
      | here => rfl
      | next parent found mem ih =>
          subst ih
          cases found
          cases mem
    subst hone
    cases hfound
    rfl
  have hvalue : linksBack outcome = true := by decide +kernel
  cases houtcome : outcome with
  | converted result =>
      rw [houtcome] at hvalue
      have hlinks : result.Links ⟨"", ["a"]⟩ := by
        unfold linksBack at hvalue
        split at hvalue
        · rename_i heq
          cases heq
          cases eq_of_beq hvalue
          exact .inl (.property (.head _) (.here _))
        · cases hvalue
      obtain ⟨value, hfound, hresolve, hplain⟩ :=
        (links_lead_to_values houtcome).2.2 hcareful hsolid _ hlinks
      exact ⟨result, value, rfl, hlinks, hcareful, hsolid, hfound, hresolve, hplain⟩
  | _ =>
      rw [houtcome] at hvalue
      cases hvalue

/-- Objects with the given properties, among others. -/
def openObject (properties : List (String × NodeId)) (required : List String) : Node :=
  .typed (.plain .builtIn) (.object {
    properties, required, patterns := [], additional := .allow, readOnly := [], writeOnly := []
    size := .free })

/-- Objects with `x` and `z`, where `z` is required, and objects with `y` refer to each other. One
of either is under `first` or `second`. -/
def branches : Graph where
  nodes := [openObject [("x", 3), ("z", 3)] ["z"], openObject [("y", 2)] [],
    .reference .builtIn 0, .reference .builtIn 1,
    openObject [("first", 2)] [], openObject [("second", 3)] [],
    .typed (.plain .builtIn) (.anyOf [4, 5])]
  closed := by decide

/-- A text, entered by two nodes that follow references. -/
def twofold : Graph where
  nodes := [.typed (.plain .builtIn) (.string .free), .reference .builtIn 0, .reference .builtIn 1]
  closed := by decide

/-- A result has a link below a property, and no values for links. -/
def linksAcross : Outcome → Bool
  | .converted ⟨.object ⟨[(_, .object ⟨[(_, .link path)], [], []⟩)], [], _⟩, []⟩ =>
    path == ⟨"", ["p"]⟩
  | _ => false

/-- A result is a link to the root, for which there is a link to the root. -/
def linksToLink : Outcome → Bool
  | .converted ⟨.link path, [(location, .link other)]⟩ =>
    path == .root && location == .root && other == .root
  | _ => false

/-- The first branch converts `#/p`, which lacks `z`, and on the way `#/q`, where `#/p` is linked.
The second branch takes `#/q` over, and its link leads nowhere. A second node that follows
references comes to a link at its own location, and leaves it there. -/
theorem links_lead_nowhere :
    let mode := (Options.ofEntity .request).mode
    let document : Json := .obj [("p", .obj [("x", .obj [("$ref", .str "#/q")])]),
      ("q", .obj [("y", .obj [("$ref", .str "#/p")])])]
    let payload : Json := .obj [("first", .obj [("$ref", .str "#/p")]),
      ("second", .obj [("$ref", .str "#/q")])]
    (∃ result, (branches.convertAt 20 6 (some payload) .root mode
        (some (.ofDocument [] "" document))).1 = .converted result ∧
      result.Links ⟨"", ["p"]⟩ ∧ result.links.lookup ⟨"", ["p"]⟩ = none) ∧
    ∃ result, (twofold.convertAt 9 2 (some (.str "x")) .root mode
        (some (.ofDocument [] "" (.obj [])))).1 = .converted result ∧
      result.Links .root ∧ result.resolve (.link .root) = .link .root := by
  intro mode document payload
  constructor
  · have hvalue : linksAcross (branches.convertAt 20 6 (some payload) .root mode
        (some (.ofDocument [] "" document))).1 = true := by decide +kernel
    unfold linksAcross at hvalue
    split at hvalue
    · rename_i heq
      cases eq_of_beq hvalue
      exact ⟨_, heq, .inl (.property (.head _) (.property (.head _) (.here _))), rfl⟩
    · cases hvalue
  · have hvalue : linksToLink (twofold.convertAt 9 2 (some (.str "x")) .root mode
        (some (.ofDocument [] "" (.obj [])))).1 = true := by decide +kernel
    unfold linksToLink at hvalue
    split at hvalue
    · rename_i heq
      obtain ⟨hpair, hother⟩ := Bool.and_eq_true_iff.1 hvalue
      obtain ⟨hpath, hat⟩ := Bool.and_eq_true_iff.1 hpair
      cases eq_of_beq hpath
      cases eq_of_beq hat
      cases eq_of_beq hother
      exact ⟨_, heq, .inl (.here _), rfl⟩
    · cases hvalue

end Graph

end SchemaGraph

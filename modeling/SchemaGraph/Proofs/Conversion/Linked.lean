import SchemaGraph.Proofs.Conversion.Calls
import SchemaGraph.Proofs.Conversion.Closure
import SchemaGraph.Proofs.Conversion.Lookups
import SchemaGraph.Proofs.PathOrder

set_option autoImplicit false

/-! # Locations handed out as links

A node calls its children at locations below the one of its payload or at the same
(`Shape.Calls.isBuilt`), and a reference leads to a location that a URI names. So whatever a
conversion hands out as a link is a location as programs make it, and the registry has these in
increasing order, each once (`Graph.convertWithin_keeps_order`). As the texts of such locations are
different, no link is lost or mistaken for another one where its location is written as text
(`Path.texts_tell_apart`).
-/

namespace SchemaGraph

/-! ## Registries -/

namespace Registry

variable {registry : Registry} {path : Path}

/-- The locations handed out as links are built, and in increasing order. -/
structure IsOrdered (registry : Registry) : Prop where
  built : ∀ path ∈ registry.linked, path.IsBuilt
  sorted : registry.linked.Pairwise fun a b => a.compare b = .lt

theorem isOrdered_empty : empty.IsOrdered := ⟨List.forall_mem_nil _, .nil⟩

theorem insertPath_sorted (hpath : path.IsBuilt) : ∀ {paths : List Path},
    (∀ other ∈ paths, other.IsBuilt) → paths.Pairwise (fun a b => a.compare b = .lt) →
      (insertPath path paths).Pairwise fun a b => a.compare b = .lt
  | [], _, _ => List.pairwise_singleton _ _
  | first :: rest, hbuilt, hsorted => by
      have hfirst := hbuilt first List.mem_cons_self
      have hrest := fun other hother => hbuilt other (List.mem_cons_of_mem first hother)
      obtain ⟨hbefore, hsorted'⟩ := List.pairwise_cons.1 hsorted
      unfold insertPath
      cases hcompare : path.compare first with
      | lt =>
          refine List.pairwise_cons.2 ⟨fun other hother => ?_, hsorted⟩
          rcases List.mem_cons.1 hother with rfl | hother
          · exact hcompare
          · exact Path.IsBuilt.compare_trans hpath hfirst (hrest other hother) hcompare
              (hbefore other hother)
      | eq => exact hsorted
      | gt =>
          have hinserted := insertPath_sorted hpath hrest hsorted'
          refine List.pairwise_cons.2 ⟨fun other hother => ?_, hinserted⟩
          rcases mem_insertPath.1 hother with rfl | hother
          · exact Path.IsBuilt.compare_lt_of_gt hpath hfirst hcompare
          · exact hbefore other hother

theorem IsOrdered.link (h : registry.IsOrdered) (hpath : path.IsBuilt) :
    (registry.link path).IsOrdered where
  built other hother := by
    rcases mem_linked_link.1 hother with rfl | hother
    · exact hpath
    · exact h.built other hother
  sorted := insertPath_sorted hpath h.built h.sorted

/-- The values given out come in the order of their locations. -/
theorem IsOrdered.links (h : registry.IsOrdered) :
    (registry.links.map Prod.fst).Pairwise fun a b => a.compare b = .lt := by
  refine h.sorted.sublist ?_
  unfold Registry.links
  induction registry.linked with
  | nil => exact .slnil
  | cons first rest ih =>
      rw [List.filterMap_cons]
      rcases registry.find? first with _ | _ | _ | value
      · exact .cons _ ih
      · exact .cons _ ih
      · exact .cons _ ih
      · exact .cons_cons _ ih

end Registry

/-! ## Conversions -/

namespace Shape

/-- What a node calls converts at a location as programs make it, if the node does. -/
theorem Calls.isBuilt {ι : Type} {shape : Shape ι} {payload : Json} {path place : Path} {node : ι}
    {given : Option Json} (h : shape.Calls payload path node given place) (hpath : path.IsBuilt) :
    place.IsBuilt := by
  cases h with
  | selected => exact hpath
  | _ => exact hpath.child _

end Shape

namespace Conversion

variable {ι : Type} {convert : Converting ι} {path location : Path} {s t : ConversionState}

/-- The locations handed out stay in order. -/
def KeepsOrder (s t : ConversionState) : Prop := s.registry.IsOrdered → t.registry.IsOrdered

theorem keepsOrder_composes : Composes KeepsOrder where
  refl _ := id
  trans hst htu hs := htu (hst hs)

variable (convert) in
/-- So they do wherever a node is called at a location as programs make it. -/
def OrdersNodes : Prop :=
  ∀ node input path, path.IsBuilt → Keeps KeepsOrder (convert node input path)

theorem OrdersNodes.typed (nodes : OrdersNodes convert) (mode : Mode) (self : ι) (common : Common)
    (shape : Shape ι) (input : Option Json) (hpath : path.IsBuilt) :
    Keeps KeepsOrder (step convert mode self (.typed common shape) input path) :=
  keeps_typed keepsOrder_composes (fun _ hcall => nodes _ _ _ (hcall.isBuilt hpath)) self

/-! ### References -/

theorem OrdersNodes.enter (nodes : OrdersNodes convert) (target : ι) (input : Option Json)
    (hpath : path.IsBuilt) : Keeps KeepsOrder (enter convert target input path) := by
  intro s hs
  have hclose : ∀ run : Except Failure Value × ConversionState, run.2.registry.IsOrdered →
      (closeEntered path run).2.registry.IsOrdered := by
    rintro ⟨(_ | _ | _ | _ | _) | _, _⟩ h <;> exact ⟨h.built, h.sorted⟩
  have hopened : s.registry.IsOpen path →
      (Conversion.enter convert target input path s).2.registry.IsOrdered := by
    intro hopen
    rw [run_enter_open convert target input hopen]
    exact hclose _ (nodes target input path hpath _ ⟨hs.built, hs.sorted⟩)
  rcases hfind : s.registry.find? path with _ | _ | _ | value
  · exact hopened (.inl hfind)
  · rw [run_enter, hfind]
    exact hs.link hpath
  · exact hopened (.inr hfind)
  · rw [run_enter, hfind]
    exact hs

theorem OrdersNodes.arrive (nodes : OrdersNodes convert) (self : ι) (messages : Messages)
    (target : ι) (value : Json) (hlocation : location.IsBuilt) (path : Path) :
    Keeps KeepsOrder (arrive convert self messages target value location path) := by
  intro s hs
  have hclose : ∀ run : Except Failure Value × ConversionState, run.2.registry.IsOrdered →
      (closeReached messages location path run).2.registry.IsOrdered := by
    rintro ⟨(_ | _ | _ | _ | _) | _, _⟩ h <;> exact ⟨h.built, h.sorted⟩
  have hdeeper : Keeps KeepsOrder
      (following location (deeper convert self target value location)) := by
    unfold deeper
    split
    · exact fun s hs => nodes self _ location hlocation _ hs
    · exact fun s hs => nodes target _ location hlocation _ hs
  rw [run_arrive]
  split
  · exact hs
  · rcases hfind : s.registry.find? location with _ | _ | _ | value'
    · exact hclose _ (hdeeper _ ⟨hs.built, hs.sorted⟩)
    · exact hs.link hlocation
    · exact hs
    · exact hs

theorem OrdersNodes.reference (nodes : OrdersNodes convert) (self : ι) (messages : Messages)
    (target : ι) (input : Option Json) (hpath : path.IsBuilt) :
    Keeps KeepsOrder (reference convert self messages target input path) := by
  unfold Conversion.reference
  rcases input.bind referenceOf? with _ | found
  · exact nodes.enter target input hpath
  · cases found with
    | str text =>
        refine keepsOrder_composes.bind (m := resolve? text) (fun s hs => ?_) fun resolved => ?_
        · cases hresolver : s.resolver with
          | none => rwa [run_resolve?_of_none hresolver]
          | some r => rwa [run_resolve?_of_some hresolver]
        · rcases resolved with _ | ⟨url, value⟩
          · exact keepsOrder_composes.throw _
          · exact fun s hs => nodes.arrive self messages target value (.ofUri url) path _ hs
    | _ => exact keepsOrder_composes.throw _

end Conversion

namespace Graph

open Conversion

/-- Across every conversion at a location as programs make it, the locations handed out as links
stay such locations, in increasing order. -/
theorem convertWithin_keeps_order (graph : Graph) (mode : Mode) (fuel : Nat) :
    OrdersNodes (graph.convertWithin mode fuel) := by
  induction fuel with
  | zero => exact fun _ _ _ _ => keepsOrder_composes.throw _
  | succ fuel ih =>
      intro id input path hpath
      unfold convertWithin
      cases graph.get? id with
      | none => exact keepsOrder_composes.throw _
      | some node =>
          cases node with
          | forward target => exact ih target input path hpath
          | reference messages target => exact ih.reference id messages target input hpath
          | typed common shape => exact ih.typed mode id common shape input hpath

end Graph

/-! ## What is written as text -/

namespace LocatedError

variable {error other : LocatedError}

/-- Lines with the same message are told apart by their locations. -/
theorem text_inj (herror : error.path.IsBuilt) (hother : other.path.IsBuilt)
    (hmessage : error.message = other.message) :
    error.text = other.text ↔ error.path = other.path := by
  unfold text
  rw [hmessage, String.append_left_inj, String.append_left_inj, herror.text_inj hother]

end LocatedError

namespace SchemaErrors

/-- Locations and messages as text are as good as the locations and messages. -/
theorem pairs_inj {errors others : SchemaErrors} (herrors : ∀ e ∈ errors.toList, e.path.IsBuilt)
    (hothers : ∀ e ∈ others.toList, e.path.IsBuilt) : errors.pairs = others.pairs ↔
      errors.toList.map (fun e => (e.path, e.message)) =
        others.toList.map fun e => (e.path, e.message) := by
  unfold pairs
  generalize errors.toList = l at herrors ⊢
  generalize others.toList = l' at hothers ⊢
  induction l generalizing l' with
  | nil => cases l' <;> simp
  | cons e l ih =>
      cases l' with
      | nil => simp
      | cons e' l' =>
          have hhere := (herrors e List.mem_cons_self).text_inj (hothers e' List.mem_cons_self)
          have hrest := ih (fun other hother => herrors other (.tail _ hother)) l'
            fun other hother => hothers other (.tail _ hother)
          simp only [List.map_cons, List.cons.injEq, Prod.mk.injEq, hhere, hrest]

end SchemaErrors

namespace Converted

variable {converted : Converted}

/-- The texts of the locations come in increasing order. -/
theorem texts_sorted (hbuilt : ∀ link ∈ converted.links, link.1.IsBuilt)
    (hsorted : (converted.links.map Prod.fst).Pairwise fun a b => a.compare b = .lt) :
    (converted.links.map fun link => link.1.text).Pairwise (· < ·) := by
  rw [List.pairwise_map] at hsorted ⊢
  refine hsorted.imp_of_mem fun {a b} ha hb hlt => ?_
  rw [(hbuilt a ha).compare_eq (hbuilt b hb)] at hlt
  exact compareOfLessAndEq_eq_lt.1 hlt

/-- The value of a link is found under the text of its location. -/
theorem find_links {location : Path} {value : Value}
    (hsorted : (converted.links.map fun link => link.1.text).Pairwise (· < ·))
    (h : (location, value) ∈ converted.links) :
    (converted.toJson.get? "links").bind (·.get? location.text) = some value.inOrder := by
  have hsome : converted.links.isEmpty = false := by
    cases hlinks : converted.links with
    | nil =>
        rw [hlinks] at h
        cases h
    | cons first rest => rfl
  unfold toJson
  rw [hsome]
  refine Entries.find?_of_mem ?_ (List.mem_map.2 ⟨(location, value), h, rfl⟩)
  rw [List.map_map]
  exact hsorted

end Converted

namespace Path

/-- Two locations as programs make them are the same exactly if their texts are; the order of
locations compares the bytes of the texts, and is a total order in which only a location is equal
to itself. So errors at different locations are told apart where they are written, and the values
of links are found under the texts of their locations, in increasing order. -/
theorem texts_tell_apart :
    (∀ a b : Path, a.IsBuilt → b.IsBuilt → (a.text = b.text ↔ a = b) ∧
      a.compare b = Ord.compare a.text.toUTF8.data.toList b.text.toUTF8.data.toList) ∧
    (Std.TransCmp fun a b : { path : Path // path.IsBuilt } => a.1.compare b.1) ∧
    (Std.LawfulEqCmp fun a b : { path : Path // path.IsBuilt } => a.1.compare b.1) ∧
    (∀ errors others : SchemaErrors, (∀ e ∈ errors.toList, e.path.IsBuilt) →
      (∀ e ∈ others.toList, e.path.IsBuilt) →
      (errors.pairs = others.pairs ↔ errors.toList.map (fun e => (e.path, e.message)) =
        others.toList.map fun e => (e.path, e.message)) ∧
      ∀ e ∈ errors.toList, ∀ e' ∈ others.toList, e.message = e'.message →
        (e.text = e'.text ↔ e.path = e'.path)) ∧
    ∀ (graph : Graph) (fuel : Nat) (entry : NodeId) (input : Option Json) (path : Path)
      (mode : Mode) (resolver : Option Resolver) (result : Converted), path.IsBuilt →
      (graph.convertAt fuel entry input path mode resolver).1 = .converted result →
      (result.links.map Prod.fst).Pairwise (fun a b => a.compare b = .lt) ∧
      (result.links.map fun link => link.1.text).Pairwise (· < ·) ∧
      ∀ location value, (location, value) ∈ result.links → location.IsBuilt ∧
        (result.toJson.get? "links").bind (·.get? location.text) = some value.inOrder := by
  refine ⟨fun a b ha hb => ⟨ha.text_inj hb, ?_⟩, inferInstance, inferInstance,
    fun errors others herrors hothers => ⟨SchemaErrors.pairs_inj herrors hothers,
      fun e he e' he' => LocatedError.text_inj (herrors e he) (hothers e' he')⟩,
    fun graph fuel entry input path mode resolver result hpath h => ?_⟩
  · rw [ha.compare_eq hb, Utf8.compare_toUTF8]
  · obtain ⟨-, t, hrun, hlinks⟩ := Graph.run_of_converted h
    have hordered : t.registry.IsOrdered := by
      have hkeeps := graph.convertWithin_keeps_order mode fuel entry input path hpath
        (.start resolver) Registry.isOrdered_empty
      rwa [hrun] at hkeeps
    have hbuilt : ∀ link ∈ result.links, link.1.IsBuilt := by
      intro link hlink
      rw [hlinks] at hlink
      exact hordered.built _ (Registry.mem_links hlink).1
    have hsorted := hordered.links
    rw [← hlinks] at hsorted
    have htexts := result.texts_sorted hbuilt hsorted
    exact ⟨hsorted, htexts, fun location value hmem =>
      ⟨hbuilt _ hmem, result.find_links htexts hmem⟩⟩

/-- Objects with references to two objects of their kind. -/
def crossing : Graph where
  nodes := [.reference .builtIn 1, .typed (.plain .builtIn) (.object {
    properties := [("next", 0), ("self", 0)], required := [], patterns := [], additional := .deny
    readOnly := [], writeOnly := [], size := .free })]
  closed := by decide

/-- A result has links to two locations whose segments differ by a slash. -/
def linksCrosswise : Outcome → Bool
  | .converted result => result.links.map Prod.fst == [⟨"", ["a", "b"]⟩, ⟨"", ["a/b"]⟩]
  | _ => false

/-- An object under `a/b` and one under `b` inside of `a`, which refer to each other and to
themselves: their values stand under different texts. -/
theorem texts_tell_apart_crossing :
    let refer (url : String) : Json := .obj [("$ref", .str url)]
    let document : Json := .obj [
      ("a", .obj [("b", .obj [("next", refer "#/a~1b"), ("self", refer "#/a/b")])]),
      ("a/b", .obj [("next", refer "#/a/b"), ("self", refer "#/a~1b")])]
    ∃ result value other,
      (crossing.convertAt 9 0 (some (refer "#/a/b")) .root (Options.ofEntity .request).mode
        (some (.ofDocument [] "" document))).1 = .converted result ∧
      result.links = [(⟨"", ["a", "b"]⟩, value), (⟨"", ["a/b"]⟩, other)] ∧
      (result.toJson.get? "links").bind (·.get? "#/a/b") = some value.inOrder ∧
      (result.toJson.get? "links").bind (·.get? "#/a~1b") = some other.inOrder ∧
      Ord.compare "#/a/b".toUTF8.data.toList "#/a~1b".toUTF8.data.toList = .lt := by
  intro refer document
  have hvalue : linksCrosswise (crossing.convertAt 9 0 (some (refer "#/a/b")) .root
      (Options.ofEntity .request).mode (some (.ofDocument [] "" document))).1 = true := by
    decide +kernel
  cases houtcome : (crossing.convertAt 9 0 (some (refer "#/a/b")) .root
      (Options.ofEntity .request).mode (some (.ofDocument [] "" document))).1 with
  | converted result =>
      rw [houtcome] at hvalue
      obtain ⟨hsorted, -, hfound⟩ :=
        texts_tell_apart.2.2.2.2 _ _ _ _ .root _ _ result .root houtcome
      have hkeys : result.links.map Prod.fst = [⟨"", ["a", "b"]⟩, ⟨"", ["a/b"]⟩] :=
        eq_of_beq hvalue
      rw [hkeys] at hsorted
      obtain ⟨⟨_, value⟩, rest, hlinks, rfl, hrest⟩ := List.map_eq_cons_iff.1 hkeys
      obtain ⟨⟨_, other⟩, last, rfl, rfl, hlast⟩ := List.map_eq_cons_iff.1 hrest
      obtain rfl := List.map_eq_nil_iff.1 hlast
      have hmem : (⟨"", ["a", "b"]⟩, value) ∈ result.links := hlinks ▸ List.mem_cons_self
      have hmem' : (⟨"", ["a/b"]⟩, other) ∈ result.links :=
        hlinks ▸ List.mem_cons_of_mem _ List.mem_cons_self
      obtain ⟨hbuilt, hget⟩ := hfound _ value hmem
      obtain ⟨hbuilt', hget'⟩ := hfound _ other hmem'
      have hlt := (List.pairwise_cons.1 hsorted).1 _ List.mem_cons_self
      rw [(texts_tell_apart.1 _ _ hbuilt hbuilt').2] at hlt
      exact ⟨result, value, other, rfl, hlinks, hget, hget', hlt⟩
  | _ =>
      rw [houtcome] at hvalue
      cases hvalue

end Path

end SchemaGraph

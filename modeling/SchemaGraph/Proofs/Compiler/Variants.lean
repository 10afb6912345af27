import SchemaGraph.Proofs.Compiler.Combinators
import SchemaGraph.Proofs.Compiler.Parts
import SchemaGraph.Proofs.Merging
import SchemaGraph.Proofs.Text

set_option autoImplicit false

/-! # Variants of unions

A schema with a discriminator and alternatives becomes a union of those that are references. Each is
found under a name that is taken from its reference. Different references may give the same name,
and then the last of them is found. So a variant is selected by some value of the discriminating
property if no later one has its name (`Compiler.variants_stay_selectable`), and else it may be
lost.
-/

namespace SchemaGraph

namespace Buckets

variable {α : Type} {key : String} {value : α} {old new earlier later : List (String × α)}

/-- New keys are put behind the old ones. -/
theorem extend_of_nodup (h : ((old ++ new).map Prod.fst).Nodup) : extend old new = old ++ new := by
  induction new generalizing old with
  | nil => exact (List.append_nil old).symm
  | cons entry rest ih =>
      obtain ⟨k, v⟩ := entry
      have hfresh : k ∉ old.map Prod.fst := by
        intro hmem
        rw [List.map_append, List.nodup_append] at h
        exact h.2.2 k hmem k List.mem_cons_self rfl
      have hsplit : old ++ (k, v) :: rest = old ++ [(k, v)] ++ rest := by
        rw [List.append_assoc]
        rfl
      rw [hsplit] at h ⊢
      rw [extend_cons, Entries.insertLast_of_not_mem hfresh, ih h]

theorem find?_extend_of_not_mem (h : key ∉ new.map Prod.fst) :
    Entries.find? key (extend old new) = Entries.find? key old := by
  induction new generalizing old with
  | nil => rfl
  | cons entry rest ih =>
      obtain ⟨hne, hrest⟩ := not_or.1 (mt List.mem_cons.2 h)
      rw [extend_cons, ih hrest, Entries.find?_insertLast_of_ne (Ne.symm hne)]

/-- The last value of a key counts. -/
theorem find?_extend_last (h : key ∉ later.map Prod.fst) :
    Entries.find? key (extend old (earlier ++ (key, value) :: later)) = some value := by
  unfold extend
  rw [List.foldl_append]
  show Entries.find? key (extend (Entries.insertLast key value (extend old earlier)) later) = _
  rw [find?_extend_of_not_mem h, Entries.find?_insertLast_self]

end Buckets

/-! ## Payloads that name their variant -/

/-- A value of the discriminating property that leads to a node: payloads with it convert as at that
node, but for the checks of the union. -/
structure Graph.Selects (graph : Graph) (union : NodeId) (common : Common) (property : String)
    (mapping : List (String × NodeId)) (value : String) (variant : NodeId) : Prop where
  found : Entries.find? value mapping = some variant
  converts : ∀ mode fuel payload path, payload.get? property = some (.str value) →
    graph.convertWithin mode (fuel + 1) union (some payload) path = (do
      let converted ← graph.convertWithin mode fuel variant (some payload) path
      Conversion.failOn ((Conversion.violations common (.discriminated property mapping) converted
        payload).map fun violation => violation.located path)
      pure converted)

theorem Graph.selects_of_find {graph : Graph} {union variant : NodeId} {common : Common}
    {property value : String} {mapping : List (String × NodeId)}
    (hnode : graph.get? union = some (.typed common (.discriminated property mapping)))
    (hfound : Entries.find? value mapping = some variant) :
    graph.Selects union common property mapping value variant := by
  refine ⟨hfound, fun mode fuel payload path hvalue => ?_⟩
  rw [convertWithin]
  dsimp only
  rw [hnode]
  cases payload with
  | obj entries =>
      show Conversion.checked _ mode common (.discriminated property mapping) (.obj entries) path =
        _
      unfold Conversion.checked
      have hcoerced : Conversion.coerced mode common (Shape.discriminated property mapping)
          (.obj entries) path = pure (.obj entries) := ite_self _
      rw [hcoerced, pure_bind]
      have hresult : Conversion.result (graph.convertWithin mode fuel) mode common
          (.discriminated property mapping) (.obj entries) path =
          graph.convertWithin mode fuel variant (some (.obj entries)) path := by
        have hname : ((Json.str value).asStr?.bind fun name => Entries.find? name mapping) =
            some variant := hfound
        show Conversion.discriminated _ common property mapping (.obj entries) path = _
        unfold Conversion.discriminated
        rw [hvalue]
        dsimp only
        rw [hname]
      rw [hresult]
      rfl
  | _ => cases hvalue

/-! ## Schemas with a discriminator -/

/-- A schema without a type has a discriminator for the alternatives of a keyword, and names no
values itself. -/
structure Keywords.Discriminates (keywords : Keywords) (discriminator : List (String × Json))
    (keyword : String) (schemas : List Json) : Prop where
  untyped : keywords.isTyped = false
  written : keywords.raw? "discriminator" = some (.obj discriminator)
  implicit : Entries.find? "mapping" discriminator = none
  alternatives : Compiling.alternatives? keywords = some (keyword, schemas)

namespace Compiling

variable {ι : Type} {compile : CompilingValue ι} {c d : Compiler} {keywords : Keywords}
  {discriminator : List (String × Json)} {keyword : String} {schemas : List Json}

/-- The names of variants with their nodes. -/
def byName (nodes : List (String × ι)) : List (String × ι) :=
  distinct (nodes.map fun (reference, node) => (referenceName reference, node))

/-- A node under the name of its reference, unless a later reference has the same name. -/
theorem find?_byName {earlier later : List (String × ι)} {reference : String} {node : ι}
    (hlast : ∀ other ∈ later, referenceName other.1 ≠ referenceName reference) :
    Entries.find? (referenceName reference) (byName (earlier ++ (reference, node) :: later)) =
      some node := by
  unfold byName
  rw [List.map_append, List.map_cons]
  refine Buckets.find?_extend_last (fun hmem => ?_)
  rw [List.map_map] at hmem
  obtain ⟨other, hother, hname⟩ := List.mem_map.1 hmem
  exact hlast other hother hname

/-- A union of references that compiles has its variants under their names. -/
theorem discriminatedUnion_names (hkeeps : KeepsParts Compiler.Grows Compiler.anyPlace compile)
    {common : Common} (himplicit : Entries.find? "mapping" discriminator = none)
    (hnodup : (references schemas).Nodup) {assembly : Assembly ι}
    (h : discriminatedUnion compile keywords common discriminator keyword schemas c =
      (.ok assembly, d)) {node : Node ι} (hnode : assembly.node = some node) :
    ∃ property nodes, propertyOf? discriminator = some property ∧
      node = .typed common (.discriminated property (byName nodes)) ∧
      nodes.map Prod.fst = references schemas ∧ PartsCompile compile d
        ((partsFrom (keywords.path.child keyword) (fun _ => true) 0 schemas).filter refers)
        (nodes.map Prod.snd) := by
  unfold discriminatedUnion at h
  cases hproperty : propertyOf? discriminator with
  | none =>
      rw [hproperty] at h
      cases h
      cases hnode
  | some property =>
      rw [hproperty] at h
      obtain ⟨⟨nodes, errors⟩, u, hvariants, h⟩ := bind_ok h
      cases errors with
      | cons error rest =>
          cases h
          cases hnode
      | nil =>
          cases h
          cases hnode
          obtain ⟨results, hruns, -, hall⟩ := variants_runs hvariants
          obtain ⟨hnames, rfl⟩ := hall rfl
          -- different references are not put together, but their names may be
          have hdistinct : distinct nodes = nodes :=
            Buckets.extend_of_nodup (by rw [List.nil_append, hnames]; exact hnodup)
          have hmapping : ∀ given (find : String → Option ι),
              mappingOf discriminator given find = given := by
            intro given find
            unfold mappingOf
            rw [himplicit]
            rfl
          refine ⟨property, nodes, rfl, ?_, hnames, hruns.parts_compile hkeeps⟩
          rw [hmapping, hdistinct]
          rfl

theorem node_names (hkeeps : KeepsParts Compiler.Grows Compiler.anyPlace compile) {fuel : Nat}
    {entries : List (String × Json)} {path : Path} {flag : Bool} {node : Node ι}
    {messages : Messages}
    (hdiscriminates : (⟨entries, path, messages⟩ : Keywords).Discriminates discriminator keyword
      schemas) (hnodup : (references schemas).Nodup)
    (h : Compiling.node compile fuel entries path flag c = (.ok node, d)) :
    ∃ common property nodes, propertyOf? discriminator = some property ∧
      node = .typed common (.discriminated property (byName nodes)) ∧
      nodes.map Prod.fst = references schemas ∧ PartsCompile compile d
        ((partsFrom (path.child keyword) (fun _ => true) 0 schemas).filter refers)
        (nodes.map Prod.snd) := by
  obtain ⟨kind, assembly, hkind, hassemble, hnode⟩ := node_assembles h
  -- whether a schema has a type is not a matter of the messages
  have huntyped := @SchemaKind.ofSchema_of_untyped ⟨entries, path, c.messages⟩
    hdiscriminates.untyped
  rw [hkind] at huntyped
  cases huntyped
  obtain ⟨found, u, hunion, hassemble⟩ := bind_ok hassemble
  cases hassemble
  have hmapping : (⟨entries, path, c.messages⟩ : Keywords).mapping "discriminator" =
      ⟨some discriminator, []⟩ := by
    unfold Keywords.mapping Keywords.optional
    rw [show (⟨entries, path, c.messages⟩ : Keywords).raw? "discriminator" = _ from
      hdiscriminates.written]
    rfl
  rw [hmapping] at hunion
  unfold union at hunion
  rw [show alternatives? ⟨entries, path, c.messages⟩ = _ from hdiscriminates.alternatives] at hunion
  exact ⟨_, discriminatedUnion_names hkeeps hdiscriminates.implicit hnodup hunion hnode⟩

end Compiling

/-- A last piece without a dot is the name. -/
theorem Compiling.referenceName_of_plain {reference : String}
    (h : '.' ∉ (lastPiece reference).toList) : referenceName reference = lastPiece reference := by
  unfold referenceName
  dsimp only
  rw [cutAtLast?_of_not_mem h]

namespace Compiler

open Compiling

/-- The variants of a union have compiled, and each is selected by some value of the property,
unless a later one has the same name. -/
structure SelectsVariants (c : Compiler) (graph : Graph) (union : NodeId) (common : Common)
    (property : String) (mapping : List (String × NodeId)) (parts : List PlacedSchema)
    (nodes : List (String × NodeId)) : Prop where
  compiled : ∃ fuel u, PartsCompile (value fuel) u parts (nodes.map Prod.snd) ∧ Preserves u c
  selected : ∀ earlier reference variant later,
    nodes = earlier ++ (reference, variant) :: later →
    (∀ other ∈ later, referenceName other.1 ≠ referenceName reference) →
    ∃ value, graph.Selects union common property mapping value variant ∧
      ('.' ∉ (lastPiece reference).toList → value = lastPiece reference)

/-- A schema that tells alternatives apart by a discriminator, without naming values itself, becomes
a union of the nodes of those that are references. If these differ, every variant is selected by
some value of the property, unless a later one has the same name, whatever was called before and is
called later. -/
theorem variants_stay_selectable (resolver : Resolver) (config : Config)
    (earlier later : List Call) {fuel : Nat} {pointer : String} {id : NodeId} {d : Compiler}
    (hcompile : ((withResolver resolver config).calls earlier).1.compile fuel pointer =
      (.ok id, d)) :
    let c := ((withResolver resolver config).calls earlier).1
    let e := (d.calls later).1
    ∃ graph node entries key,
      e.graph id = .ok graph ∧ graph.get? id = some node ∧ MadeFrom e entries key node ∧
      (∀ url read, (Compiling.pointer pointer (checkIfAsked fuel pointer c).2).1 =
          .ok (url, .obj read) → Entries.find? "$ref" read = none →
        c.memory.find? ⟨Path.ofUri url, c.config.allowPolymorphism⟩ = none → entries = read) ∧
      ∀ discriminator keyword schemas,
        (⟨entries, key.path, config.messages⟩ : Keywords).Discriminates discriminator keyword
          schemas → (references schemas).Nodup →
        ∃ common property mapping nodes, propertyOf? discriminator = some property ∧
          node = .typed common (.discriminated property mapping) ∧
          nodes.map Prod.fst = references schemas ∧
          SelectsVariants e graph id common property mapping
            ((partsFrom (key.path.child keyword) (fun _ => true) 0 schemas).filter refers)
            nodes := by
  intro c e
  obtain ⟨graph, node, entries, key, hgraph, hnode, hfrom, hread⟩ :=
    entry_of_compile resolver config earlier later hcompile
  refine ⟨graph, node, entries, key, hgraph, hnode, hfrom, hread, ?_⟩
  intro discriminator keyword schemas hdiscriminates hnodup
  obtain ⟨depth, more, u, u', hrun, hpreserves⟩ := hfrom.run
  obtain ⟨common, property, nodes, hproperty, rfl, hnames, hparts⟩ :=
    node_names (value_sound depth).keeps hdiscriminates hnodup hrun
  refine ⟨common, property, byName nodes, nodes, hproperty, rfl, hnames,
    ⟨depth, u', hparts, hpreserves⟩, ?_⟩
  rintro before reference variant after rfl hlast
  exact ⟨referenceName reference, Graph.selects_of_find hnode (find?_byName hlast),
    referenceName_of_plain⟩

/-- A union of two schemas at different places. -/
def unionOf (first second : String) : List (String × Json) :=
  [("discriminator", .obj [("propertyName", .str "kind")]),
    ("oneOf", .arr [.obj [("$ref", .str first)], .obj [("$ref", .str second)]])]

/-- Two variants with names of their own are both selected. -/
theorem variants_stay_selectable_pets :
    let document : Json := .obj [("Cat", .obj [("type", .str "object")]),
      ("Dog", .obj [("type", .str "object")]), ("S", .obj (unionOf "#/Cat" "#/Dog"))]
    let c := withResolver (.ofConfig [] document .default) .default
    let d := (c.compile 40 "#/S").2
    (c.compile 40 "#/S").1 = .ok 0 ∧ ∃ graph common mapping cat dog, d.graph 0 = .ok graph ∧
      graph.get? 0 = some (.typed common (.discriminated "kind" mapping)) ∧
      graph.Selects 0 common "kind" mapping "Cat" cat ∧
      graph.Selects 0 common "kind" mapping "Dog" dog := by
  intro document c d
  have hid : (c.compile 40 "#/S").1 = .ok 0 := by decide +kernel
  obtain ⟨u, hcompile⟩ := exists_of_fst hid
  have hd : d = u := congrArg Prod.snd hcompile
  -- what the compiler is like is known from here on
  clear_value d
  subst hd
  have hpath : Path.ofUri "#/S" = ⟨"", ["S"]⟩ := by decide +kernel
  have hread : (Compiling.pointer "#/S" (checkIfAsked 40 "#/S" c).2).1 =
      .ok ("#/S", .obj (unionOf "#/Cat" "#/Dog")) := by
    refine pointer_within (Resolver.serves_ofConfig [] document rfl) (.inl rfl) (by decide +kernel)
      ?_ 40
    rw [hpath]
    rfl
  obtain ⟨graph, node, entries, key, hgraph, hnode, -, hnew, hunion⟩ :=
    variants_stay_selectable (.ofConfig [] document .default) .default [] [] hcompile
  obtain rfl := hnew "#/S" _ hread rfl rfl
  obtain ⟨common, property, mapping, nodes, hproperty, rfl, hnames, hselects⟩ :=
    hunion [("propertyName", .str "kind")] "oneOf"
      [.obj [("$ref", .str "#/Cat")], .obj [("$ref", .str "#/Dog")]] ⟨rfl, rfl, rfl, rfl⟩
      (by decide +kernel)
  cases hproperty
  have hnames : nodes.map Prod.fst = ["#/Cat", "#/Dog"] := hnames
  obtain ⟨cat, dog, rfl⟩ : ∃ cat dog, nodes = [("#/Cat", cat), ("#/Dog", dog)] := by
    rcases nodes with _ | ⟨⟨first, cat⟩, _ | ⟨⟨second, dog⟩, _ | _⟩⟩ <;> cases hnames
    exact ⟨cat, dog, rfl⟩
  obtain ⟨value, hcat, hvalue⟩ := hselects.selected [] "#/Cat" cat [("#/Dog", dog)] rfl
    fun other hother => by
      obtain rfl := List.mem_singleton.1 hother
      exact (by decide +kernel : referenceName "#/Dog" ≠ referenceName "#/Cat")
  obtain rfl : value = "Cat" := hvalue (by decide +kernel)
  obtain ⟨value, hdog, hvalue⟩ := hselects.selected [("#/Cat", cat)] "#/Dog" dog [] rfl nofun
  obtain rfl : value = "Dog" := hvalue (by decide +kernel)
  exact ⟨hid, graph, common, mapping, cat, dog, hgraph, hnode, hcat, hdog⟩

/-- The discriminating property of a union, and its mapping. -/
def union? : Node → Option (String × List (String × NodeId))
  | .typed _ (.discriminated property mapping) => some (property, mapping)
  | _ => none

/-- Of two variants whose references end alike, only the later one is found. -/
theorem variant_of_same_name_is_lost :
    let document : Json := .obj [("S", .obj (unionOf "#/cats/Pet" "#/dogs/Pet")),
      ("cats", .obj [("Pet", .obj [("type", .str "object")])]),
      ("dogs", .obj [("Pet", .obj [("type", .str "object")])])]
    let c := withResolver (.ofConfig [] document .default) .default
    let d := (c.compile 40 "#/S").2
    (c.compile 40 "#/S").1 = .ok 0 ∧ (d.compile 40 "#/S/oneOf/0").1 = .ok 1 ∧
      (d.compile 40 "#/S/oneOf/1").1 = .ok 2 ∧
      ∃ graph node, d.graph 0 = .ok graph ∧ graph.get? 0 = some node ∧
        union? node = some ("kind", [("Pet", 2)]) := by
  intro document c d
  have hunion : (d.graph 0).toOption.any (fun graph =>
      decide ((graph.get? 0).bind union? = some ("kind", [("Pet", 2)]))) = true := by
    decide +kernel
  obtain ⟨graph, hgraph, hunion⟩ := exists_of_any hunion
  obtain ⟨node, hnode, hunion⟩ := Option.bind_eq_some_iff.1 (of_decide_eq_true hunion)
  exact ⟨by decide +kernel, by decide +kernel, by decide +kernel, graph, node, hgraph, hnode,
    hunion⟩

end Compiler

end SchemaGraph

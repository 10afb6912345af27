import SchemaGraph.Proofs.Compiler.Known
import SchemaGraph.Proofs.Compiler.Unread
import SchemaGraph.Proofs.Conversion.Verdict

set_option autoImplicit false

/-! # What combinators demand

A compiled schema holds payloads to the one combinator by which it compiles: to all its schemas,
to some, to exactly one, or to none. The other combinators of the schema do not count, whatever
they demand.
-/

namespace SchemaGraph

namespace Combinator

variable {ι : Type}

/-- What a combinator demands of a payload, given which schemas accept it. -/
def Holds (accepts : ι → Prop) : Combinator → List ι → Prop
  | allOf, nodes => ∀ node ∈ nodes, accepts node
  | anyOf, nodes => ∃ node ∈ nodes, accepts node
  | oneOf, nodes => ∃ before node after, nodes = before ++ node :: after ∧ accepts node ∧
    ∀ other ∈ before ++ after, ¬accepts other
  | not, nodes => ∀ node ∈ nodes, ¬accepts node

theorem children_combine (combinator : Combinator) (common : Common) (nodes : List ι) :
    (Node.typed common (combinator.combine nodes)).children = nodes := by
  cases combinator <;> rfl

end Combinator

/-! ## Nodes that combine -/

namespace Conversion

variable {ι : Type} {convert : Converting ι} {payload : Json} {accepts refuses : ι → Prop}
  {mode : Mode} {common : Common} {combinator : Combinator} {nodes : List ι} {path : Path}
  {s t : ConversionState} {value : Value}

theorem ruling_holds (h : Decides convert payload accepts refuses)
    (hexcludes : ∀ node, refuses node → ¬accepts node) {replies : List Reply}
    (heard : Heard (Said convert path) (combinator.combine nodes).isEager
      ((combinator.combine nodes).inquiries mode payload) replies)
    (hruling : (combinator.combine nodes).ruling mode common payload path replies = .ok value) :
    combinator.Holds accepts nodes := by
  cases combinator with
  | allOf => exact allOf_decides h heard hruling
  | anyOf => exact anyOf_decides h heard hruling
  | oneOf =>
      obtain ⟨before, node, after, hnodes, haccepts, hothers⟩ := oneOf_decides h heard hruling
      exact ⟨before, node, after, hnodes, haccepts, fun other hother =>
        hexcludes other (hothers other hother)⟩
  | not => exact fun node hnode => hexcludes node (noneOf_decides h heard hruling node hnode)

/-- A payload goes to a combination as it is: it has no type and nothing to coerce to. -/
theorem step_combine (self : ι) (hnull : payload ≠ .null)
    (h : Decides convert payload accepts refuses)
    (hexcludes : ∀ node, refuses node → ¬accepts node)
    (hrun : step convert mode self (.typed common (combinator.combine nodes)) (some payload) path
      s = (.ok value, t)) : combinator.Holds accepts nodes := by
  obtain ⟨given, replies, hgiven, hjudgement⟩ := typed_ok (congrArg Prod.fst hrun)
  have hsame : given = payload := by
    cases combinator <;> exact (Option.some.inj hgiven).symm
  subst hsame
  cases hjudgement with
  | null hisNull =>
      cases given with
      | null => exact absurd rfl hnull
      | _ => cases hisNull
  | made _ hcoerced _ heard hruling =>
      rcases coercedTo_ok hcoerced with rfl | ⟨-, key, hcoercion⟩
      · exact ruling_holds h hexcludes heard hruling
      · cases combinator <;> cases hcoercion

end Conversion

/-- A node that combines others accepts what its combinator lets pass. -/
theorem Graph.holds_of_accepts {graph : Graph} {mode : Mode} {id : NodeId} {payload : Json}
    {common : Common} {combinator : Combinator} {nodes : List NodeId} (hdirect : graph.IsDirect)
    (hnode : graph.get? id = some (.typed common (combinator.combine nodes)))
    (hnull : payload ≠ .null) (haccepts : graph.Accepts mode id payload) :
    combinator.Holds (fun node => graph.Accepts mode node payload) nodes := by
  obtain ⟨fuel, value, t, hrun⟩ := run_of_accepts hdirect haccepts
  cases fuel with
  | zero => cases hrun
  | succ fuel =>
      unfold convertWithin at hrun
      rw [hnode] at hrun
      exact Conversion.step_combine id hnull (convertWithin_decides hdirect mode fuel payload)
        (fun node hrefuses => hrefuses.not_accepts) hrun

/-! ## Schemas that combine -/

namespace Compiling

variable {ι : Type} {compile : CompilingValue ι} {c d : Compiler} {combinator : Combinator}

theorem untyped_combines (hkeeps : KeepsParts Compiler.Grows Compiler.anyPlace compile)
    {keywords : Keywords} {common : Common} {assembly : Assembly ι}
    (hplain : keywords.raw? "discriminator" = none)
    (hfirst : Combinator.first? keywords = some combinator)
    (h : untyped compile keywords common c = (.ok assembly, d)) {node : Node ι}
    (hnode : assembly.node = some node) :
    ∃ nodes, Combines compile d keywords common combinator nodes node := by
  unfold untyped at h
  rw [mapping_of_absent hplain] at h
  obtain ⟨found, u, hunion, h⟩ := bind_ok h
  cases h
  have hgoverning := governing_combines hkeeps
    (show governing compile keywords common c = _ from hunion) hnode
  rw [hfirst] at hgoverning
  exact hgoverning

/-- A schema that compiles by a combinator becomes a node that combines what its schemas
compiled to. -/
theorem node_combines (hkeeps : KeepsParts Compiler.Grows Compiler.anyPlace compile) {fuel : Nat}
    {entries : List (String × Json)} {path : Path} {flag : Bool} {node : Node ι}
    {messages : Messages}
    (hplain : Entries.find? "discriminator" entries = none)
    (hgoverns : Combinator.governing? ⟨entries, path, messages⟩ = some combinator)
    (h : Compiling.node compile fuel entries path flag c = (.ok node, d)) :
    ∃ common, node = .typed common (combinator.combine node.children) ∧
      PartsCompile compile d (combinator.parts ⟨entries, path, messages⟩) node.children := by
  obtain ⟨kind, assembly, hkind, hassemble, hnode⟩ := node_assembles h
  generalize hkeywords : (⟨entries, path, c.messages⟩ : Keywords) = keywords at hassemble
  -- which combinator counts is not a matter of the messages
  have hcounts : Combinator.governing? keywords = some combinator := by
    rw [← hkeywords]
    exact hgoverns
  have hparts : combinator.parts ⟨entries, path, messages⟩ = combinator.parts keywords := by
    rw [← hkeywords]
    rfl
  have hraw : keywords.raw? "discriminator" = none := by
    rw [← hkeywords]
    exact hplain
  obtain ⟨-, htype, hfirst⟩ := Combinator.governing?_eq_some.1 hcounts
  have huntyped := SchemaKind.ofSchema_of_untyped htype
  rw [← hkeywords, hkind] at huntyped
  cases huntyped
  obtain ⟨nodes, hcombines⟩ := untyped_combines hkeeps hraw hfirst hassemble hnode
  have hchildren : node.children = nodes := by
    rw [hcombines.node, Combinator.children_combine]
  rw [hchildren, hparts]
  exact ⟨_, hcombines.node, hcombines.parts⟩

theorem partsFrom_below {path : Path} {flag : Nat → Bool} {schemas : List Json} :
    ∀ {index : Nat}, ∀ part ∈ partsFrom path flag index schemas,
      path.parts.length < part.2.1.parts.length := by
  induction schemas with
  | nil => intro index part hpart; cases hpart
  | cons schema rest ih =>
      intro index part hpart
      rcases List.mem_cons.1 hpart with rfl | hpart
      · show path.parts.length < (path.parts ++ [_]).length
        rw [List.length_append]
        exact Nat.lt_succ_self _
      · exact ih part hpart

/-- No part of a schema stands where the schema does. -/
theorem parts_below {keywords : Keywords} :
    ∀ part ∈ combinator.parts keywords, part.2.1 ≠ keywords.path := by
  intro part hpart hsame
  have hchild : keywords.path.parts.length <
      (keywords.path.child combinator.keyword).parts.length := by
    show _ < (keywords.path.parts ++ [_]).length
    rw [List.length_append]
    exact Nat.lt_succ_self _
  unfold Combinator.parts at hpart
  dsimp only at hpart
  split at hpart
  · have hbelow := partsFrom_below part hpart
    rw [hsame] at hbelow
    omega
  · rcases List.mem_singleton.1 hpart with rfl
    rw [show keywords.path.child combinator.keyword = keywords.path from hsame] at hchild
    exact absurd hchild (Nat.lt_irrefl _)
  · cases hpart

end Compiling

namespace Compiler

open Compiling

variable {c d : Compiler} {combinator : Combinator}

/-! ## Compiled schemas -/

/-- A node holds payloads to a combinator of its schema: it refers to what the listed schemas
compiled to, and what it accepts, other than `null`, is as the combinator demands. -/
structure Enforces (c : Compiler) (graph : Graph) (id : NodeId) (node : Node) (keywords : Keywords)
    (combinator : Combinator) : Prop where
  parts : ∃ fuel u, PartsCompile (value fuel) u (combinator.parts keywords) node.children ∧
    Preserves u c
  holds : ∀ mode payload, payload ≠ .null → graph.Accepts mode id payload →
    combinator.Holds (fun part => graph.Accepts mode part payload) node.children

/-- A schema compiles as it would without a combinator. -/
def Drops (entries : List (String × Json)) (path : Path) (combinator : Combinator) : Prop :=
  ∀ fuel, value fuel (.obj (Entries.remove combinator.keyword entries)) path =
    value fuel (.obj entries) path

theorem direct_of_graph (h : AllMade c) (hc : Settled c) {id : NodeId} {graph : Graph}
    (hgraph : c.graph id = .ok graph) : graph.IsDirect := by
  intro i node hnode
  obtain ⟨entries, key, hfrom⟩ := made_of_graph h hc hgraph hnode
  exact hfrom.refers

theorem MadeFrom.enforces {entries : List (String × Json)} {key : CompileKey} {node : Node}
    (h : MadeFrom c entries key node) (hplain : Entries.find? "discriminator" entries = none)
    {messages : Messages}
    (hgoverns : Combinator.governing? ⟨entries, key.path, messages⟩ = some combinator)
    {graph : Graph} (hdirect : graph.IsDirect) {id : NodeId} (hnode : graph.get? id = some node) :
    Enforces c graph id node ⟨entries, key.path, messages⟩ combinator := by
  obtain ⟨fuel, depth, u, u', hrun, hpreserves⟩ := h.run
  obtain ⟨common, hcombines, hparts⟩ :=
    node_combines (value_sound fuel).keeps hplain hgoverns hrun
  refine ⟨⟨fuel, u', hparts, hpreserves⟩, fun mode payload hnull haccepts => ?_⟩
  exact Graph.holds_of_accepts hdirect (hnode.trans (congrArg some hcombines)) hnull haccepts

/-- What the schema at a new location becomes: the entry of the graph is made from it, and the
parts of the combinator by which it compiles are known by the nodes it refers to. -/
theorem new_schema (hc : Settled c) {fuel : Nat} {pointer url : String} {id : NodeId}
    {entries : List (String × Json)} (h : c.compile fuel pointer = (.ok id, d))
    (hread : (Compiling.pointer pointer (checkIfAsked fuel pointer c).2).1 =
      .ok (url, .obj entries))
    (hplain : Entries.find? "$ref" entries = none)
    (hnew : c.memory.find? ⟨Path.ofUri url, c.config.allowPolymorphism⟩ = none) :
    ∃ node, d.draft.slots[id]? = some (some node) ∧
      MadeFrom d entries ⟨Path.ofUri url, c.config.allowPolymorphism⟩ node ∧
      (Entries.find? "discriminator" entries = none → ∀ messages combinator,
        Combinator.governing? ⟨entries, Path.ofUri url, messages⟩ = some combinator →
          HasParts d (combinator.parts ⟨entries, Path.ofUri url, messages⟩) node.children) := by
  obtain ⟨found, written, hfound, hat⟩ := compile_value h
  rw [hread] at hfound
  cases hfound
  obtain ⟨depth, start, node, u, hrun, hpreserves, hslot, hknown⟩ := hat.new hc hplain hnew
  refine ⟨node, hslot, ⟨hplain, depth, depth, start, u, hrun, hpreserves⟩, ?_⟩
  intro hdiscriminator messages combinator hgoverns
  obtain ⟨common, -, hparts⟩ :=
    node_combines (value_sound depth).keeps hdiscriminator hgoverns hrun
  exact hknown _ _ parts_below hparts

/-- The schema a node was made from, which is the one that a pointer reads if that is no reference
and nothing was known of its location. -/
theorem schema_of_compile (hc : Settled c) (hmade : AllMade c) {fuel : Nat} {pointer : String}
    {id : NodeId} (h : c.compile fuel pointer = (.ok id, d)) :
    ∃ node entries key, d.draft.slots[id]? = some (some node) ∧ MadeFrom d entries key node ∧
      ∀ url read, (Compiling.pointer pointer (checkIfAsked fuel pointer c).2).1 =
          .ok (url, .obj read) → Entries.find? "$ref" read = none →
        c.memory.find? ⟨Path.ofUri url, c.config.allowPolymorphism⟩ = none →
        entries = read ∧ key = ⟨Path.ofUri url, c.config.allowPolymorphism⟩ ∧
          (Entries.find? "discriminator" read = none → ∀ messages combinator,
            Combinator.governing? ⟨read, Path.ofUri url, messages⟩ = some combinator →
              HasParts d (combinator.parts ⟨read, Path.ofUri url, messages⟩) node.children) := by
  by_cases hnew : ∃ url read, (Compiling.pointer pointer (checkIfAsked fuel pointer c).2).1 =
      .ok (url, .obj read) ∧ Entries.find? "$ref" read = none ∧
      c.memory.find? ⟨Path.ofUri url, c.config.allowPolymorphism⟩ = none
  · obtain ⟨url, read, hread, hplain, hunknown⟩ := hnew
    obtain ⟨node, hslot, hfrom, hparts⟩ := new_schema hc h hread hplain hunknown
    refine ⟨node, read, _, hslot, hfrom, fun url' read' hread' _ _ => ?_⟩
    rw [hread] at hread'
    cases hread'
    exact ⟨rfl, rfl, hparts⟩
  · have hcompiles := compile_settled hc fuel pointer
    have hstays := compile_made c fuel pointer
    rw [h] at hcompiles hstays
    obtain ⟨node, hslot⟩ :=
      hcompiles.settled.filled id (Nat.zero_le id) (hcompiles.node rfl)
    obtain ⟨entries, key, hfrom⟩ := hstays.made hmade id node hslot
    exact ⟨node, entries, key, hslot, hfrom, fun url read hread hplain hunknown =>
      absurd ⟨url, read, hread, hplain, hunknown⟩ hnew⟩

/-- The node that a compilation gave stands in the graph after any later calls, and with it the
schema that it was made from, which is the one that the pointer reads if that is no reference and
its location was new. -/
theorem entry_of_compile (resolver : Resolver) (config : Config) (earlier later : List Call)
    {fuel : Nat} {pointer : String} {id : NodeId} {d : Compiler}
    (hcompile : ((withResolver resolver config).calls earlier).1.compile fuel pointer =
      (.ok id, d)) :
    let c := ((withResolver resolver config).calls earlier).1
    let e := (d.calls later).1
    ∃ graph node entries key,
      e.graph id = .ok graph ∧ graph.get? id = some node ∧ MadeFrom e entries key node ∧
      ∀ url read, (Compiling.pointer pointer (checkIfAsked fuel pointer c).2).1 =
          .ok (url, .obj read) → Entries.find? "$ref" read = none →
        c.memory.find? ⟨Path.ofUri url, c.config.allowPolymorphism⟩ = none → entries = read := by
  intro c e
  have hstays : StaysMade (withResolver resolver config) c := calls_made earlier
  have hmade := hstays.made (allMade_withResolver resolver config)
  have hc : Settled c := (calls_settled earlier (settled_withResolver resolver config)).1
  have hcompiles := compile_settled hc fuel pointer
  rw [show c.compile fuel pointer = _ from hcompile] at hcompiles
  obtain ⟨he, hde, -⟩ := calls_settled later hcompiles.settled
  have hlater : StaysMade d e := calls_made later
  obtain ⟨node, entries, key, hslot, hfrom, hread⟩ := schema_of_compile hc hmade hcompile
  obtain ⟨graph, hgraph, hdraws⟩ := graph_of_settled he
    (Nat.lt_of_lt_of_le (hcompiles.node rfl) hde.length)
  have hnode : graph.get? id = some node := (hdraws id node).2 (hlater.preserves.node hslot)
  exact ⟨graph, node, entries, key, hgraph, hnode, hfrom.mono hlater.preserves,
    fun url read hpointer hplain hunknown => (hread url read hpointer hplain hunknown).1⟩

/-- A schema without a discriminator enforces the combinator by which it compiles, whatever was
called before and is called later, and drops every other one. It compiles by the first that it
uses of `allOf`, `anyOf`, `oneOf` and `not`, and by none if it has a type, declared or implied. -/
theorem governing_combinator_holds (resolver : Resolver) (config : Config)
    (earlier later : List Call) {fuel : Nat} {pointer : String} {id : NodeId} {d : Compiler}
    (hcompile : ((withResolver resolver config).calls earlier).1.compile fuel pointer =
      (.ok id, d)) :
    let c := ((withResolver resolver config).calls earlier).1
    let e := (d.calls later).1
    (∃ graph node entries key,
      e.graph id = .ok graph ∧ graph.get? id = some node ∧ MadeFrom e entries key node ∧
      (Entries.find? "discriminator" entries = none → ∀ combinator,
        Combinator.governing? ⟨entries, key.path, config.messages⟩ = some combinator →
          Enforces e graph id node ⟨entries, key.path, config.messages⟩ combinator) ∧
      ∀ url read, (Compiling.pointer pointer (checkIfAsked fuel pointer c).2).1 =
          .ok (url, .obj read) → Entries.find? "$ref" read = none →
        c.memory.find? ⟨Path.ofUri url, config.allowPolymorphism⟩ = none →
        entries = read ∧ key = ⟨Path.ofUri url, config.allowPolymorphism⟩ ∧
          (Entries.find? "discriminator" read = none → ∀ combinator,
            Combinator.governing? ⟨read, Path.ofUri url, config.messages⟩ = some combinator →
              List.Forall₂ (Entered e)
                (combinator.parts ⟨read, Path.ofUri url, config.messages⟩) node.children)) ∧
    ∀ written path combinator, Entries.find? "discriminator" written = none →
      Combinator.governing? ⟨written, path, config.messages⟩ ≠ some combinator →
        Drops written path combinator := by
  intro c e
  have hstays : StaysMade (withResolver resolver config) c := calls_made earlier
  have hmade := hstays.made (allMade_withResolver resolver config)
  have hc : Settled c := (calls_settled earlier (settled_withResolver resolver config)).1
  have hcompiles := compile_settled hc fuel pointer
  have hmadeHere := compile_made c fuel pointer
  rw [show c.compile fuel pointer = _ from hcompile] at hcompiles hmadeHere
  obtain ⟨he, hde, -⟩ := calls_settled later hcompiles.settled
  have hlater : StaysMade d e := calls_made later
  have hallMade : AllMade e := hlater.made (hmadeHere.made hmade)
  obtain ⟨node, entries, key, hslot, hfrom, hread⟩ := schema_of_compile hc hmade hcompile
  obtain ⟨graph, hgraph, hdraws⟩ := graph_of_settled he
    (Nat.lt_of_lt_of_le (hcompiles.node rfl) hde.length)
  have hnode : graph.get? id = some node := (hdraws id node).2 (hlater.preserves.node hslot)
  refine ⟨⟨graph, node, entries, key, hgraph, hnode, hfrom.mono hlater.preserves, ?_, ?_⟩,
    fun written path combinator hplain hgoverns fuel => value_without hgoverns hplain fuel⟩
  · intro hplain combinator hgoverns
    exact (hfrom.mono hlater.preserves).enforces hplain hgoverns
      (direct_of_graph hallMade he hgraph) hnode
  · intro url read hpointer hplain hunknown
    rw [show config = c.config from hstays.preserves.config.symm] at hunknown ⊢
    obtain ⟨hentries, hkey, hparts⟩ := hread url read hpointer hplain hunknown
    exact ⟨hentries, hkey, fun hdiscriminator combinator hgoverns =>
      ((hparts hdiscriminator _ combinator hgoverns).mono hde).entered⟩

/-- Within a document a pointer reads what it leads to. -/
theorem pointer_within {document part : Json} (h : Resolver.Serves document c.resolver)
    (hscope : Uri.IsInside c.resolver.scope) {reference : String}
    (hlocal : Uri.isLocal reference = true)
    (hwalk : document.walk? (Path.ofUri reference).parts = some part) (fuel : Nat) :
    (Compiling.pointer reference (checkIfAsked fuel reference c).2).1 = .ok (reference, part) := by
  have honly := checkIfAsked_onlyResolver fuel reference c
  generalize (checkIfAsked fuel reference c).2 = u at honly ⊢
  have hresolve := (honly.kept.serves h).resolve_local (honly.kept.scope ▸ hscope) hlocal
  rw [hwalk] at hresolve
  unfold Compiling.pointer
  rw [run_bind_of_ok (run_resolve reference u), hresolve]
  rfl

/-- A schema with two combinators. -/
def choosingSchema : List (String × Json) :=
  [("anyOf", .arr [.obj [("type", .str "string")], .obj [("type", .str "integer")]]),
    ("not", .obj [("type", .str "string")])]

theorem governing_combinator_holds_choosing :
    let document : Json := .obj [("S", .obj choosingSchema)]
    let c := withResolver (.ofConfig [] document .default) .default
    let d := (c.compile 40 "#/S").2
    (c.compile 40 "#/S").1 = .ok 0 ∧ ∃ graph node, d.graph 0 = .ok graph ∧
      graph.get? 0 = some node ∧ node.children.length = 2 ∧
      (∀ mode payload, payload ≠ .null → graph.Accepts mode 0 payload →
        ∃ part ∈ node.children, graph.Accepts mode part payload) ∧
      Drops choosingSchema ⟨"", ["S"]⟩ .not := by
  intro document c d
  have hid : (c.compile 40 "#/S").1 = .ok 0 := by decide +kernel
  obtain ⟨u, hcompile⟩ : ∃ u, c.compile 40 "#/S" = (.ok 0, u) := by
    generalize c.compile 40 "#/S" = run at hid
    obtain ⟨r, u⟩ := run
    cases hid
    exact ⟨u, rfl⟩
  have hd : d = u := congrArg Prod.snd hcompile
  -- what the compiler is like is known from here on
  clear_value d
  subst hd
  have hpath : Path.ofUri "#/S" = ⟨"", ["S"]⟩ := by decide +kernel
  have hread : (Compiling.pointer "#/S" (checkIfAsked 40 "#/S" c).2).1 =
      .ok ("#/S", .obj choosingSchema) := by
    refine pointer_within (Resolver.serves_ofConfig [] document rfl) (.inl rfl) (by decide +kernel)
      ?_ 40
    rw [hpath]
    rfl
  obtain ⟨⟨graph, node, entries, key, hgraph, hnode, -, henforces, hnew⟩, hdrops⟩ :=
    governing_combinator_holds (.ofConfig [] document .default) .default [] [] hcompile
  obtain ⟨rfl, rfl, hparts⟩ := hnew "#/S" choosingSchema hread rfl rfl
  have hentered := hparts rfl .anyOf rfl
  refine ⟨hid, graph, node, hgraph, hnode, ?_, (henforces rfl .anyOf rfl).holds, ?_⟩
  · rw [← hentered.length_eq]
    rfl
  · rw [← hpath]
    exact hdrops choosingSchema _ .not rfl (by decide)

/-- Beside a type a combinator does not count: what it forbids is accepted. -/
theorem combinator_beside_type_dropped :
    let document : Json := .obj
      [("S", .obj [("type", .str "string"), ("not", .obj [("$ref", .str "#/T")])]),
        ("T", .obj [("type", .str "string")])]
    let c := withResolver (.ofConfig [] document .default) .default
    let d := (c.calls [.compile 40 "#/T", .compile 40 "#/S", .compile 40 "#/S/not"]).1
    (c.check 40 "#/S").1 = .ok () ∧
      (c.calls [.compile 40 "#/T", .compile 40 "#/S", .compile 40 "#/S/not"]).2 = [0, 1, 0] ∧
      ∃ graph, d.graph 1 = .ok graph ∧
        graph.Accepts Conversion.strictResponse 1 (.str "a") ∧
        ¬Combinator.not.Holds (fun part => graph.Accepts Conversion.strictResponse part (.str "a"))
          [0] := by
  intro document c d
  have hconverts : (d.graph 1).toOption.any (fun graph => [0, 1].all fun id =>
      (graph.convert 3 id (.str "a") Conversion.strictResponse).isConverted) = true := by
    decide +kernel
  refine ⟨by decide +kernel, by decide +kernel, ?_⟩
  obtain ⟨graph, hgraph, hconverts⟩ := exists_of_any hconverts
  have haccepts : ∀ id ∈ [0, 1], graph.Accepts Conversion.strictResponse id (.str "a") := by
    intro id hid
    exact ⟨3, Outcome.exists_of_isConverted (List.all_eq_true.1 hconverts id hid)⟩
  refine ⟨graph, hgraph, haccepts 1 (by decide), fun hholds => ?_⟩
  exact hholds 0 List.mem_cons_self (haccepts 0 (by decide))

end Compiler

end SchemaGraph

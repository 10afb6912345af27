import SchemaGraph.Proofs.Compiler.Calls
import SchemaGraph.Proofs.Conversion.Following
import SchemaGraph.Proofs.Resolver.Territory

set_option autoImplicit false

/-! # Circles of references

A schema that only refers to another one is an alias. From some aliases references lead on to
aliases for ever (`Json.IsEndless`), so they come back to a location they led to before. Conversions
notice that by the locations being followed, compilations by the chain of references. Either way the
signal goes no further than the reference before, which reports it, and all references ahead of that
one are bad (`Conversion.reference_circles`, `Compiling.value_circles`). So the circle is reported
once, wherever it is entered (`Compiler.circles_told_once`).
-/

namespace SchemaGraph

/-! ## Reports -/

/-- One error tells that references came back, and all others that references are bad. -/
structure SchemaErrors.TellsCircle (errors : SchemaErrors) : Prop where
  once : errors.kinds.count .referenceRecursive = 1
  others : ∀ kind ∈ errors.kinds, kind = .referenceRecursive ∨ kind = .referenceBad

namespace SchemaErrors

theorem single_tellsCircle (messages : Messages) (path : Path) :
    (single (LocatedError.ofKey messages path .recursiveReference [])).TellsCircle :=
  ⟨rfl, fun _ hkind => .inl (List.mem_singleton.1 hkind)⟩

/-- A bad reference ahead adds nothing to the circle. -/
theorem TellsCircle.leading {errors : SchemaErrors} (h : errors.TellsCircle) (messages : Messages)
    (path : Path) :
    (errors.leading (LocatedError.ofKey messages path .badReference [])).TellsCircle := by
  refine ⟨?_, fun kind hkind => ?_⟩
  · show (ErrorKind.referenceBad :: errors.kinds).count .referenceRecursive = 1
    rw [List.count_cons_of_ne (by decide)]
    exact h.once
  · rcases List.mem_cons.1 hkind with rfl | hkind
    · exact .inr rfl
    · exact h.others kind hkind

end SchemaErrors

/-- References come back to a location that was passed. The signal is given where the next one is
such a location; anything before that reports the circle. -/
structure Circles {ε α : Type} (signal : ε) (report : SchemaErrors → ε) (passed : List Path)
    (text : String) (result : Except ε α) : Prop where
  signals : passed.contains (Path.ofUri text) = true → result = .error signal
  reports : passed.contains (Path.ofUri text) = false →
    ∃ errors, result = .error (report errors) ∧ errors.TellsCircle

/-- Either way it is one of the two. -/
theorem Circles.cases {ε α : Type} {signal : ε} {report : SchemaErrors → ε} {passed : List Path}
    {text : String} {result : Except ε α} (h : Circles signal report passed text result) :
    result = .error signal ∨ ∃ errors, result = .error (report errors) ∧ errors.TellsCircle := by
  cases hpassed : passed.contains (Path.ofUri text) with
  | true => exact .inl (h.signals hpassed)
  | false => exact .inr (h.reports hpassed)

/-! ## Endless references -/

namespace Json

variable {document value : Json}

/-- The value refers to an alias in the document, that one to another alias, and so on. -/
def IsEndless (document value : Json) : Prop :=
  ∃ texts : Nat → String, Conversion.referenceOf? value = some (.str (texts 0)) ∧
    ∀ i, Uri.IsFragment (texts i) ∧ ∃ target,
      Resolver.resolveFragment document (Uri.defrag (texts i)).2 = .ok target ∧
        Conversion.referenceOf? target = some (.str (texts (i + 1)))

/-- The locations that references in a document name. -/
def named (document : Json) : List Path :=
  (document.inside.filterMap fun value => (value.get? "$ref").bind asStr?).map Path.ofUri

theorem mem_inside_of_walk {segments : List String} (h : document.walk? segments = some value) :
    value ∈ document.inside :=
  holds_of_walk (fun hwhole hpart => hpart.inside hwhole) (mem_inside_self document) h

theorem mem_inside_of_resolveFragment {fragment : String}
    (h : Resolver.resolveFragment document fragment = .ok value) : value ∈ document.inside := by
  unfold Resolver.resolveFragment at h
  split at h
  · rename_i part hwalk
    cases h
    exact mem_inside_of_walk hwalk
  · cases h

/-- An alias in the document, and what it refers to, from which references go on for ever. -/
structure Chains (document value : Json) (text : String) : Prop where
  inside : value ∈ document.inside
  endless : document.IsEndless value
  refers : Conversion.referenceOf? value = some (.str text)

theorem IsEndless.chains {fragment : String} (h : document.IsEndless value)
    (hvalue : Resolver.resolveFragment document fragment = .ok value) :
    ∃ text, document.Chains value text :=
  have ⟨texts, hrefers, _⟩ := h
  ⟨texts 0, mem_inside_of_resolveFragment hvalue, h, hrefers⟩

theorem Chains.mem_named {text : String} (h : document.Chains value text) :
    Path.ofUri text ∈ document.named := by
  refine List.mem_map.2 ⟨text, List.mem_filterMap.2 ⟨value, h.inside, ?_⟩, rfl⟩
  show (Conversion.referenceOf? value).bind asStr? = some text
  rw [h.refers]
  rfl

theorem Chains.next {text : String} (h : document.Chains value text) :
    Uri.IsFragment text ∧ ∃ target again,
      Resolver.resolveFragment document (Uri.defrag text).2 = .ok target ∧
        document.Chains target again := by
  obtain ⟨texts, hrefers, htexts⟩ := h.endless
  obtain ⟨hfragment, target, htarget, hnext⟩ := htexts 0
  rw [h.refers] at hrefers
  cases hrefers
  exact ⟨hfragment, target, texts 1, htarget, mem_inside_of_resolveFragment htarget,
    ⟨fun i => texts (i + 1), hnext, fun i => htexts (i + 1)⟩, hnext⟩

end Json

namespace Resolver

variable {document target : Json} {r : Resolver} {url : String}

/-- A fragment of one segment leads to what the document has under it. -/
theorem resolveFragment_of_step {fragment segment : String}
    (hfragment : Uri.pointerSegments fragment = [segment])
    (hstep : document.step? segment = some target) :
    resolveFragment document fragment = .ok target := by
  have hwalk : document.walk? [segment] = some target := by
    unfold Json.walk?
    rw [hstep]
    rfl
  unfold resolveFragment
  rw [hfragment, hwalk]

/-- Inside the document: that is where the resolver is and where references stay. -/
structure Inside (document : Json) (r : Resolver) : Prop where
  serves : Serves document r
  scope : Uri.IsInside r.scope

/-- What stays inside resolves to what its fragment leads to. -/
theorem Inside.resolve (h : Inside document r) (hurl : Uri.IsInside url)
    (hjoin : Uri.join r.scope url = url)
    (htarget : resolveFragment document (Uri.defrag url).2 = .ok target) :
    (r.resolve url).1 = .ok (url, target) := by
  rw [h.serves.resolve_inside hjoin (Uri.defrag_inside hurl), htarget]
  rfl

theorem Inside.after (h : Inside document r) (reference : String) :
    Inside document (r.resolve reference).2 :=
  ⟨h.serves.resolve reference, by rw [(kept_resolve r reference).scope]; exact h.scope⟩

theorem Inside.pushScope (h : Inside document r) (hurl : Uri.IsInside url) :
    Inside document (r.pushScope url) := by
  refine ⟨h.serves.pushScope url, ?_⟩
  show Uri.IsInside (r.join r.scope url).1
  rw [(h.serves.join r.scope url).1]
  exact Uri.join_inside h.scope hurl

end Resolver

/-! ## Conversions -/

namespace Conversion

variable {document value : Json}

/-- Where an endless chain of references stands, all that is known of locations is that they are
being followed. -/
structure Chained (document : Json) (s : ConversionState) : Prop where
  resolver : ∃ r, s.resolver = some r ∧ Resolver.Inside document r
  registry : ∀ path, s.registry.find? path ≠ none → s.visited.contains path = true

/-- What is reported behind a reference is reported once more by it. -/
theorem closeReached_circles {passed : List Path} {text : String}
    {run : Except Failure Value × ConversionState}
    (h : Circles .recursive .errors passed text run.1) (messages : Messages)
    (location path : Path) : ∃ errors,
      (closeReached messages location path run).1 = .error (.errors errors) ∧
        errors.TellsCircle := by
  obtain ⟨result, t⟩ := run
  rcases h.cases with hresult | ⟨errors, hresult, htells⟩
  · cases hresult
    exact ⟨_, rfl, SchemaErrors.single_tellsCircle messages path⟩
  · cases hresult
    exact ⟨_, rfl, htells.leading messages path⟩

/-- One more location is being followed, in the scope of the reference to it. -/
theorem Chained.follow {s : ConversionState} {r : Resolver} (hs : Chained document s)
    (hr : Resolver.Inside document r) (location : Path) :
    Chained document ⟨s.registry.start location, location :: s.visited, some r⟩ where
  resolver := ⟨r, rfl, hr⟩
  registry path hpath := by
    rw [List.contains_cons]
    by_cases heq : path = location
    · rw [heq, beq_self_eq_true]
      rfl
    · dsimp only at hpath
      rw [Registry.find?_start_of_ne heq] at hpath
      rw [hs.registry path hpath, Bool.or_true]

/-- An alias leads to its target, in a scope inside the document. -/
theorem Chained.run_reference {ι : Type} {s : ConversionState} {text : String} {next : Json}
    (hs : Chained document s) (hvalue : document.Chains value text)
    (hnext : Resolver.resolveFragment document (Uri.defrag text).2 = .ok next)
    (convert : Converting ι) (id target : ι) (messages : Messages) (path : Path) :
    ∃ r, Resolver.Inside document r ∧
      (reference convert id messages target (some value) path s).1 =
        (arrive convert id messages target next (Path.ofUri text) path
          { s with resolver := some r }).1 := by
  obtain ⟨r, hr, hinside⟩ := hs.resolver
  have hfragment := hvalue.next.1
  refine ⟨(r.resolve text).2.pushScope text, (hinside.after text).pushScope (.inr hfragment), ?_⟩
  have hresolve : resolve? text s =
      (.ok (some (text, next)), { s with resolver := some (r.resolve text).2 }) := by
    rw [run_resolve?_of_some hr text, hinside.resolve (.inr hfragment) (Uri.join_fragment hinside.scope hfragment) hnext]
    rfl
  unfold reference
  rw [Option.bind_some, hvalue.refers]
  show ((resolve? text >>= _) s).1 = _
  rw [run_bind_of_ok hresolve]
  rfl

theorem reference_circles {graph : Graph} (mode : Mode) {id : NodeId} {messages : Messages}
    {target : NodeId} (hnode : graph.get? id = some (.reference messages target)) {fuel : Nat}
    {text : String} (hvalue : document.Chains value text) {s : ConversionState}
    (hs : Chained document s) (hfuel : unpassed document.named s.visited < fuel) (path : Path) :
    Circles .recursive .errors s.visited text
      (graph.convertWithin mode fuel id (some value) path s).1 := by
  induction fuel generalizing value text s path with
  | zero => exact absurd hfuel (Nat.not_lt_zero _)
  | succ fuel ih =>
      obtain ⟨-, next, again, hnext, hagain⟩ := hvalue.next
      obtain ⟨r, hr, hrun⟩ := hs.run_reference hvalue hnext (graph.convertWithin mode fuel) id
        target messages path
      rw [Graph.convertWithin_succ hnode mode fuel]
      show Circles .recursive .errors s.visited text
        (reference _ id messages target (some value) path s).1
      rw [hrun, run_arrive]
      dsimp only
      refine ⟨fun hpassed => ?_, fun hnew => ?_⟩
      · rw [if_pos hpassed]
      · rw [if_neg (Bool.eq_false_iff.1 hnew)]
        have hopen : s.registry.find? (Path.ofUri text) = none := by
          by_contra hknown
          rw [hs.registry _ hknown] at hnew
          cases hnew
        -- what the reference leads to is another one, so the chain goes on
        have hdeeper : deeper (graph.convertWithin mode fuel) id target next (Path.ofUri text) =
            graph.convertWithin mode fuel id (some next) (Path.ofUri text) := by
          unfold deeper
          rw [hagain.refers]
        have hless := unpassed_cons_lt hvalue.mem_named hnew
        have hrest : Circles .recursive .errors (Path.ofUri text :: s.visited) again
            (following (Path.ofUri text)
              (graph.convertWithin mode fuel id (some next) (Path.ofUri text))
              ⟨s.registry.start (Path.ofUri text), s.visited, some r⟩).1 :=
          ih hagain (hs.follow hr (Path.ofUri text))
            (Nat.lt_of_lt_of_le hless (Nat.le_of_lt_succ hfuel)) (Path.ofUri text)
        rw [hopen, hdeeper]
        exact closeReached_circles hrest messages (Path.ofUri text) path

end Conversion

/-! ## Compilations -/

namespace Compiling

variable {document : Json} {c : Compiler}

theorem fst_referenceOnly (compile : CompilingValue) (reference : Json) (key : CompileKey)
    (c : Compiler) :
    (referenceOnly compile reference key c).1 = (referenced compile reference key c).1 := by
  unfold referenceOnly
  rw [run_bind_of_ok (run_outcome _ c)]
  cases hresult : (referenced compile reference key c).1 <;> rfl

/-- An alias of which nothing is known comes to what its reference does. -/
theorem fst_value_reference {fuel : Nat} {written : Json} {text : String} {path : Path}
    {polymorphic : Bool} (htext : Conversion.referenceOf? written = some (.str text))
    (hnone : c.memory.find? ⟨path, polymorphic⟩ = none) (referencing : Path) :
    (value (fuel + 1) written path referencing polymorphic c).1 =
      (target (value fuel) text path polymorphic c).1 := by
  cases written with
  | obj entries =>
      have hfind : Entries.find? "$ref" entries = some (.str text) := htext
      rw [value]
      dsimp only
      rw [Compiler.run_reuse, hnone, hfind]
      exact fst_referenceOnly _ _ _ c
  | _ => cases htext

/-- What the target of a reference reports, the reference reports once more. -/
theorem follow_circles {compile : CompilingValue} {url text : String} {value : Json}
    {chain : List Path} {referencing : Path} {key : CompileKey}
    (h : Circles .recursive .errors (key.path :: chain) text
      (compile value key.path key.path key.polymorphic
        { c with resolver := c.resolver.pushScope url, chain := key.path :: chain }).1) :
    ∃ errors, (follow compile url value chain referencing key c).1 = .error (.errors errors) ∧
      errors.TellsCircle := by
  unfold follow
  rw [run_bind_of_ok (run_outcome _ c), run_inScope, run_withChain]
  dsimp only
  rcases h.cases with hresult | ⟨errors, hresult, htells⟩
  · rw [hresult]
    exact ⟨_, rfl, SchemaErrors.single_tellsCircle _ referencing⟩
  · rw [hresult]
    exact ⟨_, rfl, htells.leading _ referencing⟩

theorem value_circles {written : Json} {text : String} (hwritten : document.Chains written text)
    (hinside : Resolver.Inside document c.resolver) (hmemory : c.memory = .empty) {fuel : Nat}
    (hfuel : unpassed document.named c.chain < fuel) (path referencing : Path)
    (polymorphic : Bool) :
    Circles .recursive .errors c.chain text
      (value fuel written path referencing polymorphic c).1 := by
  induction fuel generalizing written text c path referencing with
  | zero => exact absurd hfuel (Nat.not_lt_zero _)
  | succ fuel ih =>
      obtain ⟨hfragment, next, again, hnext, hagain⟩ := hwritten.next
      have hresolve := hinside.resolve (.inr hfragment)
        (Uri.join_fragment hinside.scope hfragment) hnext
      have hnone : ∀ key, c.memory.find? key = none := fun key => by
        rw [hmemory]
        rfl
      rw [fst_value_reference hwritten.refers (hnone _)]
      unfold target
      rw [run_bind_of_ok (run_resolve text c), hresolve]
      dsimp only
      rw [run_bind_of_ok (run_get _)]
      refine ⟨fun hpassed => ?_, fun hnew => ?_⟩
      · rw [if_pos hpassed]
        rfl
      · rw [if_neg (Bool.eq_false_iff.1 hnew), Compiler.run_reuse]
        dsimp only
        rw [hnone]
        have hless := unpassed_cons_lt hwritten.mem_named hnew
        let entered : Compiler := { c with
          resolver := (c.resolver.resolve text).2.pushScope text
          chain := Path.ofUri text :: c.chain }
        exact follow_circles (ih (c := entered) hagain
          ((hinside.after text).pushScope (.inr hfragment)) hmemory
          (Nat.lt_of_lt_of_le hless (Nat.le_of_lt_succ hfuel)) (Path.ofUri text) (Path.ofUri text))

/-- A pointer into the document leads to its target. -/
theorem run_pointer {url : String} {target : Json} (hinside : Resolver.Inside document c.resolver)
    (hscope : c.resolver.scope = "") (hurl : Uri.IsInside url)
    (htarget : Resolver.resolveFragment document (Uri.defrag url).2 = .ok target) :
    pointer url c = (.ok (url, target),
      { c with resolver := (c.resolver.resolve url).2 }) := by
  have hjoin : Uri.join c.resolver.scope url = url := by
    rw [hscope]
    rcases hurl with rfl | hfragment
    · rfl
    · exact Uri.join_fragment (.inl rfl) hfragment
  unfold pointer
  rw [run_bind_of_ok (run_resolve url c), hinside.resolve hurl hjoin htarget]
  rfl

/-- What a check comes to, by how the model converts the schema. -/
theorem fst_check {reference url : String} {written : Json} {d : Compiler}
    (h : pointer reference c = (.ok (url, written), d)) (fuel : Nat) :
    (check fuel reference c).1 = match ((Model.graph d.messages).convertAt fuel Model.entry
        (some written) (Path.ofUri url) (Options.ofEntity .specification).mode
        (some (d.resolver.pushScope url))).1 with
      | .failed errors => .error (.errors errors)
      | .outOfFuel => .error .outOfFuel
      | _ => .ok () := by
  unfold check
  rw [run_bind_of_ok h]
  dsimp only
  rw [run_bind_of_ok (run_get _), run_inScope]
  dsimp only
  rw [run_bind_of_ok (run_get _)]
  dsimp only
  generalize (Model.graph d.messages).convertAt fuel Model.entry (some written) (Path.ofUri url)
    (Options.ofEntity .specification).mode (some (d.resolver.pushScope url)) = run
  obtain ⟨outcome, after⟩ := run
  cases outcome <;> rfl

theorem check_circles {url : String} {target : Json} {fuel : Nat}
    (hinside : Resolver.Inside document c.resolver) (hscope : c.resolver.scope = "")
    (hurl : Uri.IsInside url)
    (htarget : Resolver.resolveFragment document (Uri.defrag url).2 = .ok target)
    (hendless : document.IsEndless target) (hfuel : unpassed document.named [] < fuel) :
    ∃ errors, (check fuel url c).1 = .error (.errors errors) ∧ errors.TellsCircle := by
  obtain ⟨text, hchains⟩ := hendless.chains htarget
  have hentry : (Model.graph c.messages).get? Model.entry =
      some (.reference c.messages Model.schemaAgain) := rfl
  have hchained : Conversion.Chained document
      (.start (some ((c.resolver.resolve url).2.pushScope url))) :=
    ⟨⟨_, rfl, (hinside.after url).pushScope hurl⟩, fun _ h => absurd rfl h⟩
  obtain ⟨errors, hresult, htells⟩ :=
    (Conversion.reference_circles (Options.ofEntity .specification).mode hentry hchains hchained
      hfuel (Path.ofUri url)).reports rfl
  refine ⟨errors, ?_, htells⟩
  obtain ⟨t, hrun⟩ := exists_of_fst hresult
  rw [fst_check (run_pointer hinside hscope hurl htarget)]
  unfold Graph.convertAt
  dsimp only
  rw [show ({ c with resolver := (c.resolver.resolve url).2 } : Compiler).messages = c.messages
    from rfl, hrun]

theorem compilePointer_circles {url : String} {target : Json} {fuel : Nat}
    (hinside : Resolver.Inside document c.resolver) (hscope : c.resolver.scope = "")
    (hurl : Uri.IsInside url)
    (htarget : Resolver.resolveFragment document (Uri.defrag url).2 = .ok target)
    (hendless : document.IsEndless target) (hmemory : c.memory = .empty)
    (hfuel : unpassed document.named [] < fuel) :
    ∃ errors, (compilePointer fuel url c).1 = .error (.errors errors) ∧ errors.TellsCircle := by
  obtain ⟨text, hchains⟩ := hendless.chains htarget
  have hless : unpassed document.named [Path.ofUri url] < fuel :=
    Nat.lt_of_le_of_lt (unpassed_cons_le _ _ _) hfuel
  let entered : Compiler := { c with
    resolver := (c.resolver.resolve url).2.pushScope url
    chain := [Path.ofUri url] }
  have hcircles := value_circles (c := entered) hchains ((hinside.after url).pushScope hurl) hmemory
    hless (Path.ofUri url) (Path.ofUri url) c.config.allowPolymorphism
  unfold compilePointer
  rw [run_bind_of_ok (run_pointer hinside hscope hurl htarget)]
  dsimp only
  rw [run_bind_of_ok (run_get _), run_bind_of_ok (run_outcome _ _), run_inScope, run_withChain]
  dsimp only
  rcases hcircles.cases with hresult | ⟨errors, hresult, htells⟩
  · rw [hresult]
    exact ⟨_, rfl, SchemaErrors.single_tellsCircle _ _⟩
  · rw [hresult]
    exact ⟨_, rfl, htells⟩

end Compiling

namespace Compiler

open Compiling

variable {document target : Json} {config : Config} {pointer : String}

/-- Where aliases lead on to aliases for ever, checking and compiling a schema end and tell so once:
all other errors are that references to the circle are bad, and nothing is compiled. -/
theorem circles_told_once (retrievers : List (String × Retriever)) (hbase : config.baseUri = "")
    (hpointer : Uri.IsInside pointer)
    (htarget : Resolver.resolveFragment document (Uri.defrag pointer).2 = .ok target)
    (hendless : document.IsEndless target) : ∃ enough, ∀ fuel, enough ≤ fuel →
      (∃ errors, ((ofDocument retrievers document config).check fuel pointer).1 =
        .error (.errors errors) ∧ errors.TellsCircle) ∧
      (config.checkSchemas = false → ∃ errors,
        ((ofDocument retrievers document config).compile fuel pointer).1 =
          .error (.errors errors) ∧ errors.TellsCircle ∧
        ((ofDocument retrievers document config).compile fuel pointer).2.draft = .empty) := by
  have hserves := Resolver.serves_ofConfig retrievers document hbase
  have hscope : (ofDocument retrievers document config).resolver.scope = "" := hbase
  have hinside : Resolver.Inside document (ofDocument retrievers document config).resolver :=
    ⟨hserves, .inl hscope⟩
  refine ⟨unpassed document.named [] + 1, fun fuel hfuel => ⟨?_, fun hunchecked => ?_⟩⟩
  · exact check_circles hinside hscope hpointer htarget hendless hfuel
  · obtain ⟨errors, hresult, htells⟩ :=
      compilePointer_circles hinside hscope hpointer htarget hendless rfl hfuel
    have hasked : checkIfAsked fuel pointer (ofDocument retrievers document config) =
        (.ok (), ofDocument retrievers document config) := by
      unfold checkIfAsked
      rw [run_bind_of_ok (run_get _), if_neg]
      · rfl
      · show ¬config.checkSchemas = true
        rw [hunchecked]
        exact Bool.false_ne_true
    rw [run_compile, hasked]
    dsimp only
    rw [run_undoOnFailure]
    obtain ⟨u, hrun⟩ := exists_of_fst hresult
    rw [hrun]
    exact ⟨errors, rfl, htells, rfl⟩

/-- An alias that leads into a circle of two others. -/
def looped : Json :=
  .obj [("a", .obj [("$ref", .str "#/b")]), ("b", .obj [("$ref", .str "#/c")]),
    ("c", .obj [("$ref", .str "#/b")])]

theorem looped_isEndless : looped.IsEndless (.obj [("$ref", .str "#/b")]) := by
  refine ⟨fun i => if i % 2 = 0 then "#/b" else "#/c", rfl, fun i => ?_⟩
  have hnext : (i + 1) % 2 = 1 - i % 2 := by omega
  dsimp only
  rw [hnext]
  rcases Nat.mod_two_eq_zero_or_one i with h | h <;> rw [h]
  · have hsegments : Uri.pointerSegments (Uri.defrag "#/b").2 = ["b"] := by decide +kernel
    exact ⟨Uri.isFragment_of_isLocal (by decide +kernel), _,
      Resolver.resolveFragment_of_step hsegments rfl, rfl⟩
  · have hsegments : Uri.pointerSegments (Uri.defrag "#/c").2 = ["c"] := by decide +kernel
    exact ⟨Uri.isFragment_of_isLocal (by decide +kernel), _,
      Resolver.resolveFragment_of_step hsegments rfl, rfl⟩

theorem circles_told_once_looped :
    let config : Config := { Config.default with checkSchemas := false }
    Uri.IsInside "#/a" ∧ looped.IsEndless (.obj [("$ref", .str "#/b")]) ∧
    ∃ enough, ∀ fuel, enough ≤ fuel →
      (∃ errors, ((ofDocument [] looped config).check fuel "#/a").1 = .error (.errors errors) ∧
        errors.TellsCircle) ∧
      ∃ errors, ((ofDocument [] looped config).compile fuel "#/a").1 = .error (.errors errors) ∧
        errors.TellsCircle ∧
        ((ofDocument [] looped config).compile fuel "#/a").2.draft = .empty := by
  intro config
  have hinside : Uri.IsInside "#/a" := .inr (Uri.isFragment_of_isLocal (by decide +kernel))
  have hsegments : Uri.pointerSegments (Uri.defrag "#/a").2 = ["a"] := by decide +kernel
  obtain ⟨enough, h⟩ := circles_told_once [] (show config.baseUri = "" from rfl) hinside
    (Resolver.resolveFragment_of_step hsegments rfl) looped_isEndless
  exact ⟨hinside, looped_isEndless, enough, fun fuel hfuel =>
    ⟨(h fuel hfuel).1, (h fuel hfuel).2 rfl⟩⟩

end Compiler

end SchemaGraph

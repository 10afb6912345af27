import SchemaGraph.Proofs.Compiler.Lockstep

set_option autoImplicit false

/-! # Schemas read where they stand

An interpreter converts by the schema at a location of a document and compiles nothing: it puts
the node of that schema together on the spot, with the locations of the parts in place of their
nodes, and reads the document again wherever the node leads to. It has no memory and no graph.

In a document all of whose references stay in it, what the assembly of a node takes from a
resolver is a matter of the document alone.
-/

namespace SchemaGraph

/-! ## The interpreter -/

namespace Interpreter

/-- A part is named by where it stands. -/
def byPlace : CompilingValue CompileKey := fun _ path _ polymorphic => pure ⟨path, polymorphic⟩

/-- The node of the schema at a location. A reference converts as its target does. -/
def reading (document : Json) (fuel : Nat) (key : CompileKey) : Compiling (Node CompileKey) :=
  match document.walk? key.path.parts with
  | some (.obj entries) =>
    match Entries.find? "$ref" entries with
    | some (.str reference) => pure (.forward ⟨Path.ofUri reference, key.polymorphic⟩)
    | some _ => Compiling.failWith (key.path.child "$ref") .invalidKeyword
    | none => Compiling.node byPlace fuel entries key.path key.polymorphic
  | _ => Compiling.failWith key.path .mappingType

/-- Read the schema at a location, with nothing known but the document. -/
def read (document : Json) (config : Config) (fuel : Nat) (key : CompileKey) :
    Except CompileFailure (Node CompileKey) :=
  (reading document fuel key (Compiler.ofDocument [] document config)).1

/-- Convert by the schema at a location, with schemas nested at most `fuel` deep. -/
def interpret (document : Json) (config : Config) (mode : Mode) (fuel : Nat) :
    Converting CompileKey :=
  match fuel with
  | 0 => fun _ _ _ => Conversion.fail .outOfFuel
  | fuel + 1 => fun key input path =>
    match read document config fuel key with
    | .ok node => Conversion.step (interpret document config mode fuel) mode key node input path
    | .error .outOfFuel => Conversion.fail .outOfFuel
    | .error _ => Conversion.fail .noNode

end Interpreter

/-! ## Documents on their own -/

/-- A reference, if it is one, stays in its document. -/
def Json.refersWithin : Json → Bool
  | .obj entries =>
    match Entries.find? "$ref" entries with
    | some (.str reference) => Uri.isLocal reference
    | _ => true
  | _ => true

/-- All references of a document stay in it. -/
structure Json.SelfContained (document : Json) : Prop where
  regular : document.isRegular = true
  within : document.all refersWithin = true

theorem Json.isLocal_of_refersWithin {schema : Json} {reference : String}
    (h : schema.refersWithin = true)
    (href : (schema.get? "$ref").bind Json.asStr? = some reference) :
    Uri.isLocal reference = true := by
  obtain ⟨written, hwritten, htext⟩ := Option.bind_eq_some_iff.1 href
  cases schema with
  | obj entries =>
      have hfind : Entries.find? "$ref" entries = some written := hwritten
      cases written with
      | str text =>
          cases htext
          unfold refersWithin at h
          dsimp only at h
          rw [hfind] at h
          exact h
      | _ => cases htext
  | _ => cases hwritten

theorem Json.SelfContained.isLocal {document schema : Json} {path : Path} {reference : String}
    (h : document.SelfContained) (hplace : document.StandsAt schema path)
    (href : (schema.get? "$ref").bind Json.asStr? = some reference) :
    Uri.isLocal reference = true :=
  isLocal_of_refersWithin (hplace.test_here h.within) href

theorem Json.SelfContained.isInside {document : Json} (h : document.SelfContained) :
    ∀ value ∈ document.inside, ∀ reference,
      (value.get? "$ref").bind Json.asStr? = some reference → Uri.IsInside reference :=
  fun _ hvalue _ href =>
    .inr (Uri.isFragment_of_isLocal
      (isLocal_of_refersWithin (test_of_mem_inside h.within hvalue) href))

/-- Where a reference leads within a document. -/
theorem Json.standsAt_ofUri {document part : Json} {reference : String}
    (hlocal : Uri.isLocal reference = true)
    (hwalk : document.walk? (Path.ofUri reference).parts = some part) :
    document.StandsAt part (Path.ofUri reference) :=
  ⟨by rw [Uri.ofUri_local hlocal], hwalk⟩

/-- A compiler with given settings and the formats there are from the start, in a scope of its
document. -/
structure Compiler.Hosts (document : Json) (config : Config) (c : Compiler) : Prop where
  settings : c.config = config
  formats : c.formats = .builtIn
  serves : Resolver.Serves document c.resolver
  inside : Uri.IsInside c.resolver.scope

namespace Compiler.Hosts

variable {document : Json} {config : Config} {c c' d : Compiler}

theorem ofDocument (retrievers : List (String × Retriever)) (hbase : config.baseUri = "") :
    Hosts document config (Compiler.ofDocument retrievers document config) :=
  ⟨rfl, rfl, Resolver.serves_ofConfig retrievers document hbase, .inl hbase⟩

theorem withResolver (h : Hosts document config c) {r : Resolver}
    (hkept : Resolver.Kept c.resolver r) :
    Hosts document config { c with resolver := r } :=
  ⟨h.settings, h.formats, hkept.serves h.serves, by rw [hkept.scope]; exact h.inside⟩

theorem after (h : Hosts document config c) (honly : Compiling.OnlyResolver c d) :
    Hosts document config d := by
  rw [honly.same]
  exact h.withResolver honly.kept

/-- A scope entered through a reference within the document is inside it. -/
theorem enter (h : Hosts document config c) {reference : String}
    (hlocal : Uri.isLocal reference = true) :
    Hosts document config { c with resolver := c.resolver.pushScope reference } := by
  have hfragment := Uri.isFragment_of_isLocal hlocal
  refine ⟨h.settings, h.formats, h.serves.pushScope reference, .inr ?_⟩
  have hscope : (c.resolver.pushScope reference).scope =
      (c.resolver.join c.resolver.scope reference).1 := rfl
  rw [hscope, (h.serves.join c.resolver.scope reference).1, Uri.join_fragment h.inside hfragment]
  exact hfragment

theorem resolve (h : Hosts document config c) {reference : String}
    (hlocal : Uri.isLocal reference = true) :
    (c.resolver.resolve reference).1 = (match document.walk? (Path.ofUri reference).parts with
      | some part => .ok (reference, part)
      | none => .error (.unresolvable (Uri.defrag reference).2)) :=
  h.serves.resolve_local h.inside hlocal

/-! ## What a node takes from a resolver -/

/-- The end of a chain of references is the same for all, unless fuel runs out on the way. -/
theorem atEnd_agree (closed : document.SelfContained) {α : Type} (result : Json → α) (fuel : Nat) :
    ∀ {fuel' : Nat} {seen : List String} {schema : Json} {path : Path} {a : α} {c c' : Compiler},
      document.StandsAt schema path → Hosts document config c → Hosts document config c' →
      (Compiling.atEnd (fun schema => pure (result schema)) fuel seen schema c).1 = .ok a →
      (Compiling.atEnd (fun schema => pure (result schema)) fuel' seen schema c').1 =
          .error .outOfFuel ∨
        (Compiling.atEnd (fun schema => pure (result schema)) fuel' seen schema c').1 = .ok a := by
  induction fuel with
  | zero => intro fuel' seen schema path a c c' _ _ _ h; cases h
  | succ fuel ih =>
      intro fuel' seen schema path a c c' hplace hc hc' h
      cases fuel' with
      | zero => exact .inl rfl
      | succ fuel' =>
          unfold Compiling.atEnd at h ⊢
          cases href : (schema.get? "$ref").bind Json.asStr? with
          | none =>
              rw [href] at h
              exact .inr h
          | some reference =>
              have hlocal := closed.isLocal hplace href
              rw [href] at h
              dsimp only at h ⊢
              rw [run_bind_of_ok (Compiling.run_resolve reference c), hc.resolve hlocal] at h
              rw [run_bind_of_ok (Compiling.run_resolve reference c'), hc'.resolve hlocal]
              cases hwalk : document.walk? (Path.ofUri reference).parts with
              | none =>
                  rw [hwalk] at h
                  exact .inr h
              | some target =>
                  rw [hwalk] at h
                  dsimp only at h ⊢
                  by_cases hseen : seen.contains reference = true
                  · rw [if_pos hseen] at h ⊢
                    exact .inr h
                  · rw [if_neg hseen] at h ⊢
                    have hfrom := hc.withResolver (Resolver.kept_resolve c.resolver reference)
                    have hfrom' := hc'.withResolver (Resolver.kept_resolve c'.resolver reference)
                    exact ih (Json.standsAt_ofUri hlocal hwalk) (hfrom.enter hlocal)
                      (hfrom'.enter hlocal) h

theorem access_agree (closed : document.SelfContained) {fuel : Nat} (fuel' : Nat) {schema : Json}
    {path : Path}
    {a : Compiling.Access} (hplace : document.StandsAt schema path) (hc : Hosts document config c)
    (hc' : Hosts document config c') (h : (Compiling.access fuel schema c).1 = .ok a) :
    (Compiling.access fuel' schema c').1 = .error .outOfFuel ∨
      (Compiling.access fuel' schema c').1 = .ok a :=
  atEnd_agree closed _ fuel hplace hc hc' h

/-- The schemas beside a location are those of its document. -/
theorem extensions (h : Hosts document config c) {path : Path} (hbase : path.base = "") :
    Compiling.extensions c path =
      if path.isRoot then []
      else (((document.walk? path.parent.parts).bind Json.asObj?).getD []).filter
        fun (_, schema) => Compiling.extendsSchema c path schema := by
  have hdocument : c.resolver.document? path.parent.base = some document := by
    unfold Resolver.document?
    rw [show path.parent.base = "" from hbase]
    exact h.serves.stored
  unfold Compiling.extensions Compiling.stored?
  rw [hdocument]
  rfl

theorem extensions_agree (hc : Hosts document config c) (hc' : Hosts document config c')
    {path : Path}
    (hbase : path.base = "") : Compiling.extensions c' path = Compiling.extensions c path := by
  have hextends : ∀ schema, Compiling.extendsSchema c' path schema =
      Compiling.extendsSchema c path schema := by
    intro schema
    unfold Compiling.extendsSchema Compiler.messages
    rw [hc.settings, hc'.settings]
  rw [hc.extensions hbase, hc'.extensions hbase]
  simp only [hextends]

/-- What extends a schema stands beside it. -/
theorem beside (closed : document.SelfContained) (h : Hosts document config c) {path : Path}
    (hbase : path.base = "") {name : String} {schema : Json}
    (hmem : (name, schema) ∈ Compiling.extensions c path) :
    document.StandsAt schema (path.parent.child name) := by
  rw [h.extensions hbase] at hmem
  split at hmem
  · cases hmem
  · obtain ⟨hmem, -⟩ := List.mem_filter.1 hmem
    cases hwalk : document.walk? path.parent.parts with
    | none =>
        rw [hwalk] at hmem
        cases hmem
    | some written =>
        rw [hwalk] at hmem
        cases written with
        | obj entries =>
            have hparent : document.StandsAt (.obj entries) path.parent := ⟨hbase, hwalk⟩
            exact hparent.entry closed.regular hmem
        | _ => cases hmem

/-- What a node takes from its compiler, parts apart, is a matter of the document. So two ways to
compile the parts go along wherever they do for each part. -/
theorem lockstep (closed : document.SelfContained) {ι κ : Type}
    {R : Compiler → Compiler → Prop} {last : Compiler} {inv inv' : Compiler → Prop}
    {nodes : ι → κ → Prop} {compile : CompilingValue ι} {fuel : Nat} {compile' : CompilingValue κ}
    {fuel' : Nat} (frame : Compiling.Frame R document.StandsAt)
    (parts : Compiling.KeepsParts R document.StandsAt compile)
    (hosts : ∀ {c}, inv c → Hosts document config c)
    (hosts' : ∀ {c}, inv' c → Hosts document config c)
    (honly : ∀ {c d}, Compiling.OnlyResolver c d → inv c → inv d)
    (honly' : ∀ {c d}, Compiling.OnlyResolver c d → inv' c → inv' d)
    (part : ∀ {c c' written path flag i d}, inv c → inv' c' → document.StandsAt written path →
      compile written path path flag c = (.ok i, d) → R d last →
      Compiling.Follows (fun c c' => inv c ∧ inv' c') (nodes i)
        (compile' written path path flag c') d) :
    Compiling.Lockstep R document.StandsAt last (fun c c' => inv c ∧ inv' c') nodes compile fuel
      compile' fuel' :=
  { frame with
    parts
    config := fun ⟨hc, hc'⟩ => (hosts' hc').settings.trans (hosts hc).settings.symm
    formats := fun ⟨hc, hc'⟩ => (hosts' hc').formats.trans (hosts hc).formats.symm
    extensions := fun ⟨hc, hc'⟩ hplace => extensions_agree (hosts hc) (hosts' hc') hplace.1
    beside := fun ⟨hc, _⟩ hplace hmem => (hosts hc).beside closed hplace.1 hmem
    reads := by
      rintro c c' schema path a d ⟨hc, hc'⟩ hplace haccess -
      have hd := honly (Compiling.access_onlyResolver fuel schema c) hc
      have hagree := access_agree closed fuel' hplace (hosts hc) (hosts' hc')
        (congrArg Prod.fst haccess)
      rw [haccess] at hd
      rcases hagree with hfuel | hsame
      · exact .inl hfuel
      · exact .inr ⟨a, _, Prod.ext hsame rfl,
          ⟨hd, honly' (Compiling.access_onlyResolver fuel' schema c') hc'⟩, rfl⟩
    part := fun ⟨hc, hc'⟩ => part hc hc' }

end Compiler.Hosts

end SchemaGraph

import SchemaGraph.Proofs.Compiler.Aliases
import SchemaGraph.Proofs.Compiler.Caches
import SchemaGraph.Proofs.Compiler.Poison

set_option autoImplicit false

/-! # Compilations after whatever was called before

Failures are remembered beyond the compilation that made them, and its nodes are not. Neither is
seen from outside: between calls a compiler can be trusted (`Trusted`), and then a pointer compiles
if the check of its schema passes and there is something to compile (`compile_trusted`), which is a
matter of the document. So no history makes a difference (`compile_regardless`).
-/

namespace SchemaGraph

open Compiling

namespace Compiler

variable {document : Json} {config : Config} {c d u : Compiler} {key : CompileKey} {id : NodeId}

/-! ## Compilers that can be trusted -/

/-- What is true of a compiler between the calls of its user, if it only compiles what stands in
its document. -/
structure Trusted (document : Json) (config : Config) (c : Compiler) : Prop where
  mirrors : Mirrors document config c
  settled : Settled c
  backed : Backed document config c.memory
  wary : Wary document config c.memory

theorem trusted_ofDocument (retrievers : List (String × Retriever)) (document : Json)
    (hbase : config.baseUri = "") :
    Trusted document config (ofDocument retrievers document config) where
  mirrors := mirrors_ofDocument retrievers document hbase
  settled := settled_withResolver _ config
  backed _ _ h := nomatch h
  wary _ h := nomatch h

namespace Trusted

theorem onlyResolver (h : Trusted document config c) (honly : OnlyResolver c d) :
    Trusted document config d := by
  have hmemory : d.memory = c.memory := by rw [honly.same]
  exact ⟨mirrors_of_onlyResolver h.mirrors honly, settled_of_onlyResolver honly h.settled,
    hmemory ▸ h.backed, hmemory ▸ h.wary⟩

/-- What has a node compiles. -/
theorem compilable (h : Trusted document config c) (hleads : Leads document c id key) :
    Compilable document config key := by
  -- locations with nodes sustain each other, in circles too
  refine ⟨fun key => ∃ id, Leads document c id key, ?_, id, hleads⟩
  rintro key ⟨id, hleads⟩
  obtain ⟨own, hreaches, hfind⟩ := hleads.of_settled h.settled
  obtain ⟨parts, hrests, hparts⟩ := h.backed own id hfind hreaches.own
  refine ⟨own, parts, hreaches, hrests, fun part hpart => ?_⟩
  obtain ⟨node, hnode⟩ := Option.isSome_iff_exists.1 (hparts part hpart)
  obtain ⟨state, hfind, hstate⟩ := CompileMemory.node?_eq_some.1 hnode
  exact ⟨node, h.mirrors.leads hfind hstate⟩

/-- A run that gives a node leaves a compiler that can be trusted. -/
theorem grown (h : Trusted document config c) (hsound : Sound c (.ok id, u))
    (hu : Mirrors document config u) (hcareful : Careful document config key c (.ok id, u)) :
    Trusted document config u where
  mirrors := hu
  settled := hsound.settled h.settled
  backed := hcareful.backed id rfl h.backed
  wary := ((hcareful.wary h.wary).resolve_left nofun).1

/-- So does taking back what failed: only poison is left, and references to what was there. -/
theorem undone (h : Trusted document config c) (hgrows : Grows c u)
    (hu : Mirrors document config u) (hnovel : Novel document c.length c.memory u.memory)
    (hwary : Wary document config u.memory) : Trusted document config (undone c u) where
  mirrors := hu.undone h.settled hgrows
  settled := undone_settled h.settled hgrows
  backed key id hfind hown := by
    rw [find?_undone hu.toCoherent] at hfind
    obtain ⟨hfind, hbelow⟩ := Option.filter_eq_some_iff.1 hfind
    -- the schema was not compiled just now, since its node is an old one
    have hnode : c.memory.node? key = some id :=
      (hnovel key id hown (CompileMemory.node?_of_find? hfind)).resolve_right
        (Nat.not_le_of_lt (of_decide_eq_true hbelow))
    obtain ⟨state, hbefore, hstate⟩ := CompileMemory.node?_eq_some.1 hnode
    have hsame := (hgrows.1.known hbefore).symm.trans hfind
    cases hsame
    obtain ⟨parts, hrests, hparts⟩ := h.backed key id hbefore hown
    refine ⟨parts, hrests, fun part hpart => ?_⟩
    obtain ⟨node, hnode⟩ := Option.isSome_iff_exists.1 (hparts part hpart)
    obtain ⟨state, hfind, hstate⟩ := CompileMemory.node?_eq_some.1 hnode
    rw [CompileMemory.node?_of_find? ((undone_extends h.settled hgrows).known hfind), hstate]
    rfl
  wary key hfind := by
    rw [find?_undone hu.toCoherent] at hfind
    exact hwary key (Option.eq_some_of_filter_eq_some hfind)

end Trusted

/-- A compilation that does not run out of fuel leaves a compiler that can be trusted, and gives a
node if the check passes and there is something to compile. -/
theorem compile_trusted (closed : document.SelfContained) (hbase : config.baseUri = "")
    (h : Trusted document config c) {fuel : Nat} {pointer : String}
    (hlocal : Uri.isLocal pointer = true) (hfuel : (c.compile fuel pointer).1 ≠ .error .outOfFuel) :
    Trusted document config (c.compile fuel pointer).2 ∧
      ((∃ id, (c.compile fuel pointer).1 = .ok id) ↔
        (checkIfAsked fuel pointer c).1 = .ok () ∧
          Compilable document config ⟨Path.ofUri pointer, config.allowPolymorphism⟩) := by
  have hchecked := checkIfAsked_onlyResolver fuel pointer c
  rw [run_compile] at hfuel ⊢
  generalize checkIfAsked fuel pointer c = run at hchecked hfuel ⊢
  obtain ⟨r, d⟩ := run
  have hd := h.onlyResolver hchecked
  cases r with
  | error failure => exact ⟨hd, nofun, nofun⟩
  | ok _ =>
      have hsound := compilePointer_sound fuel pointer d
      obtain ⟨hu, -, hleads⟩ := compilePointer_faithful closed hbase fuel hlocal d hd.mirrors
      have hcareful := compilePointer_careful closed hbase fuel hlocal hd.mirrors
      dsimp only at hfuel ⊢
      rw [run_undoOnFailure] at hfuel ⊢
      generalize compilePointer fuel pointer d = run at hsound hu hleads hcareful hfuel ⊢
      obtain ⟨r, u⟩ := run
      cases r with
      | ok id =>
          have htrusted := hd.grown hsound hu hcareful
          exact ⟨htrusted, fun _ => ⟨rfl, htrusted.compilable (hleads id rfl)⟩, fun _ => ⟨id, rfl⟩⟩
      | error failure =>
          -- it was not for lack of fuel, so there was nothing to compile
          obtain ⟨hwary, hcompiles⟩ := (hcareful.wary hd.wary).resolve_left hfuel
          refine ⟨hd.undone hsound.grows hu hcareful.novel hwary, fun ⟨_, hid⟩ => (by cases hid),
            fun ⟨_, hcompilable⟩ => ?_⟩
          obtain ⟨id, hid⟩ := hcompiles hcompilable
          cases hid

/-- A schema that compiles on its own is compilable. -/
theorem compilable_of_value (closed : document.SelfContained) (hbase : config.baseUri = "")
    (h : Trusted document config c) (hchain : c.chain = []) {fuel : Nat} {written : Json}
    {referencing : Path} (hplace : document.StandsAt written key.path)
    (hvalue : (value fuel written key.path referencing key.polymorphic c).1 = .ok id) :
    Compilable document config key := by
  have hsound := value_sound fuel written key.path referencing key.polymorphic c
  obtain ⟨hu, -, hleads⟩ := value_faithful closed hbase fuel written key.path referencing
    key.polymorphic c hplace h.mirrors
  have htrails : Trails document c.chain key := by
    rw [hchain]
    exact fun _ hlink => nomatch hlink
  have hcareful := value_careful closed hbase fuel written key.path referencing key.polymorphic c
    hplace h.mirrors htrails
  generalize value fuel written key.path referencing key.polymorphic c = run
    at hsound hu hleads hcareful hvalue
  obtain ⟨r, u⟩ := run
  cases hvalue
  exact (h.grown hsound hu hcareful).compilable (hleads id rfl)

/-! ## Resolvers after calls -/

/-- What reading a pointer comes to. -/
theorem run_pointer_eq (reference : String) (c : Compiler) :
    Compiling.pointer reference c =
      ((c.resolver.resolve reference).1.mapError fun _ => .errors (.single (c.error
          (Path.ofUri (Uri.join (c.resolver.resolve reference).2.scope reference))
          .unresolvableReference)),
        { c with resolver := (c.resolver.resolve reference).2 }) := by
  unfold Compiling.pointer
  rw [run_bind_of_ok (run_resolve reference c)]
  cases (c.resolver.resolve reference).1 <;> rfl

/-- Checks by resolvers that answer alike come to the same. -/
theorem check_alike {origin : Resolver} (h : Resolver.Alike origin c.resolver d.resolver)
    (hconfig : d.config = c.config) (fuel : Nat) (reference : String) :
    (Compiling.check fuel reference d).1 = (Compiling.check fuel reference c).1 := by
  obtain ⟨hanswer, hafter⟩ := h.resolve reference
  have hmessages : d.messages = c.messages := congrArg Config.messages hconfig
  have hread := run_pointer_eq reference c
  have hread' := run_pointer_eq reference d
  rw [← hanswer, ← hafter.scope, show d.error = c.error by unfold Compiler.error; rw [hmessages]]
    at hread'
  cases hfound : (c.resolver.resolve reference).1 with
  | error failure =>
      rw [hfound] at hread hread'
      unfold Compiling.check
      rw [run_bind, run_bind, hread, hread']
      rfl
  | ok found =>
      obtain ⟨url, written⟩ := found
      rw [hfound] at hread hread'
      have hsame := (Graph.convertAt_accord (Resolver.alike_accord origin)
        (Model.graph c.messages) fuel Model.entry (some written) (Path.ofUri url)
        (Options.ofEntity .specification).mode (.some (hafter.pushScope url))).1
      rw [fst_check hread, fst_check hread']
      dsimp only [Compiler.messages] at hsame hmessages ⊢
      rw [hmessages, hsame]

theorem checkIfAsked_alike {origin : Resolver} (h : Resolver.Alike origin c.resolver d.resolver)
    (hconfig : d.config = c.config) (fuel : Nat) (reference : String) :
    (checkIfAsked fuel reference d).1 = (checkIfAsked fuel reference c).1 := by
  unfold checkIfAsked
  rw [run_bind_of_ok (run_get c), run_bind_of_ok (run_get d), hconfig]
  split
  · exact check_alike h hconfig fuel reference
  · rfl

/-- Whatever was called, a resolver remembers only what it would find. -/
theorem calls_remember (retrievers : List (String × Retriever)) (document : Json)
    (config : Config) (calls : List Call) :
    let start := ofDocument retrievers document config
    Resolver.Remembers start.resolver (start.calls calls).1.resolver := by
  intro start
  have hremembers : Resolver.Remembers start.resolver start.resolver :=
    Resolver.IsFresh.remembers ⟨rfl, rfl⟩
  have hstocked : Resolver.Stocked start.resolver start.resolver :=
    ⟨fun h => h, fun _ _ => (nomatch ·)⟩
  have htwins : Twins (Resolver.Twins start.resolver start.RetrievesNoExtension) start start :=
    ⟨⟨_, _, _, rfl⟩, rfl, rfl, rfl, rfl, hremembers.alike, hstocked, hstocked,
      .inl ⟨rfl, fun _ => rfl⟩⟩
  exact (htwins.calls (twins_unseen start) calls).resolver.alike.first

/-! ## Calls -/

/-- None of some calls runs out of fuel. -/
def CallsEnd (c : Compiler) : List Call → Prop
  | [] => True
  | .compile fuel pointer :: rest =>
    (c.compile fuel pointer).1 ≠ .error .outOfFuel ∧ (c.compile fuel pointer).2.CallsEnd rest
  | .check fuel pointer :: rest =>
    (c.check fuel pointer).1 ≠ .error .outOfFuel ∧ (c.check fuel pointer).2.CallsEnd rest

/-- After calls that end, a compiler can still be trusted, and its scopes are as before. -/
theorem calls_trusted (closed : document.SelfContained) (hbase : config.baseUri = "")
    (calls : List Call) : ∀ {c : Compiler}, (∀ call ∈ calls, call.IsLocal) → c.CallsEnd calls →
      Trusted document config c →
      Trusted document config (c.calls calls).1 ∧
        Resolver.Kept c.resolver (c.calls calls).1.resolver := by
  induction calls with
  | nil => exact fun {c} _ _ h => ⟨h, .refl c.resolver⟩
  | cons first rest ih =>
      intro c hlocal hends h
      have hrest : ∀ call ∈ rest, call.IsLocal :=
        fun call hcall => hlocal call (List.mem_cons_of_mem _ hcall)
      have hfirst := hlocal first List.mem_cons_self
      cases first with
      | compile fuel pointer =>
          obtain ⟨hd, hkept⟩ := ih hrest hends.2 (compile_trusted closed hbase h hfirst hends.1).1
          obtain ⟨-, hfrom, -⟩ := compile_faithful closed hbase h.settled fuel hfirst h.mirrors
          exact ⟨hd, hfrom.trans hkept⟩
      | check fuel pointer =>
          have honly : OnlyResolver c (c.check fuel pointer).2 :=
            check_onlyResolver fuel pointer c
          obtain ⟨hd, hkept⟩ := ih hrest hends.2 (h.onlyResolver honly)
          exact ⟨hd, honly.kept.trans hkept⟩

/-- The fuel of a call. -/
def Call.fuel : Call → Nat
  | .compile fuel _ => fuel
  | .check fuel _ => fuel

/-- The pointer of a call. -/
def Call.pointer : Call → String
  | .compile _ pointer => pointer
  | .check _ pointer => pointer

/-- Calls with ample fuel end, and stay in their territory. -/
theorem calls_end {territory : Territory} (calls : List Call) : ∀ {c : Compiler},
    (∀ call ∈ calls, IsAmple territory call.fuel ∧ territory.meets call.pointer) →
    territory.Holds c.resolver →
    c.CallsEnd calls ∧ territory.Holds (c.calls calls).1.resolver := by
  induction calls with
  | nil => exact fun _ h => ⟨trivial, h⟩
  | cons first rest ih =>
      intro c hcalls h
      have hrest := fun call hcall => hcalls call (List.mem_cons_of_mem _ hcall)
      obtain ⟨hample, hpointer⟩ := hcalls first List.mem_cons_self
      cases first with
      | compile fuel pointer =>
          have hlasts := compile_lasts hample h hpointer
          obtain ⟨hends, hholds⟩ := ih hrest hlasts.holds
          exact ⟨⟨hlasts.fueled, hends⟩, hholds⟩
      | check fuel pointer =>
          have hlasts := check_lasts (within_of_holds h 0) hpointer hample.model
          obtain ⟨hends, hholds⟩ := ih hrest hlasts.holds.resolver
          exact ⟨⟨hlasts.fueled, hends⟩, hholds⟩

/-- What was called before makes no difference to what compiles. Within a document on its own, a
pointer compiles after one history of calls if it does after another one: in particular, if it does
at once, and if it does after one more compilation that failed and was taken back. What is poisoned
then does not compile on its own either. All this is said of calls that do not run out of fuel, and
with enough of it none does, as long as they are of finitely many pointers. -/
theorem compile_regardless {document : Json} {config : Config}
    (retrievers : List (String × Retriever)) (closed : document.SelfContained)
    (hbase : config.baseUri = "") :
    let start := ofDocument retrievers document config
    (∀ earlier earlier' : List Call, (∀ call ∈ earlier, call.IsLocal) →
      (∀ call ∈ earlier', call.IsLocal) → start.CallsEnd earlier → start.CallsEnd earlier' →
      let c := (start.calls earlier).1
      let c' := (start.calls earlier').1
      (∀ fuel pointer, Uri.isLocal pointer = true →
        (c.compile fuel pointer).1 ≠ .error .outOfFuel →
        (c'.compile fuel pointer).1 ≠ .error .outOfFuel →
        ((∃ id, (c.compile fuel pointer).1 = .ok id) ↔
          ∃ id, (c'.compile fuel pointer).1 = .ok id)) ∧
      ∀ key, c.memory.find? key = some .poisoned → ∀ fuel written referencing id,
        document.StandsAt written key.path →
        (value fuel written key.path referencing key.polymorphic start).1 ≠ .ok id) ∧
    ∀ pointers : List String, (∀ pointer ∈ pointers, Uri.isLocal pointer = true) → ∃ enough,
      ∀ earlier : List Call, (∀ call ∈ earlier, enough ≤ call.fuel ∧ call.pointer ∈ pointers) →
      start.CallsEnd earlier ∧ ∀ fuel pointer, enough ≤ fuel → pointer ∈ pointers →
        ((start.calls earlier).1.compile fuel pointer).1 ≠ .error .outOfFuel := by
  intro start
  have hstart : Trusted document config start := trusted_ofDocument retrievers document hbase
  refine ⟨fun earlier earlier' hlocal hlocal' hends hends' => ?_, fun pointers hlocal => ?_⟩
  · intro c c'
    obtain ⟨hc, hkept⟩ := calls_trusted closed hbase earlier hlocal hends hstart
    obtain ⟨hc', hkept'⟩ := calls_trusted closed hbase earlier' hlocal' hends' hstart
    have halike : Resolver.Alike start.resolver c.resolver c'.resolver :=
      ⟨hkept.base.trans hkept'.base.symm, hkept.entered.trans hkept'.entered.symm,
        calls_remember retrievers document config earlier,
        calls_remember retrievers document config earlier'⟩
    have hconfig : c'.config = c.config :=
      hc'.mirrors.settings.trans hc.mirrors.settings.symm
    -- both come to what the check and the document say
    refine ⟨fun fuel pointer hpointer hfuel hfuel' => ?_, fun key hpoisoned => ?_⟩
    · rw [(compile_trusted closed hbase hc hpointer hfuel).2,
        (compile_trusted closed hbase hc' hpointer hfuel').2,
        checkIfAsked_alike halike hconfig fuel pointer]
    · intro fuel written referencing id hplace hvalue
      exact hc.wary key hpoisoned (compilable_of_value closed hbase hstart rfl hplace hvalue)
  · let territory := Territory.inner document pointers closed.isInside
    have hpointers : ∀ pointer ∈ pointers, territory.meets pointer := fun pointer hpointer =>
      ⟨.inr (Uri.isFragment_of_isLocal (hlocal pointer hpointer)),
        Territory.mem_fragmentsOf (List.mem_cons_of_mem _ hpointer)⟩
    obtain ⟨enough, hample⟩ := exists_isAmple territory
    refine ⟨enough, fun earlier hearlier => ?_⟩
    obtain ⟨hends, hafter⟩ := calls_end earlier (fun call hcall =>
      ⟨hample _ (hearlier call hcall).1, hpointers _ (hearlier call hcall).2⟩)
      (holds_inner retrievers closed hbase pointers)
    refine ⟨hends, fun fuel pointer hfuel hpointer => ?_⟩
    exact (compile_lasts (hample fuel hfuel) hafter (hpointers pointer hpointer)).fueled

/-- A circle of references, a schema that leads into it, and one that refers to itself. -/
def circleDocument : Json :=
  .obj [("A", .obj [("$ref", .str "#/B")]), ("B", .obj [("$ref", .str "#/A")]),
    ("Into", .obj [("items", .obj [("$ref", .str "#/A")]), ("type", .str "array")]),
    ("List", .obj [("properties", .obj [("rest", .obj [("$ref", .str "#/List")])])])]

/-- The circle is poisoned and what leads into it fails, and nothing else changes. -/
theorem compile_regardless_circle :
    let start := ofDocument [] circleDocument uncheckedConfig
    let c := (start.calls [.compile 9 "#/A", .compile 9 "#/Into"]).1
    c.memory.find? ⟨Path.ofUri "#/B", true⟩ = some .poisoned ∧
      (c.compile 9 "#/List").1 = .ok 0 ∧ (∃ id, (start.compile 9 "#/List").1 = .ok id) ∧
      (∀ fuel referencing id,
        (value fuel (.obj [("$ref", .str "#/A")]) (Path.ofUri "#/B") referencing true start).1 ≠
          .ok id) ∧
      ∃ enough, ∀ fuel, enough ≤ fuel → (start.compile fuel "#/List").1 ≠ .error .outOfFuel := by
  intro start c
  have hpoisoned : c.memory.find? ⟨Path.ofUri "#/B", true⟩ = some .poisoned := by decide +kernel
  have hlist : (c.compile 9 "#/List").1 = .ok 0 := by decide +kernel
  have hlocal : ∀ call ∈ [Call.compile 9 "#/A", Call.compile 9 "#/Into"], call.IsLocal := by
    simp only [List.forall_mem_cons, List.not_mem_nil, false_imp_iff, implies_true, and_true]
    exact ⟨(by decide : Uri.isLocal "#/A" = true), (by decide : Uri.isLocal "#/Into" = true)⟩
  have hends : start.CallsEnd [.compile 9 "#/A", .compile 9 "#/Into"] :=
    ⟨by decide +kernel, by decide +kernel, trivial⟩
  have closed : circleDocument.SelfContained := ⟨by decide, by decide⟩
  have hbase : uncheckedConfig.baseUri = "" := rfl
  have hplace : circleDocument.StandsAt (.obj [("$ref", .str "#/A")]) (Path.ofUri "#/B") :=
    Json.standsAt_ofUri (by decide) (by cbv)
  obtain ⟨hsame, hfueled⟩ := compile_regardless [] closed hbase
  have hboth := hsame _ [] hlocal (fun _ h => nomatch h) hends trivial
  refine ⟨hpoisoned, hlist, ?_, ?_, ?_⟩
  · have hends : (start.compile 9 "#/List").1 ≠ .error .outOfFuel := by decide +kernel
    have hends' : (c.compile 9 "#/List").1 ≠ .error .outOfFuel := by
      rw [hlist]
      nofun
    exact (hboth.1 9 "#/List" (by decide) hends' hends).1 ⟨0, hlist⟩
  · intro fuel referencing id
    -- the calls are not to be run once more for this
    have hbad := hboth.2 ⟨Path.ofUri "#/B", true⟩ (by with_reducible exact hpoisoned)
    exact hbad fuel _ referencing id hplace
  · obtain ⟨enough, hends⟩ := hfueled ["#/List"] (by decide)
    refine ⟨enough, fun fuel hfuel => ?_⟩
    exact (hends [] fun _ h => nomatch h).2 fuel "#/List" hfuel (List.mem_singleton_self _)

end Compiler

end SchemaGraph

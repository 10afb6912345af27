import SchemaGraph.Proofs.Compiler.Calls
import SchemaGraph.Proofs.Conversion.Accord

set_option autoImplicit false

/-! # Compilers that remember differently

Two compilers with the same settings but for what their resolvers remember and keep are twins, if
their resolvers answer alike. Whatever is compiled or checked, they give the same and stay twins
(`Unseen.compile`), provided that they see the same schemas beside a location: this is the one
place where a compiler looks into the store of its resolver.
-/

namespace SchemaGraph

/-- The settings with other caches. -/
def Config.withCaches (config : Config) (joinCacheSize remoteCacheSize : Nat)
    (cacheRemote : Bool) : Config :=
  { config with joinCacheSize, remoteCacheSize, cacheRemote }

/-- Two compilers that differ in the settings of caches and in their resolvers, which are
related. -/
structure Compiler.Twins (T : Resolver → Resolver → Prop) (c c' : Compiler) : Prop where
  config : ∃ joinCacheSize remoteCacheSize cacheRemote,
    c'.config = c.config.withCaches joinCacheSize remoteCacheSize cacheRemote
  formats : c'.formats = c.formats
  draft : c'.draft = c.draft
  memory : c'.memory = c.memory
  chain : c'.chain = c.chain
  resolver : T c.resolver c'.resolver

/-- Resolvers that answer alike, and under which twins see the same schemas beside a location. -/
structure Compiling.Unseen (T : Resolver → Resolver → Prop) : Prop extends
    Resolver.Accord T where
  extensions : ∀ {c c' : Compiler}, c.Twins T c' → ∀ path,
    Compiling.extensions c path = Compiling.extensions c' path

namespace Compiler.Twins

variable {T : Resolver → Resolver → Prop} {c c' : Compiler}

theorem messages (h : c.Twins T c') : c'.messages = c.messages := by
  obtain ⟨_, _, _, hconfig⟩ := h.config
  unfold Compiler.messages
  rw [hconfig]
  rfl

theorem error (h : c.Twins T c') : c'.error = c.error := by
  funext path key
  unfold Compiler.error
  rw [h.messages]

theorem strictFormats (h : c.Twins T c') : c'.config.strictFormats = c.config.strictFormats := by
  obtain ⟨_, _, _, hconfig⟩ := h.config
  rw [hconfig]
  rfl

theorem checkSchemas (h : c.Twins T c') : c'.config.checkSchemas = c.config.checkSchemas := by
  obtain ⟨_, _, _, hconfig⟩ := h.config
  rw [hconfig]
  rfl

theorem allowPolymorphism (h : c.Twins T c') :
    c'.config.allowPolymorphism = c.config.allowPolymorphism := by
  obtain ⟨_, _, _, hconfig⟩ := h.config
  rw [hconfig]
  rfl

theorem length (h : c.Twins T c') : c'.length = c.length := by
  unfold Compiler.length
  rw [h.draft]

theorem withResolver (h : c.Twins T c') {r r' : Resolver} (hresolver : T r r') :
    Twins T { c with resolver := r } { c' with resolver := r' } :=
  ⟨h.config, h.formats, h.draft, h.memory, h.chain, hresolver⟩

theorem withChain (h : c.Twins T c') (chain : List Path) :
    Twins T { c with chain } { c' with chain } :=
  ⟨h.config, h.formats, h.draft, h.memory, rfl, h.resolver⟩

theorem withMemory (h : c.Twins T c') (change : CompileMemory → CompileMemory) :
    Twins T { c with memory := change c.memory } { c' with memory := change c'.memory } :=
  ⟨h.config, h.formats, h.draft, congrArg change h.memory, h.chain, h.resolver⟩

theorem withDraft (h : c.Twins T c') (draft : GraphDraft) (change : CompileMemory → CompileMemory) :
    Twins T { c with draft, memory := change c.memory }
      { c' with draft, memory := change c'.memory } :=
  ⟨h.config, h.formats, rfl, congrArg change h.memory, h.chain, h.resolver⟩

end Compiler.Twins

namespace Compiling

variable {α β γ ι : Type} {T : Resolver → Resolver → Prop}

theorem respects_outcome {part : Compiling α} (h : Respects (Compiler.Twins T) part) :
    Respects (Compiler.Twins T) (outcome part) := by
  intro c c' hs
  obtain ⟨hresult, hstates⟩ := h c c' hs
  exact ⟨congrArg Except.ok hresult, hstates⟩

theorem respects_attempt {part : Compiling α} (h : Respects (Compiler.Twins T) part) :
    Respects (Compiler.Twins T) (attempt part) := by
  refine .bind (respects_outcome h) fun result => ?_
  split
  · exact .pure _
  · exact .pure _
  · exact .throw _

theorem respects_failWith (path : Path) (key : MessageKey) :
    Respects (Compiler.Twins T) (failWith path key : Compiling α) :=
  .get_bind (fun hs => by rw [hs.error]) fun _ => .throw _

theorem respects_remember (change : CompileMemory → CompileMemory) :
    Respects (Compiler.Twins T) (remember change) :=
  .modify fun hs => hs.withMemory change

theorem respects_known (key : CompileKey) : Respects (Compiler.Twins T) (known key) :=
  .get_bind (fun hs => by rw [hs.memory]) fun _ => .pure _

theorem respects_withChain (chain : List Path) {part : Compiling α}
    (h : Respects (Compiler.Twins T) part) :
    Respects (Compiler.Twins T) (withChain chain part) := by
  intro c c' hs
  obtain ⟨hresult, hstates⟩ := h _ _ (hs.withChain chain)
  refine ⟨hresult, ?_⟩
  have hafter := hstates.withChain c.chain
  rw [run_withChain, run_withChain, hs.chain]
  exact hafter

/-- However parts compile, twins compile them to the same. -/
def RespectsParts (T : Resolver → Resolver → Prop) (compile : CompilingValue ι) : Prop :=
  ∀ written path referencing flag,
    Respects (Compiler.Twins T) (compile written path referencing flag)

namespace Unseen

theorem respects_resolve (unseen : Unseen T) (reference : String) :
    Respects (Compiler.Twins T) (resolve reference) := by
  intro c c' hs
  obtain ⟨hanswer, hafter⟩ := unseen.resolve hs.resolver reference
  exact ⟨congrArg Except.ok hanswer, hs.withResolver hafter⟩

theorem respects_inScope (unseen : Unseen T) (url : String) {part : Compiling α}
    (h : Respects (Compiler.Twins T) part) : Respects (Compiler.Twins T) (inScope url part) := by
  intro c c' hs
  obtain ⟨hresult, hstates⟩ := h _ _ (hs.withResolver (unseen.pushScope hs.resolver url))
  exact ⟨hresult, hstates.withResolver (unseen.leaveScope hstates.resolver)⟩

/-! ## Assembly -/

section Assembly

variable {compile : CompilingValue ι}

theorem applyFormat (keywords : Keywords) (kind : SchemaKind) (common : Common) (shape : Shape ι) :
    Respects (Compiler.Twins T) (Compiling.applyFormat keywords kind common shape) := by
  refine .get_bind (fun hs => ?_) fun compiler => ?_
  · rw [hs.formats, hs.messages, hs.strictFormats]
  · dsimp only
    split
    · exact .pure _
    · split <;> exact .pure _

theorem primitive (keywords : Keywords) (kind : SchemaKind) (common : Common)
    (shape : Reading (Shape ι)) :
    Respects (Compiler.Twins T) (Compiling.primitive keywords kind common shape) :=
  .bind (applyFormat keywords kind common shape.value) fun _ => .pure _

theorem ahead {add : ι → γ} {part : Compiling ι} {rest : Compiling (List γ × List LocatedError)}
    (hpart : Respects (Compiler.Twins T) part) (hrest : Respects (Compiler.Twins T) rest) :
    Respects (Compiler.Twins T) (Compiling.ahead add part rest) := by
  refine .bind (respects_attempt hpart) fun here => .bind hrest fun more => ?_
  dsimp only
  split <;> exact .pure _

theorem named (parts : RespectsParts T compile) (path : Path) :
    ∀ schemas, Respects (Compiler.Twins T) (Compiling.named compile path schemas)
  | [] => .pure _
  | (name, schema) :: rest => by
      rw [named_cons]
      exact ahead (parts _ _ _ _) (named parts path rest)

theorem variants (parts : RespectsParts T compile) (path : Path) :
    ∀ index schemas, Respects (Compiler.Twins T) (Compiling.variants compile path index schemas)
  | _, [] => .pure _
  | index, variant :: rest => by
      cases href : (variant.get? "$ref").bind Json.asStr? with
      | none =>
          rw [variants_skip href]
          exact variants parts path (index + 1) rest
      | some reference =>
          rw [variants_cons href]
          exact ahead (parts _ _ _ _) (variants parts path (index + 1) rest)

theorem each (parts : RespectsParts T compile) (path : Path) (flag : Nat → Bool) :
    ∀ index schemas, Respects (Compiler.Twins T) (Compiling.each compile path flag index schemas)
  | _, [] => .pure _
  | index, schema :: rest => by
      rw [each_cons]
      exact ahead (parts _ _ _ _) (each parts path flag (index + 1) rest)

theorem atEnd (unseen : Unseen T) {part : Json → Compiling α}
    (hpart : ∀ schema, Respects (Compiler.Twins T) (part schema)) (fuel : Nat) :
    ∀ seen schema, Respects (Compiler.Twins T) (Compiling.atEnd part fuel seen schema) := by
  induction fuel with
  | zero => exact fun _ _ => .throw _
  | succ fuel ih =>
      intro seen schema
      rw [Compiling.atEnd]
      split
      · exact hpart schema
      · refine .bind (unseen.respects_resolve _) fun resolved => ?_
        split
        · exact hpart schema
        · split
          · exact hpart schema
          · exact unseen.respects_inScope _ (ih _ _)

theorem declared (unseen : Unseen T) (parts : RespectsParts T compile) (fuel : Nat) (path : Path) :
    ∀ schemas, Respects (Compiler.Twins T) (Compiling.declared compile fuel path schemas)
  | [] => .pure _
  | (name, schema) :: rest => by
      have haccess : Respects (Compiler.Twins T) (Compiling.access fuel schema) :=
        unseen.atEnd (fun _ => .pure _) fuel [] schema
      refine .bind haccess fun access => ?_
      refine .bind (respects_attempt (parts _ _ _ _)) fun here => ?_
      refine .bind (declared unseen parts fuel path rest) fun more => ?_
      dsimp only
      split <;> exact .pure _

theorem array (parts : RespectsParts T compile) (keywords : Keywords) (common : Common) :
    Respects (Compiler.Twins T) (Compiling.array compile keywords common) := by
  rw [Compiling.array]
  split
  · exact .get_bind (fun hs => by rw [hs.error]) fun _ => .pure _
  · refine .bind (respects_attempt (parts _ _ _ _)) fun here => ?_
    split <;> exact .pure _

theorem additional (parts : RespectsParts T compile) (keywords : Keywords) :
    Respects (Compiler.Twins T) (Compiling.additional compile keywords) := by
  rw [Compiling.additional]
  split
  · exact .pure _
  · exact .pure _
  · exact .pure _
  · refine .bind (respects_attempt (parts _ _ _ _)) fun here => ?_
    split <;> exact .pure _
  · exact .pure _

theorem object (unseen : Unseen T) (parts : RespectsParts T compile) (fuel : Nat)
    (keywords : Keywords) (common : Common) :
    Respects (Compiler.Twins T) (Compiling.object compile fuel keywords common) := by
  refine .bind (unseen.declared parts fuel _ _) fun declared => ?_
  refine .bind (additional parts keywords) fun policy => ?_
  refine .bind (named parts _ _) fun patterns => ?_
  dsimp only
  split
  · exact .pure _
  · refine .get_bind (fun hs => ?_) fun compiler => ?_
    · unfold draftError
      rw [hs.messages, hs.error]
    · split <;> exact .pure _

theorem polymorphic (parts : RespectsParts T compile) (keywords : Keywords) (common : Common)
    (discriminator extensions : List (String × Json)) :
    Respects (Compiler.Twins T)
      (Compiling.polymorphic compile keywords common discriminator extensions) := by
  rw [Compiling.polymorphic]
  split
  · exact .pure _
  · refine .bind (named parts _ _) fun found => ?_
    dsimp only
    split <;> exact .pure _

theorem discriminatedUnion (parts : RespectsParts T compile) (keywords : Keywords)
    (common : Common) (discriminator : List (String × Json)) (keyword : String)
    (alternatives : List Json) :
    Respects (Compiler.Twins T) (Compiling.discriminatedUnion compile keywords common discriminator
      keyword alternatives) := by
  rw [Compiling.discriminatedUnion]
  split
  · exact .pure _
  · refine .bind (variants parts _ _ _) fun found => ?_
    dsimp only
    split <;> exact .pure _

theorem combination (parts : RespectsParts T compile) (keywords : Keywords) (common : Common)
    (keyword : String) (flag : Nat → Bool) (schemas : List Json) (combine : List ι → Shape ι) :
    Respects (Compiler.Twins T)
      (Compiling.combination compile keywords common keyword flag schemas combine) := by
  refine .bind (each parts _ _ _ _) fun found => ?_
  dsimp only
  split <;> exact .pure _

theorem negation (parts : RespectsParts T compile) (keywords : Keywords) (common : Common) :
    Respects (Compiler.Twins T) (Compiling.negation compile keywords common) := by
  rw [Compiling.negation]
  split
  · exact .pure _
  · refine .bind (respects_attempt (parts _ _ _ _)) fun here => ?_
    split <;> exact .pure _
  · exact combination parts _ _ _ _ _ _
  · exact .pure _

theorem union (parts : RespectsParts T compile) (keywords : Keywords) (common : Common)
    (discriminator : Option (List (String × Json))) :
    Respects (Compiler.Twins T) (Compiling.union compile keywords common discriminator) := by
  unfold Compiling.union
  split
  · exact discriminatedUnion parts _ _ _ _ _
  · unfold Compiling.governing
    split
    · exact combination parts _ _ _ _ _ _
    · exact combination parts _ _ _ _ _ _
    · exact combination parts _ _ _ _ _ _
    · exact negation parts _ _

theorem structured (unseen : Unseen T) (parts : RespectsParts T compile) (fuel : Nat)
    (keywords : Keywords) (common : Common) (discriminator : Option (List (String × Json)))
    (extensions : List (String × Json)) :
    Respects (Compiler.Twins T)
      (Compiling.structured compile fuel keywords common discriminator extensions) := by
  unfold Compiling.structured
  split
  · exact polymorphic parts _ _ _ _
  · exact unseen.object parts fuel _ _

theorem assemble (unseen : Unseen T) (parts : RespectsParts T compile) (fuel : Nat)
    (keywords : Keywords) (common : Common) (kind : Option SchemaKind) (flag : Bool) :
    Respects (Compiler.Twins T)
      (Compiling.assemble compile fuel keywords common kind flag) := by
  unfold Compiling.assemble
  split
  · exact primitive _ _ _ _
  · exact primitive _ _ _ _
  · exact primitive _ _ _ _
  · exact primitive _ _ _ _
  · exact array parts _ _
  · refine .get_bind (fun hs => ?_) fun compiler => ?_
    · unfold participants
      rw [unseen.extensions hs]
    · exact .bind (unseen.structured parts fuel _ _ _ _) fun _ => .pure _
  · exact .bind (union parts _ _ _) fun _ => .pure _

/-- Twins put together the same node if they compile its parts to the same. -/
theorem node (unseen : Unseen T) (parts : RespectsParts T compile) (fuel : Nat)
    (entries : List (String × Json)) (path : Path) (flag : Bool) :
    Respects (Compiler.Twins T) (Compiling.node compile fuel entries path flag) := by
  refine .get_bind (fun hs => by rw [hs.messages]) fun compiler => ?_
  dsimp only
  split
  · exact .throw _
  · refine .bind (unseen.assemble parts fuel _ _ _ _) fun assembly => ?_
    split
    · exact .throw _
    · exact .pure _
    · exact .throw _

end Assembly

/-! ## Schemas -/

section Schemas

variable {compile : CompilingValue}

theorem reuse (known : Option Compiled) (referencing : Path) {otherwise : Compiling NodeId}
    (h : Respects (Compiler.Twins T) otherwise) :
    Respects (Compiler.Twins T) (Compiling.reuse known referencing otherwise) := by
  unfold Compiling.reuse
  split
  · exact .pure _
  · exact .pure _
  · exact respects_failWith _ _
  · exact h

theorem follow (unseen : Unseen T) (parts : RespectsParts T compile) (url : String) (value : Json)
    (chain : List Path) (referencing : Path) (key : CompileKey) :
    Respects (Compiler.Twins T) (Compiling.follow compile url value chain referencing key) := by
  refine .bind (respects_outcome (unseen.respects_inScope url (respects_withChain _ (parts _ _ _ _))))
    fun result => ?_
  split
  · exact .pure _
  · exact .get_bind (fun hs => by rw [hs.error]) fun _ => .throw _
  · exact .bind (respects_remember _) fun _ => respects_failWith _ _
  · exact .throw _

theorem target (unseen : Unseen T) (parts : RespectsParts T compile) (reference : String)
    (referencing : Path) (flag : Bool) :
    Respects (Compiler.Twins T) (Compiling.target compile reference referencing flag) := by
  refine .bind (unseen.respects_resolve reference) fun resolved => ?_
  split
  · exact respects_failWith _ _
  · refine .get_bind (fun hs => by rw [hs.chain]) fun compiler => ?_
    dsimp only
    split
    · exact .throw _
    · refine .bind (respects_known _) fun known => reuse known _ ?_
      exact unseen.follow parts _ _ _ _ _

theorem referenceOnly (unseen : Unseen T) (parts : RespectsParts T compile) (reference : Json)
    (key : CompileKey) :
    Respects (Compiler.Twins T) (Compiling.referenceOnly compile reference key) := by
  have hreferenced : Respects (Compiler.Twins T) (Compiling.referenced compile reference key) := by
    unfold Compiling.referenced
    split
    · exact unseen.target parts _ _ _
    · exact .get_bind (fun hs => by rw [hs.messages]) fun _ => .throw _
  refine .bind (respects_outcome hreferenced) fun result => ?_
  split
  · exact .bind (respects_remember _) fun _ => .pure _
  · exact .bind (respects_remember _) fun _ => .throw _

theorem schema (unseen : Unseen T) (parts : RespectsParts T compile) (fuel : Nat)
    (entries : List (String × Json)) (key : CompileKey) :
    Respects (Compiler.Twins T) (Compiling.schema compile fuel entries key) := by
  refine .get_bind (fun hs => by rw [hs.draft]) fun compiler => ?_
  dsimp only
  refine .bind (.modify fun {c c'} hs => ?_) fun _ => ?_
  · rw [hs.draft]
    exact hs.withDraft _ fun memory => memory.reserve key _
  · refine .bind (respects_outcome (respects_withChain [] (unseen.node parts fuel _ _ _)))
      fun result => ?_
    split
    · exact .bind (respects_remember _) fun _ => .throw _
    · refine .get_bind (fun hs => by rw [hs.draft]) fun compiler => ?_
      split
      · exact .bind (respects_remember _) fun _ => .throw _
      · exact .bind (.modify fun hs => hs.withDraft _ fun memory => memory.define key _)
          fun _ => .pure _

theorem value (unseen : Unseen T) (fuel : Nat) : RespectsParts T (Compiling.value fuel) := by
  induction fuel with
  | zero => exact fun _ _ _ _ => .throw _
  | succ fuel ih =>
      intro written path referencing flag
      refine .bind (respects_known _) fun known => reuse known _ ?_
      split
      · split
        · exact unseen.referenceOnly ih _ _
        · exact unseen.schema ih fuel _ _
      · exact respects_failWith _ _

end Schemas

/-! ## Calls -/

theorem pointer (unseen : Unseen T) (reference : String) :
    Respects (Compiler.Twins T) (Compiling.pointer reference) := by
  refine .bind (unseen.respects_resolve reference) fun resolved => ?_
  split
  · exact .pure _
  · exact .get_bind (fun hs => by rw [unseen.scope hs.resolver]) fun _ => respects_failWith _ _

theorem check (unseen : Unseen T) (fuel : Nat) (reference : String) :
    Respects (Compiler.Twins T) (Compiling.check fuel reference) := by
  refine .bind (unseen.pointer reference) fun found => ?_
  refine .get_bind (fun hs => by rw [hs.messages]) fun compiler => ?_
  refine unseen.respects_inScope _ fun c c' hs => ?_
  obtain ⟨houtcome, hresolver⟩ := Graph.convertAt_accord unseen.toAccord
    (Model.graph compiler.messages) fuel Model.entry (some found.2) (Path.ofUri found.1)
    (Options.ofEntity .specification).mode (.some hs.resolver)
  rw [run_bind_of_ok (run_get c), run_bind_of_ok (run_get c')]
  dsimp only
  generalize (Model.graph compiler.messages).convertAt fuel Model.entry (some found.2)
    (Path.ofUri found.1) (Options.ofEntity .specification).mode (some c.resolver) = run
    at houtcome hresolver ⊢
  generalize (Model.graph compiler.messages).convertAt fuel Model.entry (some found.2)
    (Path.ofUri found.1) (Options.ofEntity .specification).mode (some c'.resolver) = run'
    at houtcome hresolver ⊢
  obtain ⟨outcome, resolver⟩ := run
  obtain ⟨_, resolver'⟩ := run'
  cases houtcome
  rw [run_bind_of_ok (run_modify _ c), run_bind_of_ok (run_modify _ c')]
  have hafter : Compiler.Twins T { c with resolver := resolver.getD c.resolver }
      { c' with resolver := resolver'.getD c'.resolver } := by
    cases hresolver with
    | none => exact hs
    | some h => exact hs.withResolver h
  cases outcome <;> exact ⟨rfl, hafter⟩

theorem checkIfAsked (unseen : Unseen T) (fuel : Nat) (reference : String) :
    Respects (Compiler.Twins T) (Compiling.checkIfAsked fuel reference) := by
  refine .get_bind (fun hs => by rw [hs.checkSchemas]) fun compiler => ?_
  split
  · exact unseen.check fuel reference
  · exact .pure _

theorem compilePointer (unseen : Unseen T) (fuel : Nat) (reference : String) :
    Respects (Compiler.Twins T) (Compiling.compilePointer fuel reference) := by
  refine .bind (unseen.pointer reference) fun found => ?_
  refine .get_bind (fun hs => by rw [hs.allowPolymorphism]) fun compiler => ?_
  refine .bind (respects_outcome (unseen.respects_inScope _
    (respects_withChain _ (unseen.value fuel _ _ _ _)))) fun result => ?_
  split
  · exact .pure _
  · exact .bind (respects_remember _) fun _ => respects_failWith _ _
  · exact .throw _

theorem undoOnFailure {part : Compiling NodeId} (h : Respects (Compiler.Twins T) part) :
    Respects (Compiler.Twins T) (Compiling.undoOnFailure part) := by
  refine .get_bind (fun hs => by rw [hs.length]) fun compiler => ?_
  refine .bind (respects_outcome h) fun result => ?_
  split
  · exact .pure _
  · refine .bind (.modify fun {c c'} hs => ?_) fun _ => .throw _
    rw [hs.draft]
    exact hs.withDraft _ fun memory => memory.forgetFrom _

end Unseen

end Compiling

namespace Compiler

open Compiling

variable {T : Resolver → Resolver → Prop} {c c' : Compiler}

/-- Twins compile a pointer to the same, and stay twins. -/
theorem Twins.compile (unseen : Unseen T) (h : c.Twins T c') (fuel : Nat) (pointer : String) :
    (c.compile fuel pointer).1 = (c'.compile fuel pointer).1 ∧
      Twins T (c.compile fuel pointer).2 (c'.compile fuel pointer).2 :=
  Respects.bind (unseen.checkIfAsked fuel pointer)
    (fun _ => Unseen.undoOnFailure (unseen.compilePointer fuel pointer)) c c' h

theorem Twins.calls (unseen : Unseen T) (calls : List Call) (h : c.Twins T c') :
    Twins T (c.calls calls).1 (c'.calls calls).1 := by
  induction calls generalizing c c' with
  | nil => exact h
  | cons first rest ih =>
      refine ih ?_
      cases first with
      | compile fuel pointer => exact (h.compile unseen fuel pointer).2
      | check fuel pointer => exact (unseen.check fuel pointer c c' h).2

theorem Twins.graph (h : c.Twins T c') (entry : NodeId) : c.graph entry = c'.graph entry := by
  unfold Compiler.graph
  rw [h.draft]

/-! ## Settings -/

/-- No document that has to be retrieved holds a schema that extends the one at a location beside
it. -/
def RetrievesNoExtension (c : Compiler) : Prop :=
  ∀ (path : Path) (document : Json) (entries : List (String × Json)),
    c.resolver.document? path.base = none →
    c.resolver.documentAt (Uri.defrag path.base).1 = .ok document →
    document.walk? path.parent.parts = some (.obj entries) →
    ∀ entry ∈ entries, extendsSchema c path entry.2 = false

/-- Whether a schema extends another one is a matter of the two alone. -/
theorem extendsSchema_congr (c c' : Compiler) (path : Path) (schema : Json) :
    extendsSchema c path schema = extendsSchema c' path schema := by
  unfold extendsSchema
  cases schema with
  | obj entries =>
      dsimp only
      unfold SchemaKind.ofSchema
      cases Entries.find? "type" entries with
      | some declared =>
          dsimp only
          generalize SchemaKind.ofName? _ = kind
          cases kind <;> rfl
      | none => rcases SchemaKind.implied entries with _ | ⟨kind, _ | ⟨other, rest⟩⟩ <;> rfl
  | _ => rfl

/-- What stands beside a location, in a document if there is one. -/
def besideIn (document : Option Json) (path : Path) : List (String × Json) :=
  ((document.bind fun found => found.walk? path.parent.parts).bind Json.asObj?).getD []

/-- What extends a schema is what stands beside it in the stored document and extends it, for any
compiler. -/
theorem extensions_eq (start c : Compiler) (path : Path) :
    extensions c path = if path.isRoot then []
      else (besideIn (c.resolver.document? path.base) path).filter fun entry =>
        extendsSchema start path entry.2 := by
  unfold extensions
  split
  · rfl
  · exact List.filter_congr fun entry _ => extendsSchema_congr c start path entry.2

theorem RetrievesNoExtension.filter_eq_nil {start : Compiler} (h : start.RetrievesNoExtension)
    {path : Path} (hmissing : start.resolver.document? path.base = none) {document : Option Json}
    (hdocument : ∀ found, document = some found →
      start.resolver.documentAt (Uri.defrag path.base).1 = .ok found) :
    ((besideIn document path).filter fun entry => extendsSchema start path entry.2) = [] := by
  refine List.filter_eq_nil_iff.2 fun entry hentry => ?_
  obtain ⟨entries, hvalue, hmem⟩ : ∃ entries, ((document.bind fun found =>
      found.walk? path.parent.parts).bind Json.asObj?) = some entries ∧ entry ∈ entries := by
    unfold besideIn at hentry
    generalize (document.bind fun found => found.walk? path.parent.parts).bind Json.asObj? = value
      at hentry ⊢
    cases value with
    | none => cases hentry
    | some entries => exact ⟨entries, rfl, hentry⟩
  obtain ⟨value, hwalk, hobject⟩ := Option.bind_eq_some_iff.1 hvalue
  obtain ⟨found, rfl, hwalk⟩ := Option.bind_eq_some_iff.1 hwalk
  cases value with
  | obj _ =>
      cases hobject
      rw [h path found entries hmissing (hdocument found rfl) hwalk entry hmem]
      exact Bool.false_ne_true
  | _ => cases hobject

/-- Resolvers that store the same, or where it does not matter, are not seen by a compiler. -/
theorem twins_unseen (start : Compiler) :
    Unseen (Resolver.Twins start.resolver start.RetrievesNoExtension) where
  toAccord := Resolver.Twins.accord _ _
  extensions {c c'} hs path := by
    rw [extensions_eq start c, extensions_eq start c']
    rcases hs.resolver.document? path.base with hsame | ⟨hharmless, hmissing, hdocuments⟩
    · rw [hsame]
    · rw [hharmless.filter_eq_nil hmissing fun found hfound => hdocuments found (.inl hfound),
        hharmless.filter_eq_nil hmissing fun found hfound => hdocuments found (.inr hfound)]

/-- How much is remembered does not change what a schema means, and neither does whether retrieved
documents are kept, as long as none of them holds a schema that extends one beside it: after any
calls, a pointer compiles to the same node of the same graph, or fails with the same errors. -/
theorem compile_withCaches (retrievers : List (String × Retriever)) (document : Json)
    (config : Config) (joinCacheSize joinCacheSize' remoteCacheSize remoteCacheSize' : Nat)
    (cacheRemote cacheRemote' : Bool)
    (h : cacheRemote = cacheRemote' ∨
      (ofDocument retrievers document config).RetrievesNoExtension)
    (history : List Call) (fuel : Nat) (pointer : String) :
    let c := ((ofDocument retrievers document
      (config.withCaches joinCacheSize remoteCacheSize cacheRemote)).calls history).1
    let c' := ((ofDocument retrievers document
      (config.withCaches joinCacheSize' remoteCacheSize' cacheRemote')).calls history).1
    (c.compile fuel pointer).1 = (c'.compile fuel pointer).1 ∧
      ∀ entry, (c.compile fuel pointer).2.graph entry = (c'.compile fuel pointer).2.graph entry := by
  intro c c'
  have hstart : Twins
      (Resolver.Twins (ofDocument retrievers document config).resolver
        (ofDocument retrievers document config).RetrievesNoExtension)
      (ofDocument retrievers document
        (config.withCaches joinCacheSize remoteCacheSize cacheRemote))
      (ofDocument retrievers document
        (config.withCaches joinCacheSize' remoteCacheSize' cacheRemote')) := by
    refine ⟨⟨_, _, _, rfl⟩, rfl, rfl, rfl, rfl, ⟨rfl, rfl, ?_, ?_⟩, ?_, ?_, ?_⟩
    · exact Resolver.remembers_withCaches _ joinCacheSize remoteCacheSize cacheRemote
    · exact Resolver.remembers_withCaches _ joinCacheSize' remoteCacheSize' cacheRemote'
    · exact Resolver.stocked_withCaches _ joinCacheSize remoteCacheSize cacheRemote
    · exact Resolver.stocked_withCaches _ joinCacheSize' remoteCacheSize' cacheRemote'
    · exact h.imp_left fun hkeeps => ⟨hkeeps, fun _ => rfl⟩
  have hunseen := twins_unseen (ofDocument retrievers document config)
  obtain ⟨hresult, htwins⟩ := (hstart.calls hunseen history).compile hunseen fuel pointer
  exact ⟨hresult, htwins.graph⟩

/-- The settings without a check of schemas. -/
def uncheckedConfig : Config := { Config.default with checkSchemas := false }

/-- One document, a schema of texts. -/
def textShop (uri : String) : Except ResolveError Json :=
  if uri = "http://a.test/doc" then .ok (.obj [("type", .str "string")])
  else .error (.fetch uri "no such document")

theorem compile_withCaches_texts :
    let start := ofDocument [("http", textShop)] (.obj []) uncheckedConfig
    let c := ((ofDocument [("http", textShop)] (.obj [])
      (uncheckedConfig.withCaches 1 1 true)).calls [.compile 9 "http://a.test/doc"]).1
    let c' := ((ofDocument [("http", textShop)] (.obj [])
      (uncheckedConfig.withCaches 2 3 false)).calls [.compile 9 "http://a.test/doc"]).1
    start.RetrievesNoExtension ∧
      (c.compile 9 "http://a.test/doc#").1 = (c'.compile 9 "http://a.test/doc#").1 ∧
      ∀ entry, (c.compile 9 "http://a.test/doc#").2.graph entry =
        (c'.compile 9 "http://a.test/doc#").2.graph entry := by
  intro start c c'
  have hextends : start.RetrievesNoExtension := by
    intro path document entries hmissing hdocument hwalk entry hentry
    have hschema : document = .obj [("type", .str "string")] := by
      rw [Resolver.documentAt_of_missing hmissing] at hdocument
      split at hdocument
      · cases hdocument
      · rename_i retriever hretriever
        have hfind : Entries.find? ((Uri.scheme? (Uri.defrag path.base).1).getD "")
            [("http", textShop)] = some retriever := hretriever
        have htext : retriever = textShop := by
          unfold Entries.find? at hfind
          split at hfind
          · exact (Option.some.inj hfind).symm
          · cases hfind
        subst htext
        unfold textShop at hdocument
        split at hdocument
        · exact (Except.ok.inj hdocument).symm
        · cases hdocument
    subst hschema
    generalize path.parent.parts = parts at hwalk
    cases parts with
    | nil =>
        cases hwalk
        cases List.mem_singleton.1 hentry
        rfl
    | cons segment rest =>
        obtain ⟨part, hstep, hwalk⟩ := Option.bind_eq_some_iff.1 hwalk
        have htext : part = .str "string" := by
          have hfind : Entries.find? segment [("type", .str "string")] = some part := hstep
          unfold Entries.find? at hfind
          split at hfind
          · exact (Option.some.inj hfind).symm
          · cases hfind
        subst htext
        cases rest <;> cases hwalk
  exact ⟨hextends, compile_withCaches [("http", textShop)] (.obj []) uncheckedConfig 1 2 1 3 true
    false (.inr hextends) [.compile 9 "http://a.test/doc"] 9 "http://a.test/doc#"⟩

/-- Pets, with a schema that extends another one. -/
def petShop (uri : String) : Except ResolveError Json :=
  if uri = "http://a.test/doc" then
    .ok (.obj [("Cat", .obj [("allOf", .arr [.obj [("$ref", .str "#/Pet")]])]),
      ("Pet", .obj [("discriminator", .obj [("propertyName", .str "kind")]),
        ("properties", .obj [("kind", .obj [("type", .str "string")])]),
        ("required", .arr [.str "kind"]), ("type", .str "object")])])
  else .error (.fetch uri "no such document")

/-- Where a schema is extended in a document that is retrieved, keeping the document makes a
difference: a pet of no kind there is passes if it is not kept, and is refused if it is. -/
theorem extended_where_kept :
    let pet := "http://a.test/doc#/Pet"
    let keeping := (ofDocument [("http", petShop)] (.obj [])
      (uncheckedConfig.withCaches 1024 1024 true)).compile 40 pet
    let forgetting := (ofDocument [("http", petShop)] (.obj [])
      (uncheckedConfig.withCaches 1024 1024 false)).compile 40 pet
    let mode := (Options.ofEntity .request).mode
    let bird := Json.obj [("kind", .str "Bird")]
    ∃ graph graph' errors result,
      keeping.1 = .ok 0 ∧ keeping.2.graph 0 = .ok graph ∧ forgetting.1 = .ok 0 ∧
        forgetting.2.graph 0 = .ok graph' ∧ graph.convert 10 0 bird mode = .failed errors ∧
        graph'.convert 10 0 bird mode = .converted result := by
  intro pet keeping forgetting mode bird
  have hkeeping : keeping.1 = .ok 0 := by decide +kernel
  have hforgetting : forgetting.1 = .ok 0 := by decide +kernel
  have hfails : (keeping.2.graph 0).toOption.any
      (fun graph => (graph.convert 10 0 bird mode).isFailed) = true := by decide +kernel
  have hconverts : (forgetting.2.graph 0).toOption.any
      (fun graph => (graph.convert 10 0 bird mode).isConverted) = true := by decide +kernel
  obtain ⟨graph, hgraph, hfails⟩ := exists_of_any hfails
  obtain ⟨graph', hgraph', hconverts⟩ := exists_of_any hconverts
  obtain ⟨errors, hfailed⟩ := Outcome.exists_of_isFailed hfails
  obtain ⟨result, hconverted⟩ := Outcome.exists_of_isConverted hconverts
  exact ⟨graph, graph', errors, result, hkeeping, hgraph, hforgetting, hgraph', hfailed, hconverted⟩

end Compiler

end SchemaGraph

import SchemaGraph.Proofs.Compiler.WideFrame

set_option autoImplicit false

/-! # Scopes are balanced

Whatever a compiler or a conversion does between entering a scope and leaving it, the scopes are
the same when it is left: there is one to leave, and leaving it gives back those from before
(`Resolver.Returns`). A compilation keeps the scopes if the compilations of its parts do
(`Compiling.schema_balanced`), so it does however deep schemas nest (`Compiling.value_balanced`).
-/

namespace SchemaGraph

namespace Resolver

variable {r s : Resolver}

/-- The scopes, the innermost one first and the base last. -/
def scopes (r : Resolver) : List String := r.entered ++ [r.base]

/-- There is a scope to leave, and leaving it gives back the scopes of another resolver. -/
structure Returns (outer inner : Resolver) : Prop where
  left : inner.popScope = .ok inner.leaveScope
  scopes : inner.leaveScope.scopes = outer.scopes

theorem Kept.scopes (h : Kept r s) : s.scopes = r.scopes := by
  unfold Resolver.scopes
  rw [h.entered, h.base]

/-- What keeps the scopes inside of a scope leaves it well. -/
theorem Kept.returns {url : String} (h : Kept (r.pushScope url) s) : r.Returns s where
  left := by
    unfold popScope leaveScope
    rw [h.entered]
    rfl
  scopes := h.inScope.scopes

end Resolver

/-! ## Compilations -/

namespace Compiling

variable {α : Type} {c d : Compiler}

/-- The scopes are kept, and what is served. -/
def Balanced (c d : Compiler) : Prop := Resolver.Kept c.resolver d.resolver

theorem balanced_of_resolver (h : d.resolver = c.resolver) : Balanced c d := by
  unfold Balanced
  rw [h]
  exact .refl _

theorem balanced_frame : Frame Balanced Compiler.anyPlace where
  refl c := .refl c.resolver
  trans hab hbc := Resolver.Kept.trans hab hbc
  onlyResolver h := h.kept
  entry _ _ := trivial
  item _ _ := trivial
  extension _ _ := .inl trivial

theorem balanced_withChain (chain : List Path) {part : Compiling α} (h : Keeps Balanced part) :
    Keeps Balanced (withChain chain part) :=
  fun c => h { c with chain }

theorem balanced_inScope (url : String) {part : Compiling α} (h : Keeps Balanced part) :
    Keeps Balanced (inScope url part) :=
  fun c => (h { c with resolver := c.resolver.pushScope url }).inScope

theorem balanced_wideFrame : WideFrame Balanced where
  toFrame := balanced_frame
  remember _ _ := balanced_of_resolver rfl
  within url chain _ hpart := balanced_inScope url (balanced_withChain chain hpart)

theorem schema_balanced {fuel : Nat} {entries : List (String × Json)} (key : CompileKey)
    (hparts : KeepsParts Balanced Compiler.anyPlace (value fuel)) :
    Keeps Balanced (schema (value fuel) fuel entries key) := by
  have hnode : Keeps Balanced (node (value fuel) fuel entries key.path key.polymorphic) :=
    balanced_frame.node hparts fuel key.polymorphic trivial
  refine balanced_frame.bind balanced_frame.get fun compiler => ?_
  refine balanced_frame.bind (fun _ => balanced_of_resolver rfl) fun _ => ?_
  refine balanced_frame.bind (m := outcome _) (balanced_withChain [] hnode) fun result => ?_
  split
  · exact balanced_frame.bind (balanced_wideFrame.remember _) fun _ => balanced_frame.throw _
  · refine balanced_frame.bind balanced_frame.get fun compiler => ?_
    split
    · exact balanced_frame.bind (balanced_wideFrame.remember _) fun _ => balanced_frame.throw _
    · exact balanced_frame.bind (fun _ => balanced_of_resolver rfl) fun _ => balanced_frame.pure _

theorem value_balanced (fuel : Nat) (written : Json) (path referencing : Path) (flag : Bool) :
    Keeps Balanced (value fuel written path referencing flag) :=
  balanced_wideFrame.value (fun key _ => schema_balanced key) fuel written path referencing flag

end Compiling

namespace Compiler

open Compiling

theorem compile_balanced (c : Compiler) (fuel : Nat) (pointer : String) :
    Balanced c (c.compile fuel pointer).2 := by
  have hchecked : Keeps Balanced (checkIfAsked fuel pointer) :=
    fun c => (checkIfAsked_onlyResolver fuel pointer c).kept
  have hundone : Keeps Balanced (undoOnFailure (compilePointer fuel pointer)) := by
    refine balanced_frame.bind balanced_frame.get fun compiler => ?_
    refine balanced_frame.bind (m := outcome _)
      (balanced_wideFrame.compilePointer (value_balanced fuel) pointer) fun result => ?_
    split
    · exact balanced_frame.pure _
    · exact balanced_frame.bind (fun _ => balanced_of_resolver rfl) fun _ => balanced_frame.throw _
  exact balanced_frame.bind hchecked (fun _ => hundone) c

theorem check_balanced (c : Compiler) (fuel : Nat) (pointer : String) :
    Balanced c (c.check fuel pointer).2 :=
  (check_onlyResolver fuel pointer c).kept

end Compiler

/-! ## Conversions -/

theorem Graph.convertAt_kept (graph : Graph) (fuel : Nat) (entry : NodeId) (input : Option Json)
    (path : Path) (mode : Mode) (r : Resolver) :
    ∃ s, (graph.convertAt fuel entry input path mode (some r)).2 = some s ∧ r.Kept s :=
  Conversion.keepsResolver_frame.convertWithin graph mode fuel entry input path
    (.start (some r)) r rfl

/-! ## Leaving scopes -/

/-- However a part ends inside a scope, that scope is there to be left, and to leave it gives
back the scopes from before. -/
def Compiling.LeavesScope {α : Type} (part : Compiling α) : Prop :=
  ∀ (c : Compiler) (url : String),
    c.resolver.Returns (part { c with resolver := c.resolver.pushScope url }).2.resolver

theorem Compiling.leavesScope_of_balanced {α : Type} {part : Compiling α}
    (h : Keeps Balanced part) : LeavesScope part :=
  fun c url => (h { c with resolver := c.resolver.pushScope url }).returns

/-- However a part of a conversion with a resolver ends inside a scope, that scope is there to
be left, and to leave it gives back the scopes from before. -/
def Conversion.LeavesScope (part : Conversion Value) : Prop :=
  ∀ (state : ConversionState) (r : Resolver) (url : String), ∃ inner,
    (part { state with resolver := some (r.pushScope url) }).2.resolver = some inner ∧
      r.Returns inner

theorem Conversion.leavesScope_of_keeps {part : Conversion Value} (h : Keeps KeepsResolver part) :
    LeavesScope part := by
  intro state r url
  obtain ⟨inner, hinner, hkept⟩ := h { state with resolver := some (r.pushScope url) } _ rfl
  exact ⟨inner, hinner, hkept.returns⟩

/-- Scopes are balanced, whatever is asked and whatever of it fails. A compilation, a check and
a conversion with a resolver leave the scopes as they found them. And wherever one of them is
about to leave a scope, which it entered around a compilation, on the way to the access of a
property, around the conversion by a model of schemas or around the target of a reference, that
scope is there, so the base is never left. -/
theorem Compiler.scopes_balanced :
    (∀ (c : Compiler) (fuel : Nat) (pointer : String),
      (c.compile fuel pointer).2.resolver.scopes = c.resolver.scopes ∧
        (c.check fuel pointer).2.resolver.scopes = c.resolver.scopes) ∧
    (∀ (graph : Graph) (fuel : Nat) (entry : NodeId) (input : Option Json) (path : Path)
      (mode : Mode) (r : Resolver), ∃ s,
      (graph.convertAt fuel entry input path mode (some r)).2 = some s ∧ s.scopes = r.scopes) ∧
    (∀ (fuel : Nat) (chain : List Path) (written : Json) (path referencing : Path) (flag : Bool),
      Compiling.LeavesScope
        (Compiling.withChain chain (Compiling.value fuel written path referencing flag))) ∧
    (∀ (access : Json → Compiling.Access) (fuel : Nat) (seen : List String) (schema : Json),
      Compiling.LeavesScope
        (Compiling.atEnd (fun schema => pure (access schema)) fuel seen schema)) ∧
    (∀ (graph : Graph) (fuel : Nat) (entry : NodeId) (input : Option Json) (path : Path)
      (mode : Mode) (r : Resolver) (url : String), ∃ inner,
      (graph.convertAt fuel entry input path mode (some (r.pushScope url))).2 = some inner ∧
        r.Returns inner) ∧
    ∀ (graph : Graph) (mode : Mode) (fuel : Nat) (self target : NodeId) (messages : Messages)
      (value : Json) (location path : Path),
      Conversion.LeavesScope (Conversion.arrive (graph.convertWithin mode fuel) self messages
        target value location path) := by
  refine ⟨fun c fuel pointer => ⟨?_, ?_⟩, ?_, ?_, ?_, ?_, ?_⟩
  · exact (c.compile_balanced fuel pointer).scopes
  · exact (c.check_balanced fuel pointer).scopes
  · intro graph fuel entry input path mode r
    obtain ⟨s, hs, hkept⟩ := graph.convertAt_kept fuel entry input path mode r
    exact ⟨s, hs, hkept.scopes⟩
  · intro fuel chain written path referencing flag
    exact Compiling.leavesScope_of_balanced (Compiling.balanced_withChain chain
      (Compiling.value_balanced fuel written path referencing flag))
  · intro access fuel seen schema
    exact Compiling.leavesScope_of_balanced fun c =>
      (Compiling.atEnd_onlyResolver (fun _ => Compiling.onlyResolver_composes.pure _)
        fuel seen schema c).kept
  · intro graph fuel entry input path mode r url
    obtain ⟨inner, hinner, hkept⟩ :=
      graph.convertAt_kept fuel entry input path mode (r.pushScope url)
    exact ⟨inner, hinner, hkept.returns⟩
  · intro graph mode fuel self target messages value location path
    exact Conversion.leavesScope_of_keeps (Conversion.keepsResolver_frame.arrive
      (Conversion.keepsResolver_frame.convertWithin graph mode fuel) self messages target value
      location path)

end SchemaGraph

import SchemaGraph.Proofs.Conversion.Judgements
import SchemaGraph.Proofs.Resolver

set_option autoImplicit false

/-! # What a conversion leaves alone

A relation between states that composes and holds where the registry changes, where a reference
resolves, and around scopes and chains, holds across every conversion, whatever it gives.
-/

namespace SchemaGraph

namespace Conversion

variable {ι : Type} {R : ConversionState → ConversionState → Prop}

/-- A relation that holds across everything a conversion does to its state. -/
structure Frame (R : ConversionState → ConversionState → Prop) : Prop extends Composes R where
  update : ∀ change, Keeps R (Conversion.update change)
  resolve : ∀ reference, Keeps R (resolve? reference)
  scope : ∀ url {part : Conversion Value}, Keeps R part → Keeps R (inScope url part)
  ownChain : ∀ {part : Conversion Value}, Keeps R part → Keeps R (withOwnChain part)
  follows : ∀ path {part : Conversion Value}, Keeps R part → Keeps R (following path part)

/-- However a node converts, related states stand before and after it. -/
def KeepsNodes (R : ConversionState → ConversionState → Prop) (convert : Converting ι) : Prop :=
  ∀ node input path, Keeps R (convert node input path)

namespace Frame

variable {convert : Converting ι}

/-! ## Nodes that judge values -/

theorem typed (frame : Frame R) (nodes : KeepsNodes R convert) (mode : Mode) (self : ι)
    (common : Common) (shape : Shape ι) (input : Option Json) (path : Path) :
    Keeps R (Conversion.step convert mode self (.typed common shape) input path) :=
  keeps_typed frame.toComposes (fun _ _ => nodes _ _ _) self

/-! ## References -/

theorem enter (frame : Frame R) (nodes : KeepsNodes R convert) (target : ι) (input : Option Json)
    (path : Path) : Keeps R (Conversion.enter convert target input path) := by
  refine frame.bind (fun s => frame.refl s) fun found => ?_
  split
  · exact frame.pure _
  · exact frame.bind (frame.update _) fun _ => frame.pure _
  · refine frame.bind (frame.update _) fun _ => ?_
    refine frame.bind (m := outcome _) (frame.ownChain (nodes _ _ _)) fun result => ?_
    split
    · exact frame.bind (frame.update _) fun _ => frame.pure _
    · exact frame.bind (frame.update _) fun _ => frame.throw _
    · exact frame.bind (frame.update _) fun _ => frame.throw _

theorem arrive (frame : Frame R) (nodes : KeepsNodes R convert) (self : ι) (messages : Messages)
    (target : ι) (value : Json) (location path : Path) :
    Keeps R (Conversion.arrive convert self messages target value location path) := by
  refine frame.bind frame.get fun state => ?_
  split
  · exact frame.throw _
  · refine frame.bind (fun s => frame.refl s) fun found => ?_
    split
    · exact frame.throw _
    · exact frame.pure _
    · exact frame.bind (frame.update _) fun _ => frame.pure _
    · refine frame.bind (frame.update _) fun _ => ?_
      refine frame.bind (m := outcome _) (frame.follows _ ?_) fun result => ?_
      · split
        · exact nodes _ _ _
        · exact frame.ownChain (nodes _ _ _)
      · split
        · exact frame.bind (frame.update _) fun _ => frame.pure _
        · exact frame.bind (frame.update _) fun _ => frame.throw _
        · exact frame.bind (frame.update _) fun _ => frame.throw _
        · exact frame.bind (frame.update _) fun _ => frame.throw _

theorem reference (frame : Frame R) (nodes : KeepsNodes R convert) (self : ι) (messages : Messages)
    (target : ι) (input : Option Json) (path : Path) :
    Keeps R (Conversion.reference convert self messages target input path) := by
  unfold Conversion.reference
  split
  · unfold follow
    dsimp only
    split
    · refine frame.bind (frame.resolve _) fun resolved => ?_
      split
      · exact frame.throw _
      · exact frame.scope _ (frame.arrive nodes self messages target _ _ path)
    · exact frame.throw _
  · exact frame.enter nodes target input path

/-- What holds across the conversions of the nodes a node refers to holds across its own. -/
theorem step (frame : Frame R) (nodes : KeepsNodes R convert) (mode : Mode) (self : ι)
    (node : Node ι) (input : Option Json) (path : Path) :
    Keeps R (Conversion.step convert mode self node input path) := by
  cases node with
  | forward target => exact nodes _ _ _
  | reference messages target => exact frame.reference nodes self messages target input path
  | typed common shape => exact frame.typed nodes mode self common shape input path

/-- What holds across every step of a conversion holds across the whole of it. -/
theorem convertWithin (frame : Frame R) (graph : Graph) (mode : Mode) (fuel : Nat) :
    KeepsNodes R (graph.convertWithin mode fuel) := by
  induction fuel with
  | zero => intro node input path; exact frame.throw _
  | succ fuel ih =>
      intro id input path
      unfold Graph.convertWithin
      split
      · exact frame.throw _
      · exact frame.step ih mode id _ input path

end Frame

/-! ## The resolver -/

/-- The resolver of a conversion keeps its scopes and what it serves. -/
def KeepsResolver (s t : ConversionState) : Prop :=
  ∀ r, s.resolver = some r → ∃ r', t.resolver = some r' ∧ Resolver.Kept r r'

theorem keepsResolver_frame : Frame KeepsResolver where
  refl _ r hr := ⟨r, hr, .refl r⟩
  trans hrs hst r hr := by
    obtain ⟨r', hr', hkept⟩ := hrs r hr
    obtain ⟨r'', hr'', hkept'⟩ := hst r' hr'
    exact ⟨r'', hr'', hkept.trans hkept'⟩
  update _ _ r hr := ⟨r, hr, .refl r⟩
  resolve reference s r hr := by
    refine ⟨(r.resolve reference).2, ?_, Resolver.kept_resolve r reference⟩
    unfold resolve?
    rw [hr]
  scope url part hpart s r hr := by
    obtain ⟨r', hr', hkept⟩ := hpart
      { s with resolver := s.resolver.map fun resolver => resolver.pushScope url }
      (r.pushScope url) (by rw [hr]; rfl)
    refine ⟨r'.leaveScope, ?_, hkept.inScope⟩
    show Option.map Resolver.leaveScope _ = _
    rw [hr']
    rfl
  ownChain hpart _ r hr := hpart _ r hr
  follows _ _ hpart _ r hr := hpart _ r hr

end Conversion

end SchemaGraph

import SchemaGraph.Proofs.Compiler.Calls

set_option autoImplicit false

/-! # What compilations of references leave alone

A relation between compilers that holds across every change to what is known, and inside scopes
with chains of their own if it holds there, holds across whatever references lead to. So it holds
across every compilation if it does across a schema of its own (`WideFrame.value`), which makes a
node; that step is left to each relation.
-/

namespace SchemaGraph

namespace Compiling

open Compiler (anyPlace)

variable {R : Compiler → Compiler → Prop} {compile : CompilingValue}

/-- A relation that holds across everything a reference does on the way to its target. -/
structure WideFrame (R : Compiler → Compiler → Prop) : Prop extends Frame R anyPlace where
  remember : ∀ change, Keeps R (Compiling.remember change)
  within : ∀ url chain {part : Compiling NodeId}, Keeps R part →
    Keeps R (inScope url (withChain chain part))

namespace WideFrame

theorem reuse (frame : WideFrame R) (known : Option Compiled) (referencing : Path)
    {otherwise : Compiling NodeId} (h : Keeps R otherwise) :
    Keeps R (Compiling.reuse known referencing otherwise) := by
  cases known with
  | none => exact h
  | some state =>
      cases state with
      | poisoned => exact keeps_failWith frame.toComposes _ _
      | _ => exact frame.pure _

theorem follow (frame : WideFrame R) (parts : KeepsParts R anyPlace compile) (url : String)
    (written : Json) (chain : List Path) (referencing : Path) (key : CompileKey) :
    Keeps R (Compiling.follow compile url written chain referencing key) := by
  have htarget := frame.within url (key.path :: chain)
    (parts written key.path key.polymorphic trivial)
  refine frame.bind (m := outcome _) htarget fun result => ?_
  split
  · exact frame.pure _
  · exact frame.bind frame.get fun _ => frame.throw _
  · exact frame.bind (frame.remember _) fun _ => keeps_failWith frame.toComposes _ _
  · exact frame.throw _

theorem target (frame : WideFrame R) (parts : KeepsParts R anyPlace compile)
    (reference : String) (referencing : Path) (flag : Bool) :
    Keeps R (Compiling.target compile reference referencing flag) := by
  have hresolve : Keeps R (resolve reference) :=
    fun c => frame.onlyResolver (onlyResolver_resolve reference c)
  refine frame.bind hresolve fun resolved => ?_
  split
  · exact keeps_failWith frame.toComposes _ _
  · refine frame.bind frame.get fun compiler => ?_
    dsimp only
    split
    · exact frame.throw _
    · exact frame.bind (fun c => frame.refl c) fun known =>
        frame.reuse known referencing (frame.follow parts _ _ _ referencing _)

theorem referenceOnly (frame : WideFrame R) (parts : KeepsParts R anyPlace compile)
    (reference : Json) (key : CompileKey) :
    Keeps R (Compiling.referenceOnly compile reference key) := by
  have hreferenced : Keeps R (referenced compile reference key) := by
    cases reference with
    | str text => exact frame.target parts text key.path key.polymorphic
    | _ => exact frame.bind frame.get fun _ => frame.throw _
  refine frame.bind (m := outcome _) hreferenced fun result => ?_
  split
  · exact frame.bind (frame.remember _) fun _ => frame.pure _
  · exact frame.bind (frame.remember _) fun _ => frame.throw _

/-- What holds across the compilation of a schema of its own, once it does across its parts,
holds across every compilation. -/
theorem value (frame : WideFrame R)
    (hschema : ∀ {fuel entries} key, Entries.find? "$ref" entries = none →
      KeepsParts R anyPlace (Compiling.value fuel) →
      Keeps R (schema (Compiling.value fuel) fuel entries key))
    (fuel : Nat) : ∀ written path referencing flag,
      Keeps R (Compiling.value fuel written path referencing flag) := by
  induction fuel with
  | zero => exact fun _ _ _ _ => frame.throw _
  | succ fuel ih =>
      intro written path referencing flag
      have hparts : KeepsParts R anyPlace (Compiling.value fuel) :=
        fun written path flag _ => ih written path path flag
      refine frame.bind (fun c => frame.refl c) fun known => ?_
      refine frame.reuse known referencing ?_
      cases written with
      | obj entries =>
          dsimp only
          cases href : Entries.find? "$ref" entries with
          | some reference => exact frame.referenceOnly hparts reference _
          | none => exact hschema _ href hparts
      | _ => exact keeps_failWith frame.toComposes _ _

theorem compilePointer (frame : WideFrame R) {fuel : Nat}
    (hvalue : ∀ written path referencing flag,
      Keeps R (Compiling.value fuel written path referencing flag))
    (reference : String) : Keeps R (Compiling.compilePointer fuel reference) := by
  have hpointer : Keeps R (pointer reference) :=
    fun c => frame.onlyResolver (Compiler.pointer_onlyResolver reference c)
  refine frame.bind hpointer fun found => ?_
  obtain ⟨url, written⟩ := found
  refine frame.bind frame.get fun compiler => ?_
  have htarget := frame.within url [Path.ofUri url] (hvalue written (Path.ofUri url)
    (Path.ofUri url) compiler.config.allowPolymorphism)
  refine frame.bind (m := outcome _) htarget fun result => ?_
  split
  · exact frame.pure _
  · exact frame.bind (frame.remember _) fun _ => keeps_failWith frame.toComposes _ _
  · exact frame.throw _

end WideFrame

end Compiling

end SchemaGraph

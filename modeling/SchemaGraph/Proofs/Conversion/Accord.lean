import SchemaGraph.Conversion.Converted
import SchemaGraph.Proofs.Conversion.Parallel
import SchemaGraph.Proofs.Resolver.Caches

set_option autoImplicit false

/-! # Conversions by resolvers that answer alike

A conversion sees of its resolver what it is answered. By resolvers that answer alike and stay
related, it ends in the same way, and leaves related resolvers behind (`convertAt_accord`).
-/

namespace SchemaGraph

namespace Conversion

variable {T : Resolver → Resolver → Prop}

/-- Conversions in the same state but for their resolvers, which are related. -/
def accorded (T : Resolver → Resolver → Prop) : Comparison :=
  .sharing (fun s s' => s.registry = s'.registry ∧ s.visited = s'.visited ∧
    Option.Rel T s.resolver s'.resolver) (fun _ => False) Comparison.lost_none

theorem accorded_shares (accord : Resolver.Accord T) :
    (accorded T).Shares (Option.Rel T) where
  states := Iff.rfl
  errors := Eq.refl
  circles := trivial
  resolve reference s s' hs := by
    obtain ⟨registry, visited, resolver⟩ := s
    obtain ⟨_, _, resolver'⟩ := s'
    obtain ⟨rfl, rfl, hresolver⟩ := hs
    cases hresolver with
    | none => exact .value rfl ⟨rfl, rfl, .none⟩
    | some h =>
        obtain ⟨hanswer, hafter⟩ := accord.resolve h reference
        exact .value (congrArg Except.toOption hanswer) ⟨rfl, rfl, .some hafter⟩
  pushScope h url := by
    cases h with
    | none => exact .none
    | some h => exact .some (accord.pushScope h url)
  leaveScope h := by
    cases h with
    | none => exact .none
    | some h => exact .some (accord.leaveScope h)

end Conversion

namespace Graph

open Conversion

variable {T : Resolver → Resolver → Prop}

theorem convertWithin_accord (accord : Resolver.Accord T) (graph : Graph) (mode : Mode)
    (fuel : Nat) : (accorded T).ParallelNodes Eq (graph.convertWithin mode fuel)
      (graph.convertWithin mode fuel) := by
  induction fuel with
  | zero => exact fun _ _ _ _ _ => .fails .outOfFuel
  | succ fuel ih =>
      rintro id _ rfl input path
      unfold convertWithin
      cases graph.get? id with
      | none => exact .fails .noNode
      | some node =>
          exact (accorded_shares accord).step ih mode rfl (Node.alike_refl node) input path

/-- By resolvers that answer alike, a conversion has the same outcome. -/
theorem convertAt_accord (accord : Resolver.Accord T) (graph : Graph) (fuel : Nat) (entry : NodeId)
    (input : Option Json) (path : Path) (mode : Mode) {r r' : Option Resolver}
    (h : Option.Rel T r r') :
    (graph.convertAt fuel entry input path mode r).1 =
        (graph.convertAt fuel entry input path mode r').1 ∧
      Option.Rel T (graph.convertAt fuel entry input path mode r).2
        (graph.convertAt fuel entry input path mode r').2 := by
  have hrun := convertWithin_accord accord graph mode fuel entry entry rfl input path (.start r)
    (.start r') ⟨rfl, rfl, h⟩
  unfold convertAt
  generalize graph.convertWithin mode fuel entry input path (.start r) = run at hrun ⊢
  generalize graph.convertWithin mode fuel entry input path (.start r') = run' at hrun ⊢
  cases hrun with
  | lost h => exact h.elim
  | value h hstates =>
      subst h
      obtain ⟨hregistry, -, hresolver⟩ := hstates
      dsimp only
      rw [hregistry]
      exact ⟨rfl, hresolver⟩
  | @fails failure _ _ _ h hstates =>
      rw [← h.eq id]
      cases failure <;> exact ⟨rfl, hstates.2.2⟩

end Graph

end SchemaGraph

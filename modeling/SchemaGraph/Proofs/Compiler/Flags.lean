import SchemaGraph.Proofs.Compiler.Known

set_option autoImplicit false

/-! # How the parts of a schema are asked for

A schema compiles with the schemas that extend it or without them. The parts of a schema are asked
for with them, whatever it was asked for itself (`node_asking`); only the first schema of a
combination of all is asked for without them. So where a node stands among the parts of another
one tells how it was asked for (`node_flags`).
-/

namespace SchemaGraph

/-- The parts of a node are flagged, but for the first one of a combination of all. -/
def Node.FlagsParts (flag : NodeId → Bool) : Node → Prop
  | .typed _ (.allOf parts) => ∀ i part, parts[i]? = some part → flag part = (i != 0)
  | node => ∀ part ∈ node.children, flag part = true

/-- Only the flags of the parts count. -/
theorem Node.FlagsParts.congr {flag other : NodeId → Bool} {node : Node}
    (h : node.FlagsParts flag) (hsame : ∀ part ∈ node.children, other part = flag part) :
    node.FlagsParts other := by
  have hall (hparts : ∀ part ∈ node.children, flag part = true) :
      ∀ part ∈ node.children, other part = true := by
    intro part hpart
    rw [hsame part hpart, hparts part hpart]
  cases node with
  | typed common shape =>
      cases shape with
      | allOf parts =>
          intro i part hpart
          rw [hsame part (List.mem_of_getElem? hpart)]
          exact h i part hpart
      | _ => exact hall h
  | _ => exact hall h

namespace Compiling

variable {ι : Type} {compile : CompilingValue ι} {c d : Compiler}

/-! ## Asking for everything -/

/-- Compile every part with what extends it. -/
def asking (compile : CompilingValue ι) : CompilingValue ι :=
  fun written path referencing _ => compile written path referencing true

theorem named_asking (path : Path) (schemas : List (String × Json)) :
    named (asking compile) path schemas = named compile path schemas := by
  induction schemas with
  | nil => rfl
  | cons entry rest ih =>
      obtain ⟨name, schema⟩ := entry
      rw [named_cons, named_cons, ih]
      rfl

theorem declared_asking (fuel : Nat) (path : Path) (schemas : List (String × Json)) :
    declared (asking compile) fuel path schemas = declared compile fuel path schemas := by
  induction schemas with
  | nil => rfl
  | cons entry rest ih =>
      unfold declared
      rw [ih]
      rfl

theorem variants_asking (path : Path) (schemas : List Json) :
    ∀ index, variants (asking compile) path index schemas = variants compile path index schemas := by
  induction schemas with
  | nil => exact fun _ => rfl
  | cons variant rest ih =>
      intro index
      cases href : (variant.get? "$ref").bind Json.asStr? with
      | none => rw [variants_skip href, variants_skip href, ih]
      | some reference =>
          rw [variants_cons href, variants_cons href, ih]
          rfl

theorem each_asking (path : Path) (schemas : List Json) :
    ∀ index, each (asking compile) path (fun _ => true) index schemas =
      each compile path (fun _ => true) index schemas := by
  induction schemas with
  | nil => exact fun _ => rfl
  | cons schema rest ih =>
      intro index
      rw [each_cons, each_cons, ih]
      rfl

theorem object_asking (fuel : Nat) (keywords : Keywords) (common : Common) :
    object (asking compile) fuel keywords common = object compile fuel keywords common := by
  unfold object
  simp only [declared_asking, named_asking]
  rfl

theorem polymorphic_asking (keywords : Keywords) (common : Common)
    (discriminator extensions : List (String × Json)) :
    polymorphic (asking compile) keywords common discriminator extensions =
      polymorphic compile keywords common discriminator extensions := by
  unfold polymorphic
  simp only [named_asking]

theorem structured_asking (fuel : Nat) (keywords : Keywords) (common : Common)
    (discriminator : Option (List (String × Json))) (extensions : List (String × Json)) :
    structured (asking compile) fuel keywords common discriminator extensions =
      structured compile fuel keywords common discriminator extensions := by
  unfold structured
  simp only [polymorphic_asking, object_asking]

theorem combination_asking (keywords : Keywords) (common : Common) (keyword : String)
    (schemas : List Json) (combine : List ι → Shape ι) :
    combination (asking compile) keywords common keyword (fun _ => true) schemas combine =
      combination compile keywords common keyword (fun _ => true) schemas combine := by
  unfold combination
  rw [each_asking]

theorem negation_asking (keywords : Keywords) (common : Common) :
    negation (asking compile) keywords common = negation compile keywords common := by
  unfold negation
  simp only [combination_asking]
  rfl

theorem governing_asking {keywords : Keywords} (h : listOf? keywords "allOf" = none)
    (common : Common) :
    governing (asking compile) keywords common = governing compile keywords common := by
  unfold governing
  rw [h]
  simp only [combination_asking, negation_asking]
  cases listOf? keywords "anyOf" <;> cases listOf? keywords "oneOf" <;> rfl

/-- The schemas of a combination of all, if that is what a schema without a type becomes. -/
def allParts? (keywords : Keywords) : Option (List Json) :=
  match (keywords.mapping "discriminator").value, alternatives? keywords with
  | some _, some _ => none
  | _, _ => listOf? keywords "allOf"

theorem untyped_asking {keywords : Keywords} (h : allParts? keywords = none) (common : Common) :
    untyped (asking compile) keywords common = untyped compile keywords common := by
  have hunion : union (asking compile) keywords common (keywords.mapping "discriminator").value =
      union compile keywords common (keywords.mapping "discriminator").value := by
    unfold allParts? at h
    unfold union
    cases hdiscriminator : (keywords.mapping "discriminator").value with
    | none =>
        rw [hdiscriminator] at h
        exact governing_asking h common
    | some discriminator =>
        cases halternatives : alternatives? keywords with
        | none =>
            rw [hdiscriminator, halternatives] at h
            exact governing_asking h common
        | some found =>
            dsimp only
            unfold discriminatedUnion
            simp only [variants_asking]
  unfold untyped
  dsimp only
  rw [hunion]

/-- Whatever a schema is asked for, it asks for its parts with what extends them, unless it becomes
a combination of all. -/
theorem assemble_asking {kind : Option SchemaKind} {keywords : Keywords}
    (h : kind = none → allParts? keywords = none) (fuel : Nat) (common : Common) (flag : Bool) :
    assemble (asking compile) fuel keywords common kind flag =
      assemble compile fuel keywords common kind flag := by
  cases kind with
  | none => exact untyped_asking (h rfl) common
  | some kind =>
      cases kind with
      | object =>
          unfold assemble
          simp only [structured_asking]
      | _ => rfl

theorem node_asking {entries : List (String × Json)} {path : Path} {kind : Option SchemaKind}
    (hkind : SchemaKind.ofSchema entries c.messages = .ok kind)
    (h : kind = none → allParts? ⟨entries, path, c.messages⟩ = none) (fuel : Nat) (flag : Bool) :
    Compiling.node (asking compile) fuel entries path flag c =
      Compiling.node compile fuel entries path flag c := by
  unfold Compiling.node
  rw [run_bind_of_ok (run_get c), run_bind_of_ok (run_get c)]
  dsimp only
  rw [hkind]
  dsimp only
  rw [assemble_asking h]

theorem primitive_children {keywords : Keywords} {common : Common} {assembly : Assembly ι}
    {node : Node ι} {kind : SchemaKind} {shape : Reading (Shape ι)}
    (hshape : shape.value.children = [])
    (h : primitive keywords kind common shape c = (.ok assembly, d))
    (hnode : assembly.node = some node) : node.children = [] := by
  have hformat (format : Format) : (format.apply common shape.value).children = [] := by
    unfold Format.apply
    split
    · rfl
    · rfl
    · rfl
    · exact hshape
  obtain ⟨found, u, hfound, h⟩ := bind_ok h
  cases h
  rcases applyFormat_becomes hfound hnode with rfl | ⟨name, format, -, -, rfl⟩
  · exact hshape
  · exact hformat format

end Compiling

namespace Compiler

open Compiling

variable {c d : Compiler} {fuel depth : Nat}

/-! ## The flags of nodes -/

/-- A location leads to a node, which is reserved for it or defined. -/
def LeadsTo (c : Compiler) (key : CompileKey) (id : NodeId) : Prop :=
  ∃ state, c.memory.find? key = some state ∧ state.node? = some id

/-- Flags of nodes as the locations tell them that lead to the nodes. -/
def TellsFlags (c : Compiler) (flag : NodeId → Bool) : Prop :=
  ∀ key id, c.LeadsTo key id → key.polymorphic = flag id

/-- Asked for everything, a schema has flagged parts only. -/
theorem node_flags_asking {entries : List (String × Json)} {path : Path}
    {polymorphic : Bool} {node : Node} {flag : NodeId → Bool} (hflag : d.TellsFlags flag)
    (h : Compiling.node (asking (value fuel)) depth entries path polymorphic c = (.ok node, d)) :
    ∀ part ∈ node.children, flag part = true := by
  have hkeeps : KeepsParts Grows anyPlace (asking (value fuel)) :=
    fun written path _ _ => (value_sound fuel).keeps written path true trivial
  have lock : Lockstep Grows anyPlace d (fun u u' => u' = u)
      (fun i k : NodeId => i = k ∧ flag i = true) (asking (value fuel)) depth
      (asking (value fuel)) depth :=
    { grows_frame with
      parts := hkeeps
      config := by rintro u _ rfl; rfl
      formats := by rintro u _ rfl; rfl
      extensions := by rintro u _ entries path rfl -; rfl
      beside := fun _ _ _ => trivial
      reads := by
        rintro u _ schema _ a v rfl - haccess -
        exact .inr ⟨a, v, haccess, rfl, rfl⟩
      part := by
        rintro u _ written path _ i v rfl - hpart hlast
        obtain ⟨state, hstate, hnode⟩ := value_known hpart
        have hleads : d.LeadsTo ⟨path, true⟩ i := ⟨state, hlast.1.known hstate, hnode⟩
        exact .inr ⟨i, v, hpart, rfl, rfl, (hflag _ _ hleads).symm⟩ }
  rcases lock.node polymorphic trivial rfl h (grows_frame.refl d) with
    hfuel | ⟨node', _, hrun, rfl, halike⟩
  · rw [h] at hfuel
    cases hfuel
  · intro part hpart
    obtain ⟨k, -, htrue⟩ := halike.related part hpart
    exact htrue

/-- The parts of a combination of all are flagged by their index. -/
theorem flags_partsFrom {path : Path} {flag : NodeId → Bool} (hflag : d.TellsFlags flag)
    {asked : Nat → Bool} {schemas : List Json} :
    ∀ {index nodes}, PartsCompile (value fuel) d (partsFrom path asked index schemas) nodes →
      ∀ i part, nodes[i]? = some part → flag part = asked (index + i) := by
  induction schemas with
  | nil =>
      intro index nodes h i part hpart
      cases h
      cases hpart
  | cons schema rest ih =>
      intro index nodes h i part hpart
      cases h with
      | @cons _ first _ nodes hfirst hrest =>
      obtain ⟨u, v, hvalue, hgrows⟩ := hfirst
      cases i with
      | zero =>
          cases hpart
          obtain ⟨state, hstate, hnode⟩ := value_known hvalue
          exact (hflag _ _ ⟨state, hgrows.1.known hstate, hnode⟩).symm
      | succ i =>
          have hasked := ih hrest i part hpart
          rw [hasked]
          congr 1
          omega

theorem flagsParts_of_leaf {node : Node} (h : node.children = []) (flag : NodeId → Bool) :
    node.FlagsParts flag := by
  have hnone : ∀ part ∈ node.children, flag part = true := by
    rw [h]
    intro part hpart
    cases hpart
  cases node with
  | typed common shape =>
      cases shape with
      | allOf parts =>
          have hparts : parts = [] := h
          intro i part hpart
          rw [hparts] at hpart
          cases hpart
      | _ => exact hnone
  | _ => exact hnone

/-- A schema with a type asks for all its parts alike. -/
theorem kind_flags {kind : SchemaKind} {polymorphic : Bool} {keywords : Keywords} {common : Common}
    {assembly : Assembly NodeId} {node : Node} {flag : NodeId → Bool}
    (hassemble : assemble (value fuel) depth keywords common (some kind) polymorphic c =
      (.ok assembly, d))
    (hnode : assembly.node = some node) (hall : ∀ part ∈ node.children, flag part = true) :
    node.FlagsParts flag := by
  cases kind with
  | array =>
      obtain ⟨items, size, unique, distinctBy, rfl⟩ := array_becomes hassemble hnode
      exact hall
  | object =>
      obtain ⟨compiler, u, hget, hassemble⟩ := bind_ok hassemble
      obtain ⟨found, v, hstructured, hassemble⟩ := bind_ok hassemble
      cases hassemble
      have hbecomes := structured_becomes hstructured hnode
      split at hbecomes
      · obtain ⟨property, mapping, rfl⟩ := hbecomes
        exact hall
      · obtain ⟨common, shape, rfl⟩ := hbecomes
        exact hall
  | _ => exact flagsParts_of_leaf (primitive_children rfl hassemble hnode) flag

/-- A combinator asks for all its parts alike, unless it is a combination of all. -/
theorem governing_flags {keywords : Keywords} {common : Common} {assembly : Assembly NodeId}
    {node : Node} {flag : NodeId → Bool} (hflag : d.TellsFlags flag)
    (hgoverning : governing (value fuel) keywords common c = (.ok assembly, d))
    (hnode : assembly.node = some node)
    (hasked : listOf? keywords "allOf" = none → ∀ part ∈ node.children, flag part = true) :
    node.FlagsParts flag := by
  have hcombines := governing_combines (value_sound fuel).keeps hgoverning hnode
  cases hfirst : Combinator.first? keywords with
  | none =>
      rw [hfirst] at hcombines
      rw [hcombines]
      exact flagsParts_of_leaf rfl flag
  | some combinator =>
      rw [hfirst] at hcombines
      obtain ⟨nodes, hnodes⟩ := hcombines
      rw [Combinator.first?_eq] at hfirst
      have hfrom := hnodes.node
      cases hlist : listOf? keywords Combinator.allOf.keyword with
      | some schemas =>
          rw [show listOf? keywords "allOf" = some schemas from hlist] at hfirst
          cases hfirst
          have hparts := hnodes.parts
          rw [(listOf_parts hlist).1] at hparts
          rw [hfrom]
          intro i part hpart
          have hflagged := flags_partsFrom hflag hparts i part hpart
          rw [Nat.zero_add] at hflagged
          exact hflagged
      | none =>
          have hall := hasked hlist
          rw [show listOf? keywords "allOf" = none from hlist] at hfirst
          have hne : combinator ≠ .allOf := by
            rintro rfl
            cases hany : listOf? keywords "anyOf" <;> cases hone : listOf? keywords "oneOf" <;>
              cases hnot : keywords.raw? "not" <;> rw [hany, hone, hnot] at hfirst <;>
              cases hfirst
          rw [hfrom] at hall ⊢
          cases combinator with
          | allOf => exact absurd rfl hne
          | _ => exact hall

/-- How the parts of a node were asked for. -/
theorem node_flags {entries : List (String × Json)} {path : Path} {polymorphic : Bool}
    {node : Node} {flag : NodeId → Bool} (hflag : d.TellsFlags flag)
    (h : Compiling.node (value fuel) depth entries path polymorphic c = (.ok node, d)) :
    node.FlagsParts flag := by
  obtain ⟨kind, assembly, hkind, hassemble, hnode⟩ := node_assembles h
  have hasked (hkindNone : kind = none → allParts? ⟨entries, path, c.messages⟩ = none) :
      ∀ part ∈ node.children, flag part = true :=
    node_flags_asking hflag ((node_asking hkind hkindNone depth polymorphic).trans h)
  cases kind with
  | some kind => exact kind_flags hassemble hnode (hasked fun hnone => nomatch hnone)
  | none =>
      obtain ⟨found, u, hunion, hassemble⟩ := bind_ok hassemble
      cases hassemble
      have hgoverned (hgoverning : governing (value fuel) ⟨entries, path, c.messages⟩
            (Keywords.common ⟨entries, path, c.messages⟩).value c = (.ok found, d))
          (hsame : allParts? ⟨entries, path, c.messages⟩ =
            listOf? ⟨entries, path, c.messages⟩ "allOf") : node.FlagsParts flag :=
        governing_flags hflag hgoverning hnode fun hlist => hasked fun _ => hsame.trans hlist
      -- only a union without alternatives is governed by its combinators
      unfold union at hunion
      unfold allParts? at hgoverned hasked
      cases hdiscriminator :
          (Keywords.mapping ⟨entries, path, c.messages⟩ "discriminator").value with
      | none =>
          rw [hdiscriminator] at hunion hgoverned
          exact hgoverned hunion rfl
      | some discriminator =>
          cases halternatives : alternatives? ⟨entries, path, c.messages⟩ with
          | none =>
              rw [hdiscriminator, halternatives] at hunion hgoverned
              exact hgoverned hunion rfl
          | some alternatives =>
              rw [hdiscriminator, halternatives] at hunion hasked
              obtain ⟨property, mapping, rfl⟩ := discriminatedUnion_becomes hunion hnode
              exact hasked fun _ => rfl

end Compiler

end SchemaGraph

import SchemaGraph.Proofs.Compiler.Calls
import SchemaGraph.Proofs.Conversion.Response

set_option autoImplicit false

/-! # Where nodes come from

Every node of a compiler was put together from the keywords of a schema. So it judges values: it
neither forwards nor follows references, and it combines at least one schema where it combines
any. Only `byte` makes a node that changes a response.
-/

namespace SchemaGraph

namespace Compiling

variable {ι : Type} {compile : CompilingValue ι} {c d : Compiler}

/-! ## Assemblies -/

/-- What a schema may become: a node that strict responses pass through, or a text of a format
that stands for bytes. -/
def Judges (c : Compiler) (keywords : Keywords) (node : Node ι) : Prop :=
  node.echoes = true ∨ ∃ name common bounds,
    (keywords.string "format").value = some name ∧
      c.formats.find? .string name = some (.parse .bytes) ∧ node = .typed common
        (.text .bytes bounds)

/-- A plain node stays as it is, or the format that is known is applied to it. -/
theorem applyFormat_becomes {keywords : Keywords} {kind : SchemaKind} {common : Common}
    {shape : Shape ι} {assembly : Assembly ι}
    (h : applyFormat keywords kind common shape c = (.ok assembly, d)) {node : Node ι}
    (hnode : assembly.node = some node) :
    node = .typed common shape ∨ ∃ name format, (keywords.string "format").value = some name ∧
      c.formats.find? kind name = some format ∧ node = format.apply common shape := by
  obtain ⟨compiler, u, hget, h⟩ := bind_ok h
  cases hget
  cases hname : (keywords.string "format").value with
  | none =>
      dsimp only at h
      rw [hname] at h
      cases h
      cases hnode
      exact .inl rfl
  | some name =>
      dsimp only at h
      rw [hname] at h
      dsimp only at h
      cases hformat : c.formats.find? kind name with
      | none =>
          rw [hformat] at h
          cases h
          cases hnode
          exact .inl rfl
      | some format =>
          rw [hformat] at h
          cases h
          cases hnode
          exact .inr ⟨name, format, rfl, hformat, rfl⟩

theorem applyFormat_judges {keywords : Keywords} {kind : SchemaKind} {common : Common}
    {shape : Shape ι} (hshape : ∀ common, (Node.typed common shape).echoes = true)
    (hkind : ∀ bounds, shape = .string bounds → kind = .string) {assembly : Assembly ι}
    (h : applyFormat keywords kind common shape c = (.ok assembly, d)) {node : Node ι}
    (hnode : assembly.node = some node) : Judges c keywords node := by
  rcases applyFormat_becomes h hnode with rfl | ⟨name, format, hname, hformat, rfl⟩
  · exact .inl (hshape common)
  · cases format with
    | plain => exact .inl (hshape common)
    | check restriction =>
        cases shape with
        | string bounds => exact .inl (hshape _)
        | integer bounds => exact .inl (hshape _)
        | _ => exact .inl (hshape common)
    | parse written =>
        cases shape with
        | string bounds =>
            rw [hkind bounds rfl] at hformat
            cases written with
            | bytes => exact .inr ⟨name, _, _, hname, hformat, rfl⟩
            | _ => exact .inl rfl
        | _ => exact .inl (hshape common)

theorem primitive_judges {keywords : Keywords} {kind : SchemaKind} {common : Common}
    {shape : Reading (Shape ι)} (hshape : ∀ common, (Node.typed common shape.value).echoes = true)
    (hkind : ∀ bounds, shape.value = .string bounds → kind = .string) {assembly : Assembly ι}
    (h : primitive keywords kind common shape c = (.ok assembly, d)) {node : Node ι}
    (hnode : assembly.node = some node) : Judges c keywords node := by
  obtain ⟨found, u, hformat, h⟩ := bind_ok h
  cases h
  exact applyFormat_judges hshape hkind hformat hnode

/-! ## What schemas become -/

section Becomes

variable {keywords : Keywords} {common : Common} {assembly : Assembly ι} {node : Node ι}

theorem array_becomes (h : array compile keywords common c = (.ok assembly, d))
    (hnode : assembly.node = some node) :
    ∃ items size unique distinctBy, node = .typed common (.array items size unique distinctBy) := by
  unfold array at h
  cases hraw : keywords.raw? "items" with
  | none =>
      rw [hraw] at h
      cases h
      cases hnode
  | some items =>
      rw [hraw] at h
      obtain ⟨here, u, -, h⟩ := bind_ok h
      cases here with
      | error found =>
          cases h
          cases hnode
      | ok found =>
          cases h
          cases hnode
          exact ⟨_, _, _, _, rfl⟩

theorem object_becomes {fuel : Nat} (h : object compile fuel keywords common c = (.ok assembly, d))
    (hnode : assembly.node = some node) :
    ∃ common shape, node = .typed common (.object shape) := by
  obtain ⟨declared, t, -, h⟩ := bind_ok h
  obtain ⟨⟨policy, policyErrors, policyParts⟩, u, -, h⟩ := bind_ok h
  obtain ⟨⟨patterns, patternParts⟩, v, -, h⟩ := bind_ok h
  dsimp only at h
  split at h
  · cases h
    cases hnode
  · obtain ⟨compiler, w, hget, h⟩ := bind_ok h
    cases hget
    generalize ObjectDraft.build _ = built at h
    cases built with
    | ok shape =>
        cases h
        cases hnode
        exact ⟨_, shape, rfl⟩
    | error e =>
        cases h
        cases hnode

theorem polymorphic_becomes {discriminator extensions : List (String × Json)}
    (h : polymorphic compile keywords common discriminator extensions c = (.ok assembly, d))
    (hnode : assembly.node = some node) :
    ∃ property mapping, node = .typed common (.discriminated property mapping) := by
  unfold polymorphic at h
  cases hproperty : propertyOf? discriminator with
  | none =>
      rw [hproperty] at h
      cases h
      cases hnode
  | some property =>
      rw [hproperty] at h
      obtain ⟨⟨found, errors⟩, u, -, h⟩ := bind_ok h
      cases errors with
      | nil =>
          cases h
          cases hnode
          exact ⟨property, _, rfl⟩
      | cons first rest =>
          cases h
          cases hnode

theorem discriminatedUnion_becomes {discriminator : List (String × Json)} {keyword : String}
    {alternatives : List Json}
    (h : discriminatedUnion compile keywords common discriminator keyword alternatives c =
      (.ok assembly, d)) (hnode : assembly.node = some node) :
    ∃ property mapping, node = .typed common (.discriminated property mapping) := by
  unfold discriminatedUnion at h
  cases hproperty : propertyOf? discriminator with
  | none =>
      rw [hproperty] at h
      cases h
      cases hnode
  | some property =>
      rw [hproperty] at h
      obtain ⟨⟨found, errors⟩, u, -, h⟩ := bind_ok h
      cases errors with
      | nil =>
          cases h
          cases hnode
          exact ⟨property, _, rfl⟩
      | cons first rest =>
          cases h
          cases hnode

/-- An object with a discriminator becomes a union if schemas that extend it take part, and any
other object stays an object. -/
theorem structured_becomes {fuel : Nat} {discriminator : Option (List (String × Json))}
    {extensions : List (String × Json)}
    (h : structured compile fuel keywords common discriminator extensions c = (.ok assembly, d))
    (hnode : assembly.node = some node) :
    if discriminator.isSome && !extensions.isEmpty then
      ∃ property mapping, node = .typed common (.discriminated property mapping)
    else ∃ common shape, node = .typed common (.object shape) := by
  unfold structured at h
  cases discriminator with
  | none => exact object_becomes h hnode
  | some discriminator =>
      cases extensions with
      | nil => exact object_becomes h hnode
      | cons first rest => exact polymorphic_becomes h hnode

end Becomes

/-! ## Combinations -/

/-- The nodes of a list of parts, each of which compiled, on the way to a compiler. -/
def PartsCompile (compile : CompilingValue ι) (d : Compiler) (parts : List (Json × Path × Bool))
    (nodes : List ι) : Prop :=
  List.Forall₂ (fun part node => ∃ u u',
    compile part.1 part.2.1 part.2.1 part.2.2 u = (.ok node, u') ∧
    Compiler.Grows u' d) parts nodes

/-- The schemas of a list with their locations and flags. -/
def partsFrom (path : Path) (flag : Nat → Bool) : Nat → List Json → List (Json × Path × Bool)
  | _, [] => []
  | index, schema :: rest =>
    (schema, path.item index, flag index) :: partsFrom path flag (index + 1) rest

/-- Without errors every schema of a list has its node. -/
theorem each_parts (hkeeps : KeepsParts Compiler.Grows Compiler.anyPlace compile) {path : Path}
    {flag : Nat → Bool} {schemas : List Json} :
    ∀ {index c d nodes}, each compile path flag index schemas c = (.ok (nodes, []), d) →
      PartsCompile compile d (partsFrom path flag index schemas) nodes := by
  induction schemas with
  | nil =>
      intro index c d nodes h
      cases h
      exact .nil
  | cons schema rest ih =>
      intro index c d nodes h
      rw [each_cons] at h
      obtain ⟨node, u, more, hnode, hrest, rfl⟩ := ahead_ok h
      have hgrows : Keeps Compiler.Grows (each compile path flag (index + 1) rest) :=
        (Compiler.grows_frame.laws 0).each (Compiler.grows_frame.attempts hkeeps) path flag
          fun _ _ _ => trivial
      have hgrows := hgrows u
      rw [hrest] at hgrows
      exact .cons ⟨c, u, hnode, hgrows⟩ (ih hrest)

theorem combination_parts (hkeeps : KeepsParts Compiler.Grows Compiler.anyPlace compile)
    {keywords : Keywords} {common : Common} {keyword : String}
    {flag : Nat → Bool} {schemas : List Json} {combine : List ι → Shape ι} {assembly : Assembly ι}
    (h : combination compile keywords common keyword flag schemas combine c = (.ok assembly, d))
    {node : Node ι} (hnode : assembly.node = some node) :
    ∃ nodes, node = .typed common (combine nodes) ∧
      PartsCompile compile d (partsFrom (keywords.path.child keyword) flag 0 schemas) nodes := by
  obtain ⟨⟨nodes, errors⟩, u, heach, h⟩ := bind_ok h
  cases errors with
  | nil =>
      cases h
      cases hnode
      exact ⟨nodes, rfl, each_parts hkeeps heach⟩
  | cons first rest =>
      cases h
      cases hnode

end Compiling

/-- The keywords that combine schemas. -/
inductive Combinator where
  | allOf
  | anyOf
  | oneOf
  | not
  deriving DecidableEq, Repr

namespace Combinator

/-- In the order in which they count. -/
def all : List Combinator := [allOf, anyOf, oneOf, not]

def keyword : Combinator → String
  | allOf => "allOf"
  | anyOf => "anyOf"
  | oneOf => "oneOf"
  | not => "not"

def combine {ι : Type} : Combinator → List ι → Shape ι
  | allOf => .allOf
  | anyOf => .anyOf
  | oneOf => .oneOf
  | not => .not

/-- Whether schemas that extend the one at an index take part in it: not if it is the one being
extended. -/
def flag : Combinator → Nat → Bool
  | allOf => fun index => index != 0
  | _ => fun _ => true

/-- A schema uses a combinator. An empty list counts only as something forbidden. -/
def isUsed (keywords : Keywords) : Combinator → Bool
  | not => (keywords.raw? "not").isSome
  | combinator => (Compiling.listOf? keywords combinator.keyword).isSome

/-- The combinator that counts where a schema has no type. -/
def first? (keywords : Keywords) : Option Combinator := all.find? (isUsed keywords)

/-- The schemas that a combinator combines. -/
def parts (keywords : Keywords) (combinator : Combinator) : List (Json × Path × Bool) :=
  let path := keywords.path.child combinator.keyword
  match keywords.raw? combinator.keyword with
  | some (.arr schemas) => Compiling.partsFrom path combinator.flag 0 schemas
  | some schema => [(schema, path, true)]
  | none => []

theorem first?_eq (keywords : Keywords) : first? keywords =
    match Compiling.listOf? keywords "allOf", Compiling.listOf? keywords "anyOf",
      Compiling.listOf? keywords "oneOf", keywords.raw? "not" with
    | some _, _, _, _ => some allOf
    | none, some _, _, _ => some anyOf
    | none, none, some _, _ => some oneOf
    | none, none, none, some _ => some not
    | none, none, none, none => none := by
  have hallOf : isUsed keywords allOf = (Compiling.listOf? keywords "allOf").isSome := rfl
  have hanyOf : isUsed keywords anyOf = (Compiling.listOf? keywords "anyOf").isSome := rfl
  have honeOf : isUsed keywords oneOf = (Compiling.listOf? keywords "oneOf").isSome := rfl
  have hnot : isUsed keywords not = (keywords.raw? "not").isSome := rfl
  unfold first? all
  rw [List.find?_cons, List.find?_cons, List.find?_cons, List.find?_cons, hallOf, hanyOf,
    honeOf, hnot]
  cases Compiling.listOf? keywords "allOf" <;> cases Compiling.listOf? keywords "anyOf" <;>
    cases Compiling.listOf? keywords "oneOf" <;> cases keywords.raw? "not" <;> rfl

end Combinator

namespace Compiling

variable {ι : Type} {compile : CompilingValue ι} {c d : Compiler}

theorem listOf_parts {keywords : Keywords} {combinator : Combinator} {schemas : List Json}
    (h : listOf? keywords combinator.keyword = some schemas) :
    combinator.parts keywords =
      partsFrom (keywords.path.child combinator.keyword) combinator.flag 0 schemas ∧
      combinator.parts keywords ≠ [] := by
  have hraw := listOf_raw h
  have hne : schemas ≠ [] := by
    rintro rfl
    unfold listOf? at h
    split at h
    · cases h
    · cases h
  have hparts : combinator.parts keywords =
      partsFrom (keywords.path.child combinator.keyword) combinator.flag 0 schemas := by
    unfold Combinator.parts
    dsimp only
    rw [hraw]
  refine ⟨hparts, ?_⟩
  rw [hparts]
  cases schemas with
  | nil => exact absurd rfl hne
  | cons first rest => exact List.cons_ne_nil _ _

/-- A node that combines the schemas a combinator lists, of which there are some. -/
structure Combines (compile : CompilingValue ι) (d : Compiler) (keywords : Keywords)
    (common : Common)
    (combinator : Combinator) (nodes : List ι) (node : Node ι) : Prop where
  node : node = .typed common (combinator.combine nodes)
  parts : PartsCompile compile d (combinator.parts keywords) nodes
  some : nodes ≠ []

theorem Combines.echoes {keywords : Keywords} {common : Common} {combinator : Combinator}
    {nodes : List ι} {node : Node ι}
    (h : Combines compile d keywords common combinator nodes node) :
    node.echoes = true := by
  rw [h.node]
  cases combinator with
  | allOf =>
      cases nodes with
      | nil => exact absurd rfl h.some
      | cons first rest => rfl
  | _ => rfl

theorem listed_combines (hkeeps : KeepsParts Compiler.Grows Compiler.anyPlace compile)
    {keywords : Keywords} {common : Common} {combinator : Combinator}
    {schemas : List Json} (hlist : listOf? keywords combinator.keyword = some schemas)
    {assembly : Assembly ι}
    (h : combination compile keywords common combinator.keyword combinator.flag schemas
      combinator.combine c = (.ok assembly, d)) {node : Node ι}
        (hnode : assembly.node = some node) :
    ∃ nodes, Combines compile d keywords common combinator nodes node := by
  obtain ⟨nodes, heq, hparts⟩ := combination_parts hkeeps h hnode
  obtain ⟨hsame, hne⟩ := listOf_parts hlist
  rw [← hsame] at hparts
  refine ⟨nodes, heq, hparts, ?_⟩
  rintro rfl
  exact hne (List.forall₂_nil_right_iff.1 hparts)

theorem negation_parts {keywords : Keywords} {written : Json}
    (hraw : keywords.raw? "not" = some written) :
    Combinator.not.parts keywords = match written with
      | .arr schemas => partsFrom (keywords.path.child "not") (fun _ => true) 0 schemas
      | schema => [(schema, keywords.path.child "not", true)] := by
  unfold Combinator.parts
  dsimp only
  rw [show keywords.raw? Combinator.not.keyword = some written from hraw]
  cases written <;> rfl

theorem negation_combines (hkeeps : KeepsParts Compiler.Grows Compiler.anyPlace compile)
    {keywords : Keywords} {common : Common} {assembly : Assembly ι}
    (h : negation compile keywords common c = (.ok assembly, d)) {node : Node ι}
    (hnode : assembly.node = some node) :
    match keywords.raw? "not" with
    | none => node = .typed common .any
    | some _ => ∃ nodes, Combines compile d keywords common .not nodes node := by
  unfold negation at h
  cases hraw : keywords.raw? "not" with
  | none =>
      rw [hraw] at h
      cases h
      cases hnode
      rfl
  | some written =>
      rw [hraw] at h
      have hparts := negation_parts hraw
      cases written with
      | obj schema =>
          obtain ⟨here, u, hhere, h⟩ := bind_ok h
          cases here with
          | error found =>
              cases h
              cases hnode
          | ok part =>
              cases h
              cases hnode
              refine ⟨[part], rfl, ?_, List.cons_ne_nil _ _⟩
              rw [hparts]
              exact .cons ⟨c, _, attempt_ok hhere, Compiler.grows_frame.refl _⟩ .nil
      | arr schemas =>
          cases schemas with
          | nil =>
              cases h
              cases hnode
          | cons first rest =>
              obtain ⟨nodes, heq, hfound⟩ := combination_parts hkeeps h hnode
              refine ⟨nodes, heq, ?_, ?_⟩
              · rw [hparts]
                exact hfound
              · rintro rfl
                cases hfound
      | _ =>
          cases h
          cases hnode

/-- Without a type, the first combinator that is used is the one that counts. -/
theorem governing_combines (hkeeps : KeepsParts Compiler.Grows Compiler.anyPlace compile)
    {keywords : Keywords} {common : Common} {assembly : Assembly ι}
    (h : governing compile keywords common c = (.ok assembly, d)) {node : Node ι}
    (hnode : assembly.node = some node) :
    match Combinator.first? keywords with
    | none => node = .typed common .any
    | some combinator => ∃ nodes, Combines compile d keywords common combinator nodes node := by
  unfold governing at h
  rw [Combinator.first?_eq]
  cases hallOf : listOf? keywords Combinator.allOf.keyword with
  | some schemas =>
      rw [show listOf? keywords "allOf" = _ from hallOf] at h ⊢
      exact listed_combines hkeeps hallOf h hnode
  | none =>
      rw [show listOf? keywords "allOf" = _ from hallOf] at h ⊢
      cases hanyOf : listOf? keywords Combinator.anyOf.keyword with
      | some schemas =>
          rw [show listOf? keywords "anyOf" = _ from hanyOf] at h ⊢
          exact listed_combines hkeeps hanyOf h hnode
      | none =>
          rw [show listOf? keywords "anyOf" = _ from hanyOf] at h ⊢
          cases honeOf : listOf? keywords Combinator.oneOf.keyword with
          | some schemas =>
              rw [show listOf? keywords "oneOf" = _ from honeOf] at h ⊢
              exact listed_combines hkeeps honeOf h hnode
          | none =>
              rw [show listOf? keywords "oneOf" = _ from honeOf] at h ⊢
              have hnegation := negation_combines hkeeps h hnode
              cases hnot : keywords.raw? "not" with
              | none =>
                  rw [hnot] at hnegation
                  exact hnegation
              | some written =>
                  rw [hnot] at hnegation
                  exact hnegation

/-! ## Schemas -/

theorem union_echoes (hkeeps : KeepsParts Compiler.Grows Compiler.anyPlace compile)
    {keywords : Keywords} {common : Common}
    {discriminator : Option (List (String × Json))} {assembly : Assembly ι}
    (h : union compile keywords common discriminator c = (.ok assembly, d)) {node : Node ι}
    (hnode : assembly.node = some node) : node.echoes = true := by
  have hgoverned : governing compile keywords common c = (.ok assembly, d) →
      node.echoes = true := by
    intro h
    have hgoverning := governing_combines hkeeps h hnode
    cases hfirst : Combinator.first? keywords with
    | none =>
        rw [hfirst] at hgoverning
        rw [hgoverning]
        rfl
    | some combinator =>
        rw [hfirst] at hgoverning
        obtain ⟨nodes, hcombines⟩ := hgoverning
        exact hcombines.echoes
  unfold union at h
  cases discriminator with
  | none => exact hgoverned h
  | some discriminator =>
      cases halternatives : alternatives? keywords with
      | none =>
          rw [halternatives] at h
          exact hgoverned h
      | some found =>
          rw [halternatives] at h
          obtain ⟨property, mapping, rfl⟩ := discriminatedUnion_becomes h hnode
          rfl

theorem structured_echoes {fuel : Nat} {keywords : Keywords} {common : Common}
    {discriminator : Option (List (String × Json))} {extensions : List (String × Json)}
    {assembly : Assembly ι}
    (h : structured compile fuel keywords common discriminator extensions c = (.ok assembly, d))
    {node : Node ι} (hnode : assembly.node = some node) : node.echoes = true := by
  have hbecomes := structured_becomes h hnode
  split at hbecomes
  · obtain ⟨property, mapping, rfl⟩ := hbecomes
    rfl
  · obtain ⟨common, shape, rfl⟩ := hbecomes
    rfl

theorem assemble_judges (hkeeps : KeepsParts Compiler.Grows Compiler.anyPlace compile)
    {fuel : Nat} {keywords : Keywords} {common : Common}
    {kind : Option SchemaKind} {flag : Bool} {assembly : Assembly ι}
    (h : assemble compile fuel keywords common kind flag c = (.ok assembly, d)) {node : Node ι}
    (hnode : assembly.node = some node) : Judges c keywords node := by
  cases kind with
  | none =>
      obtain ⟨found, u, hunion, h⟩ := bind_ok h
      cases h
      exact .inl (union_echoes hkeeps hunion hnode)
  | some kind =>
      cases kind with
      | string => exact primitive_judges (fun _ => rfl) (fun _ _ => rfl) h hnode
      | number => exact primitive_judges (fun _ => rfl) (fun _ h => by cases h) h hnode
      | integer => exact primitive_judges (fun _ => rfl) (fun _ h => by cases h) h hnode
      | boolean => exact primitive_judges (fun _ => rfl) (fun _ h => by cases h) h hnode
      | array =>
          obtain ⟨items, size, unique, distinctBy, rfl⟩ := array_becomes h hnode
          exact .inl rfl
      | object =>
          obtain ⟨compiler, u, hget, h⟩ := bind_ok h
          obtain ⟨found, v, hstructured, h⟩ := bind_ok h
          cases h
          exact .inl (structured_echoes hstructured hnode)

/-- The node of a schema is one assembled by its type. -/
theorem node_assembles {fuel : Nat} {entries : List (String × Json)} {path : Path} {flag : Bool}
    {node : Node ι} (h : Compiling.node compile fuel entries path flag c = (.ok node, d)) :
    ∃ kind assembly, SchemaKind.ofSchema entries c.messages = .ok kind ∧
      assemble compile fuel ⟨entries, path, c.messages⟩
        (Keywords.common ⟨entries, path, c.messages⟩).value
        kind flag c = (.ok assembly, d) ∧ assembly.node = some node := by
  obtain ⟨compiler, u, hget, h⟩ := bind_ok h
  cases hget
  dsimp only at h
  cases hkind : SchemaKind.ofSchema entries c.messages with
  | error violation =>
      rw [hkind] at h
      cases h
  | ok kind =>
      rw [hkind] at h
      obtain ⟨assembly, u, hassemble, h⟩ := bind_ok h
      refine ⟨kind, assembly, rfl, ?_⟩
      generalize SchemaErrors.ofList? _ = errors at h
      cases hnode : assembly.node with
      | none =>
          rw [hnode] at h
          cases errors <;> cases h
      | some found =>
          rw [hnode] at h
          cases errors with
          | some errors => cases h
          | none =>
              cases h
              exact ⟨hassemble, rfl⟩

theorem node_judges (hkeeps : KeepsParts Compiler.Grows Compiler.anyPlace compile)
    {fuel : Nat} {entries : List (String × Json)} {path : Path} {flag : Bool}
    {node : Node ι} (h : Compiling.node compile fuel entries path flag c = (.ok node, d)) :
    Judges c ⟨entries, path, c.messages⟩ node := by
  obtain ⟨kind, assembly, -, hassemble, hnode⟩ := node_assembles h
  exact assemble_judges hkeeps hassemble hnode

theorem byte_of_judges {keywords : Keywords} {node : Node ι} (hformats : c.formats = .builtIn)
    (h : Judges c keywords node) (hbytes : node.takesBytes = true) :
    (keywords.string "format").value = some "byte" := by
  rcases h with hechoes | ⟨name, common, bounds, hname, hformat, -⟩
  · rw [Node.not_echoes hbytes] at hechoes
    cases hechoes
  · rw [hformats] at hformat
    obtain ⟨before, after, hentries, -⟩ := List.lookup_eq_some_iff.1 hformat
    have hmem : ((SchemaKind.string, name), Format.parse .bytes) ∈ Formats.builtIn.entries := by
      rw [hentries]
      exact List.mem_append_right _ List.mem_cons_self
    have hbyte : ∀ row ∈ Formats.builtIn.entries, row.2 = .parse .bytes → row.1.2 = "byte" := by
      decide
    rw [hname]
    exact congrArg some (hbyte _ hmem rfl)

end Compiling

end SchemaGraph

import SchemaGraph.Compiler.Run
import SchemaGraph.Proofs.Json
import SchemaGraph.Proofs.Resolver
import SchemaGraph.Proofs.Run

set_option autoImplicit false

/-! # What a compilation leaves alone

What may come of a run is a course: a relation between the compilers before and after it and its
failure, if it fails. A course that composes, and that reading the access of a property takes, is
taken by the assembly of a whole node as soon as the compilation of the parts takes it
(`Course.NodeLaws.node`). So what nodes do to a compiler is a matter of `Compiling.value` alone.

A relation that holds across every step that only resolves references is a course that makes no
difference between failures (`Frame.laws`).
-/

namespace SchemaGraph

namespace Compiling

variable {α β ι : Type} {R : Compiler → Compiler → Prop}

/-! ## References on the way to a schema -/

/-- Nothing but the resolver is another one, and it serves what it did before. -/
structure OnlyResolver (c d : Compiler) : Prop where
  same : d = { c with resolver := d.resolver }
  kept : Resolver.Kept c.resolver d.resolver

theorem onlyResolver_composes : Composes OnlyResolver where
  refl c := ⟨rfl, .refl c.resolver⟩
  trans {a b c} hab hbc := by
    refine ⟨?_, hab.kept.trans hbc.kept⟩
    have hsame := hbc.same
    rw [hab.same] at hsame
    exact hsame

theorem onlyResolver_resolve (reference : String) : Keeps OnlyResolver (resolve reference) :=
  fun c => ⟨rfl, Resolver.kept_resolve c.resolver reference⟩

theorem onlyResolver_scope (url : String) {part : Compiling α} (hpart : Keeps OnlyResolver part) :
    Keeps OnlyResolver (inScope url part) := by
  intro c
  obtain ⟨hsame, hkept⟩ := hpart { c with resolver := c.resolver.pushScope url }
  rw [run_inScope]
  refine ⟨?_, hkept.inScope⟩
  rw [hsame]

theorem atEnd_onlyResolver {part : Json → Compiling α}
    (hpart : ∀ schema, Keeps OnlyResolver (part schema))
    (fuel : Nat) : ∀ seen schema, Keeps OnlyResolver (atEnd part fuel seen schema) := by
  induction fuel with
  | zero => intro seen schema; exact onlyResolver_composes.throw _
  | succ fuel ih =>
      intro seen schema
      rw [atEnd]
      split
      · exact hpart schema
      · refine onlyResolver_composes.bind (onlyResolver_resolve _) fun resolved => ?_
        split
        · exact hpart schema
        · split
          · exact hpart schema
          · exact onlyResolver_scope _ (ih _ _)

/-- To read the access of a property is to resolve references, within scopes. -/
theorem access_onlyResolver (fuel : Nat) (schema : Json) :
    Keeps OnlyResolver (access fuel schema) :=
  atEnd_onlyResolver (fun _ => onlyResolver_composes.pure _) fuel [] schema

/-! ## Lists of parts

However they are named, the parts in a list compile one after another, and the errors of those
that fail are put together. -/

/-- A part ahead of the rest of its list. -/
def ahead (add : ι → α) (part : Compiling ι) (rest : Compiling (List α × List LocatedError)) :
    Compiling (List α × List LocatedError) := do
  let here ← attempt part
  let (nodes, errors) ← rest
  match here with
  | .ok node => pure (add node :: nodes, errors)
  | .error found => pure (nodes, found.toList ++ errors)

section Ahead

variable {compile : CompilingValue ι} {path : Path}

theorem named_cons (name : String) (schema : Json) (rest : List (String × Json)) :
    named compile path ((name, schema) :: rest) =
      ahead (Prod.mk name) (compile schema (path.child name) (path.child name) true)
        (named compile path rest) := rfl

theorem variants_cons {variant : Json} {reference : String}
    (href : (variant.get? "$ref").bind Json.asStr? = some reference) (index : Nat)
    (rest : List Json) :
    variants compile path index (variant :: rest) =
      ahead (Prod.mk reference) (compile variant (path.item index) (path.item index) true)
        (variants compile path (index + 1) rest) := by
  rw [variants, href]
  rfl

theorem variants_skip {variant : Json} (href : (variant.get? "$ref").bind Json.asStr? = none)
    (index : Nat) (rest : List Json) :
    variants compile path index (variant :: rest) = variants compile path (index + 1) rest := by
  rw [variants, href]

theorem each_cons (flag : Nat → Bool) (index : Nat) (schema : Json) (rest : List Json) :
    each compile path flag index (schema :: rest) =
      ahead id (compile schema (path.item index) (path.item index) (flag index))
        (each compile path flag (index + 1) rest) := rfl

/-- Without errors the part compiles, and so does the rest. -/
theorem ahead_ok {add : ι → α} {part : Compiling ι}
    {rest : Compiling (List α × List LocatedError)} {found : List α} {c d : Compiler}
    (h : ahead add part rest c = (.ok (found, []), d)) :
    ∃ node u more, part c = (.ok node, u) ∧ rest u = (.ok (more, []), d) ∧
      found = add node :: more := by
  obtain ⟨here, u, hhere, h⟩ := bind_ok h
  obtain ⟨⟨more, errors⟩, v, hrest, h⟩ := bind_ok h
  cases here with
  | error errors => cases h
  | ok node =>
      cases h
      exact ⟨node, u, more, attempt_ok hhere, hrest, rfl⟩

theorem items_rest {place : Json → Path → Prop} {index : Nat} {first : Json} {rest : List Json}
    (h : ∀ i schema, (first :: rest)[i]? = some schema → place schema (path.item (index + i))) :
    ∀ i schema, rest[i]? = some schema → place schema (path.item (index + 1 + i)) := by
  intro i schema hi
  rw [show index + 1 + i = index + (i + 1) by omega]
  exact h (i + 1) schema hi

end Ahead

/-! ## Places

A place is a schema and where it stands. -/

/-- Parts of a place are places. -/
structure Places (place : Json → Path → Prop) : Prop where
  entry : ∀ {entries path name schema}, place (.obj entries) path → (name, schema) ∈ entries →
    place schema (path.child name)
  item : ∀ {items : List Json} {path} {index : Nat} {schema}, place (.arr items) path →
    items[index]? = some schema → place schema (path.item index)

namespace Places

variable {place : Json → Path → Prop}

theorem raw (places : Places place) {keywords : Keywords}
    (hplace : place (.obj keywords.schema) keywords.path) {name : String} {written : Json}
    (hraw : keywords.raw? name = some written) : place written (keywords.path.child name) :=
  places.entry hplace (Entries.mem_of_find? hraw)

/-- The entries of a keyword that holds a mapping stand below the keyword. -/
theorem members (places : Places place) {keywords : Keywords}
    (hplace : place (.obj keywords.schema) keywords.path) (keyword : String) :
    ∀ name schema, (name, schema) ∈ (keywords.mapping keyword).value.getD [] →
      place schema ((keywords.path.child keyword).child name) := by
  intro name schema hmem
  unfold Keywords.mapping Keywords.optional at hmem
  cases hraw : keywords.raw? keyword with
  | none =>
      rw [hraw] at hmem
      cases hmem
  | some written =>
      rw [hraw] at hmem
      cases written with
      | obj entries => exact places.entry (places.raw hplace hraw) hmem
      | _ => cases hmem

/-- The items of a list stand below it. -/
theorem items (places : Places place) {schemas : List Json} {path : Path}
    (hplace : place (.arr schemas) path) :
    ∀ i schema, schemas[i]? = some schema → place schema (path.item (0 + i)) := by
  intro i schema hi
  rw [Nat.zero_add]
  exact places.item hplace hi

end Places

theorem listOf_raw {keywords : Keywords} {name : String} {schemas : List Json}
    (h : listOf? keywords name = some schemas) : keywords.raw? name = some (.arr schemas) := by
  unfold listOf? at h
  cases hraw : keywords.raw? name with
  | none =>
      rw [hraw] at h
      cases h
  | some written =>
      rw [hraw] at h
      cases written with
      | arr items =>
          cases items with
          | nil => cases h
          | cons first rest =>
              cases h
              rfl
      | _ => cases h

theorem alternatives_raw {keywords : Keywords} {keyword : String} {schemas : List Json}
    (h : alternatives? keywords = some (keyword, schemas)) :
    keywords.raw? keyword = some (.arr schemas) := by
  unfold alternatives? at h
  cases hany : listOf? keywords "anyOf" with
  | some found =>
      rw [hany] at h
      cases h
      exact listOf_raw hany
  | none =>
      rw [hany] at h
      cases hone : listOf? keywords "oneOf" with
      | none =>
          rw [hone] at h
          cases h
      | some found =>
          rw [hone] at h
          cases h
          exact listOf_raw hone

theorem mem_participants {compiler : Compiler} {keywords : Keywords} {flag : Bool}
    {discriminator : Option (List (String × Json))} {entry : String × Json}
    (h : entry ∈ participants compiler keywords flag discriminator) :
    entry ∈ extensions compiler keywords.path := by
  unfold participants at h
  split at h
  · exact h
  · cases h

/-! ## Courses -/

/-- What may come of a run: between the compilers before and after it, for the failure that ends
it, or for none. -/
abbrev Course := Compiler → Option CompileFailure → Compiler → Prop

/-- Why a run gives nothing, if it does. -/
def failure? : Except CompileFailure α → Option CompileFailure
  | .ok _ => none
  | .error failure => some failure

/-- Every run of a part takes the course. -/
def Takes (course : Course) (part : Compiling α) : Prop :=
  ∀ c, course c (failure? (part c).1) (part c).2

/-- A course of the assembly of nodes, at given places and with a given depth. -/
structure Course.Laws (course : Course) (place : Json → Path → Prop) (fuel : Nat) : Prop extends
    Places place where
  done : ∀ c, course c none c
  next : ∀ {c d e failure}, course c none d → course d failure e → course c failure e
  access : ∀ {schema path}, place schema path → Takes course (access fuel schema)
  extension : ∀ {c entries path name schema}, place (.obj entries) path →
    (name, schema) ∈ extensions c path →
    place schema (path.parent.child name) ∨ ∀ failure d, course c failure d

/-- A course of whole compilations. What goes on after errors goes on as after a node. -/
structure Course.NodeLaws (course : Course) (place : Json → Path → Prop) (fuel : Nat) : Prop extends
    Course.Laws course place fuel where
  refused : ∀ c errors, course c (some (.errors errors)) c
  caught : ∀ {c d errors}, course c (some (.errors errors)) d → course c none d

/-- So does the compilation of whatever stands at a place. -/
def TakesParts (course : Course) (place : Json → Path → Prop) (compile : CompilingValue ι) :
    Prop :=
  ∀ written path flag, place written path → Takes course (compile written path path flag)

/-- So does the compilation of whatever stands at a place, with its errors kept. -/
def AttemptsParts (course : Course) (place : Json → Path → Prop) (compile : CompilingValue ι) :
    Prop :=
  ∀ written path flag, place written path →
    Takes course (attempt (compile written path path flag))

namespace Course.Laws

variable {course : Course} {place : Json → Path → Prop} {fuel : Nat}

/-! ## Steps -/

theorem pure (laws : course.Laws place fuel) (a : α) :
    Takes course (Pure.pure a : Compiling α) := laws.done

theorem bind (laws : course.Laws place fuel) {m : Compiling α} {f : α → Compiling β}
    (hm : Takes course m) (hf : ∀ a, Takes course (f a)) : Takes course (m >>= f) := by
  intro c
  have h := hm c
  rw [run_bind]
  rcases hrun : m c with ⟨failure | a, d⟩
  · rw [hrun] at h
    exact h
  · rw [hrun] at h
    exact laws.next h (hf a d)

theorem get (laws : course.Laws place fuel) :
    Takes course (MonadState.get : Compiling Compiler) := laws.done

/-! ## Assembly -/

section Assembly

variable {compile : CompilingValue ι}

theorem applyFormat (laws : course.Laws place fuel) (keywords : Keywords) (kind : SchemaKind)
    (common : Common) (shape : Shape ι) :
    Takes course (Compiling.applyFormat keywords kind common shape) := by
  refine laws.bind laws.get fun compiler => ?_
  dsimp only
  split
  · exact laws.pure _
  · split <;> exact laws.pure _

theorem primitive (laws : course.Laws place fuel) (keywords : Keywords) (kind : SchemaKind)
    (common : Common) (shape : Reading (Shape ι)) :
    Takes course (Compiling.primitive keywords kind common shape) :=
  laws.bind (laws.applyFormat keywords kind common shape.value) fun _ => laws.pure _

theorem ahead {γ : Type} (laws : course.Laws place fuel) (add : ι → γ) {part : Compiling ι}
    {rest : Compiling (List γ × List LocatedError)} (hpart : Takes course (Compiling.attempt part))
    (hrest : Takes course rest) :
    Takes course (Compiling.ahead add part rest) := by
  refine laws.bind hpart fun here => ?_
  refine laws.bind hrest fun more => ?_
  dsimp only
  split <;> exact laws.pure _

theorem named (laws : course.Laws place fuel) (parts : AttemptsParts course place compile)
    (path : Path) :
    ∀ {schemas}, (∀ name schema, (name, schema) ∈ schemas → place schema (path.child name)) →
      Takes course (Compiling.named compile path schemas)
  | [], _ => laws.pure _
  | (name, schema) :: rest, hplace => by
      rw [named_cons]
      refine laws.ahead _ (parts _ _ _ (hplace _ _ List.mem_cons_self)) ?_
      exact laws.named parts path fun _ _ hmem => hplace _ _ (List.mem_cons_of_mem _ hmem)

theorem declared (laws : course.Laws place fuel) (parts : AttemptsParts course place compile)
    (path : Path) :
    ∀ {schemas}, (∀ name schema, (name, schema) ∈ schemas → place schema (path.child name)) →
      Takes course (Compiling.declared compile fuel path schemas)
  | [], _ => laws.pure _
  | (name, schema) :: rest, hplace => by
      refine laws.bind (laws.access (hplace _ _ List.mem_cons_self)) fun access => ?_
      refine laws.bind (parts _ _ _ (hplace _ _ List.mem_cons_self)) fun here => ?_
      refine laws.bind (laws.declared parts path fun _ _ hmem =>
        hplace _ _ (List.mem_cons_of_mem _ hmem)) fun more => ?_
      dsimp only
      split <;> exact laws.pure _

theorem variants (laws : course.Laws place fuel) (parts : AttemptsParts course place compile)
    (path : Path) :
    ∀ {index schemas},
      (∀ i schema, schemas[i]? = some schema → place schema (path.item (index + i))) →
      Takes course (Compiling.variants compile path index schemas)
  | _, [], _ => laws.pure _
  | index, variant :: rest, hplace => by
      cases href : (variant.get? "$ref").bind Json.asStr? with
      | none =>
          rw [variants_skip href]
          exact laws.variants parts path (items_rest hplace)
      | some reference =>
          rw [variants_cons href]
          exact laws.ahead _ (parts _ _ _ (hplace 0 variant rfl))
            (laws.variants parts path (items_rest hplace))

theorem each (laws : course.Laws place fuel) (parts : AttemptsParts course place compile)
    (path : Path) (flag : Nat → Bool) :
    ∀ {index schemas},
      (∀ i schema, schemas[i]? = some schema → place schema (path.item (index + i))) →
      Takes course (Compiling.each compile path flag index schemas)
  | _, [], _ => laws.pure _
  | index, schema :: rest, hplace => by
      rw [each_cons]
      exact laws.ahead _ (parts _ _ _ (hplace 0 schema rfl))
        (laws.each parts path flag (items_rest hplace))

theorem array (laws : course.Laws place fuel) (parts : AttemptsParts course place compile)
    {keywords : Keywords} (common : Common) (hplace : place (.obj keywords.schema) keywords.path) :
    Takes course (Compiling.array compile keywords common) := by
  rw [Compiling.array]
  split
  · exact laws.bind laws.get fun _ => laws.pure _
  · rename_i hraw
    refine laws.bind (parts _ _ _ (laws.raw hplace hraw)) fun here => ?_
    split <;> exact laws.pure _

theorem additional (laws : course.Laws place fuel) (parts : AttemptsParts course place compile)
    {keywords : Keywords} (hplace : place (.obj keywords.schema) keywords.path) :
    Takes course (Compiling.additional compile keywords) := by
  rw [Compiling.additional]
  split
  · exact laws.pure _
  · exact laws.pure _
  · exact laws.pure _
  · rename_i hraw
    refine laws.bind (parts _ _ _ (laws.raw hplace hraw)) fun here => ?_
    split <;> exact laws.pure _
  · exact laws.pure _

theorem object (laws : course.Laws place fuel) (parts : AttemptsParts course place compile)
    {keywords : Keywords} (common : Common) (hplace : place (.obj keywords.schema) keywords.path) :
    Takes course (Compiling.object compile fuel keywords common) := by
  refine laws.bind (laws.declared parts _ (laws.members hplace _)) fun declared => ?_
  refine laws.bind (laws.additional parts hplace) fun policy => ?_
  refine laws.bind (laws.named parts _ (laws.members hplace _)) fun patterns => ?_
  dsimp only
  split
  · exact laws.pure _
  · refine laws.bind laws.get fun compiler => ?_
    split <;> exact laws.pure _

theorem polymorphic (laws : course.Laws place fuel) (parts : AttemptsParts course place compile)
    (keywords : Keywords) (common : Common) (discriminator : List (String × Json))
    {extensions : List (String × Json)}
    (hplace : ∀ name schema, (name, schema) ∈ extensions →
      place schema (keywords.path.parent.child name)) :
    Takes course (Compiling.polymorphic compile keywords common discriminator extensions) := by
  rw [Compiling.polymorphic]
  split
  · exact laws.pure _
  · refine laws.bind (laws.named parts _ hplace) fun found => ?_
    dsimp only
    split <;> exact laws.pure _

theorem discriminatedUnion (laws : course.Laws place fuel)
    (parts : AttemptsParts course place compile) (keywords : Keywords) (common : Common)
    (discriminator : List (String × Json)) {keyword : String} {alternatives : List Json}
    (hplace : place (.arr alternatives) (keywords.path.child keyword)) :
    Takes course (Compiling.discriminatedUnion compile keywords common discriminator keyword
      alternatives) := by
  rw [Compiling.discriminatedUnion]
  split
  · exact laws.pure _
  · refine laws.bind (laws.variants parts _ (laws.items hplace)) fun found => ?_
    dsimp only
    split <;> exact laws.pure _

theorem combination (laws : course.Laws place fuel) (parts : AttemptsParts course place compile)
    (keywords : Keywords) (common : Common) {keyword : String} (flag : Nat → Bool)
    {schemas : List Json} (combine : List ι → Shape ι)
    (hplace : place (.arr schemas) (keywords.path.child keyword)) :
    Takes course (Compiling.combination compile keywords common keyword flag schemas combine) := by
  refine laws.bind (laws.each parts _ _ (laws.items hplace)) fun found => ?_
  dsimp only
  split <;> exact laws.pure _

theorem negation (laws : course.Laws place fuel) (parts : AttemptsParts course place compile)
    {keywords : Keywords} (common : Common) (hplace : place (.obj keywords.schema) keywords.path) :
    Takes course (Compiling.negation compile keywords common) := by
  rw [Compiling.negation]
  split
  · exact laws.pure _
  · rename_i hraw
    refine laws.bind (parts _ _ _ (laws.raw hplace hraw)) fun here => ?_
    split <;> exact laws.pure _
  · rename_i hraw
    exact laws.combination parts _ _ _ _ (laws.raw hplace hraw)
  · exact laws.pure _

theorem governing (laws : course.Laws place fuel) (parts : AttemptsParts course place compile)
    {keywords : Keywords} (common : Common) (hplace : place (.obj keywords.schema) keywords.path) :
    Takes course (Compiling.governing compile keywords common) := by
  unfold Compiling.governing
  split
  · rename_i hall
    exact laws.combination parts _ _ _ _ (laws.raw hplace (listOf_raw hall))
  · rename_i hany
    exact laws.combination parts _ _ _ _ (laws.raw hplace (listOf_raw hany))
  · rename_i hone
    exact laws.combination parts _ _ _ _ (laws.raw hplace (listOf_raw hone))
  · exact laws.negation parts _ hplace

theorem union (laws : course.Laws place fuel) (parts : AttemptsParts course place compile)
    {keywords : Keywords} (common : Common) (discriminator : Option (List (String × Json)))
    (hplace : place (.obj keywords.schema) keywords.path) :
    Takes course (Compiling.union compile keywords common discriminator) := by
  unfold Compiling.union
  split
  · rename_i halternatives
    exact laws.discriminatedUnion parts _ _ _ (laws.raw hplace (alternatives_raw halternatives))
  · exact laws.governing parts _ hplace

theorem structured (laws : course.Laws place fuel) (parts : AttemptsParts course place compile)
    {keywords : Keywords} (common : Common) (discriminator : Option (List (String × Json)))
    {extensions : List (String × Json)} (hplace : place (.obj keywords.schema) keywords.path)
    (hextensions : ∀ name schema, (name, schema) ∈ extensions →
      place schema (keywords.path.parent.child name)) :
    Takes course (Compiling.structured compile fuel keywords common discriminator extensions) := by
  unfold Compiling.structured
  split
  · exact laws.polymorphic parts _ _ _ hextensions
  · exact laws.object parts _ hplace

theorem assemble (laws : course.Laws place fuel) (parts : AttemptsParts course place compile)
    {keywords : Keywords} (common : Common) (kind : Option SchemaKind) (flag : Bool)
    (hplace : place (.obj keywords.schema) keywords.path) :
    Takes course (Compiling.assemble compile fuel keywords common kind flag) := by
  unfold Compiling.assemble
  split
  · exact laws.primitive _ _ _ _
  · exact laws.primitive _ _ _ _
  · exact laws.primitive _ _ _ _
  · exact laws.primitive _ _ _ _
  · exact laws.array parts _ hplace
  · intro c
    rw [run_bind_of_ok (run_get c)]
    -- the schemas that take part depend on the compiler that is related to the one after them
    by_cases hasks : ∀ failure d, course c failure d
    · exact hasks _ _
    · refine laws.bind (laws.structured parts _ _ hplace ?_) (fun _ => laws.pure _) c
      intro name schema hmem
      rcases laws.extension hplace (mem_participants hmem) with h | h
      · exact h
      · exact absurd h hasks
  · exact laws.bind (laws.union parts _ _ hplace) fun _ => laws.pure _

end Assembly

end Course.Laws

namespace Course.NodeLaws

variable {course : Course} {place : Json → Path → Prop} {fuel : Nat} {compile : CompilingValue ι}

theorem refuse (laws : course.NodeLaws place fuel) (errors : SchemaErrors) :
    Takes course (fail (.errors errors) : Compiling α) :=
  fun c => laws.refused c errors

/-- A part that takes the course does so too if its errors are kept. -/
theorem attempts (laws : course.NodeLaws place fuel) (parts : TakesParts course place compile) :
    AttemptsParts course place compile := by
  intro written path flag hplace c
  have hpart := parts written path flag hplace c
  rw [run_attempt]
  rcases hrun : compile written path path flag c with ⟨(errors | _ | _) | a, d⟩ <;>
    rw [hrun] at hpart
  · exact laws.caught hpart
  · exact hpart
  · exact hpart
  · exact hpart

/-- What holds across the compilation of parts holds across the compilation of a node. -/
theorem node (laws : course.NodeLaws place fuel) (parts : TakesParts course place compile)
    {schema : List (String × Json)} {path : Path} (flag : Bool)
    (hplace : place (.obj schema) path) :
    Takes course (Compiling.node compile fuel schema path flag) := by
  refine laws.bind laws.get fun compiler => ?_
  dsimp only
  split
  · exact laws.refuse _
  · refine laws.bind (laws.assemble (laws.attempts parts) _ _ _ hplace) fun assembly => ?_
    split
    · exact laws.refuse _
    · exact laws.pure _
    · exact laws.refuse _

end Course.NodeLaws

/-! ## Frames -/

/-- Across the compilation of whatever stands at a place, a relation holds. -/
def KeepsParts (R : Compiler → Compiler → Prop) (place : Json → Path → Prop)
    (compile : CompilingValue ι) : Prop :=
  ∀ written path flag, place written path → Keeps R (compile written path path flag)

/-- A relation that composes and holds where the access of a property is read. Where it holds
between a compiler and every other one, there is nothing to show. -/
structure Frame (R : Compiler → Compiler → Prop) (place : Json → Path → Prop) : Prop extends
    Composes R, Places place where
  onlyResolver : ∀ {c d}, OnlyResolver c d → R c d
  extension : ∀ {c entries path name schema}, place (.obj entries) path →
    (name, schema) ∈ Compiling.extensions c path →
    place schema (path.parent.child name) ∨ ∀ d, R c d

namespace Frame

variable {place : Json → Path → Prop}

theorem access (frame : Frame R place) (fuel : Nat) (schema : Json) :
    Keeps R (Compiling.access fuel schema) :=
  fun c => frame.onlyResolver (access_onlyResolver fuel schema c)

/-- A relation is a course that is the same for all failures. -/
theorem laws (frame : Frame R place) (fuel : Nat) :
    Course.NodeLaws (fun c _ d => R c d) place fuel where
  done := frame.refl
  refused c _ := frame.refl c
  next := frame.trans
  caught h := h
  access _ := frame.access fuel _
  toPlaces := frame.toPlaces
  extension hplace hmem := (frame.extension hplace hmem).imp_right fun h _ => h

theorem attempts (frame : Frame R place) {compile : CompilingValue ι}
    (parts : KeepsParts R place compile) : AttemptsParts (fun c _ d => R c d) place compile :=
  (frame.laws 0).attempts parts

/-- What holds across the compilation of parts holds across the compilation of a node. -/
theorem node (frame : Frame R place) {compile : CompilingValue ι}
    (parts : KeepsParts R place compile) (fuel : Nat) {schema : List (String × Json)} {path : Path}
    (flag : Bool) (hplace : place (.obj schema) path) :
    Keeps R (Compiling.node compile fuel schema path flag) :=
  (frame.laws fuel).node parts flag hplace

end Frame

end Compiling

end SchemaGraph

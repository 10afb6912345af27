import SchemaGraph.Proofs.Compiler.Frame
import SchemaGraph.Proofs.Node

set_option autoImplicit false

/-! # Two ways to compile the parts of a node

When a node is assembled twice, with two ways to compile its parts and from two related
compilers, and the first assembly finds nothing wrong, then the second gives an alike node: the
assembly looks at nothing of a part but what names its node. Parts that go along give nodes that
go along.

A first assembly that finds nothing wrong has compiled every part; what is known about parts is
therefore only asked for where they compile, and only in runs that end before a given compiler,
on the way to which nothing is lost.
-/

namespace SchemaGraph

namespace Compiling

variable {α β γ ι κ : Type}

/-! ## Second runs -/

/-- How a second run goes along with a first one that ended well in `d`: it runs out of fuel, or
it ends well too, in a state related to `d` and with a value as it should be. -/
def Follows (states : Compiler → Compiler → Prop) (good : β → Prop)
    (run : Except CompileFailure β × Compiler) (d : Compiler) : Prop :=
  run.1 = .error .outOfFuel ∨ ∃ b d', run = (.ok b, d') ∧ states d d' ∧ good b

section Follows

variable {states : Compiler → Compiler → Prop} {c' d u : Compiler}

theorem Follows.pure {good : β → Prop} {b : β} (hstates : states d c') (hgood : good b) :
    Follows states good ((Pure.pure b : Compiling β) c') d :=
  .inr ⟨b, c', rfl, hstates, hgood⟩

theorem Follows.get {good : β → Prop} {f : Compiler → Compiling β}
    (h : Follows states good (f c' c') d) :
    Follows states good ((MonadState.get >>= f) c') d := by
  rw [run_bind_of_ok (run_get c')]
  exact h

theorem Follows.bind {good : β → Prop} {better : γ → Prop} {m : Compiling β}
    {f : β → Compiling γ} (hm : Follows states good (m c') u)
    (hf : ∀ b u', states u u' → good b → Follows states better (f b u') d) :
    Follows states better ((m >>= f) c') d := by
  rcases hm with hfuel | ⟨b, u', hrun, hstates, hgood⟩
  · refine .inl ?_
    rw [run_bind]
    rcases hc : m c' with ⟨r, u'⟩
    rw [hc] at hfuel
    cases hfuel
    rfl
  · rw [run_bind_of_ok hrun]
    exact hf b u' hstates hgood

theorem Follows.attempt {good : β → Prop} {part : Compiling β}
    (h : Follows states good (part c') d) :
    Follows states (fun here => ∃ b, here = .ok b ∧ good b) (attempt part c') d := by
  rcases h with hfuel | ⟨b, d', hrun, hstates, hgood⟩
  · refine .inl ?_
    rw [run_attempt]
    rcases hc : part c' with ⟨r, u'⟩
    rw [hc] at hfuel
    cases hfuel
    rfl
  · exact .inr ⟨.ok b, d', run_attempt_of_ok hrun, hstates, b, rfl, hgood⟩

theorem Follows.ahead {add : ι → α} {add' : κ → β} {related : α → β → Prop} {nodes : ι → κ → Prop}
    {part' : Compiling κ} {rest' : Compiling (List β × List LocatedError)} {node : ι}
    {more : List α} (hadd : ∀ {k}, nodes node k → related (add node) (add' k))
    (hpart : Follows states (nodes node) (part' c') u)
    (hrest : ∀ u', states u u' → Follows states
      (fun r => ∃ more', r = (more', []) ∧ List.Forall₂ related more more') (rest' u') d) :
    Follows states (fun r => ∃ found', r = (found', []) ∧
      List.Forall₂ related (add node :: more) found') (Compiling.ahead add' part' rest' c') d := by
  refine Follows.bind (.attempt hpart) ?_
  rintro here' u' hsu ⟨node', rfl, hnode⟩
  refine Follows.bind (hrest u' hsu) ?_
  rintro _ d' hsd ⟨more', rfl, hmore⟩
  exact .pure hsd ⟨_, rfl, .cons (hadd hnode) hmore⟩

end Follows

/-! ## Parts in lockstep -/

/-- Two ways to compile what stands at places, `compile` and `compile'`, for runs of the first
that end on the way to `last`. -/
structure Lockstep (R : Compiler → Compiler → Prop) (place : Json → Path → Prop) (last : Compiler)
    (states : Compiler → Compiler → Prop) (nodes : ι → κ → Prop)
    (compile : CompilingValue ι) (fuel : Nat) (compile' : CompilingValue κ) (fuel' : Nat) :
    Prop extends Frame R place where
  parts : KeepsParts R place compile
  config : ∀ {c c'}, states c c' → c'.config = c.config
  formats : ∀ {c c'}, states c c' → c'.formats = c.formats
  extensions : ∀ {c c' entries path}, states c c' → place (.obj entries) path →
    extensions c' path = extensions c path
  beside : ∀ {c c' entries path name schema}, states c c' → place (.obj entries) path →
    (name, schema) ∈ Compiling.extensions c path → place schema (path.parent.child name)
  reads : ∀ {c c' schema path a d}, states c c' → place schema path →
    Compiling.access fuel schema c = (.ok a, d) → R d last →
    Follows states (· = a) (Compiling.access fuel' schema c') d
  part : ∀ {c c' written path flag i d}, states c c' → place written path →
    compile written path path flag c = (.ok i, d) → R d last →
    Follows states (nodes i) (compile' written path path flag c') d

namespace Lockstep

variable {R : Compiler → Compiler → Prop} {last : Compiler} {states : Compiler → Compiler → Prop}
  {nodes : ι → κ → Prop} {place : Json → Path → Prop}
  {compile : CompilingValue ι} {fuel : Nat} {compile' : CompilingValue κ} {fuel' : Nat}
  {c c' d : Compiler}

/-- What comes before a run on the way to the last compiler is on that way. -/
theorem back (lock : Lockstep R place last states nodes compile fuel compile' fuel')
    {m : Compiling α} (hm : Keeps R m) {r : Except CompileFailure α} (h : m c = (r, d))
    (hlast : R d last) : R c last := by
  have hkeep := hm c
  rw [h] at hkeep
  exact lock.trans hkeep hlast

theorem messages (lock : Lockstep R place last states nodes compile fuel compile' fuel')
    (hs : states c c') : c'.messages = c.messages :=
  congrArg Config.messages (lock.config hs)

theorem attempts (lock : Lockstep R place last states nodes compile fuel compile' fuel') :
    AttemptsParts (fun c _ d => R c d) place compile :=
  lock.toFrame.attempts lock.parts

/-! ## Lists of parts -/

theorem named (lock : Lockstep R place last states nodes compile fuel compile' fuel') (path : Path)
    {schemas : List (String × Json)} :
    ∀ {c c' found d}, (∀ name schema, (name, schema) ∈ schemas → place schema (path.child name)) →
      states c c' → named compile path schemas c = (.ok (found, []), d) → R d last →
      Follows states (fun r => ∃ found', r = (found', []) ∧ Entries.Alike nodes found found')
        (Compiling.named compile' path schemas c') d := by
  induction schemas with
  | nil =>
      intro c c' found d _ hs h _
      cases h
      exact .pure hs ⟨[], rfl, .nil⟩
  | cons entry rest ih =>
      obtain ⟨name, schema⟩ := entry
      intro c c' found d hplace hs h hlast
      have hrestPlace : ∀ name schema, (name, schema) ∈ rest → place schema (path.child name) :=
        fun _ _ hmem => hplace _ _ (List.mem_cons_of_mem _ hmem)
      rw [named_cons] at h ⊢
      obtain ⟨node, u, more, hnode, hrest, rfl⟩ := ahead_ok h
      have hu : R u last :=
        lock.back ((lock.laws fuel).named lock.attempts path hrestPlace) hrest hlast
      exact Follows.ahead (fun hk => ⟨rfl, hk⟩)
        (lock.part hs (hplace _ _ List.mem_cons_self) hnode hu)
        fun u' hsu => ih hrestPlace hsu hrest hlast

theorem declared (lock : Lockstep R place last states nodes compile fuel compile' fuel')
    (path : Path)
    {schemas : List (String × Json)} :
    ∀ {c c' d} {found : Declared ι},
      (∀ name schema, (name, schema) ∈ schemas → place schema (path.child name)) →
      states c c' → declared compile fuel path schemas c = (.ok found, d) → found.errors = [] →
      R d last →
      Follows states (fun found' => found'.errors = [] ∧ found'.readOnly = found.readOnly ∧
          found'.writeOnly = found.writeOnly ∧
          Entries.Alike nodes found.properties found'.properties)
        (Compiling.declared compile' fuel' path schemas c') d := by
  induction schemas with
  | nil =>
      intro c c' d found _ hs h _ _
      cases h
      exact .pure hs ⟨rfl, rfl, rfl, .nil⟩
  | cons entry rest ih =>
      obtain ⟨name, schema⟩ := entry
      intro c c' d found hplace hs h hclean hlast
      have hrestPlace : ∀ name schema, (name, schema) ∈ rest → place schema (path.child name) :=
        fun _ _ hmem => hplace _ _ (List.mem_cons_of_mem _ hmem)
      have hschema := hplace name schema List.mem_cons_self
      obtain ⟨access, t, haccess, h⟩ := bind_ok h
      obtain ⟨here, u, hhere, h⟩ := bind_ok h
      obtain ⟨more, v, hrest, h⟩ := bind_ok h
      cases here with
      | error errors =>
          cases h
          cases hclean
      | ok node =>
          cases h
          have hu : R u last :=
            lock.back ((lock.laws fuel).declared lock.attempts path hrestPlace) hrest hlast
          have ht : R t last := lock.back (keeps_attempt (lock.parts _ _ _ hschema)) hhere hu
          refine Follows.bind (lock.reads hs hschema haccess ht) ?_
          rintro access' t' hst rfl
          refine Follows.bind (.attempt (lock.part hst hschema (attempt_ok hhere) hu)) ?_
          rintro here' u' hsu ⟨node', rfl, hnode⟩
          refine Follows.bind (ih hrestPlace hsu hrest hclean hlast) ?_
          rintro more' d' hsd ⟨herrors, hreadOnly, hwriteOnly, hmore⟩
          refine .pure hsd ⟨herrors, ?_, ?_, .cons hnode hmore⟩
          · show (if access'.readOnly then _ else _) = (if access'.readOnly then _ else _)
            rw [hreadOnly]
          · show (if access'.writeOnly then _ else _) = (if access'.writeOnly then _ else _)
            rw [hwriteOnly]

theorem variants (lock : Lockstep R place last states nodes compile fuel compile' fuel')
    (path : Path)
    {schemas : List Json} :
    ∀ {index c c' found d},
      (∀ i schema, schemas[i]? = some schema → place schema (path.item (index + i))) →
      states c c' → variants compile path index schemas c = (.ok (found, []), d) → R d last →
      Follows states (fun r => ∃ found', r = (found', []) ∧ Entries.Alike nodes found found')
        (Compiling.variants compile' path index schemas c') d := by
  induction schemas with
  | nil =>
      intro index c c' found d _ hs h _
      cases h
      exact .pure hs ⟨[], rfl, .nil⟩
  | cons variant rest ih =>
      intro index c c' found d hplace hs h hlast
      cases href : (variant.get? "$ref").bind Json.asStr? with
      | none =>
          rw [variants_skip href] at h ⊢
          exact ih (items_rest hplace) hs h hlast
      | some reference =>
          rw [variants_cons href] at h ⊢
          obtain ⟨node, u, more, hnode, hrest, rfl⟩ := ahead_ok h
          have hu : R u last :=
            lock.back ((lock.laws fuel).variants lock.attempts path (items_rest hplace)) hrest hlast
          exact Follows.ahead (fun hk => ⟨rfl, hk⟩) (lock.part hs (hplace 0 variant rfl) hnode hu)
            fun u' hsu => ih (items_rest hplace) hsu hrest hlast

theorem each (lock : Lockstep R place last states nodes compile fuel compile' fuel') (path : Path)
    (flag : Nat → Bool) {schemas : List Json} :
    ∀ {index c c' found d},
      (∀ i schema, schemas[i]? = some schema → place schema (path.item (index + i))) →
      states c c' → each compile path flag index schemas c = (.ok (found, []), d) → R d last →
      Follows states (fun r => ∃ found', r = (found', []) ∧ List.Forall₂ nodes found found')
        (Compiling.each compile' path flag index schemas c') d := by
  induction schemas with
  | nil =>
      intro index c c' found d _ hs h _
      cases h
      exact .pure hs ⟨[], rfl, .nil⟩
  | cons schema rest ih =>
      intro index c c' found d hplace hs h hlast
      rw [each_cons] at h ⊢
      obtain ⟨node, u, more, hnode, hrest, rfl⟩ := ahead_ok h
      have hu : R u last :=
        lock.back ((lock.laws fuel).each lock.attempts path flag (items_rest hplace)) hrest hlast
      exact Follows.ahead (fun hk => hk) (lock.part hs (hplace 0 schema rfl) hnode hu)
        fun u' hsu => ih (items_rest hplace) hsu hrest hlast

/-! ## Unions -/

/-- Names and what explicit names find: alike as far as the nodes are. -/
theorem mappingOf_alike (discriminator : List (String × Json)) {given : List (String × ι)}
    {given' : List (String × κ)} (h : Entries.Alike nodes given given') {find : String → Option ι}
    {find' : String → Option κ} (hfind : ∀ target, Option.Rel nodes (find target) (find' target)) :
    Entries.Alike nodes (mappingOf discriminator given find)
      (mappingOf discriminator given' find') := by
  unfold mappingOf
  dsimp only
  generalize ((Entries.find? "mapping" discriminator).bind Json.asObj?).getD [] = explicit
  induction explicit generalizing given given' with
  | nil => exact h
  | cons entry rest ih =>
      obtain ⟨value, target⟩ := entry
      rw [List.foldl_cons, List.foldl_cons]
      refine ih ?_
      have hrel : Option.Rel nodes (target.asStr?.bind find) (target.asStr?.bind find') := by
        cases target.asStr? with
        | none => exact Option.Rel.none
        | some name => exact hfind name
      cases hx : target.asStr?.bind find <;> cases hy : target.asStr?.bind find' <;>
        rw [hx, hy] at hrel
      · exact h
      · cases hrel
      · cases hrel
      · cases hrel with
        | some hnode => exact h.insertLast hnode

theorem foldl_insertLast_alike {found : List (String × ι)} {found' : List (String × κ)}
    (h : Entries.Alike nodes found found') {done : List (String × ι)} {done' : List (String × κ)}
    (hdone : Entries.Alike nodes done done') :
    Entries.Alike nodes
      (found.foldl (fun done (name, node) => Entries.insertLast name node done) done)
      (found'.foldl (fun done (name, node) => Entries.insertLast name node done) done') := by
  induction h generalizing done done' with
  | nil => exact hdone
  | @cons a b _ _ hab _ ih =>
      obtain ⟨name, node⟩ := a
      obtain ⟨_, node'⟩ := b
      obtain ⟨rfl, hnode⟩ := hab
      exact ih (hdone.insertLast hnode)

theorem distinct_alike {found : List (String × ι)} {found' : List (String × κ)}
    (h : Entries.Alike nodes found found') :
    Entries.Alike nodes (distinct found) (distinct found') :=
  foldl_insertLast_alike h .nil

/-- What a clean assembly is followed by: an assembly that is clean as well, of an alike node. -/
def CleanAs (nodes : ι → κ → Prop) (node : Node ι) (assembly : Assembly κ) : Prop :=
  ∃ node', assembly = .ofNode node' ∧ Node.Alike nodes node node'

theorem polymorphic (lock : Lockstep R place last states nodes compile fuel compile' fuel')
    {keywords : Keywords} {common : Common} {discriminator extensions : List (String × Json)}
    (hplace : ∀ name schema, (name, schema) ∈ extensions →
      place schema (keywords.path.parent.child name)) (hs : states c c') {node : Node ι}
    (h : polymorphic compile keywords common discriminator extensions c = (.ok (.ofNode node), d))
    (hlast : R d last) :
    Follows states (CleanAs nodes node)
      (Compiling.polymorphic compile' keywords common discriminator extensions c') d := by
  unfold Compiling.polymorphic at h ⊢
  cases hproperty : propertyOf? discriminator with
  | none =>
      rw [hproperty] at h
      cases h
  | some property =>
      rw [hproperty] at h
      obtain ⟨⟨found, errors⟩, u, hfound, h⟩ := bind_ok h
      cases errors with
      | cons first rest => cases h
      | nil =>
          cases h
          refine Follows.bind (lock.named _ hplace hs hfound hlast) ?_
          rintro _ u' hsu ⟨found', rfl, halike⟩
          refine .pure hsu ⟨_, rfl, .typed _ (.discriminated _ (mappingOf_alike _ halike ?_))⟩
          intro target
          have hfirst := halike.find? target
          cases hx : Entries.find? target found <;> cases hy : Entries.find? target found' <;>
            rw [hx, hy] at hfirst
          · exact halike.find? (lastPiece target)
          · cases hfirst
          · cases hfirst
          · exact hfirst

theorem discriminatedUnion (lock : Lockstep R place last states nodes compile fuel compile' fuel')
    {keywords : Keywords} {common : Common} {discriminator : List (String × Json)}
    {keyword : String}
    {alternatives : List Json} (hplace : place (.arr alternatives) (keywords.path.child keyword))
    (hs : states c c') {node : Node ι}
    (h : discriminatedUnion compile keywords common discriminator keyword alternatives c =
      (.ok (.ofNode node), d)) (hlast : R d last) :
    Follows states (CleanAs nodes node)
      (Compiling.discriminatedUnion compile' keywords common discriminator keyword alternatives c')
      d := by
  unfold Compiling.discriminatedUnion at h ⊢
  cases hproperty : propertyOf? discriminator with
  | none =>
      rw [hproperty] at h
      cases h
  | some property =>
      rw [hproperty] at h
      obtain ⟨⟨found, errors⟩, u, hfound, h⟩ := bind_ok h
      cases errors with
      | cons first rest => cases h
      | nil =>
          cases h
          refine Follows.bind (lock.variants _ (lock.items hplace) hs hfound hlast) ?_
          rintro _ u' hsu ⟨found', rfl, halike⟩
          have hreferences := distinct_alike halike
          exact .pure hsu ⟨_, rfl, .typed _ (.discriminated _ (mappingOf_alike _
            (distinct_alike (hreferences.mapKeys referenceName)) hreferences.find?))⟩

/-! ## Combinations -/

theorem combination (lock : Lockstep R place last states nodes compile fuel compile' fuel')
    {keywords : Keywords} {common : Common} {keyword : String} {flag : Nat → Bool}
    {schemas : List Json} {combine : List ι → Shape ι} {combine' : List κ → Shape κ}
    (hcombine : ∀ {is ks}, List.Forall₂ nodes is ks → Shape.Alike nodes (combine is) (combine' ks))
    (hplace : place (.arr schemas) (keywords.path.child keyword)) (hs : states c c') {node : Node ι}
    (h : combination compile keywords common keyword flag schemas combine c =
      (.ok (.ofNode node), d)) (hlast : R d last) :
    Follows states (CleanAs nodes node)
      (Compiling.combination compile' keywords common keyword flag schemas combine' c') d := by
  obtain ⟨⟨found, errors⟩, u, hfound, h⟩ := bind_ok h
  cases errors with
  | cons first rest => cases h
  | nil =>
      cases h
      refine Follows.bind (lock.each _ flag (lock.items hplace) hs hfound hlast) ?_
      rintro _ u' hsu ⟨found', rfl, halike⟩
      exact .pure hsu ⟨_, rfl, .typed _ (hcombine halike)⟩

theorem negation (lock : Lockstep R place last states nodes compile fuel compile' fuel')
    {keywords : Keywords} {common : Common} (hplace : place (.obj keywords.schema) keywords.path)
    (hs : states c c') {node : Node ι}
    (h : negation compile keywords common c = (.ok (.ofNode node), d)) (hlast : R d last) :
    Follows states (CleanAs nodes node) (Compiling.negation compile' keywords common c') d := by
  unfold Compiling.negation at h ⊢
  cases hraw : keywords.raw? "not" with
  | none =>
      rw [hraw] at h
      cases h
      exact .pure hs ⟨_, rfl, .typed _ .any⟩
  | some written =>
      have hwritten := lock.raw hplace hraw
      rw [hraw] at h
      cases written with
      | obj entries =>
          obtain ⟨here, u, hhere, h⟩ := bind_ok h
          cases here with
          | error found => cases h
          | ok found =>
              cases h
              refine Follows.bind (.attempt (lock.part hs hwritten (attempt_ok hhere) hlast)) ?_
              rintro _ u' hsu ⟨found', rfl, hnode⟩
              exact .pure hsu ⟨_, rfl, .typed _ (.not (.cons hnode .nil))⟩
      | arr schemas =>
          cases schemas with
          | nil => cases h
          | cons first rest =>
              exact lock.combination (fun hnodes => .not hnodes) hwritten hs h hlast
      | _ => cases h

theorem governing (lock : Lockstep R place last states nodes compile fuel compile' fuel')
    {keywords : Keywords} {common : Common} (hplace : place (.obj keywords.schema) keywords.path)
    (hs : states c c') {node : Node ι}
    (h : governing compile keywords common c = (.ok (.ofNode node), d)) (hlast : R d last) :
    Follows states (CleanAs nodes node) (Compiling.governing compile' keywords common c') d := by
  unfold Compiling.governing at h ⊢
  cases hall : listOf? keywords "allOf" with
  | some schemas =>
      rw [hall] at h
      exact lock.combination (fun hnodes => .allOf hnodes)
        (lock.raw hplace (listOf_raw hall)) hs h
        hlast
  | none =>
      cases hany : listOf? keywords "anyOf" with
      | some schemas =>
          rw [hall, hany] at h
          exact lock.combination (fun hnodes => .anyOf hnodes)
            (lock.raw hplace (listOf_raw hany))
            hs h hlast
      | none =>
          cases hone : listOf? keywords "oneOf" with
          | some schemas =>
              rw [hall, hany, hone] at h
              exact lock.combination (fun hnodes => .oneOf hnodes)
                (lock.raw hplace (listOf_raw hone)) hs h hlast
          | none =>
              rw [hall, hany, hone] at h
              exact lock.negation hplace hs h hlast

theorem union (lock : Lockstep R place last states nodes compile fuel compile' fuel')
    {keywords : Keywords} {common : Common} {discriminator : Option (List (String × Json))}
    (hplace : place (.obj keywords.schema) keywords.path) (hs : states c c') {node : Node ι}
    (h : union compile keywords common discriminator c = (.ok (.ofNode node), d))
    (hlast : R d last) :
    Follows states (CleanAs nodes node) (Compiling.union compile' keywords common discriminator c')
      d := by
  unfold Compiling.union at h ⊢
  cases discriminator with
  | none => exact lock.governing hplace hs h hlast
  | some discriminator =>
      cases halternatives : alternatives? keywords with
      | none =>
          rw [halternatives] at h
          exact lock.governing hplace hs h hlast
      | some found =>
          rw [halternatives] at h
          exact lock.discriminatedUnion
            (lock.raw hplace (alternatives_raw halternatives)) hs h hlast

/-! ## Types -/

/-- An assembly that is clean after errors were put in front was clean before. -/
theorem clean_of_leading {errors : List LocatedError} {assembly : Assembly ι} {node : Node ι}
    (h : { assembly with own := errors ++ assembly.own } = Assembly.ofNode node) :
    errors = [] ∧ assembly = .ofNode node := by
  obtain ⟨found, own, rest⟩ := assembly
  injection h with hnode hown hparts
  obtain ⟨herrors, hown⟩ := List.append_eq_nil_iff.1 hown
  subst hnode hown hparts
  exact ⟨herrors, rfl⟩

/-- An assembly with a node is clean if its keywords are. -/
theorem clean_node {found node : Node ι} {own : List LocatedError}
    (h : (⟨some found, own, []⟩ : Assembly ι) = .ofNode node) : found = node ∧ own = [] := by
  injection h with hnode hown
  exact ⟨Option.some.inj hnode, hown⟩

theorem applyFormat (lock : Lockstep R place last states nodes compile fuel compile' fuel')
    (keywords : Keywords) (kind : SchemaKind) {common : Common} {shape : Shape ι} {shape' : Shape κ}
    (hshape : Shape.Alike nodes shape shape') (hs : states c c') {node : Node ι}
    (h : applyFormat keywords kind common shape c = (.ok (.ofNode node), d)) :
    Follows states (CleanAs nodes node)
      (Compiling.applyFormat keywords kind common shape' c') d := by
  obtain ⟨compiler, u, hget, h⟩ := bind_ok h
  cases hget
  refine Follows.get ?_
  dsimp only at h ⊢
  rw [lock.formats hs, lock.config hs, lock.messages hs]
  cases hname : (keywords.string "format").value with
  | none =>
      rw [hname] at h
      obtain ⟨hclean, rfl⟩ := pure_ok h
      obtain ⟨rfl, hown⟩ := clean_node hclean
      dsimp only
      rw [hown]
      exact .pure hs ⟨_, rfl, .typed _ hshape⟩
  | some name =>
      rw [hname] at h
      dsimp only at h ⊢
      cases hformat : c.formats.find? kind name with
      | some format =>
          rw [hformat] at h
          cases h
          exact .pure hs ⟨_, rfl, format.apply_alike common hshape⟩
      | none =>
          rw [hformat] at h
          obtain ⟨hclean, rfl⟩ := pure_ok h
          obtain ⟨rfl, hown⟩ := clean_node hclean
          dsimp only
          rw [hown]
          exact .pure hs ⟨_, rfl, .typed _ hshape⟩

theorem primitive (lock : Lockstep R place last states nodes compile fuel compile' fuel')
    (keywords : Keywords) (kind : SchemaKind) {common : Common} {shape : Shape ι} {shape' : Shape κ}
    {errors : List LocatedError} (hshape : Shape.Alike nodes shape shape') (hs : states c c')
    {node : Node ι}
    (h : primitive keywords kind common ⟨shape, errors⟩ c = (.ok (.ofNode node), d)) :
    Follows states (CleanAs nodes node)
      (Compiling.primitive keywords kind common ⟨shape', errors⟩ c') d := by
  obtain ⟨assembly, u, hformat, h⟩ := bind_ok h
  obtain ⟨hclean, rfl⟩ := pure_ok h
  obtain ⟨rfl, rfl⟩ := clean_of_leading hclean
  refine Follows.bind (lock.applyFormat keywords kind hshape hs hformat) ?_
  rintro _ u' hsu ⟨node', rfl, hnode⟩
  exact .pure hsu ⟨_, rfl, hnode⟩

theorem array (lock : Lockstep R place last states nodes compile fuel compile' fuel')
    {keywords : Keywords} {common : Common} (hplace : place (.obj keywords.schema) keywords.path)
    (hs : states c c') {node : Node ι}
    (h : array compile keywords common c = (.ok (.ofNode node), d)) (hlast : R d last) :
    Follows states (CleanAs nodes node) (Compiling.array compile' keywords common c') d := by
  unfold Compiling.array at h ⊢
  cases hraw : keywords.raw? "items" with
  | none =>
      rw [hraw] at h
      cases h
  | some items =>
      rw [hraw] at h
      obtain ⟨here, u, hhere, h⟩ := bind_ok h
      cases here with
      | error found => cases h
      | ok found =>
          obtain ⟨hclean, rfl⟩ := pure_ok h
          obtain ⟨rfl, herrors⟩ := clean_node hclean
          refine Follows.bind (.attempt (lock.part hs (lock.raw hplace hraw) (attempt_ok hhere)
            hlast)) ?_
          rintro _ u' hsu ⟨found', rfl, hfound⟩
          have herrors' : (keywords.arrayShape found').errors = [] := herrors
          dsimp only
          rw [herrors']
          exact .pure hsu ⟨_, rfl, .typed _ (.array hfound _ _ _)⟩

theorem additional (lock : Lockstep R place last states nodes compile fuel compile' fuel')
    {keywords : Keywords} (hplace : place (.obj keywords.schema) keywords.path) (hs : states c c')
    {policy : Additional ι} {own : List LocatedError}
    (h : additional compile keywords c = (.ok (policy, own, []), d)) (hlast : R d last) :
    Follows states (fun r => ∃ policy', r = (policy', own, []) ∧
      Additional.Alike nodes policy policy')
      (Compiling.additional compile' keywords c') d := by
  unfold Compiling.additional at h ⊢
  cases hraw : keywords.raw? "additionalProperties" with
  | none =>
      rw [hraw] at h
      cases h
      exact .pure hs ⟨_, rfl, .allow⟩
  | some written =>
      have hwritten := lock.raw hplace hraw
      rw [hraw] at h
      cases written with
      | bool allowed =>
          cases allowed with
          | true =>
              cases h
              exact .pure hs ⟨_, rfl, .allow⟩
          | false =>
              cases h
              exact .pure hs ⟨_, rfl, .deny⟩
      | obj schema =>
          obtain ⟨here, u, hhere, h⟩ := bind_ok h
          cases here with
          | error found => cases h
          | ok found =>
              cases h
              refine Follows.bind (.attempt (lock.part hs hwritten (attempt_ok hhere) hlast)) ?_
              rintro _ u' hsu ⟨found', rfl, hnode⟩
              exact .pure hsu ⟨_, rfl, .schema hnode⟩
      | _ =>
          cases h
          exact .pure hs ⟨_, rfl, .allow⟩

theorem object (lock : Lockstep R place last states nodes compile fuel compile' fuel')
    {keywords : Keywords} {common : Common} (hplace : place (.obj keywords.schema) keywords.path)
    (hs : states c c') {node : Node ι}
    (h : object compile fuel keywords common c = (.ok (.ofNode node), d)) (hlast : R d last) :
    Follows states (CleanAs nodes node) (Compiling.object compile' fuel' keywords common c') d := by
  obtain ⟨declared, t, hdeclared, hrun⟩ := bind_ok h
  obtain ⟨⟨policy, policyErrors, policyParts⟩, u, hpolicy, hrest⟩ := bind_ok hrun
  obtain ⟨⟨patterns, patternParts⟩, v, hpatterns, hbuilt⟩ := bind_ok hrest
  dsimp only at hbuilt
  split at hbuilt
  · -- errors of parts leave no node
    cases hbuilt
  · rename_i hparts
    have hparts : declared.errors ++ policyParts ++ patternParts = [] := by
      simpa using hparts
    obtain ⟨hfirst, rfl⟩ := List.append_eq_nil_iff.1 hparts
    obtain ⟨hclean, rfl⟩ := List.append_eq_nil_iff.1 hfirst
    obtain ⟨compiler, w, hget, hnode⟩ := bind_ok hbuilt
    cases hget
    generalize hbuild : ObjectDraft.build _ = built at hnode
    cases built with
    | error e => cases hnode
    | ok shape =>
        obtain ⟨hassembly, rfl⟩ := pure_ok hnode
        obtain ⟨rfl, hown⟩ := clean_node hassembly
        have hu : R u last :=
          lock.back ((lock.laws fuel).named lock.attempts _ (lock.members hplace _)) hpatterns
          hlast
        have ht : R t last := lock.back ((lock.laws fuel).additional lock.attempts hplace) hpolicy hu
        refine Follows.bind (lock.declared _ (lock.members hplace _) hs hdeclared hclean ht) ?_
        rintro declared' t' hst ⟨hclean', hreadOnly, hwriteOnly, hproperties⟩
        refine Follows.bind (lock.additional hplace hst hpolicy hu) ?_
        rintro _ u' hsu ⟨policy', rfl, hadditional⟩
        refine Follows.bind (lock.named _ (lock.members hplace _) hsu hpatterns hlast) ?_
        rintro _ v' hsv ⟨patterns', rfl, hpatternNodes⟩
        dsimp only
        rw [hclean']
        refine Follows.get ?_
        have halike : ∀ required size, ObjectDraft.Alike nodes
            ⟨declared.properties, required, patterns, policy, declared.readOnly, declared.writeOnly,
              size⟩
            ⟨declared'.properties, required, patterns', policy', declared'.readOnly,
              declared'.writeOnly, size⟩ :=
          fun _ _ => ⟨hproperties, rfl, hpatternNodes, hadditional, hreadOnly, hwriteOnly, rfl⟩
        obtain ⟨shape', hbuild', hshape⟩ := ObjectDraft.build_alike (halike _ _) hbuild
        rw [hbuild', hown, lock.messages hsv]
        exact .pure hsv ⟨_, rfl, .typed _ (.object hshape)⟩

theorem structured (lock : Lockstep R place last states nodes compile fuel compile' fuel')
    {keywords : Keywords} {common : Common} {discriminator : Option (List (String × Json))}
    {extensions : List (String × Json)} (hplace : place (.obj keywords.schema) keywords.path)
    (hextensions : ∀ name schema, (name, schema) ∈ extensions →
      place schema (keywords.path.parent.child name)) (hs : states c c') {node : Node ι}
    (h : structured compile fuel keywords common discriminator extensions c =
      (.ok (.ofNode node), d)) (hlast : R d last) :
    Follows states (CleanAs nodes node)
      (Compiling.structured compile' fuel' keywords common discriminator extensions c') d := by
  unfold Compiling.structured at h ⊢
  cases discriminator with
  | none => exact lock.object hplace hs h hlast
  | some discriminator =>
      cases extensions with
      | nil => exact lock.object hplace hs h hlast
      | cons first rest => exact lock.polymorphic hextensions hs h hlast

theorem assemble (lock : Lockstep R place last states nodes compile fuel compile' fuel')
    {keywords : Keywords} {common : Common} (kind : Option SchemaKind) (flag : Bool)
    (hplace : place (.obj keywords.schema) keywords.path) (hs : states c c') {node : Node ι}
    (h : assemble compile fuel keywords common kind flag c = (.ok (.ofNode node), d))
    (hlast : R d last) :
    Follows states (CleanAs nodes node)
      (Compiling.assemble compile' fuel' keywords common kind flag c') d := by
  cases kind with
  | none =>
      obtain ⟨assembly, u, hunion, h⟩ := bind_ok h
      obtain ⟨hclean, rfl⟩ := pure_ok h
      obtain ⟨herrors, rfl⟩ := clean_of_leading hclean
      refine Follows.bind (lock.union hplace hs hunion hlast) ?_
      rintro _ u' hsu ⟨node', rfl, hnode⟩
      rw [herrors]
      exact .pure hsu ⟨_, rfl, hnode⟩
  | some kind =>
      cases kind with
      | string => exact lock.primitive _ _ (.string _) hs h
      | number => exact lock.primitive _ _ (.number _) hs h
      | integer => exact lock.primitive _ _ (.integer _) hs h
      | boolean => exact lock.primitive _ _ .boolean hs h
      | array => exact lock.array hplace hs h hlast
      | object =>
          obtain ⟨compiler, t, hget, h⟩ := bind_ok h
          cases hget
          obtain ⟨assembly, u, hstructured, h⟩ := bind_ok h
          obtain ⟨hclean, rfl⟩ := pure_ok h
          obtain ⟨herrors, rfl⟩ := clean_of_leading hclean
          refine Follows.get ?_
          have hparticipants : participants c' keywords flag
              (keywords.mapping "discriminator").value
              = participants c keywords flag (keywords.mapping "discriminator").value := by
            unfold participants
            rw [lock.extensions hs hplace]
          rw [hparticipants]
          refine Follows.bind (lock.structured hplace ?_ hs hstructured hlast) ?_
          · intro name schema hmem
            exact lock.beside hs hplace (mem_participants hmem)
          · rintro _ u' hsu ⟨node', rfl, hnode⟩
            rw [herrors]
            exact .pure hsu ⟨_, rfl, hnode⟩

/-- A node that was compiled is followed by an alike node. -/
theorem node (lock : Lockstep R place last states nodes compile fuel compile' fuel')
    {schema : List (String × Json)} {path : Path} (flag : Bool) (hplace : place (.obj schema) path)
    (hs : states c c') {node : Node ι}
    (h : Compiling.node compile fuel schema path flag c = (.ok node, d)) (hlast : R d last) :
    Follows states (Node.Alike nodes node)
      (Compiling.node compile' fuel' schema path flag c') d := by
  obtain ⟨compiler, t, hget, h⟩ := bind_ok h
  cases hget
  refine Follows.get ?_
  dsimp only at h ⊢
  rw [lock.messages hs]
  cases hkind : SchemaKind.ofSchema schema c.messages with
  | error violation =>
      rw [hkind] at h
      cases h
  | ok kind =>
      rw [hkind] at h
      obtain ⟨assembly, u, hassemble, h⟩ := bind_ok h
      dsimp only at h ⊢
      generalize ((⟨schema, path, c.messages⟩ : Keywords).flag "deprecated").errors =
        deprecated at h ⊢
      generalize hcommon : (⟨schema, path, c.messages⟩ : Keywords).common = common at h hassemble ⊢
      cases herrors : deprecated ++ common.errors ++ assembly.own ++ assembly.parts with
      | cons first rest =>
          rw [herrors] at h
          cases h
      | nil =>
          rw [herrors] at h
          obtain ⟨found, own, parts⟩ := assembly
          obtain ⟨hleading, hparts⟩ := List.append_eq_nil_iff.1 herrors
          obtain ⟨-, hown⟩ := List.append_eq_nil_iff.1 hleading
          cases found with
          | none => cases h
          | some found =>
              cases h
              cases hown
              cases hparts
              refine Follows.bind (lock.assemble kind flag hplace hs hassemble hlast) ?_
              rintro _ u' hsu ⟨node', rfl, hnode⟩
              have hempty : deprecated ++ common.errors ++ [] ++ [] = [] := herrors
              have hclean : SchemaErrors.ofList? (deprecated ++ common.errors ++
                  (Assembly.ofNode node').own ++ (Assembly.ofNode node').parts) = none := by
                show SchemaErrors.ofList? (deprecated ++ common.errors ++ [] ++ []) = none
                rw [hempty]
                rfl
              rw [hclean]
              exact .pure hsu hnode

end Lockstep

end Compiling

end SchemaGraph

import SchemaGraph.Proofs.Compiler.Made

set_option autoImplicit false

/-! # Parts one after another

The parts of a schema compile one after another, whether those before compile or fail, and between
two of them nothing happens but that references are resolved (`Compiling.Runs`). So a list of parts
reports the errors of all parts that fail, in the order in which the parts stand
(`Compiling.named_runs`, `each_runs`, `variants_runs`, `declared_runs`).
-/

namespace SchemaGraph

namespace Compiling

variable {α ι : Type} {compile : CompilingValue ι} {c d u : Compiler}

/-! ## Runs of parts -/

/-- A schema, its location, and whether schemas that extend it take part. -/
abbrev PlacedSchema := Json × Path × Bool

/-- The errors of the parts that failed. -/
def errorsOf : List (Except SchemaErrors ι) → List LocatedError
  | [] => []
  | .ok _ :: rest => errorsOf rest
  | .error found :: rest => found.toList ++ errorsOf rest

theorem errorsOf_append (results later : List (Except SchemaErrors ι)) :
    errorsOf (results ++ later) = errorsOf results ++ errorsOf later := by
  induction results with
  | nil => rfl
  | cons result rest ih =>
      cases result with
      | ok node => exact ih
      | error found =>
          show found.toList ++ errorsOf (rest ++ later) = found.toList ++ errorsOf rest ++ _
          rw [ih, List.append_assoc]

/-- There are no errors exactly if all parts compiled. -/
theorem errorsOf_eq_nil {results : List (Except SchemaErrors ι)} :
    errorsOf results = [] ↔ ∀ result ∈ results, ∃ node, result = .ok node := by
  induction results with
  | nil => exact ⟨fun _ => List.forall_mem_nil _, fun _ => rfl⟩
  | cons result rest ih =>
      rw [List.forall_mem_cons, ← ih]
      cases result with
      | ok node => exact ⟨fun h => ⟨⟨node, rfl⟩, h⟩, And.right⟩
      | error found =>
          refine ⟨fun h => ?_, fun h => nomatch h.1⟩
          exact absurd (List.append_eq_nil_iff.1 h).1 (List.cons_ne_nil _ _)

/-- Parts compile one after another, with nothing but references resolved in between. -/
inductive Runs (compile : CompilingValue ι) :
    Compiler → List PlacedSchema → List (Except SchemaErrors ι) → Compiler → Prop where
  | nil {c d : Compiler} (between : OnlyResolver c d) : Runs compile c [] [] d
  | cons {c u v d : Compiler} {part : PlacedSchema} {rest : List PlacedSchema}
      {result : Except SchemaErrors ι} {results : List (Except SchemaErrors ι)}
      (between : OnlyResolver c u)
      (here : attempt (compile part.1 part.2.1 part.2.1 part.2.2) u = (.ok result, v))
      (later : Runs compile v rest results d) :
      Runs compile c (part :: rest) (result :: results) d

namespace Runs

variable {parts later : List PlacedSchema} {results results' : List (Except SchemaErrors ι)}

theorem refl (c : Compiler) : Runs compile c [] [] c := .nil (onlyResolver_composes.refl c)

theorem single {part : PlacedSchema} {result : Except SchemaErrors ι}
    (h : attempt (compile part.1 part.2.1 part.2.1 part.2.2) c = (.ok result, d)) :
    Runs compile c [part] [result] d :=
  .cons (onlyResolver_composes.refl c) h (.refl d)

/-- References may be resolved before. -/
theorem after (hbetween : OnlyResolver c u) (h : Runs compile u parts results d) :
    Runs compile c parts results d := by
  cases h with
  | nil between => exact .nil (onlyResolver_composes.trans hbetween between)
  | cons between here later =>
      exact .cons (onlyResolver_composes.trans hbetween between) here later

theorem append (h : Runs compile c parts results u) (h' : Runs compile u later results' d) :
    Runs compile c (parts ++ later) (results ++ results') d := by
  induction h with
  | nil between => exact h'.after between
  | cons between here _ ih => exact .cons between here (ih h')

/-- What every part keeps, and resolving references does, is kept. -/
theorem keeps {R : Compiler → Compiler → Prop} (comp : Composes R)
    (hresolver : ∀ {c d}, OnlyResolver c d → R c d)
    (hparts : ∀ written path flag, Keeps R (compile written path path flag))
    (h : Runs compile c parts results d) : R c d := by
  induction h with
  | nil between => exact hresolver between
  | @cons c u v d part rest result results between here _ ih =>
      have hpart := keeps_attempt (hparts part.1 part.2.1 part.2.2) u
      rw [here] at hpart
      exact comp.trans (hresolver between) (comp.trans hpart ih)

/-- If all parts of a run compile, they are compiled on the way to its end. -/
theorem parts_compile (hkeeps : KeepsParts Compiler.Grows Compiler.anyPlace compile)
    {nodes : List ι} (h : Runs compile c parts (nodes.map .ok) d) :
    PartsCompile compile d parts nodes := by
  generalize hresults : nodes.map Except.ok = results at h
  induction h generalizing nodes with
  | nil between =>
      obtain rfl := List.map_eq_nil_iff.1 hresults
      exact .nil
  | cons between here later ih =>
      obtain ⟨node, rest, rfl, rfl, hrest⟩ := List.map_eq_cons_iff.1 hresults
      have hgrows := later.keeps Compiler.grows_composes Compiler.grows_frame.onlyResolver
        fun written path flag => hkeeps written path flag trivial
      exact .cons ⟨_, _, attempt_ok here, hgrows⟩ (ih hrest)

end Runs

/-! ## Lists of parts -/

theorem ahead_attempts {add : ι → α} {part : Compiling ι}
    {rest : Compiling (List α × List LocatedError)} {found : List α} {errors : List LocatedError}
    (h : ahead add part rest c = (.ok (found, errors), d)) :
    ∃ result u more later, attempt part c = (.ok result, u) ∧ rest u = (.ok (more, later), d) ∧
      errors = errorsOf [result] ++ later ∧
      ∀ node, result = .ok node → found = add node :: more := by
  obtain ⟨result, u, hhere, h⟩ := bind_ok h
  obtain ⟨⟨more, later⟩, v, hrest, h⟩ := bind_ok h
  cases result with
  | ok node =>
      cases h
      refine ⟨_, u, _, _, hhere, hrest, rfl, fun _ heq => ?_⟩
      cases heq
      rfl
  | error errors =>
      cases h
      refine ⟨_, u, _, _, hhere, hrest, ?_, nofun⟩
      show _ = (errors.toList ++ []) ++ _
      rw [List.append_nil]

/-- Named schemas with their locations. -/
def namedParts (path : Path) (schemas : List (String × Json)) : List PlacedSchema :=
  schemas.map fun entry => (entry.2, path.child entry.1, true)

/-- Named schemas run one after another. If all compile, every name has a node. -/
theorem named_runs {path : Path} {schemas : List (String × Json)} :
    ∀ {c nodes errors}, named compile path schemas c = (.ok (nodes, errors), d) →
      ∃ results, Runs compile c (namedParts path schemas) results d ∧ errors = errorsOf results ∧
        (errors = [] → nodes.map Prod.fst = schemas.map Prod.fst) := by
  induction schemas with
  | nil =>
      intro c nodes errors h
      cases h
      exact ⟨[], .refl _, rfl, fun _ => rfl⟩
  | cons entry rest ih =>
      obtain ⟨name, schema⟩ := entry
      intro c nodes errors h
      rw [named_cons] at h
      obtain ⟨result, u, more, later, hhere, hrest, rfl, hnode⟩ := ahead_attempts h
      obtain ⟨results, hruns, rfl, hnames⟩ := ih hrest
      refine ⟨result :: results, .cons (onlyResolver_composes.refl c) hhere hruns,
        (errorsOf_append [result] results).symm, fun hnil => ?_⟩
      obtain ⟨hfirst, hrest⟩ := List.append_eq_nil_iff.1 hnil
      obtain ⟨node, hok⟩ := errorsOf_eq_nil.1 hfirst result List.mem_cons_self
      rw [hnode node hok, List.map_cons, hnames hrest, List.map_cons]

theorem each_runs {path : Path} {flag : Nat → Bool} {schemas : List Json} :
    ∀ {index c nodes errors}, each compile path flag index schemas c = (.ok (nodes, errors), d) →
      ∃ results, Runs compile c (partsFrom path flag index schemas) results d ∧
        errors = errorsOf results := by
  induction schemas with
  | nil =>
      intro index c nodes errors h
      cases h
      exact ⟨[], .refl _, rfl⟩
  | cons schema rest ih =>
      intro index c nodes errors h
      rw [each_cons] at h
      obtain ⟨result, u, more, later, hhere, hrest, rfl, -⟩ := ahead_attempts h
      obtain ⟨results, hruns, rfl⟩ := ih hrest
      exact ⟨result :: results, .cons (onlyResolver_composes.refl c) hhere hruns,
        (errorsOf_append [result] results).symm⟩

/-- The schema of a part is a reference. -/
def refers (part : PlacedSchema) : Bool := ((part.1.get? "$ref").bind Json.asStr?).isSome

/-- The references among some schemas. -/
def references (schemas : List Json) : List String :=
  schemas.filterMap fun schema => (schema.get? "$ref").bind Json.asStr?

/-- The references among alternatives run one after another. If all compile, every reference has a
node. -/
theorem variants_runs {path : Path} {alternatives : List Json} :
    ∀ {index c nodes errors},
      variants compile path index alternatives c = (.ok (nodes, errors), d) →
      ∃ results, Runs compile c ((partsFrom path (fun _ => true) index alternatives).filter refers)
        results d ∧ errors = errorsOf results ∧ (errors = [] →
          nodes.map Prod.fst = references alternatives ∧
            results = (nodes.map Prod.snd).map .ok) := by
  induction alternatives with
  | nil =>
      intro index c nodes errors h
      cases h
      exact ⟨[], .refl _, rfl, fun _ => ⟨rfl, rfl⟩⟩
  | cons variant rest ih =>
      intro index c nodes errors h
      have hrefers : refers (variant, path.item index, true) =
          ((variant.get? "$ref").bind Json.asStr?).isSome := rfl
      cases href : (variant.get? "$ref").bind Json.asStr? with
      | none =>
          rw [href] at hrefers
          rw [variants_skip href] at h
          have hreferences : references (variant :: rest) = references rest :=
            List.filterMap_cons_none href
          rw [hreferences, partsFrom, List.filter_cons_of_neg (Bool.eq_false_iff.1 hrefers)]
          exact ih h
      | some reference =>
          rw [href] at hrefers
          rw [variants_cons href] at h
          have hreferences : references (variant :: rest) = reference :: references rest :=
            List.filterMap_cons_some href
          rw [hreferences, partsFrom, List.filter_cons_of_pos hrefers]
          obtain ⟨result, u, more, later, hhere, hrest, rfl, hnode⟩ := ahead_attempts h
          obtain ⟨results, hruns, rfl, hall⟩ := ih hrest
          refine ⟨result :: results, .cons (onlyResolver_composes.refl c) hhere hruns,
            (errorsOf_append [result] results).symm, fun hnil => ?_⟩
          obtain ⟨hfirst, hlater⟩ := List.append_eq_nil_iff.1 hnil
          obtain ⟨node, rfl⟩ := errorsOf_eq_nil.1 hfirst result List.mem_cons_self
          obtain ⟨hnames, rfl⟩ := hall hlater
          rw [hnode node rfl]
          exact ⟨congrArg (reference :: ·) hnames, rfl⟩

/-! ## Properties -/

/-- The names of the properties whose access is of some kind. -/
def namesWhere (test : Access → Bool) : List (String × Json) → List Access → List String
  | (name, _) :: schemas, access :: accesses =>
      if test access then name :: namesWhere test schemas accesses
      else namesWhere test schemas accesses
  | _, _ => []

theorem namesWhere_subset {test : Access → Bool} {name : String} {schemas : List (String × Json)} :
    ∀ {accesses}, name ∈ namesWhere test schemas accesses → name ∈ schemas.map Prod.fst := by
  induction schemas with
  | nil =>
      intro accesses h
      cases h
  | cons entry rest ih =>
      intro accesses h
      cases accesses with
      | nil => cases h
      | cons access accesses =>
          unfold namesWhere at h
          split at h
          · rcases List.mem_cons.1 h with rfl | h
            · exact List.mem_cons_self
            · exact List.mem_cons_of_mem _ (ih h)
          · exact List.mem_cons_of_mem _ (ih h)

/-- The accesses of properties, each as it was read at some time. -/
def AccessesOf (fuel : Nat) (schemas : List (String × Json)) (accesses : List Access) : Prop :=
  List.Forall₂ (fun entry found => ∃ u v, access fuel entry.2 u = (.ok found, v)) schemas accesses

/-- The properties of an object run one after another, and so are their accesses read. If all
compile, every name has a node. -/
theorem declared_runs {fuel : Nat} {path : Path} {schemas : List (String × Json)} :
    ∀ {c found}, declared compile fuel path schemas c = (.ok found, d) →
      ∃ results accesses, Runs compile c (namedParts path schemas) results d ∧
        AccessesOf fuel schemas accesses ∧ found.errors = errorsOf results ∧
        found.readOnly = namesWhere Access.readOnly schemas accesses ∧
        found.writeOnly = namesWhere Access.writeOnly schemas accesses ∧
        (found.errors = [] → found.properties.map Prod.fst = schemas.map Prod.fst) := by
  induction schemas with
  | nil =>
      intro c found h
      cases h
      exact ⟨[], [], .refl _, .nil, rfl, rfl, rfl, fun _ => rfl⟩
  | cons entry rest ih =>
      obtain ⟨name, schema⟩ := entry
      intro c found h
      obtain ⟨access, u, haccess, h⟩ := bind_ok h
      obtain ⟨result, v, hhere, h⟩ := bind_ok h
      obtain ⟨more, w, hrest, h⟩ := bind_ok h
      obtain rfl : w = d := by cases result <;> (cases h; rfl)
      obtain ⟨results, accesses, hruns, haccesses, herrors, hread, hwrite, hnames⟩ := ih hrest
      -- the access of a property is read between two parts, which resolves references
      have hbetween : OnlyResolver c u := by
        have hkept := access_onlyResolver fuel schema c
        rwa [haccess] at hkept
      refine ⟨result :: results, access :: accesses, .cons hbetween hhere hruns,
        .cons ⟨c, u, haccess⟩ haccesses, ?_⟩
      unfold namesWhere
      rw [← hread, ← hwrite]
      cases result with
      | ok node =>
          cases h
          refine ⟨herrors, rfl, rfl, fun hnil => ?_⟩
          show name :: more.properties.map Prod.fst = name :: rest.map Prod.fst
          rw [hnames hnil]
      | error errors =>
          cases h
          refine ⟨congrArg (errors.toList ++ ·) herrors, rfl, rfl, fun hnil => ?_⟩
          exact absurd (List.append_eq_nil_iff.1 hnil).1 (List.cons_ne_nil _ _)

end Compiling

end SchemaGraph

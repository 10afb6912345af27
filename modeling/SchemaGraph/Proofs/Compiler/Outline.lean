import SchemaGraph.Proofs.Buckets
import SchemaGraph.Proofs.Compiler.Parts

set_option autoImplicit false

/-! # What an assembly reports

Which mistakes in its keywords a schema tells of is laid down by the schema (`Outline`): most are
told whatever becomes of its parts, but some are looked for only once all parts have compiled. Every
assembly of a node reports what the outline of its schema lays down (`Outline.Lays`,
`Compiling.assemble_lays`).
-/

namespace SchemaGraph

/-! ## Drafts of objects -/

theorem mem_distinctNames {name : String} {names : List String} :
    name ∈ distinctNames names ↔ name ∈ names := by
  have hnames : (names.map fun name => (name, ())).map Prod.fst = names := by
    rw [List.map_map]
    exact List.map_id names
  obtain ⟨-, hsub, hall⟩ := @Entries.foldl_insertSorted Unit _ (names.map fun name => (name, ()))
    [] (fun _ h => h) List.Pairwise.nil fun _ h => by cases h
  rw [hnames] at hall
  constructor
  · intro h
    obtain ⟨entry, hentry, rfl⟩ := List.mem_map.1 h
    rw [← hnames]
    exact List.mem_map_of_mem (hsub entry hentry)
  · exact fun h => hall name (.inl h)

namespace ObjectDraft

variable {ι : Type} {draft : ObjectDraft ι}

/-- The first of some texts that is no regular expression. -/
def unreadable? (patterns : List String) : Option String :=
  patterns.find? fun text => (Pattern.read? text).isNone

theorem readPatterns_eq (patterns : List (String × ι)) :
    (∃ done, readPatterns patterns = .ok done ∧ unreadable? (patterns.map Prod.fst) = none) ∨
      ∃ text, readPatterns patterns = .error (.invalidPattern text) ∧
        unreadable? (patterns.map Prod.fst) = some text := by
  induction patterns with
  | nil => exact .inl ⟨[], rfl, rfl⟩
  | cons entry rest ih =>
      obtain ⟨text, node⟩ := entry
      unfold readPatterns unreadable?
      rw [List.map_cons, List.find?_cons]
      dsimp only
      cases Pattern.read? text with
      | none => exact .inr ⟨text, rfl, rfl⟩
      | some pattern =>
          rcases ih with ⟨done, hdone, hnone⟩ | ⟨other, hother, hsome⟩
          · exact .inl ⟨_, by rw [hdone]; rfl, hnone⟩
          · exact .inr ⟨other, by rw [hother]; rfl, hsome⟩

/-- A name that may neither be read nor written. -/
def overlaps (readOnly writeOnly : List String) : Bool := readOnly.any writeOnly.contains

/-- A draft whose restricted properties are declared is an object, unless a property is restricted
both ways, or a pattern is no regular expression. -/
theorem build_cases (hdeclared : ∀ name, name ∈ draft.readOnly ∨ name ∈ draft.writeOnly →
    name ∈ draft.properties.map Prod.fst) :
    (∃ text, draft.build = .error (.readWriteOverlap text) ∧
        overlaps draft.readOnly draft.writeOnly = true) ∨
      overlaps draft.readOnly draft.writeOnly = false ∧
        ((∃ shape, draft.build = .ok shape ∧ unreadable? (draft.patterns.map Prod.fst) = none) ∨
          ∃ text, draft.build = .error (.invalidPattern text) ∧
            unreadable? (draft.patterns.map Prod.fst) = some text) := by
  have hboth : ((distinctNames draft.readOnly).filter
      (distinctNames draft.writeOnly).contains).isEmpty =
        !overlaps draft.readOnly draft.writeOnly := by
    rw [Bool.eq_iff_iff, List.isEmpty_iff, List.filter_eq_nil_iff, Bool.not_eq_true',
      overlaps, List.any_eq_false]
    simp only [List.contains_iff_mem, mem_distinctNames]
  -- every restricted name is declared, so the last kind of error does not occur
  have hunknown : ((distinctNames draft.readOnly ++ distinctNames draft.writeOnly).filter
      fun name => !Entries.contains name draft.properties).isEmpty = true := by
    rw [List.isEmpty_iff, List.filter_eq_nil_iff]
    intro name hname
    rw [List.mem_append, mem_distinctNames, mem_distinctNames] at hname
    rw [Entries.contains_iff.2 (hdeclared name hname)]
    exact Bool.false_ne_true
  have hbuild : draft.build = if overlaps draft.readOnly draft.writeOnly then
      .error (.readWriteOverlap (commaDelimited ((distinctNames draft.readOnly).filter
        (distinctNames draft.writeOnly).contains)))
    else (readPatterns draft.patterns).map fun patterns => {
      properties := draft.properties
      required := distinctNames draft.required
      patterns, additional := draft.additional
      readOnly := distinctNames draft.readOnly
      writeOnly := distinctNames draft.writeOnly
      size := draft.size } := by
    unfold build
    dsimp only
    rw [hboth, hunknown, Bool.not_not]
    rfl
  rw [hbuild]
  cases overlaps draft.readOnly draft.writeOnly with
  | true => exact .inl ⟨_, rfl, rfl⟩
  | false =>
      refine .inr ⟨rfl, ?_⟩
      rcases readPatterns_eq draft.patterns with ⟨done, hdone, hnone⟩ | ⟨text, htext, hsome⟩
      · exact .inl ⟨_, by rw [hdone]; rfl, hnone⟩
      · exact .inr ⟨text, by rw [htext]; rfl, hsome⟩

end ObjectDraft

/-! ## Outlines -/

namespace Compiling

/-- What a schema has to report, whichever of its parts compile: the mistakes that are told in any
case, the parts, the properties whose accesses are read, and the mistakes that are told only if all
parts compile. -/
structure Outline where
  told : List LocatedError
  parts : List PlacedSchema
  accessed : List (String × Json)
  late : List Access → List LocatedError

namespace Outline

/-- No parts. -/
def alone (told : List LocatedError) : Outline := ⟨told, [], [], fun _ => []⟩

/-- Parts alone. -/
def ofParts (parts : List PlacedSchema) : Outline := ⟨[], parts, [], fun _ => []⟩

/-- Mistakes ahead of the others. -/
def ahead (errors : List LocatedError) (outline : Outline) : Outline :=
  { outline with told := errors ++ outline.told }

end Outline

end Compiling

namespace Keywords

open Compiling

/-- A format that is unknown, if the settings mind, or no text. -/
def formatErrors (keywords : Keywords) (config : Config) (formats : Formats) (kind : SchemaKind) :
    List LocatedError :=
  let name := keywords.string "format"
  match name.value with
  | none => name.errors
  | some name =>
      if (formats.find? kind name).isNone && config.strictFormats then
        [LocatedError.ofKey keywords.messages (keywords.path.child "format") .unknownFormat
          [name, kind.name]]
      else []

/-- The limits of a list are read after its items. -/
def arrayOutline (keywords : Keywords) : Outline :=
  match keywords.raw? "items" with
  | none => .alone [LocatedError.ofKey keywords.messages keywords.path .itemsRequired []]
  | some items =>
      { told := []
        parts := [(items, keywords.path.child "items", true)]
        accessed := []
        late := fun _ => (keywords.arrayShape ()).errors }

/-- What is wrong with the draft of an object all of whose parts compiled. -/
def draftErrors (keywords : Keywords) (patterns readOnly writeOnly : List String) :
    List LocatedError :=
  if ObjectDraft.overlaps readOnly writeOnly then
    [LocatedError.ofKey keywords.messages keywords.path .readOnlyAndWriteOnly []]
  else
    ((ObjectDraft.unreadable? patterns).map fun text => LocatedError.ofKey keywords.messages
      ((keywords.path.child "x-patternProperties").child text) .regexFormat []).toList

/-- The policy for other keys: what is wrong with it, and its part. -/
def policy (keywords : Keywords) : List LocatedError × List PlacedSchema :=
  match keywords.raw? "additionalProperties" with
  | none | some (.bool _) => ([], [])
  | some (.obj schema) => ([], [(.obj schema, keywords.path.child "additionalProperties", true)])
  | some _ => ([keywords.invalid "additionalProperties"], [])

/-- The draft of an object is put together after its parts. -/
def objectOutline (keywords : Keywords) : Outline :=
  let properties := keywords.mapping "properties"
  let patterns := keywords.mapping "x-patternProperties"
  let schemas := properties.value.getD []
  let patternSchemas := patterns.value.getD []
  { told := properties.errors ++ (keywords.names "required").errors ++ keywords.policy.1 ++
      patterns.errors ++ (keywords.count "minProperties").errors ++
      (keywords.count "maxProperties").errors
    parts := namedParts (keywords.path.child "properties") schemas ++ keywords.policy.2 ++
      namedParts (keywords.path.child "x-patternProperties") patternSchemas
    accessed := schemas
    late := fun accesses => keywords.draftErrors (patternSchemas.map Prod.fst)
      (namesWhere Access.readOnly schemas accesses) (namesWhere Access.writeOnly schemas accesses) }

/-- A union needs the name of its discriminating property. -/
def unionOutline (keywords : Keywords) (discriminator : List (String × Json))
    (parts : List PlacedSchema) : Outline :=
  match propertyOf? discriminator with
  | none => .alone [keywords.invalid "discriminator"]
  | some _ => .ofParts parts

/-- What a schema forbids is a schema or a list of some. -/
def negationOutline (keywords : Keywords) : Outline :=
  match keywords.raw? "not" with
  | none => .alone []
  | some (.obj _) | some (.arr (_ :: _)) => .ofParts (Combinator.not.parts keywords)
  | some _ => .alone [keywords.invalid "not"]

/-- The parts of a combination are those of the combinator that counts. -/
def governingOutline (keywords : Keywords) : Outline :=
  match Combinator.first? keywords with
  | none | some .not => keywords.negationOutline
  | some combinator => .ofParts (combinator.parts keywords)

/-- With a discriminator, alternatives are a union of those that are references. -/
def untypedOutline (keywords : Keywords) (discriminator : Option (List (String × Json))) :
    Outline :=
  match discriminator, alternatives? keywords with
  | some discriminator, some (keyword, schemas) =>
      keywords.unionOutline discriminator
        ((partsFrom (keywords.path.child keyword) (fun _ => true) 0 schemas).filter refers)
  | _, _ => keywords.governingOutline

/-- With a discriminator, an object that others extend is a union of these. -/
def structuredOutline (keywords : Keywords) (discriminator : Option (List (String × Json)))
    (extensions : List (String × Json)) : Outline :=
  match discriminator, extensions with
  | some discriminator, first :: rest =>
      keywords.unionOutline discriminator (namedParts keywords.path.parent (first :: rest))
  | _, _ => keywords.objectOutline

/-- What the assembly of a schema has to report, by its kind, the settings, and the schemas that
extend it. -/
def assemblyOutline (keywords : Keywords) (config : Config) (formats : Formats)
    (extensions : List (String × Json)) : Option SchemaKind → Outline
  | some .string =>
      .alone (keywords.textBounds.errors ++ keywords.formatErrors config formats .string)
  | some .number =>
      .alone (keywords.numericBounds.errors ++ keywords.formatErrors config formats .number)
  | some .integer =>
      .alone (keywords.numericBounds.errors ++ keywords.formatErrors config formats .integer)
  | some .boolean => .alone (keywords.formatErrors config formats .boolean)
  | some .array => keywords.arrayOutline
  | some .object =>
      let discriminator := keywords.mapping "discriminator"
      (keywords.structuredOutline discriminator.value extensions).ahead discriminator.errors
  | none =>
      let discriminator := keywords.mapping "discriminator"
      (keywords.untypedOutline discriminator.value).ahead discriminator.errors

/-- What a schema has to report, by its kind, the settings, and the schemas that extend it. -/
def outline (keywords : Keywords) (config : Config) (formats : Formats)
    (extensions : List (String × Json)) (kind : Option SchemaKind) : Outline :=
  (keywords.assemblyOutline config formats extensions kind).ahead
    ((keywords.flag "deprecated").errors ++ keywords.common.errors)

/-- Only lists and objects tell of mistakes late. -/
theorem late_eq_nil {keywords : Keywords} {config : Config} {formats : Formats}
    {extensions : List (String × Json)} {kind : Option SchemaKind} (harray : kind ≠ some .array)
    (hobject : kind ≠ some .object) (accesses : List Access) :
    (keywords.outline config formats extensions kind).late accesses = [] := by
  have hunion : ∀ discriminator parts, (keywords.unionOutline discriminator parts).late accesses =
      [] := by
    intro discriminator parts
    unfold unionOutline
    cases propertyOf? discriminator <;> rfl
  have hnegation : keywords.negationOutline.late accesses = [] := by
    unfold negationOutline
    split <;> rfl
  have hgoverning : keywords.governingOutline.late accesses = [] := by
    unfold governingOutline
    split
    · exact hnegation
    · exact hnegation
    · rfl
  cases kind with
  | none =>
      show (keywords.untypedOutline (keywords.mapping "discriminator").value).late accesses = []
      unfold untypedOutline
      split
      · exact hunion _ _
      · exact hgoverning
  | some kind =>
      cases kind with
      | array => exact absurd rfl harray
      | object => exact absurd rfl hobject
      | _ => rfl

end Keywords

/-! ## Assemblies -/

namespace Compiling

variable {ι : Type} {compile : CompilingValue ι} {c d u : Compiler} {outline : Outline} {fuel : Nat}
  {keywords : Keywords} {common : Common} {assembly : Assembly ι}

/-- A run over the parts of an outline reports what is told in any case, and then the errors of the
parts that failed. Only if there are none it reports what is told late. -/
def Outline.Reports (outline : Outline) (compile : CompilingValue ι) (fuel : Nat) (c : Compiler)
    (reported : List LocatedError) (d : Compiler) : Prop :=
  ∃ results accesses, Runs compile c outline.parts results d ∧
    AccessesOf fuel outline.accessed accesses ∧
    reported = outline.told ++
      if (errorsOf results).isEmpty then outline.late accesses else errorsOf results

/-- An assembly reports what the outline lays down, and something if there is no node. -/
structure Outline.Lays (outline : Outline) (compile : CompilingValue ι) (fuel : Nat) (c : Compiler)
    (assembly : Assembly ι) (d : Compiler) : Prop where
  reports : outline.Reports compile fuel c (assembly.own ++ assembly.parts) d
  refused : assembly.node = none → assembly.own ++ assembly.parts ≠ []

namespace Outline

theorem lays_alone {told : List LocatedError} (hown : assembly.own = told)
    (hparts : assembly.parts = []) (hnode : assembly.node = none → told ≠ []) :
    (alone told).Lays compile fuel c assembly c := by
  refine ⟨⟨[], [], .refl c, .nil, ?_⟩, fun h => ?_⟩
  · rw [hown, hparts]
    rfl
  · rw [hown, hparts, List.append_nil]
    exact hnode h

/-- A node of parts all of which compiled. -/
theorem lays_node {parts : List PlacedSchema} {results : List (Except SchemaErrors ι)}
    {node : Node ι} (hruns : Runs compile c parts results d) (herrors : [] = errorsOf results) :
    (ofParts parts).Lays compile fuel c (.ofNode node) d := by
  refine ⟨⟨results, [], hruns, .nil, ?_⟩, nofun⟩
  rw [← herrors]
  rfl

/-- The errors of the parts that did not compile. -/
theorem lays_incomplete {parts : List PlacedSchema} {results : List (Except SchemaErrors ι)}
    {error : LocatedError} {rest : List LocatedError} (hruns : Runs compile c parts results d)
    (herrors : error :: rest = errorsOf results) :
    (ofParts parts).Lays compile fuel c (.incomplete (error :: rest)) d := by
  refine ⟨⟨results, [], hruns, .nil, ?_⟩, fun _ => List.cons_ne_nil error rest⟩
  rw [← herrors]
  rfl

theorem Lays.ahead (h : outline.Lays compile fuel c assembly d) (errors : List LocatedError) :
    (outline.ahead errors).Lays compile fuel c
      { assembly with own := errors ++ assembly.own } d := by
  obtain ⟨results, accesses, hruns, haccesses, hreported⟩ := h.reports
  refine ⟨⟨results, accesses, hruns, haccesses, ?_⟩, fun hnone => ?_⟩
  · show errors ++ assembly.own ++ assembly.parts = errors ++ outline.told ++ _
    rw [List.append_assoc, hreported, ← List.append_assoc]
    rfl
  · show errors ++ assembly.own ++ assembly.parts ≠ []
    rw [List.append_assoc]
    exact List.append_ne_nil_of_right_ne_nil errors (h.refused hnone)

end Outline

/-! ### Kinds of schemas -/

theorem applyFormat_reports {kind : SchemaKind} {shape : Shape ι}
    (hmessages : keywords.messages = c.messages)
    (h : applyFormat keywords kind common shape c = (.ok assembly, d)) :
    d = c ∧ assembly.own = keywords.formatErrors c.config c.formats kind ∧ assembly.parts = [] ∧
      assembly.node ≠ none := by
  unfold applyFormat at h
  rw [run_bind_of_ok (run_get c)] at h
  unfold Keywords.formatErrors
  dsimp only at h ⊢
  cases hname : (keywords.string "format").value with
  | none =>
      rw [hname] at h
      cases h
      exact ⟨rfl, rfl, rfl, nofun⟩
  | some name =>
      rw [hname] at h
      dsimp only at h ⊢
      cases hformat : c.formats.find? kind name with
      | some format =>
          rw [hformat] at h
          cases h
          exact ⟨rfl, rfl, rfl, nofun⟩
      | none =>
          rw [hformat] at h
          cases h
          rw [hmessages]
          exact ⟨rfl, rfl, rfl, nofun⟩

theorem primitive_lays {kind : SchemaKind} {shape : Reading (Shape ι)}
    (hmessages : keywords.messages = c.messages)
    (h : primitive keywords kind common shape c = (.ok assembly, d)) :
    (Outline.alone (shape.errors ++ keywords.formatErrors c.config c.formats kind)).Lays compile
      fuel c assembly d := by
  obtain ⟨found, u, hformat, h⟩ := bind_ok h
  cases h
  obtain ⟨rfl, hown, hparts, hnode⟩ := applyFormat_reports hmessages hformat
  exact Outline.lays_alone (congrArg _ hown) hparts fun hnone => absurd hnone hnode

theorem array_lays (hmessages : keywords.messages = c.messages)
    (h : array compile keywords common c = (.ok assembly, d)) :
    keywords.arrayOutline.Lays compile fuel c assembly d := by
  unfold array at h
  unfold Keywords.arrayOutline
  cases hitems : keywords.raw? "items" with
  | none =>
      rw [hitems] at h
      cases h
      rw [hmessages]
      exact Outline.lays_alone rfl rfl fun _ => List.cons_ne_nil _ _
  | some items =>
      rw [hitems] at h
      obtain ⟨result, u, hhere, h⟩ := bind_ok h
      cases result with
      | error errors =>
          -- the limits are not read
          cases h
          refine ⟨⟨[.error errors], [], .single hhere, .nil, ?_⟩, fun _ => List.cons_ne_nil _ _⟩
          exact (List.append_nil errors.toList).symm
      | ok node =>
          cases h
          exact ⟨⟨[.ok node], [], .single hhere, .nil, List.append_nil _⟩, nofun⟩

theorem policy_runs {found : Additional ι × List LocatedError × List LocatedError}
    (h : additional compile keywords c = (.ok found, d)) :
    ∃ results, Runs compile c keywords.policy.2 results d ∧ found.2.1 = keywords.policy.1 ∧
      found.2.2 = errorsOf results := by
  unfold additional at h
  unfold Keywords.policy
  cases hpolicy : keywords.raw? "additionalProperties" with
  | none =>
      rw [hpolicy] at h
      cases h
      exact ⟨[], .refl c, rfl, rfl⟩
  | some written =>
      rw [hpolicy] at h
      cases written with
      | bool allowed =>
          cases allowed <;> (cases h; exact ⟨[], .refl c, rfl, rfl⟩)
      | obj schema =>
          obtain ⟨result, u, hhere, h⟩ := bind_ok h
          cases result with
          | ok node =>
              cases h
              exact ⟨[.ok node], .single hhere, rfl, rfl⟩
          | error errors =>
              cases h
              exact ⟨[.error errors], .single hhere, rfl, (List.append_nil _).symm⟩
      | _ =>
          cases h
          exact ⟨[], .refl c, rfl, rfl⟩

/-- The settings are as before. -/
def SameConfig (c d : Compiler) : Prop := d.config = c.config

theorem sameConfig_composes : Composes SameConfig where
  refl _ := rfl
  trans hab hbc := Eq.trans hbc hab

theorem OnlyResolver.sameConfig (h : OnlyResolver c d) : SameConfig c d := by
  unfold SameConfig
  rw [h.same]

/-- Compiling parts leaves the settings as they are. -/
def KeepsConfig (compile : CompilingValue ι) : Prop :=
  ∀ written path flag, Keeps SameConfig (compile written path path flag)

/-- What is wrong with a draft is the one error with which it is refused. -/
theorem draftErrors_eq (hmessages : c.messages = keywords.messages) {draft : ObjectDraft ι}
    (hrestricted : ∀ name, name ∈ draft.readOnly ∨ name ∈ draft.writeOnly →
      name ∈ draft.properties.map Prod.fst) :
    keywords.draftErrors (draft.patterns.map Prod.fst) draft.readOnly draft.writeOnly =
      match draft.build with
      | .ok _ => []
      | .error e => [draftError c keywords.path e] := by
  unfold Keywords.draftErrors
  rw [← hmessages]
  rcases ObjectDraft.build_cases hrestricted with ⟨text, hbuild, hoverlap⟩ |
    ⟨hapart, ⟨shape, hbuild, hread⟩ | ⟨text, hbuild, hread⟩⟩
  · rw [hbuild, hoverlap]
    rfl
  · rw [hbuild, hapart, hread]
    rfl
  · rw [hbuild, hapart, hread]
    rfl

/-- The draft of an object is looked at when all its parts have compiled. -/
theorem object_lays (hkeeps : KeepsConfig compile) (hmessages : keywords.messages = c.messages)
    (h : object compile fuel keywords common c = (.ok assembly, d)) :
    keywords.objectOutline.Lays compile fuel c assembly d := by
  obtain ⟨found, u, hdeclared, h⟩ := bind_ok h
  obtain ⟨⟨additional, policyErrors, additionalErrors⟩, v, hadditional, h⟩ := bind_ok h
  obtain ⟨⟨patternNodes, patternErrors⟩, w, hpatterns, h⟩ := bind_ok h
  obtain ⟨results, accesses, hruns, haccesses, herrors, hread, hwrite, hnames⟩ :=
    declared_runs hdeclared
  obtain ⟨policyResults, hpolicyRuns, hpolicy, hadditionalErrors⟩ := policy_runs hadditional
  obtain ⟨patternResults, hpatternRuns, hpatternErrors, hpatternNames⟩ := named_runs hpatterns
  have hall := (hruns.append hpolicyRuns).append hpatternRuns
  have hreported : errorsOf (results ++ policyResults ++ patternResults) =
      found.errors ++ additionalErrors ++ patternErrors := by
    rw [errorsOf_append, errorsOf_append, ← herrors, ← hpatternErrors]
    exact congrArg (found.errors ++ · ++ patternErrors) hadditionalErrors.symm
  generalize hown : keywords.objectOutline.told = own
  have hsame : (keywords.mapping "properties").errors ++ (keywords.names "required").errors ++
      policyErrors ++ (keywords.mapping "x-patternProperties").errors ++
      (keywords.count "minProperties").errors ++ (keywords.count "maxProperties").errors = own := by
    rw [← hown, show policyErrors = keywords.policy.1 from hpolicy]
    rfl
  dsimp only at h
  rw [hsame, ← hreported] at h
  cases hnil : (errorsOf (results ++ policyResults ++ patternResults)).isEmpty with
  | false =>
      rw [hnil] at h
      cases h
      refine ⟨⟨_, accesses, hall, haccesses, ?_⟩, fun _ => ?_⟩
      · rw [hown, hnil]
        rfl
      · exact List.append_ne_nil_of_right_ne_nil own (List.isEmpty_eq_false_iff.1 hnil)
  | true =>
      rw [hnil] at h
      rw [Bool.not_true, if_neg Bool.false_ne_true, run_bind_of_ok (run_get w)] at h
      have hcomplete : found.errors ++ additionalErrors ++ patternErrors = [] := by
        rw [← hreported]
        exact List.isEmpty_iff.1 hnil
      obtain ⟨hfirst, hpatternNil⟩ := List.append_eq_nil_iff.1 hcomplete
      have hproperties := hnames (List.append_eq_nil_iff.1 hfirst).1
      -- the draft is refused in the messages of the compiler after the parts
      have hmessages' : w.messages = keywords.messages := by
        have hconfig : w.config = c.config :=
          hall.keeps sameConfig_composes OnlyResolver.sameConfig hkeeps
        rw [hmessages]
        exact congrArg Config.messages hconfig
      generalize hdraft : ObjectDraft.mk found.properties _ patternNodes additional found.readOnly
        found.writeOnly _ = draft at h
      have hrestricted : ∀ name, name ∈ draft.readOnly ∨ name ∈ draft.writeOnly →
          name ∈ draft.properties.map Prod.fst := by
        rw [← hdraft]
        intro name hname
        dsimp only at hname ⊢
        rw [hproperties]
        rw [hread, hwrite] at hname
        exact hname.elim namesWhere_subset namesWhere_subset
      have hlate : keywords.objectOutline.late accesses =
          match draft.build with
          | .ok _ => []
          | .error e => [draftError w keywords.path e] := by
        rw [← draftErrors_eq hmessages' hrestricted, ← hdraft]
        dsimp only
        rw [hpatternNames hpatternNil, hread, hwrite]
        rfl
      have hreports : ∀ rest, rest = keywords.objectOutline.late accesses →
          keywords.objectOutline.Reports compile fuel c (own ++ rest) w := by
        rintro rest rfl
        refine ⟨_, accesses, hall, haccesses, ?_⟩
        rw [hown, hnil]
        rfl
      cases hbuild : draft.build with
      | ok shape =>
          rw [hbuild] at h hlate
          cases h
          exact ⟨hreports _ hlate.symm, nofun⟩
      | error e =>
          rw [hbuild] at h hlate
          cases h
          exact ⟨hreports _ hlate.symm, fun _ =>
            List.append_ne_nil_of_right_ne_nil own (List.cons_ne_nil _ _)⟩

/-! ### Unions and combinations -/

section Several

variable {discriminator : List (String × Json)}

theorem polymorphic_lays {extensions : List (String × Json)}
    (h : polymorphic compile keywords common discriminator extensions c = (.ok assembly, d)) :
    (keywords.unionOutline discriminator (namedParts keywords.path.parent extensions)).Lays compile
      fuel c assembly d := by
  unfold polymorphic at h
  unfold Keywords.unionOutline
  cases hproperty : propertyOf? discriminator with
  | none =>
      rw [hproperty] at h
      cases h
      exact Outline.lays_alone rfl rfl fun _ => List.cons_ne_nil _ _
  | some property =>
      rw [hproperty] at h
      obtain ⟨⟨nodes, errors⟩, u, hnamed, h⟩ := bind_ok h
      obtain ⟨results, hruns, herrors, -⟩ := named_runs hnamed
      cases errors with
      | nil =>
          cases h
          exact Outline.lays_node hruns herrors
      | cons error rest =>
          cases h
          exact Outline.lays_incomplete hruns herrors

theorem discriminatedUnion_lays {keyword : String} {schemas : List Json}
    (h : discriminatedUnion compile keywords common discriminator keyword schemas c =
      (.ok assembly, d)) :
    (keywords.unionOutline discriminator ((partsFrom (keywords.path.child keyword) (fun _ => true) 0
      schemas).filter refers)).Lays compile fuel c assembly d := by
  unfold discriminatedUnion at h
  unfold Keywords.unionOutline
  cases hproperty : propertyOf? discriminator with
  | none =>
      rw [hproperty] at h
      cases h
      exact Outline.lays_alone rfl rfl fun _ => List.cons_ne_nil _ _
  | some property =>
      rw [hproperty] at h
      obtain ⟨⟨nodes, errors⟩, u, hvariants, h⟩ := bind_ok h
      obtain ⟨results, hruns, herrors, -⟩ := variants_runs hvariants
      cases errors with
      | nil =>
          cases h
          exact Outline.lays_node hruns herrors
      | cons error rest =>
          cases h
          exact Outline.lays_incomplete hruns herrors

theorem combination_lays {keyword : String} {flag : Nat → Bool} {schemas : List Json}
    {combine : List ι → Shape ι}
    (h : combination compile keywords common keyword flag schemas combine c = (.ok assembly, d)) :
    (Outline.ofParts (partsFrom (keywords.path.child keyword) flag 0 schemas)).Lays compile fuel c
      assembly d := by
  obtain ⟨⟨nodes, errors⟩, u, heach, h⟩ := bind_ok h
  obtain ⟨results, hruns, herrors⟩ := each_runs heach
  cases errors with
  | nil =>
      cases h
      exact Outline.lays_node hruns herrors
  | cons error rest =>
      cases h
      exact Outline.lays_incomplete hruns herrors

theorem listed_lays (combinator : Combinator) {schemas : List Json}
    (hlist : listOf? keywords combinator.keyword = some schemas)
    (h : combination compile keywords common combinator.keyword combinator.flag schemas
      combinator.combine c = (.ok assembly, d)) :
    (Outline.ofParts (combinator.parts keywords)).Lays compile fuel c assembly d := by
  rw [(listOf_parts hlist).1]
  exact combination_lays h

theorem negation_lays (h : negation compile keywords common c = (.ok assembly, d)) :
    keywords.negationOutline.Lays compile fuel c assembly d := by
  unfold negation at h
  unfold Keywords.negationOutline
  cases hraw : keywords.raw? "not" with
  | none =>
      rw [hraw] at h
      cases h
      exact Outline.lays_alone rfl rfl nofun
  | some written =>
      rw [hraw] at h
      have hparts := negation_parts hraw
      cases written with
      | obj schema =>
          obtain ⟨result, u, hhere, h⟩ := bind_ok h
          rw [hparts]
          have hruns : Runs compile c [(.obj schema, keywords.path.child "not", true)] [result] u :=
            .single hhere
          cases result with
          | ok node =>
              cases h
              exact Outline.lays_node hruns rfl
          | error errors =>
              cases h
              exact Outline.lays_incomplete hruns (List.append_nil errors.toList).symm
      | arr schemas =>
          cases schemas with
          | nil =>
              cases h
              exact Outline.lays_alone rfl rfl fun _ => List.cons_ne_nil _ _
          | cons first rest =>
              rw [hparts]
              exact combination_lays h
      | _ =>
          cases h
          exact Outline.lays_alone rfl rfl fun _ => List.cons_ne_nil _ _

theorem governing_lays (h : governing compile keywords common c = (.ok assembly, d)) :
    keywords.governingOutline.Lays compile fuel c assembly d := by
  unfold governing at h
  unfold Keywords.governingOutline
  rw [Combinator.first?_eq]
  cases hallOf : listOf? keywords "allOf" with
  | some schemas =>
      rw [hallOf] at h
      exact listed_lays .allOf hallOf h
  | none =>
      rw [hallOf] at h
      cases hanyOf : listOf? keywords "anyOf" with
      | some schemas =>
          rw [hanyOf] at h
          exact listed_lays .anyOf hanyOf h
      | none =>
          rw [hanyOf] at h
          cases honeOf : listOf? keywords "oneOf" with
          | some schemas =>
              rw [honeOf] at h
              exact listed_lays .oneOf honeOf h
          | none =>
              rw [honeOf] at h
              have hnegation : keywords.negationOutline.Lays compile fuel c assembly d :=
                negation_lays h
              cases hnot : keywords.raw? "not" <;> exact hnegation

theorem union_lays {discriminator : Option (List (String × Json))}
    (h : union compile keywords common discriminator c = (.ok assembly, d)) :
    (keywords.untypedOutline discriminator).Lays compile fuel c assembly d := by
  unfold union at h
  unfold Keywords.untypedOutline
  cases discriminator with
  | none => exact governing_lays h
  | some discriminator =>
      cases halternatives : alternatives? keywords with
      | none =>
          rw [halternatives] at h
          exact governing_lays h
      | some found =>
          rw [halternatives] at h
          exact discriminatedUnion_lays h

theorem structured_lays (hkeeps : KeepsConfig compile) (hmessages : keywords.messages = c.messages)
    {discriminator : Option (List (String × Json))} {extensions : List (String × Json)}
    (h : structured compile fuel keywords common discriminator extensions c = (.ok assembly, d)) :
    (keywords.structuredOutline discriminator extensions).Lays compile fuel c assembly d := by
  unfold structured at h
  unfold Keywords.structuredOutline
  cases discriminator with
  | none => exact object_lays hkeeps hmessages h
  | some discriminator =>
      cases extensions with
      | nil => exact object_lays hkeeps hmessages h
      | cons first rest => exact polymorphic_lays h

end Several

/-! ### Assemblies -/

/-- An assembly reports what the outline of its schema lays down. -/
theorem assemble_lays (hkeeps : KeepsConfig compile) (hmessages : keywords.messages = c.messages)
    {kind : Option SchemaKind} {flag : Bool}
    (h : assemble compile fuel keywords common kind flag c = (.ok assembly, d)) :
    (keywords.assemblyOutline c.config c.formats (participants c keywords flag
      (keywords.mapping "discriminator").value) kind).Lays compile fuel c assembly d := by
  cases kind with
  | none =>
      obtain ⟨found, u, hunion, h⟩ := bind_ok h
      cases h
      exact (union_lays hunion).ahead _
  | some kind =>
      cases kind with
      | string => exact primitive_lays hmessages h
      | number => exact primitive_lays hmessages h
      | integer => exact primitive_lays hmessages h
      | boolean => exact primitive_lays hmessages h
      | array => exact array_lays hmessages h
      | object =>
          obtain ⟨compiler, u, hget, h⟩ := bind_ok h
          cases hget
          obtain ⟨found, v, hstructured, h⟩ := bind_ok h
          cases h
          exact (structured_lays hkeeps hmessages hstructured).ahead _

end Compiling

end SchemaGraph

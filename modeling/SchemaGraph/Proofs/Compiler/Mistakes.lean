import SchemaGraph.Proofs.Compiler.Outline

set_option autoImplicit false

/-! # What a schema reports of itself

A failed compilation of a schema reports the mistakes in its own keywords together with the errors
of its parts. All but the late ones are told whatever becomes of the parts
(`Compiling.own_mistakes_reported`). The late ones are the limits of a list and what makes the draft
of an object none: they are withheld as long as a part fails.
-/

namespace SchemaGraph

namespace Compiling

variable {α β ι : Type} {compile : CompilingValue ι} {c d u : Compiler} {fuel : Nat}

/-! ## Assemblies do not fail with errors -/

/-- What ends a run are no errors. -/
def quiet : Course := fun _ failure _ => ∀ errors, failure ≠ some (.errors errors)

theorem quiet_done (c d : Compiler) : quiet c none d := by
  intro errors h
  cases h

theorem quiet_bind {m : Compiling α} {f : α → Compiling β} (hm : Takes quiet m)
    (hf : ∀ a, Takes quiet (f a)) : Takes quiet (m >>= f) := by
  intro c
  have h := hm c
  rw [run_bind]
  rcases hrun : m c with ⟨failure | a, u⟩
  · rw [hrun] at h
    exact h
  · exact hf a u

theorem atEnd_quiet {part : Json → Compiling α} (hpart : ∀ schema, Takes quiet (part schema))
    (fuel : Nat) : ∀ seen schema, Takes quiet (atEnd part fuel seen schema) := by
  induction fuel with
  | zero =>
      intro seen schema c errors h
      cases h
  | succ fuel ih =>
      intro seen schema
      rw [atEnd]
      split
      · exact hpart schema
      · refine quiet_bind (fun c => quiet_done c _) fun resolved => ?_
        split
        · exact hpart schema
        · split
          · exact hpart schema
          · exact fun c => ih _ _ { c with resolver := c.resolver.pushScope _ }

theorem quiet_laws (fuel : Nat) : quiet.Laws Compiler.anyPlace fuel where
  entry _ _ := trivial
  item _ _ := trivial
  done c := quiet_done c c
  next _ h := h
  access _ := by
    refine atEnd_quiet (fun _ => ?_) fuel [] _
    exact fun c => quiet_done c c
  extension _ _ := .inl trivial

/-- The errors of parts are kept as values. -/
theorem assemble_quiet (compile : CompilingValue ι) (keywords : Keywords) (common : Common)
    (kind : Option SchemaKind) (flag : Bool) :
    Takes quiet (assemble compile fuel keywords common kind flag) := by
  have hparts : AttemptsParts quiet Compiler.anyPlace compile := by
    intro written path flag _ c
    rw [run_attempt]
    rcases compile written path path flag c with ⟨(_ | _ | _) | _, _⟩ <;> exact nofun
  exact (quiet_laws fuel).assemble hparts common kind flag trivial

/-! ## Schemas -/

/-- The errors that come of a run, if it comes to an end. -/
def reported : Except CompileFailure α → Option (List LocatedError)
  | .ok _ => some []
  | .error (.errors errors) => some errors.toList
  | .error _ => none

variable {entries : List (String × Json)} {path : Path} {flag : Bool} {kind : Option SchemaKind}
  {errors : List LocatedError}

/-- A schema that compiles, or is refused with errors, reports what its outline lays down. -/
theorem node_follows (hkeeps : KeepsConfig compile)
    (hkind : SchemaKind.ofSchema entries c.messages = .ok kind)
    {result : Except CompileFailure (Node ι)}
    (h : node compile fuel entries path flag c = (result, d))
    (hreported : reported result = some errors) :
    let keywords : Keywords := ⟨entries, path, c.messages⟩
    (keywords.outline c.config c.formats (participants c keywords flag
      (keywords.mapping "discriminator").value) kind).Reports compile fuel c errors d := by
  unfold node at h
  rw [run_bind_of_ok (run_get c)] at h
  dsimp only at h ⊢
  rw [hkind] at h
  generalize hkeywords : (⟨entries, path, c.messages⟩ : Keywords) = keywords at h ⊢
  have hmessages : keywords.messages = c.messages := by rw [← hkeywords]
  have hquiet := @assemble_quiet _ fuel compile keywords keywords.common.value kind flag c
  dsimp only at h
  rw [run_bind] at h
  rcases hassemble : assemble compile fuel keywords keywords.common.value kind flag c with
    ⟨failure | assembly, u⟩
  · -- errors of parts are values, so this is a failure that is not reported
    rw [hassemble] at h hquiet
    cases h
    cases failure with
    | errors found => exact absurd rfl (hquiet found)
    | recursive => cases hreported
    | outOfFuel => cases hreported
  · rw [hassemble] at h
    have hlays := (assemble_lays hkeeps hmessages hassemble).ahead
      ((keywords.flag "deprecated").errors ++ keywords.common.errors)
    have hrefused := hlays.refused
    have hreports := hlays.reports
    dsimp only at h hrefused hreports
    generalize (keywords.flag "deprecated").errors ++ keywords.common.errors ++ assembly.own ++
      assembly.parts = all at h hrefused hreports
    obtain ⟨rfl, rfl⟩ : all = errors ∧ u = d := by
      cases all with
      | cons first rest =>
          cases h
          cases hreported
          exact ⟨rfl, rfl⟩
      | nil =>
          -- without errors there is a node
          cases hnode : assembly.node with
          | none => exact absurd rfl (hrefused hnode)
          | some node =>
              rw [hnode] at h
              cases h
              cases hreported
              exact ⟨rfl, rfl⟩
    exact hreports

/-- A schema that compiles, or is refused with errors, reports of its own mistakes those that are
told in any case, whatever became of its parts, and the late ones exactly if all parts compiled.
Only lists and objects have late ones. -/
theorem own_mistakes_reported {result : Except CompileFailure Node}
    (hkind : SchemaKind.ofSchema entries c.messages = .ok kind)
    (h : node (value fuel) fuel entries path flag c = (result, d))
    (hreported : reported result = some errors) :
    let keywords : Keywords := ⟨entries, path, c.messages⟩
    let outline := keywords.outline c.config c.formats
      (participants c keywords flag (keywords.mapping "discriminator").value) kind
    (∃ results accesses, Runs (value fuel) c outline.parts results d ∧
      AccessesOf fuel outline.accessed accesses ∧
      ((∀ result ∈ results, ∃ node, result = .ok node) →
        errors = outline.told ++ outline.late accesses) ∧
      ((∃ found, .error found ∈ results) → errors = outline.told ++ errorsOf results)) ∧
    ((∃ accesses, outline.late accesses ≠ []) → kind = some .array ∨ kind = some .object) := by
  intro keywords outline
  have hkeeps : KeepsConfig (value fuel) := fun written path flag c =>
    (Compiler.value_sound fuel written path path flag c).grows.1.config
  obtain ⟨results, accesses, hruns, haccesses, hsplit⟩ := node_follows hkeeps hkind h hreported
  refine ⟨⟨results, accesses, hruns, haccesses, fun hall => ?_, fun ⟨found, hfound⟩ => ?_⟩, ?_⟩
  · rw [hsplit, errorsOf_eq_nil.2 hall]
    rfl
  · have hsome : (errorsOf results).isEmpty = false := by
      rw [List.isEmpty_eq_false_iff]
      intro hnil
      obtain ⟨node, hnode⟩ := errorsOf_eq_nil.1 hnil _ hfound
      cases hnode
    rw [hsplit, hsome]
    rfl
  · rintro ⟨accesses, hlate⟩
    by_contra hneither
    obtain ⟨harray, hobject⟩ := not_or.1 hneither
    exact hlate (Keywords.late_eq_nil harray hobject accesses)

/-- A list with a mistake, whose items have another one. Both are reported. -/
theorem own_mistakes_reported_list :
    let entries : List (String × Json) :=
      [("deprecated", .str "x"), ("items", .obj [("type", .str "nope")]), ("type", .str "array")]
    let c := Compiler.ofDocument [] (.obj entries) .default
    let run := node (value 3) 3 entries .root true c
    ∃ results found, Runs (value 3) c
        [(.obj [("type", .str "nope")], Path.root.child "items", true)] results run.2 ∧
      .error found ∈ results ∧
      reported run.1 = some (LocatedError.ofKey .builtIn (Path.root.child "deprecated")
        .invalidKeyword ["deprecated"] :: errorsOf results) := by
  intro entries c run
  have hkind : SchemaKind.ofSchema entries c.messages = .ok (some .array) := by decide +kernel
  have hrun : node (value 3) 3 entries .root true c = (run.1, run.2) := rfl
  have hlength : (reported run.1).map List.length = some 2 := by decide +kernel
  obtain ⟨errors, hreported, hlength⟩ := Option.map_eq_some_iff.1 hlength
  obtain ⟨⟨results, accesses, hruns, haccesses, hall, hsome⟩, -⟩ :=
    own_mistakes_reported hkind hrun hreported
  obtain rfl : accesses = [] := List.forall₂_nil_left_iff.1 haccesses
  obtain ⟨found, hfound⟩ : ∃ found, .error found ∈ results := by
    by_contra hnone
    have herrors := hall fun result hresult => by
      cases result with
      | ok node => exact ⟨node, rfl⟩
      | error found => exact absurd ⟨found, hresult⟩ hnone
    rw [herrors] at hlength
    exact absurd hlength (by decide +kernel)
  refine ⟨results, found, hruns, hfound, ?_⟩
  rw [hreported, hsome ⟨found, hfound⟩]
  rfl

/-- The limits of a list are looked at only once its items compile. -/
theorem list_limits_are_withheld :
    let list : String → Json := fun kind =>
      .obj [("items", .obj [("type", .str kind)]), ("minItems", .str "x"), ("type", .str "array")]
    let report : String → Option (List LocatedError) := fun kind =>
      reported ((Compiler.ofDocument [] (.obj [("S", list kind)])
        { Config.default with checkSchemas := false }).compile 5 "#/S").1
    let location : Path := ⟨"", ["S"]⟩
    report "nope" = some [LocatedError.ofKey .builtIn (location.child "items") .unknownType
        ["nope"]] ∧
      report "string" = some [LocatedError.ofKey .builtIn (location.child "minItems")
        .invalidKeyword ["minItems"]] := by
  decide +kernel

end Compiling

end SchemaGraph

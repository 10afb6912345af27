import SchemaGraph.Proofs.Conversion.Bounded
import SchemaGraph.Proofs.Conversion.Composites
import SchemaGraph.Proofs.Conversion.Objects

set_option autoImplicit false

/-! # Where errors are reported

A node reports at the location of its payload, or what was reported by a node that it called
(`Conversion.Stems`). What it calls converts a part a segment below, or the payload itself, so the
segments of an error lead to the part that was refused (`Graph.errors_located`). Combinations are
different, they call their subtypes at an index that is no part of the payload; and so are
defaults, which convert although they stand nowhere.
-/

namespace SchemaGraph

/-! ## One node -/

/-- The payload is tried by subtypes. -/
def Shape.combines {ι : Type} : Shape ι → Bool
  | allOf _ | anyOf _ | oneOf _ | not _ => true
  | _ => false

def Node.combines {ι : Type} : Node ι → Bool
  | .typed _ shape => shape.combines
  | _ => false

namespace Conversion

variable {α β ι : Type}

theorem exists_of_mem_reported {run : Except Failure Value} {error : LocatedError}
    (h : error ∈ reported silent run) :
    ∃ found, run = .error (.errors found) ∧ error ∈ found.toList := by
  rcases run with (errors | _ | _ | _ | _) | value
  case error.errors => exact ⟨errors, rfl, h⟩
  all_goals cases h

/-- An error that is reported for the payload itself, or by a call that is made for it. -/
def Stems (convert : Converting ι) (shape : Shape ι) (payload : Json) (path : Path)
    (error : LocatedError) : Prop :=
  error.path = path ∨ ∃ node given location, shape.Calls payload path node given location ∧
    error ∈ reported silent (apart convert node given location)

variable {convert : Converting ι} {common : Common} {shape : Shape ι} {payload : Json} {path : Path}
  {mode : Mode} {error : LocatedError}

theorem mem_refusal_bind {α β : Type} {x : Except SchemaErrors α} {f : α → Except SchemaErrors β}
    (h : error ∈ refusal (x.bind f)) : error ∈ refusal x ∨ ∃ a, error ∈ refusal (f a) := by
  cases x with
  | error errors => exact .inl h
  | ok a => exact .inr ⟨a, h⟩

/-- What a node refuses a payload with stands at its location, or was told. -/
theorem mem_refusal_typedPlan {input : Option Json} {plan : Plan ι} {replies : List Reply}
    (hplan : typedPlan mode common shape input path = some plan)
    (hmem : error ∈ refusal (plan.ruling replies)) : error.path = path ∨ error ∈ told replies := by
  unfold typedPlan judgedPlan at hplan
  cases hpresent : present? mode common (shape.given mode.entity input) with
  | none =>
      rw [hpresent] at hplan
      cases hplan
  | some payload =>
      rw [hpresent] at hplan
      cases hplan
      rcases mem_refusal_bind hmem with hmem | ⟨value, hmem⟩
      · have hjudges : Judges mode common payload path shape
          (payloadPlan mode common payload path shape) := payloadPlan_judges payload
        change error ∈ refusal ((payloadPlan mode common payload path shape).ruling replies) at hmem
        generalize payloadPlan mode common payload path shape = plan at hjudges hmem
        cases hjudges with
        | null => cases hmem
        | refuses =>
            obtain rfl := List.mem_singleton.1 hmem
            exact .inl rfl
        | @asks cast =>
            rcases mem_refusal_bind hmem with hmem | ⟨value, hmem⟩
            · exact (ruling_adds shape cast replies).mem hmem
            · unfold approved at hmem
              rw [refusal_collect] at hmem
              obtain ⟨violation, -, rfl⟩ := List.mem_map.1 hmem
              exact .inl rfl
      · exact .inl ((own_of_finished shape value).path_of_mem hmem)

/-- A node that judges values tells of its payload, or what it was told. -/
theorem stems_of_typed (steady : Steady convert) {self : ι} {s : ConversionState}
    (hmem : error ∈ reported silent
      (step convert mode self (.typed common shape) (some payload) path s).1) :
    Stems convert shape payload path error := by
  obtain ⟨errors, hrun, herror⟩ := exists_of_mem_reported hmem
  rw [step_typed] at hrun
  cases hplan : typedPlan mode common shape (some payload) path with
  | none =>
      rw [hplan] at hrun
      cases hrun
  | some plan =>
      rw [hplan] at hrun
      obtain ⟨replies, heard, hruled⟩ := (comes_of_run plan s).refused hrun
      have hrefused : error ∈ refusal (plan.ruling replies) := by
        rw [hruled]
        exact herror
      rcases mem_refusal_typedPlan hplan hrefused with hhere | htold
      · exact .inl hhere
      · obtain ⟨reply, hreply, hsaid⟩ := List.mem_flatMap.1 htold
        obtain ⟨inquiry, hinquiry, hreplied⟩ := heard.exists_inquiry reply hreply
        obtain ⟨_, ⟨⟩, -, -, hasked⟩ := mem_of_typedPlan hplan hinquiry
        refine .inr ⟨_, _, _, Shape.calls_of_mem hasked path, ?_⟩
        cases hreplied with
        | value | nothing => cases hsaid
        | errors h =>
            obtain ⟨t, hpart⟩ := h
            unfold Inquiry.part at hpart
            rw [steady] at hpart
            rw [show apart convert _ _ _ = _ from hpart]
            exact hsaid

end Conversion

/-- Without combinations, what is called converts the payload itself, or a part a segment below,
which may be absent. -/
theorem Shape.Calls.below {ι : Type} {shape : Shape ι} {payload : Json} {path location : Path}
    {node : ι} {given : Option Json} (h : shape.Calls payload path node given location)
    (hplain : shape.combines = false) (hregular : payload.isRegular = true) :
    given = some payload ∧ location = path ∨
      ∃ key, location = path.child key ∧ ∀ part, given = some part →
        payload.step? key = some part := by
  cases h with
  | item hitem =>
      refine .inr ⟨_, rfl, ?_⟩
      rintro _ ⟨⟩
      exact Json.step_of_item hregular hitem
  | entry hentry =>
      refine .inr ⟨_, rfl, ?_⟩
      rintro _ ⟨⟩
      exact Json.step_of_entry hregular hentry
  | undeclared hentry =>
      refine .inr ⟨_, rfl, ?_⟩
      rintro _ ⟨⟩
      exact Json.step_of_entry hregular hentry
  | declared =>
      refine .inr ⟨_, rfl, fun part hpart => ?_⟩
      exact Json.step_of_entry hregular (Entries.mem_of_find? hpart)
  | selected => exact .inl ⟨rfl, rfl⟩
  | subtype hsubtype =>
      cases shape with
      | allOf subtypes | anyOf subtypes | oneOf subtypes | not subtypes => cases hplain
      | _ => cases hsubtype

/-! ## Graphs -/

namespace Graph

open Conversion

variable {graph : Graph} {mode : Mode} {entry id : NodeId} {payload : Json} {path : Path}
  {error : LocatedError}

/-- The segments behind a location lead to a part of the payload, and a node that is reached
refuses this part at the location of the error, with this error. -/
def Locates (graph : Graph) (mode : Mode) (fuel : Nat) (entry : NodeId) (payload : Json)
    (path : Path) (error : LocatedError) : Prop :=
  ∃ keys part id found, error.path = ⟨path.base, path.parts ++ keys⟩ ∧
    payload.walk? keys = some part ∧ graph.Reaches entry id ∧ error ∈ found.toList ∧
    ∀ s, graph.convertWithin mode fuel id (some part) error.path s = (.error (.errors found), s)

theorem Locates.mono {fuel more : Nat} (h : graph.Locates mode fuel entry payload path error)
    (hle : fuel ≤ more) : graph.Locates mode more entry payload path error := by
  obtain ⟨keys, part, id, found, hpath, hwalk, hid, hmem, hrun⟩ := h
  refine ⟨keys, part, id, found, hpath, hwalk, hid, hmem, fun s => ?_⟩
  rcases convertWithin_approximates graph mode hle id id rfl (some part) error.path s with
    hfuel | hsame
  · rw [hrun s] at hfuel
    cases hfuel
  · rw [← hsame, hrun s]

/-- What a node that is reached reports of a part is located. -/
theorem locates_of_reported (hdirect : graph.IsDirect)
    (hplain : ∀ id node, graph.get? id = some node → node.combines = false)
    (hdefaults : graph.LacksDefaults) (hregular : payload.isRegular = true) (fuel : Nat)
    {part : Json} {place : Path} (hid : graph.Reaches entry id)
    (hpart : payload.StandsAt part place)
    (hreported : error ∈ reported silent
      (apart (graph.convertWithin mode fuel) id (some part) (path.under place))) :
    graph.Locates mode fuel entry payload path error := by
  induction fuel generalizing id part place with
  | zero => cases hreported
  | succ fuel ih =>
      have herror := hreported
      unfold apart at herror
      cases hnode : graph.get? id with
      | none =>
          unfold convertWithin at herror
          rw [hnode] at herror
          cases herror
      | some node =>
          rw [convertWithin_succ hnode] at herror
          cases node with
          | reference messages target => cases hdirect id _ hnode
          | forward target =>
              exact (ih (.child hid hnode List.mem_cons_self) hpart herror).mono (Nat.le_succ fuel)
          | typed common shape =>
              -- either the error is here, or the node called has it, with less fuel
              rcases stems_of_typed (standsApart hdirect mode fuel).steady herror with
                hhere | ⟨child, given, location, hcall, hnext⟩
              · obtain ⟨found, hrun, hmem⟩ := exists_of_mem_reported hreported
                refine ⟨place.parts, part, id, found, hhere, hpart.2, hid, hmem, fun s => ?_⟩
                rw [hhere, (standsApart hdirect mode (fuel + 1)).steady, hrun]
              · have hchild : graph.Reaches entry child := .child hid hnode hcall.mem_children
                refine Locates.mono ?_ (Nat.le_succ fuel)
                rcases hcall.below (hplain id _ hnode) (hpart.all hregular) with
                  ⟨rfl, rfl⟩ | ⟨key, rfl, hstep⟩
                · exact ih hchild hpart hnext
                · cases given with
                  | some item =>
                      rw [Path.under_child] at hnext
                      exact ih hchild (hpart.step (hstep item rfl)) hnext
                  | none =>
                      -- nothing takes the place of a property that is absent
                      obtain ⟨failure, hfailure, hnone⟩ := absent_ends hdirect
                        (fun id common shape hnode =>
                          present?_of_lacks (hdefaults id common shape hnode) mode none)
                        fuel child _ (.start none)
                      obtain ⟨found, hrun, -⟩ := exists_of_mem_reported hnext
                      cases hfailure.symm.trans hrun
                      exact absurd rfl (hnone found)

/-- Without references a conversion only fails with the errors its entry reports. -/
theorem apart_of_failed (hdirect : graph.IsDirect) {fuel : Nat} {input : Option Json}
    {resolver : Option Resolver} {errors : SchemaErrors}
    (h : (graph.convertAt fuel entry input path mode resolver).1 = .failed errors) :
    apart (graph.convertWithin mode fuel) entry input path = .error (.errors errors) := by
  have nodes := standsApart hdirect mode fuel
  unfold convertAt at h
  rw [nodes.steady] at h
  rcases hrun : apart (graph.convertWithin mode fuel) entry input path with
    (found | _ | _ | _ | _) | value <;> rw [hrun] at h <;> cases h
  · rfl
  · -- no chain of references is followed, so none comes back to itself
    by_cases hentry : entry < graph.length
    · obtain hfuel | ⟨errors, herrors⟩ | ⟨-, hmissing⟩ := nodes.answers hentry input path _ hrun
      · cases hfuel
      · cases herrors
      · cases hmissing
    · have hnode : graph.get? entry = none := List.getElem?_eq_none (Nat.le_of_not_lt hentry)
      unfold apart at hrun
      cases fuel with
      | zero => cases hrun
      | succ fuel =>
          unfold convertWithin at hrun
          rw [hnode] at hrun
          cases hrun

/-- What is reported at a location stands inside of it. -/
theorem within_of_apart (hdirect : graph.IsDirect) {fuel : Nat} {input : Option Json}
    {errors : SchemaErrors}
    (h : apart (graph.convertWithin mode fuel) entry input path = .error (.errors errors))
    (hmem : error ∈ errors.toList) : error.path.Within path := by
  have hmoved : (graph.convertWithin mode fuel entry input path (.start none)).1 = _ :=
    run_eq_answer hdirect fuel (entry, input) path (.start none)
  unfold apart at h
  rw [hmoved] at h
  generalize graph.answer mode fuel (entry, input) = answer at h
  rcases answer with (found | _ | _ | _ | _) | value <;> cases h
  have htoList : (found.moved path).toList = found.toList.map (LocatedError.moved path) := rfl
  rw [htoList] at hmem
  obtain ⟨origin, -, rfl⟩ := List.mem_map.1 hmem
  exact ⟨rfl, List.prefix_append _ _⟩

/-- Errors are located. Where no node follows references, each error stands inside of the location
that the conversion was given. Without combinations and defaults, its further segments lead to a
part of the payload, the one that a node refused there. -/
theorem errors_located (hdirect : graph.IsDirect) (fuel : Nat) (entry : NodeId)
    (input : Option Json) (path : Path) (mode : Mode) (resolver : Option Resolver)
    (errors : SchemaErrors)
    (h : (graph.convertAt fuel entry input path mode resolver).1 = .failed errors) :
    (∀ error ∈ errors.toList,
      error.path.base = path.base ∧ path.parts <+: error.path.parts) ∧
    ((∀ id node, graph.get? id = some node → node.combines = false) → graph.LacksDefaults →
      ∀ payload, input = some payload → payload.isRegular = true →
        ∀ error ∈ errors.toList, graph.Locates mode fuel entry payload path error) := by
  have hrun := apart_of_failed hdirect h
  refine ⟨fun error hmem => within_of_apart hdirect hrun hmem, ?_⟩
  rintro hplain hdefaults payload rfl hregular error hmem
  refine locates_of_reported hdirect hplain hdefaults hregular fuel .here
    (show payload.StandsAt payload .root from ⟨rfl, rfl⟩) ?_
  rw [Path.under_root, hrun]
  exact hmem

/-- Lists of people, each of whom has an age. -/
def crowd : Graph where
  nodes := [
    .typed (.plain .builtIn) (.array 1 .free false none),
    .typed (.plain .builtIn) (.object ⟨[("age", 2)], [], [], .deny, [], [], .free⟩),
    .typed (.plain .builtIn) (.integer .free)]
  closed := by
    simp [Node.children, Shape.children, Additional.children]

/-- A list of two, the second of whom has a text as age. -/
def crowded : Json := .arr [.obj [], .obj [("age", .str "old")]]

/-- The error of the second one is reported there, below the location of the list. -/
theorem errors_located_crowd : ∃ errors,
    (crowd.convertAt 3 0 (some crowded) ⟨"a", ["b"]⟩ ⟨.request, true⟩ none).1 = .failed errors ∧
    errors.toList.map LocatedError.path = [⟨"a", ["b", "1", "age"]⟩] ∧
    crowded.walk? ["1", "age"] = some (.str "old") ∧
    ∀ error ∈ errors.toList,
      crowd.Locates ⟨.request, true⟩ 3 0 crowded ⟨"a", ["b"]⟩ error := by
  have hdirect : crowd.IsDirect := holds_of_nodes (by simp [crowd, Node.refers])
  have hplain : ∀ id node, crowd.get? id = some node → node.combines = false :=
    holds_of_nodes (by simp [crowd, Node.combines, Shape.combines])
  have hdefaults : crowd.LacksDefaults := lacksDefaults_of_nodes (by simp [crowd, Common.plain])
  obtain ⟨errors, herrors⟩ := Outcome.exists_of_isFailed (show
    (crowd.convertAt 3 0 (some crowded) ⟨"a", ["b"]⟩ ⟨.request, true⟩ none).1.isFailed = true
    from rfl)
  refine ⟨errors, herrors, ?_, rfl, ?_⟩
  · have heq := herrors.symm
    cases heq
    rfl
  · exact (errors_located hdirect 3 0 _ _ _ none errors herrors).2 hplain hdefaults crowded rfl rfl

end Graph

end SchemaGraph

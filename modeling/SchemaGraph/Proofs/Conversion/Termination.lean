import SchemaGraph.Proofs.Conversion.Parts
import SchemaGraph.Proofs.Conversion.Verdict

set_option autoImplicit false

/-! # When conversions end

A conversion through a graph without references ends, with fuel enough, exactly if no chain of
parts goes on for ever, each part run by the one before (`halts_iff_acc`). Parts that descend into
the payload come to an end by themselves. What may go on for ever are nodes that hand on the very
value they got, and defaults, which put a new value in the place of a missing one.
-/

namespace SchemaGraph

open Conversion

namespace Graph

variable {graph : Graph} {mode : Mode}

/-! ## Runs of a graph -/

/-- What a graph says of a part at the root location. -/
def answer (graph : Graph) (mode : Mode) (fuel : Nat) (part : Part) : Except Failure Value :=
  (graph.convertWithin mode fuel part.1 part.2 .root (.start none)).1

/-- Converting the first part runs the second. -/
def Runs (graph : Graph) (mode : Mode) (whole part : Part) : Prop :=
  ∃ node, graph.get? whole.1 = some node ∧
    node.Runs (fun id payload => graph.Refuses mode id payload) mode whole.2 part

/-- With fuel enough the conversion ends, wherever it stands. -/
def Halts (graph : Graph) (mode : Mode) (part : Part) : Prop :=
  ∃ fuel, ∀ path at?, (graph.convertAt fuel part.1 part.2 path mode at?).1 ≠ .outOfFuel

/-- No fuel is enough, wherever the conversion stands. -/
def Diverges (graph : Graph) (mode : Mode) (part : Part) : Prop :=
  ∀ fuel path at?, (graph.convertAt fuel part.1 part.2 path mode at?).1 = .outOfFuel

/-- Wherever a part stands, what is said of it is the answer of the graph, moved there. -/
theorem run_eq_answer (h : graph.IsDirect) (fuel : Nat) (part : Part) (path : Path)
    (s : ConversionState) : (graph.convertWithin mode fuel part.1 part.2 path s).1 =
      (graph.answer mode fuel part).mapError (Failure.moved path) := by
  have hmoves := (convertWithin_moves h mode path fuel).follows part.1 part.2 .root (.start none) s
  rw [Path.under_root] at hmoves
  rw [hmoves]
  rfl

/-- With more fuel the answer stays. -/
theorem answer_mono {fuel more : Nat} (h : fuel ≤ more) {part : Part}
    (hends : graph.answer mode fuel part ≠ .error .outOfFuel) :
    graph.answer mode more part = graph.answer mode fuel part := by
  rcases convertWithin_approximates graph mode h part.1 part.1 rfl part.2 .root (.start none)
    with hfuel | hsame
  · exact absurd hfuel hends
  · exact (congrArg Prod.fst hsame).symm

/-- The refusals of a graph with some fuel. -/
def RefusesWithin (graph : Graph) (mode : Mode) (fuel : Nat) (id : NodeId) (payload : Json) :
    Prop :=
  ∃ errors, graph.answer mode fuel (id, some payload) = .error (.errors errors)

/-- The nodes of a graph with some fuel. -/
def RulesWithin (graph : Graph) (mode : Mode) (fuel : Nat) : Prop :=
  Rules (graph.convertWithin mode fuel) (· < graph.length)
    (fun part => graph.answer mode fuel part = .error .outOfFuel) (graph.RefusesWithin mode fuel)

/-- What two kinds of parts come to decides the rest, since a graph says the same everywhere. -/
theorem rulesWithin_of_settles (h : graph.IsDirect) {fuel : Nat}
    (hpresent : ∀ {id}, id < graph.length → ∀ payload path,
      Hinges (graph.answer mode fuel (id, some payload) = .error .outOfFuel)
        (graph.convertWithin mode fuel id (some payload) path))
    (hmissing : ∀ {id}, id < graph.length → ∀ input path,
      Settles (graph.answer mode fuel (id, input) = .error .outOfFuel)
        (attemptMissing (graph.convertWithin mode fuel id input path))) :
    graph.RulesWithin mode fuel := by
  refine ⟨hpresent, hmissing, ?_, ?_⟩
  · rintro id payload - ⟨errors, herrors⟩ path s
    refine ⟨errors.moved path, ?_⟩
    rw [run_eq_answer h fuel (id, some payload), herrors]
    rfl
  · intro id payload hid hstuck hrefuses path s
    obtain ⟨here, hhere⟩ := (hpresent hid payload .root).ends hstuck (.start none)
    have hanswer : graph.answer mode fuel (id, some payload) = here.mapError .errors := hhere
    cases here with
    | error errors => exact absurd ⟨errors, hanswer⟩ hrefuses
    | ok value =>
        refine ⟨value, ?_⟩
        rw [run_eq_answer h fuel (id, some payload), hanswer]
        rfl

variable {fuel : Nat} {id : NodeId} {node : Node}

/-- With one more fuel a node gets stuck exactly if a part that it runs does. -/
theorem answer_succ (h : graph.IsDirect) (hrules : graph.RulesWithin mode fuel)
    (hnode : graph.get? id = some node) (input : Option Json) :
    graph.answer mode (fuel + 1) (id, input) = .error .outOfFuel ↔
      ∃ part, node.Runs (graph.RefusesWithin mode fuel) mode input part ∧
        graph.answer mode fuel part = .error .outOfFuel := by
  unfold answer
  rw [convertWithin_succ hnode mode fuel]
  exact exhausted_iff
    (step_settles hrules mode id (h id node hnode) (known_children hnode) input .root) _

theorem rulesWithin (h : graph.IsDirect) (mode : Mode) (fuel : Nat) :
    graph.RulesWithin mode fuel := by
  induction fuel with
  | zero =>
      refine rulesWithin_of_settles h (fun _ payload path => ?_) fun _ input path => ?_
      · exact ⟨fun _ _ => rfl, fun hends => absurd rfl hends⟩
      · exact ⟨fun _ _ => rfl, fun hends => absurd rfl hends⟩
  | succ fuel ih =>
      refine rulesWithin_of_settles h (fun {id} hid payload path => ?_)
        fun {id} hid input path => ?_
      · obtain ⟨node, hnode⟩ := get?_of_known hid
        rw [answer_succ h ih hnode, convertWithin_succ hnode mode fuel]
        exact step_hinges ih mode id (h id node hnode) (known_children hnode) payload path
      · obtain ⟨node, hnode⟩ := get?_of_known hid
        rw [answer_succ h ih hnode, convertWithin_succ hnode mode fuel]
        exact step_settles ih mode id (h id node hnode) (known_children hnode) input path

/-! ## Verdicts -/

theorem RefusesWithin.refuses {payload : Json} (h : graph.RefusesWithin mode fuel id payload) :
    graph.Refuses mode id payload := by
  obtain ⟨errors, herrors⟩ := h
  refine ⟨fuel, errors, ?_⟩
  unfold convert convertAt
  unfold answer at herrors
  generalize graph.convertWithin mode fuel id (some payload) .root (.start none) = run at herrors ⊢
  obtain ⟨r, t⟩ := run
  cases herrors
  rfl

/-- A refusal shows as soon as the conversion ends. -/
theorem Refuses.refusesWithin (h : graph.IsDirect) {payload : Json} (hid : id < graph.length)
    (hends : graph.answer mode fuel (id, some payload) ≠ .error .outOfFuel)
    (hrefuses : graph.Refuses mode id payload) : graph.RefusesWithin mode fuel id payload := by
  obtain ⟨here, hhere⟩ := ((rulesWithin h mode fuel).present hid payload .root).ends hends
    (.start none)
  cases here with
  | error errors => exact ⟨errors, hhere⟩
  | ok value =>
      refine absurd ⟨fuel, ?_⟩ hrefuses.not_accepts
      unfold convert convertAt
      generalize graph.convertWithin mode fuel id (some payload) .root (.start none) = run
        at hhere ⊢
      obtain ⟨r, t⟩ := run
      cases hhere
      exact ⟨_, rfl⟩

/-! ## Ends -/

theorem convertAt_eq_outOfFuel (h : graph.IsDirect) (fuel : Nat) (part : Part) (path : Path)
    (at? : Option Resolver) : (graph.convertAt fuel part.1 part.2 path mode at?).1 = .outOfFuel ↔
      graph.answer mode fuel part = .error .outOfFuel := by
  have hrun : (graph.convertWithin mode fuel part.1 part.2 path (.start at?)).1 = _ :=
    run_eq_answer h fuel part path (.start at?)
  unfold convertAt
  generalize graph.convertWithin mode fuel part.1 part.2 path (.start at?) = run at hrun ⊢
  obtain ⟨r, t⟩ := run
  dsimp only at hrun ⊢
  rw [hrun]
  rcases graph.answer mode fuel part with (_ | _ | _ | _ | _) | _
  case error.outOfFuel => exact iff_of_true rfl rfl
  all_goals exact iff_of_false (fun h => by cases h) (fun h => by cases h)

theorem halts_iff (h : graph.IsDirect) {part : Part} :
    graph.Halts mode part ↔ ∃ fuel, graph.answer mode fuel part ≠ .error .outOfFuel := by
  constructor
  · rintro ⟨fuel, hends⟩
    exact ⟨fuel, fun hfuel => hends .root none ((convertAt_eq_outOfFuel h _ _ _ _).2 hfuel)⟩
  · rintro ⟨fuel, hends⟩
    exact ⟨fuel, fun path at? hfuel => hends ((convertAt_eq_outOfFuel h _ _ _ _).1 hfuel)⟩

/-- What does not end runs out of any fuel, wherever it stands. -/
theorem diverges_iff (h : graph.IsDirect) {part : Part} :
    graph.Diverges mode part ↔ ¬graph.Halts mode part := by
  rw [halts_iff h]
  constructor
  · rintro hdiverges ⟨fuel, hends⟩
    exact hends ((convertAt_eq_outOfFuel h fuel part .root none).1 (hdiverges fuel .root none))
  · intro hnever fuel path at?
    refine (convertAt_eq_outOfFuel h fuel part path at?).2 ?_
    by_contra hends
    exact hnever ⟨fuel, hends⟩

/-- Finitely many parts that end do so with the same fuel. -/
theorem exists_fuel (parts : List Part) :
    ∃ fuel, ∀ part ∈ parts, (∃ fuel, graph.answer mode fuel part ≠ .error .outOfFuel) →
      graph.answer mode fuel part ≠ .error .outOfFuel := by
  induction parts with
  | nil => exact ⟨0, fun part hpart => by cases hpart⟩
  | cons first rest ih =>
      obtain ⟨fuel, hfuel⟩ := ih
      have hmore : ∀ more, fuel ≤ more → ∀ part ∈ rest,
          (∃ fuel, graph.answer mode fuel part ≠ .error .outOfFuel) →
            graph.answer mode more part ≠ .error .outOfFuel := by
        intro more hle part hpart hends
        rw [answer_mono hle (hfuel part hpart hends)]
        exact hfuel part hpart hends
      by_cases hfirst : ∃ fuel, graph.answer mode fuel first ≠ .error .outOfFuel
      · obtain ⟨own, hown⟩ := hfirst
        refine ⟨max own fuel, fun part hpart hends => ?_⟩
        rcases List.mem_cons.1 hpart with rfl | hpart
        · rw [answer_mono (Nat.le_max_left own fuel) hown]
          exact hown
        · exact hmore _ (Nat.le_max_right own fuel) part hpart hends
      · refine ⟨fuel, fun part hpart hends => ?_⟩
        rcases List.mem_cons.1 hpart with rfl | hpart
        · exact absurd hends hfirst
        · exact hfuel part hpart hends

/-- What ends with some fuel only runs parts that end with less. -/
theorem answer_of_runs (h : graph.IsDirect) {whole part : Part}
    (hends : graph.answer mode (fuel + 1) whole ≠ .error .outOfFuel)
    (hruns : graph.Runs mode whole part) : graph.answer mode fuel part ≠ .error .outOfFuel := by
  obtain ⟨node, hnode, hruns⟩ := hruns
  have hparts : ∀ part, node.Runs (graph.RefusesWithin mode fuel) mode whole.2 part →
      graph.answer mode fuel part ≠ .error .outOfFuel := by
    intro part hpart hstuck
    exact hends ((answer_succ h (rulesWithin h mode fuel) hnode whole.2).2 ⟨part, hpart, hstuck⟩)
  refine hparts part (hruns.transfer _ hparts fun id hid payload hends hrefuses => ?_)
  exact hrefuses.refusesWithin h (known_children hnode id hid) hends

/-- A conversion ends exactly if no chain of parts, each run by the one before, goes on for
ever. -/
theorem halts_iff_acc (h : graph.IsDirect) (part : Part) :
    graph.Halts mode part ↔ Acc (fun part whole => graph.Runs mode whole part) part := by
  rw [halts_iff h]
  constructor
  · rintro ⟨fuel, hends⟩
    induction fuel generalizing part with
    | zero => exact absurd rfl hends
    | succ fuel ih => exact .intro part fun next hruns => ih next (answer_of_runs h hends hruns)
  · intro hacc
    induction hacc with
    | intro whole _ ih =>
        cases hnode : graph.get? whole.1 with
        | none =>
            have hanswer : graph.answer mode 1 whole = .error .noNode := by
              unfold answer convertWithin
              rw [hnode]
              rfl
            exact ⟨1, fun hfuel => by rw [hanswer] at hfuel; cases hfuel⟩
        | some node =>
            obtain ⟨fuel, hfuel⟩ : ∃ fuel, ∀ part ∈ node.parts mode whole.2,
                (∃ fuel, graph.answer mode fuel part ≠ .error .outOfFuel) →
                  graph.answer mode fuel part ≠ .error .outOfFuel := exists_fuel _
            refine ⟨fuel + 1, fun hstuck => ?_⟩
            obtain ⟨part, hruns, hpart⟩ :=
              (answer_succ h (rulesWithin h mode fuel) hnode whole.2).1 hstuck
            have hlimit : graph.Runs mode whole part := by
              refine ⟨node, hnode, hruns.transfer (fun _ => True) (fun _ _ => trivial) ?_⟩
              exact fun id _ payload _ hrefuses => hrefuses.refuses
            exact hfuel part hruns.mem_parts (ih part hlimit) hpart

end Graph

end SchemaGraph

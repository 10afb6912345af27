import SchemaGraph.Conversion.Converted
import SchemaGraph.Proofs.Conversion.Following

set_option autoImplicit false

/-! # Signals stay inside

Besides errors a conversion has two signals: that a missing value has no default, and that a
chain of references came back to itself. Neither leaves the conversion of a payload that is
there, and a node is never converted while references are being followed, except where a chain of
them goes on.

That this holds at every call, however deep, is said by a second run that watches each of them
and stops at the first one that is not as it should be: it is the same run
(`Graph.signals_stay_inside`).
-/

namespace SchemaGraph

/-! ## The contract that promises nothing -/

namespace Conversion

/-- Nothing is promised but that no signal leaves a call. -/
def Contract.quiet : Contract World.any where
  holds _ := True
  done _ _ := True
  failed _ _ := True
  skipped _ _ := True
  linkable _ _ _ := True
  tires := True
  skipped_refl _ := trivial
  done_of_skipped _ := trivial
  failed_of_done _ := trivial
  done_trans _ _ := trivial
  failed_trans _ _ := trivial
  linkable_before _ _ := trivial
  linkable_after _ _ := trivial

namespace Contract

theorem quiet_ready (s : ConversionState) : quiet.Ready s := ⟨trivial, fun _ _ => trivial⟩

theorem quiet_hands : quiet.Hands :=
  ⟨fun _ _ => ⟨trivial, trivial, trivial⟩, fun _ _ _ => trivial⟩

theorem quiet_opens (path : Path) (part : Conversion Value) : Opens quiet quiet path part where
  start _ _ := trivial
  finish _ _ _ _ _ _ _ := ⟨trivial, trivial, fun _ _ => trivial⟩
  poison _ _ _ _ := ⟨trivial, trivial⟩
  forget _ _ _ _ := ⟨trivial, trivial⟩
  tires := id

end Contract

/-! ## Watching calls -/

/-- A call that goes on with a chain of references: the node that follows it converts the location
followed last, and another reference stands there. -/
def goesOn (self id : NodeId) (input : Option Json) (path : Path) (s : ConversionState) : Bool :=
  id == self && s.visited.head? == some path && (input.bind referenceOf?).isSome

/-- A call ends as it should, unless fuel ran out: what was being followed is being followed again,
only a value that is missing comes to none, only a chain comes back to itself, and there is a
node. -/
def endsWell (input : Option Json) (s : ConversionState) :
    Except Failure Value × ConversionState → Bool
  | (.ok _, t) => t.visited == s.visited
  | (.error (.errors _), t) => t.visited == s.visited
  | (.error .undefined, t) => t.visited == s.visited && input.isNone
  | (.error .recursive, t) => t.visited == s.visited && !s.visited.isEmpty
  | (.error .outOfFuel, _) => true
  | (.error .noNode, _) => false

/-- The calls of one node, watched: nothing is being followed, or a chain goes on. A call that is
not as it should be ends as if there were no node. -/
def watched (self : NodeId) (convert : Converting) : Converting := fun id input path s =>
  let run := convert id input path s
  if (s.visited.isEmpty || goesOn self id input path s) && endsWell input s run then run
  else (.error .noNode, run.2)

end Conversion

namespace Graph

open Conversion

/-- The conversion of a node in which every call is watched. -/
def watchedWithin (graph : Graph) (mode : Mode) : Nat → Converting
  | 0 => fun _ _ _ => fail .outOfFuel
  | fuel + 1 => fun id input path =>
    match graph.get? id with
    | none => fail .noNode
    | some node => step (watched id (graph.watchedWithin mode fuel)) mode id node input path

end Graph

namespace Conversion

open Contract

variable {graph : Graph} {mode : Mode} {convert convert' : Converting} {id : NodeId}
  {input : Option Json} {path : Path} {s : ConversionState}

/-- What is met ends well, if what may be missing is. -/
theorem endsWell_of_meets {m m' : Conversion Value} {absent : Prop}
    (h : Meets (quiet.ending s absent) m m' s) (hinput : absent → input = none) :
    endsWell input s (m s) = true := by
  have hvisited : ∀ {t}, quiet.Back s.visited t → (t.visited == s.visited) = true :=
    fun hback => beq_iff_eq.2 hback.visited
  have hallows := h.allows
  generalize m s = run at hallows ⊢
  rcases run with ⟨(_ | _ | _ | _ | _) | _, t⟩
  · exact hvisited hallows.1
  · exact Bool.and_eq_true_iff.2
      ⟨hvisited hallows.2.1, Option.isNone_iff_eq_none.2 (hinput hallows.1)⟩
  · refine Bool.and_eq_true_iff.2 ⟨hvisited hallows.2.1, ?_⟩
    rw [List.isEmpty_eq_false_iff.2 hallows.1]
    rfl
  · rfl
  · exact hallows.elim
  · exact hvisited hallows.1

/-- A call that is watched is the call itself if it starts and ends as it should. -/
theorem watched_eq (self : NodeId) {m : Conversion Value} {absent : Prop}
    (h : Meets (quiet.ending s absent) m (convert id input path) s)
    (hinput : absent → input = none)
    (hstart : (s.visited.isEmpty || goesOn self id input path s) = true) :
    watched self convert id input path s = convert id input path s := by
  have hends : endsWell input s (convert id input path s) = true := by
    rw [h.same]
    exact endsWell_of_meets h hinput
  unfold watched
  dsimp only
  rw [hstart, hends]
  rfl

/-- The calls of a conversion and those of another one that is watched run alike, and no signal
leaves them. -/
structure Quiet (graph : Graph) (convert convert' : Converting) : Prop where
  starts : ∀ id < graph.length, ∀ input, quiet.AllowsPart convert convert' (id, input)
  continues : ∀ {id messages target}, graph.get? id = some (.reference messages target) →
    ∀ {payload}, (referenceOf? payload).isSome = true → ∀ path,
      quiet.Continues path (convert id (some payload) path) (convert' id (some payload) path)

/-- Watching the calls of a node changes nothing where nothing is being followed. -/
theorem Quiet.watched_starts (h : Quiet graph convert convert') (self : NodeId)
    (hid : id < graph.length) (input : Option Json) :
    quiet.AllowsPart convert (watched self convert') (id, input) := by
  intro path s hready hs
  have hmeets := h.starts id hid input path s hready hs
  refine ⟨?_, hmeets.allows⟩
  have hwatched : watched self convert' id input path s = convert' id input path s :=
    watched_eq self hmeets (fun habsent => habsent) (by rw [hs]; rfl)
  exact hwatched.trans hmeets.same

/-- Nor does it where a chain of references goes on. -/
theorem Quiet.watched_continues (h : Quiet graph convert convert') {messages : Messages}
    {target : NodeId} (hnode : graph.get? id = some (.reference messages target)) {payload : Json}
    (hpayload : (referenceOf? payload).isSome = true) (path : Path) :
    quiet.Continues path (convert id (some payload) path)
      (watched id convert' id (some payload) path) := by
  intro s hready hs
  have hmeets := h.continues hnode hpayload path s hready hs
  refine ⟨?_, hmeets.allows⟩
  have hgoesOn : goesOn id id (some payload) path s = true := by
    unfold goesOn
    rw [hs, Option.bind_some, hpayload, beq_self_eq_true, beq_self_eq_true]
    rfl
  have hwatched := watched_eq id hmeets False.elim (by rw [hgoesOn, Bool.or_true])
  exact hwatched.trans hmeets.same

/-- Watched or not, the calls that a node makes are quiet. -/
theorem Quiet.calls (h : Quiet graph convert convert') {node : Node}
    (hnode : graph.get? id = some node) : quiet.Calls convert (watched id convert') id node := by
  have hparts : ∀ child ∈ node.children, ∀ input,
      quiet.AllowsPart convert (watched id convert') (child, input) := fun child hchild input =>
    h.watched_starts id (Graph.known_children hnode child hchild) input
  exact {
    hands := fun _ => quiet_hands
    parts := hparts
    swallowed := fun _ => hparts
    enters := fun _ _ _ => quiet_opens _ _
    arrives := fun _ _ _ => quiet_opens _ _
    continues := fun href payload hpayload path =>
      h.watched_continues (hnode.trans (congrArg some href)) hpayload path }

theorem quiet_convertWithin (graph : Graph) (mode : Mode) (fuel : Nat) :
    Quiet graph (graph.convertWithin mode fuel) (graph.watchedWithin mode fuel) := by
  induction fuel with
  | zero => exact ⟨fun _ _ _ _ _ _ _ => ⟨rfl, trivial⟩, fun _ _ _ _ _ _ _ => ⟨rfl, trivial⟩⟩
  | succ fuel ih =>
      -- the watched calls are quiet by induction, so the node that makes them is
      unfold Graph.convertWithin Graph.watchedWithin
      constructor
      · intro id hid input path
        obtain ⟨node, hnode⟩ := Graph.get?_of_known hid
        dsimp only
        rw [hnode]
        exact (ih.calls hnode).step_allows input path
      · intro id messages target hnode payload hpayload path
        rw [hnode]
        exact (ih.calls hnode).step_continues rfl hpayload path

end Conversion

/-! ## Every call of every conversion -/

namespace Graph

open Conversion Contract

/-- How the conversion of a node ends where nothing was being followed. -/
theorem convertWithin_cases (graph : Graph) (mode : Mode) (fuel : Nat) {id : NodeId}
    (hid : id < graph.length) (input : Option Json) (path : Path) {s : ConversionState}
    (hs : s.visited = []) :
    (∃ value t, graph.convertWithin mode fuel id input path s = (.ok value, t) ∧ t.visited = []) ∨
      (∃ errors t, graph.convertWithin mode fuel id input path s = (.error (.errors errors), t) ∧
        t.visited = []) ∨
      (∃ t, graph.convertWithin mode fuel id input path s = (.error .undefined, t) ∧
        t.visited = [] ∧ input = none) ∨
      (graph.convertWithin mode fuel id input path s).1 = .error .outOfFuel := by
  have hallows :=
    ((quiet_convertWithin graph mode fuel).starts id hid input path s (quiet_ready s) hs).allows
  dsimp only at hallows
  generalize graph.convertWithin mode fuel id input path s = run at hallows ⊢
  rcases run with ⟨(errors | _ | _ | _ | _) | value, t⟩
  · exact .inr (.inl ⟨errors, t, rfl, hallows.1.visited.trans hs⟩)
  · exact .inr (.inr (.inl ⟨t, rfl, hallows.2.1.visited.trans hs, hallows.1⟩))
  · exact absurd hs hallows.1
  · exact .inr (.inr (.inr rfl))
  · exact hallows.elim
  · exact .inl ⟨value, t, rfl, hallows.1.visited.trans hs⟩

/-- Whatever a node converts, in whatever state in which nothing is being followed: watching every
call on the way changes nothing; a payload that is there comes to a value or to errors, unless fuel
runs out, and only a missing one may come to neither; and afterwards nothing is being followed. So a
conversion of a payload is never taken for one of nothing. -/
theorem signals_stay_inside (graph : Graph) (mode : Mode) (fuel : Nat) {id : NodeId}
    (hid : id < graph.length) :
    (∀ input path s, s.visited = [] →
      graph.watchedWithin mode fuel id input path s =
        graph.convertWithin mode fuel id input path s ∧
      ((∃ value t, graph.convertWithin mode fuel id input path s = (.ok value, t) ∧
          t.visited = []) ∨
        (∃ errors t, graph.convertWithin mode fuel id input path s =
          (.error (.errors errors), t) ∧ t.visited = []) ∨
        (∃ t, graph.convertWithin mode fuel id input path s = (.error .undefined, t) ∧
          t.visited = [] ∧ input = none) ∨
        (graph.convertWithin mode fuel id input path s).1 = .error .outOfFuel)) ∧
    (∀ payload path at?,
      (∃ result, (graph.convertAt fuel id (some payload) path mode at?).1 = .converted result) ∨
        (∃ errors, (graph.convertAt fuel id (some payload) path mode at?).1 = .failed errors) ∨
        (graph.convertAt fuel id (some payload) path mode at?).1 = .outOfFuel) ∧
    ∀ payload, graph.convert fuel id payload mode =
      (graph.convertAt fuel id (some payload) .root mode none).1 := by
  have hends : ∀ payload path at?,
      (∃ result, (graph.convertAt fuel id (some payload) path mode at?).1 = .converted result) ∨
        (∃ errors, (graph.convertAt fuel id (some payload) path mode at?).1 = .failed errors) ∨
        (graph.convertAt fuel id (some payload) path mode at?).1 = .outOfFuel := by
    intro payload path at?
    have hrun := convertWithin_cases graph mode fuel hid (some payload) path
      (s := .start at?) rfl
    unfold convertAt
    generalize graph.convertWithin mode fuel id (some payload) path (.start at?) = run at hrun ⊢
    rcases hrun with ⟨value, t, rfl, -⟩ | ⟨errors, t, rfl, -⟩ | ⟨t, -, -, hnone⟩ | hfuel
    · exact .inl ⟨_, rfl⟩
    · exact .inr (.inl ⟨_, rfl⟩)
    · cases hnone
    · obtain ⟨result, t⟩ := run
      cases hfuel
      exact .inr (.inr rfl)
  refine ⟨fun input path s hs => ⟨?_, ?_⟩, hends, fun payload => ?_⟩
  · have hquiet := quiet_convertWithin graph mode fuel
    exact (hquiet.starts id hid input path s (quiet_ready s) hs).same
  · exact convertWithin_cases graph mode fuel hid input path hs
  · unfold convert
    rcases hends payload .root none with ⟨result, h⟩ | ⟨errors, h⟩ | h <;> rw [h]

/-- A text or a reference to one, under two names. -/
def letters : Graph where
  nodes := [.typed (.plain .builtIn) (.string .free), .reference .builtIn 0,
    .typed (.plain .builtIn) (.object {
      properties := [("first", 1), ("second", 1)], required := [], patterns := []
      additional := .deny, readOnly := [], writeOnly := [], size := .free })]
  closed := by decide

/-- Two references to each other. -/
def circle : Json :=
  .obj [("a", .obj [("$ref", .str "#/b")]), ("b", .obj [("$ref", .str "#/a")])]

/-- A conversion tells of a reference that does not resolve and of one in a circle. -/
def tellsCircle : Except Failure Value → Bool
  | .error (.errors errors) => errors.kinds == [.referenceBad, .referenceRecursive]
  | _ => false

/-- One name leads to a circle and the other one to nothing: both signals are given inside, and
reported are the errors of the circle. -/
theorem signals_stay_inside_circle :
    let mode := (Options.ofEntity .request).mode
    let payload : Json := .obj [("first", .obj [("$ref", .str "#/a")])]
    let s := ConversionState.start (some (.ofDocument [] "" circle))
    ∃ errors t, letters.convertWithin mode 9 2 (some payload) .root s =
        (.error (.errors errors), t) ∧ t.visited = [] ∧
      errors.kinds = [.referenceBad, .referenceRecursive] ∧
      letters.watchedWithin mode 9 2 (some payload) .root s = (.error (.errors errors), t) := by
  intro mode payload s
  have hkinds : tellsCircle (letters.convertWithin mode 9 2 (some payload) .root s).1 = true := by
    decide +kernel
  obtain ⟨hsame, hends⟩ :=
    (signals_stay_inside letters mode 9 (show 2 < letters.length by decide)).1 (some payload)
      .root s rfl
  rcases hends with ⟨value, t, hrun, -⟩ | ⟨errors, t, hrun, hvisited⟩ | ⟨t, hrun, -⟩ | hrun
  · rw [hrun] at hkinds
    cases hkinds
  · rw [hrun] at hkinds
    exact ⟨errors, t, hrun, hvisited, eq_of_beq hkinds, hsame.trans hrun⟩
  · rw [hrun] at hkinds
    cases hkinds
  · rw [hrun] at hkinds
    cases hkinds

end Graph

end SchemaGraph

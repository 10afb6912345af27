import SchemaGraph.Proofs.Conversion.Bounded
import SchemaGraph.Proofs.Conversion.Lookups

set_option autoImplicit false

/-! # Locations in turn

A location is not known at first; once its conversion starts it is pending; when that ends it is
done, it has failed, or it is not known again; and only a location that has failed may start once
more (`Progress.mayBecome`). A location is pending as long as its conversion is on the stack of
calls and no longer.

Both are stated about a conversion that carries this stack along: no change to the registry is made
that is out of turn, and before and after every call the pending locations must be those on the
stack (`Graph.convertInTurn`). It does exactly what the conversion of the graph does
(`Graph.locations_take_turns`).
-/

namespace SchemaGraph

/-! ## Turns -/

/-- The turns that a location may take; `none` if it is not known. -/
def Progress.mayBecome : Option Progress → Option Progress → Bool
  | none, some .pending => true
  | some .pending, some (.done _) => true
  | some .pending, some .poisoned => true
  | some .pending, none => true
  | some .poisoned, some .pending => true
  | _, _ => false

namespace Registry

/-- Set how far a location is, or forget it. -/
def put (registry : Registry) (path : Path) : Option Progress → Registry
  | some progress => registry.set path progress
  | none => registry.remove path

/-- The pending locations are those on a stack. -/
def pendingAre (registry : Registry) (stack : List Path) : Bool :=
  stack.all registry.isPending &&
    registry.states.all fun entry => !registry.isPending entry.1 || stack.contains entry.1

end Registry

namespace Conversion

variable {α ι : Type}

/-- Let a location take a turn. One out of turn ends the conversion as if there were no node. -/
def turn (path : Path) (next : Option Progress) : Conversion Unit := fun s =>
  if Progress.mayBecome (s.registry.find? path) next then
    (.ok (), { s with registry := s.registry.put path next })
  else (.error .noNode, s)

/-- A call with a stack. If the pending locations are not those on the stack, before it or after
it, it ends as if there were no node. -/
def onStack (stack : List Path) (part : Conversion α) : Conversion α := fun s =>
  if s.registry.pendingAre stack then
    let run := part s
    if run.2.registry.pendingAre stack then run else (.error .noNode, run.2)
  else (.error .noNode, s)

/-- Convert a location, from its start to what it becomes by how its conversion ended. -/
def opening (path : Path) (part : Conversion Value)
    (close : Except Failure Value → Option Progress × Except Failure Value) : Conversion Value := do
  turn path (some .pending)
  let closing := close (← outcome part)
  turn path closing.1
  MonadExcept.ofExcept closing.2

/-- What becomes of a location that was entered, and of its conversion. -/
def entered : Except Failure Value → Option Progress × Except Failure Value
  | .ok value => (some (.done value), .ok value)
  | .error (.errors errors) => (some .poisoned, .error (.errors errors))
  | .error failure => (none, .error failure)

/-- What becomes of a location that a reference led to, and of the reference. -/
def reached (messages : Messages) (path : Path) :
    Except Failure Value → Option Progress × Except Failure Value
  | .ok value => (some (.done value), .ok value)
  | .error (.errors errors) =>
    (some .poisoned,
      .error (.errors (errors.leading (LocatedError.ofKey messages path .badReference []))))
  | .error .recursive =>
    (some .poisoned,
      .error (.errors (.single (LocatedError.ofKey messages path .recursiveReference []))))
  | .error failure => (none, .error failure)

/-- `enter`, in turn. The location is on the stack while it converts. -/
def enterInTurn (convert : List Path → Converting ι) (stack : List Path) (target : ι)
    (input : Option Json) (path : Path) : Conversion Value := do
  match ← progress path with
  | some (.done value) => pure value
  | some .pending =>
    update fun registry => registry.link path
    pure (.link path)
  | _ => opening path (withOwnChain (convert (path :: stack) target input path)) entered

/-- `arrive`, in turn. The location is on the stack while it converts. -/
def arriveInTurn (convert : List Path → Converting ι) (stack : List Path) (self : ι)
    (messages : Messages) (target : ι) (value : Json) (location path : Path) :
    Conversion Value := do
  if (← get).visited.contains location then fail .recursive
  else match ← progress location with
    | some .poisoned => failWith messages path .badReference []
    | some (.done value) => pure value
    | some .pending =>
      update fun registry => registry.link location
      pure (.link location)
    | none =>
      opening location
        (following location (deeper (convert (location :: stack)) self target value location))
        (reached messages path)

/-- `reference`, in turn. -/
def referenceInTurn (convert : List Path → Converting ι) (stack : List Path) (self : ι)
    (messages : Messages) (target : ι) (input : Option Json) (path : Path) : Conversion Value :=
  match input.bind referenceOf? with
  | some (.str text) => do
    match ← resolve? text with
    | none => failWith messages path .unresolvableReference []
    | some (url, value) =>
      inScope url (arriveInTurn convert stack self messages target value (Path.ofUri url) path)
  | some _ => failWith messages path .unresolvableReference []
  | none => enterInTurn convert stack target input path

end Conversion

namespace Graph

open Conversion

/-- The conversion of a node that carries along the stack of the locations being converted. -/
def convertInTurn (graph : Graph) (mode : Mode) : Nat → List Path → Converting
  | 0, _ => fun _ _ _ => fail .outOfFuel
  | fuel + 1, stack => fun id input path =>
    onStack stack <| match graph.get? id with
    | none => fail .noNode
    | some (.reference messages target) =>
      referenceInTurn (graph.convertInTurn mode fuel) stack id messages target input path
    | some node => step (graph.convertInTurn mode fuel stack) mode id node input path

end Graph

/-! ## The stack -/

namespace Registry

variable {g h : Registry} {stack : List Path} {known : Path → Value → Prop} {path : Path}
  {next : Option Progress}

theorem find?_put (other : Path) :
    (g.put path next).find? other = if other = path then next else g.find? other := by
  cases next with
  | none => exact find?_remove g path other
  | some progress => exact find?_set g path other progress

theorem mem_of_find? {progress : Progress} (h : g.find? path = some progress) :
    (path, progress) ∈ g.states := by
  obtain ⟨before, after, hstates, -⟩ := List.lookup_eq_some_iff.1 h
  rw [hstates]
  exact List.mem_append_right _ List.mem_cons_self

theorem pendingAre_iff : g.pendingAre stack = true ↔
    ∀ path, g.find? path = some .pending ↔ path ∈ stack := by
  simp only [pendingAre, Bool.and_eq_true, List.all_eq_true, Bool.or_eq_true, Bool.not_eq_true',
    isPending_iff, List.contains_iff_mem]
  constructor
  · rintro ⟨hstack, hstates⟩ path
    refine ⟨fun hpending => ?_, hstack path⟩
    have hnot : ¬g.isPending path = false := by
      rw [isPending_iff.2 hpending]
      exact Bool.noConfusion
    exact (hstates _ (mem_of_find? hpending)).resolve_left hnot
  · intro h
    refine ⟨fun path hmem => (h path).2 hmem, fun entry _ => ?_⟩
    cases hpending : g.isPending entry.1 with
    | false => exact .inl rfl
    | true => exact .inr ((h _).1 (isPending_iff.1 hpending))

/-- The pending locations are those on the stack, and the locations known to be done are. -/
structure Standing (stack : List Path) (known : Path → Value → Prop) (g : Registry) : Prop where
  pending : ∀ path, g.find? path = some .pending ↔ path ∈ stack
  done : ∀ path value, known path value → g.find? path = some (.done value)

theorem Standing.link (h : Standing stack known g) (path : Path) :
    Standing stack known (g.link path) :=
  ⟨h.pending, h.done⟩

theorem Standing.start (h : Standing stack known g) (hopen : g.IsOpen path) :
    Standing (path :: stack) known (g.start path) where
  pending other := by
    by_cases hother : other = path
    · subst hother
      exact ⟨fun _ => List.mem_cons_self, fun _ => find?_start_self g other⟩
    · rw [find?_start_of_ne hother, h.pending other, List.mem_cons]
      exact ⟨.inr, fun hmem => hmem.resolve_left hother⟩
  done other value hknown := by
    have hdone := h.done other value hknown
    have hother : other ≠ path := by
      rintro rfl
      exact hopen.ne_done value hdone
    rwa [find?_start_of_ne hother]

theorem Standing.close (hnew : path ∉ stack) (h : Standing (path :: stack) known g)
    (hnext : next ≠ some .pending) : Standing stack known (g.put path next) where
  pending other := by
    rw [find?_put]
    by_cases hother : other = path
    · subst hother
      rw [if_pos rfl]
      exact ⟨fun hpending => absurd hpending hnext, fun hmem => absurd hmem hnew⟩
    · rw [if_neg hother, h.pending other, List.mem_cons]
      exact ⟨fun hmem => hmem.resolve_left hother, .inr⟩
  done other value hknown := by
    have hdone := h.done other value hknown
    have hpath := (h.pending path).2 List.mem_cons_self
    have hother : other ≠ path := by
      rintro rfl
      cases hpath.symm.trans hdone
    rwa [find?_put, if_neg hother]

end Registry

namespace Conversion

open Registry

variable {α ι : Type} {stack : List Path} {known : Path → Value → Prop} {path : Path}
  {s : ConversionState}

/-- The same is done wherever the pending locations are those on a stack, and it is so again
afterwards. -/
def InTurn (stack : List Path) (known : Path → Value → Prop) (m m' : Conversion α) : Prop :=
  (exactly fun s => Standing stack known s.registry).Parallel Eq m m'

theorem inTurn_iff {m m' : Conversion α} : InTurn stack known m m' ↔
    ∀ s : ConversionState, Standing stack known s.registry →
      m s = m' s ∧ Standing stack known (m s).2.registry :=
  exactly_parallel_iff

theorem InTurn.withOwnChain {m m' : Conversion α} (h : InTurn stack known m m') :
    InTurn stack known (withOwnChain m) (withOwnChain m') := by
  refine inTurn_iff.2 fun s hs => ?_
  obtain ⟨hrun, ht⟩ := inTurn_iff.1 h { s with visited := [] } hs
  exact ⟨by unfold Conversion.withOwnChain; rw [hrun], ht⟩

theorem InTurn.following {m m' : Conversion α} (h : InTurn stack known m m') (path : Path) :
    InTurn stack known (following path m) (following path m') := by
  refine inTurn_iff.2 fun s hs => ?_
  obtain ⟨hrun, ht⟩ := inTurn_iff.1 h { s with visited := path :: s.visited } hs
  exact ⟨by unfold Conversion.following; rw [hrun], ht⟩

theorem InTurn.inScope {m m' : Conversion α} (h : InTurn stack known m m') (url : String) :
    InTurn stack known (inScope url m) (inScope url m') := by
  refine inTurn_iff.2 fun s hs => ?_
  obtain ⟨hrun, ht⟩ := inTurn_iff.1 h
    { s with resolver := s.resolver.map fun resolver => resolver.pushScope url } hs
  exact ⟨by unfold Conversion.inScope; rw [hrun], ht⟩

theorem InTurn.onStack {m m' : Conversion α} (h : InTurn stack known m m') :
    InTurn stack known m (onStack stack m') := by
  refine inTurn_iff.2 fun s hs => ?_
  obtain ⟨hrun, ht⟩ := inTurn_iff.1 h s hs
  refine ⟨?_, ht⟩
  unfold Conversion.onStack
  rw [← hrun, if_pos (pendingAre_iff.2 hs.pending), if_pos (pendingAre_iff.2 ht.pending)]

theorem inTurn_resolve? (text : String) : InTurn stack known (resolve? text) (resolve? text) := by
  refine inTurn_iff.2 fun s hs => ⟨rfl, ?_⟩
  cases hresolver : s.resolver with
  | none => rwa [run_resolve?_of_none hresolver]
  | some r => rwa [run_resolve?_of_some hresolver]

/-! ## Opening a location -/

theorem mayBecome_of_isOpen {registry : Registry} (h : registry.IsOpen path) :
    Progress.mayBecome (registry.find? path) (some .pending) = true := by
  rcases h with h | h <;> rw [h] <;> rfl

theorem mayBecome_of_pending {next : Option Progress} (h : next ≠ some .pending) :
    Progress.mayBecome (some .pending) next = true := by
  rcases next with _ | _ | _ | value
  · rfl
  · exact absurd rfl h
  · rfl
  · rfl

/-- A location that is open takes its turns. -/
theorem run_opening {part part' : Conversion Value} {m : Conversion Value}
    {close : Except Failure Value → Option Progress × Except Failure Value}
    (hclose : ∀ result, (close result).1 ≠ some .pending)
    (hm : m s = closed (close (part { s with registry := s.registry.start path }).1).2
      (part { s with registry := s.registry.start path }).2
      (·.put path (close (part { s with registry := s.registry.start path }).1).1))
    (hopen : s.registry.IsOpen path) (hs : Standing stack known s.registry)
    (hpart : InTurn (path :: stack) known part part') :
    m s = opening path part' close s ∧ Standing stack known (m s).2.registry := by
  -- what is open is not pending, so the location is not on the stack yet
  have hnew : path ∉ stack := fun hmem => hopen.ne_pending ((hs.pending path).2 hmem)
  obtain ⟨hrun, ht⟩ := inTurn_iff.1 hpart { s with registry := s.registry.start path }
    (hs.start hopen)
  rw [hm]
  refine ⟨?_, ht.close hnew (hclose _)⟩
  unfold opening
  have hstart : turn path (some .pending) s =
      (.ok (), { s with registry := s.registry.start path }) :=
    if_pos (mayBecome_of_isOpen hopen)
  rw [run_bind_of_ok hstart, run_bind_of_ok (run_outcome _ _), ← hrun]
  generalize part { s with registry := s.registry.start path } = run at ht ⊢
  -- nothing that the part did has closed the location, so its second turn is allowed
  have hpending := (ht.pending path).2 List.mem_cons_self
  have hturn : turn path (close run.1).1 run.2 =
      (.ok (), { run.2 with registry := run.2.registry.put path (close run.1).1 }) := by
    refine if_pos ?_
    rw [hpending]
    exact mayBecome_of_pending (hclose _)
  rw [run_bind_of_ok hturn]
  rcases (close run.1).2 with failure | value <;> rfl

theorem closeEntered_closed (path : Path) (run : Except Failure Value × ConversionState) :
    closeEntered path run = closed (entered run.1).2 run.2 (·.put path (entered run.1).1) := by
  rcases run with ⟨(errors | _ | _ | _ | _) | value, t⟩ <;> rfl

theorem closeReached_closed (messages : Messages) (location path : Path)
    (run : Except Failure Value × ConversionState) : closeReached messages location path run =
      closed (reached messages path run.1).2 run.2
        (·.put location (reached messages path run.1).1) := by
  rcases run with ⟨(errors | _ | _ | _ | _) | value, t⟩ <;> rfl

theorem entered_ne_pending (result : Except Failure Value) :
    (entered result).1 ≠ some .pending := by
  rcases result with (errors | _ | _ | _ | _) | value <;> exact fun h => by cases h

theorem reached_ne_pending (messages : Messages) (path : Path) (result : Except Failure Value) :
    (reached messages path result).1 ≠ some .pending := by
  rcases result with (errors | _ | _ | _ | _) | value <;> exact fun h => by cases h

/-! ## References -/

variable {convert : Converting ι} {convert' : List Path → Converting ι}

/-- The calls of a node do the same with any stack. -/
def CallsInTurn (known : Path → Value → Prop) (convert : Converting ι)
    (convert' : List Path → Converting ι) : Prop :=
  ∀ stack id input path, InTurn stack known (convert id input path) (convert' stack id input path)

theorem CallsInTurn.enter (h : CallsInTurn known convert convert') (stack : List Path) (target : ι)
    (input : Option Json) (path : Path) : InTurn stack known (enter convert target input path)
      (enterInTurn convert' stack target input path) := by
  refine inTurn_iff.2 fun s hs => ?_
  have hprogress : progress path s = (.ok (s.registry.find? path), s) := rfl
  have hpart := (h (path :: stack) target input path).withOwnChain
  have hopened : s.registry.IsOpen path →
      Conversion.enter convert target input path s =
        opening path (withOwnChain (convert' (path :: stack) target input path)) entered s ∧
      Standing stack known (Conversion.enter convert target input path s).2.registry := fun hopen =>
    run_opening entered_ne_pending ((run_enter_open convert target input hopen).trans
      (closeEntered_closed path _)) hopen hs hpart
  unfold enterInTurn
  rw [run_bind_of_ok hprogress]
  -- a location that has failed opens again, as one does that is not known
  rcases hfind : s.registry.find? path with _ | _ | _ | value
  · exact hopened (.inl hfind)
  · rw [run_enter, hfind]
    exact ⟨rfl, hs.link path⟩
  · exact hopened (.inr hfind)
  · rw [run_enter, hfind]
    exact ⟨rfl, hs⟩

theorem CallsInTurn.deeper (h : CallsInTurn known convert convert') (stack : List Path)
    (self target : ι) (value : Json) (path : Path) :
    InTurn stack known (deeper convert self target value path)
      (deeper (convert' stack) self target value path) := by
  unfold Conversion.deeper
  split
  · exact h stack self (some value) path
  · exact (h stack target (some value) path).withOwnChain

theorem CallsInTurn.arrive (h : CallsInTurn known convert convert') (stack : List Path) (self : ι)
    (messages : Messages) (target : ι) (value : Json) (location path : Path) :
    InTurn stack known (arrive convert self messages target value location path)
      (arriveInTurn convert' stack self messages target value location path) := by
  refine inTurn_iff.2 fun s hs => ?_
  have hprogress : progress location s = (.ok (s.registry.find? location), s) := rfl
  have hpart := (h.deeper (location :: stack) self target value location).following location
  unfold arriveInTurn
  rw [run_bind_of_ok (run_get s)]
  by_cases hvisited : s.visited.contains location = true
  · rw [run_arrive, if_pos hvisited, if_pos hvisited]
    exact ⟨rfl, hs⟩
  · rw [if_neg hvisited, run_bind_of_ok hprogress]
    rcases hfind : s.registry.find? location with _ | _ | _ | value'
    · exact run_opening (reached_ne_pending messages path)
        ((run_arrive_open convert self messages target value path hvisited hfind).trans
          (closeReached_closed messages location path _)) (.inl hfind) hs hpart
    · rw [run_arrive, if_neg hvisited, hfind]
      exact ⟨rfl, hs.link location⟩
    · rw [run_arrive, if_neg hvisited, hfind]
      exact ⟨rfl, hs⟩
    · rw [run_arrive, if_neg hvisited, hfind]
      exact ⟨rfl, hs⟩

theorem CallsInTurn.reference (h : CallsInTurn known convert convert') (stack : List Path)
    (self : ι) (messages : Messages) (target : ι) (input : Option Json) (path : Path) :
    InTurn stack known (reference convert self messages target input path)
      (referenceInTurn convert' stack self messages target input path) := by
  unfold Conversion.reference referenceInTurn
  rcases input.bind referenceOf? with _ | found
  · exact h.enter stack target input path
  · cases found with
    | str text =>
        refine .bind (inTurn_resolve? text) ?_
        rintro resolved _ rfl
        rcases resolved with _ | ⟨url, value⟩
        · exact .refuse rfl
        · exact (h.arrive stack self messages target value (Path.ofUri url) path).inScope url
    | _ => exact .refuse rfl

end Conversion

/-! ## Every location of every conversion -/

namespace Graph

open Conversion Registry

theorem convertInTurn_agrees (graph : Graph) (mode : Mode) (known : Path → Value → Prop)
    (fuel : Nat) :
    CallsInTurn known (graph.convertWithin mode fuel) (graph.convertInTurn mode fuel) := by
  induction fuel with
  | zero => exact fun _ _ _ _ => .fails .outOfFuel
  | succ fuel ih =>
      intro stack id input path
      refine InTurn.onStack ?_
      unfold convertWithin
      cases graph.get? id with
      | none => exact .fails .noNode
      | some node =>
          have hnodes : (exactly fun s => Standing stack known s.registry).ParallelNodes Eq
              (graph.convertWithin mode fuel) (graph.convertInTurn mode fuel stack) := by
            rintro child _ rfl
            exact ih stack child
          cases node with
          | forward target => exact ih stack target input path
          | reference messages target => exact ih.reference stack id messages target input path
          | typed common shape =>
              exact Comparison.typed_parallel hnodes Eq.refl mode id id common
                shape.alike_refl input path

/-- Wherever the pending locations are those on a stack of calls, the conversion of a node takes
every location through its turns and has the right ones on the stack at every call: it does what
the conversion does that sees to it. Afterwards the same locations are pending, and what was done
is done with the same value. So when a whole conversion returns, however it ends, nothing is
pending; and nothing was out of turn on the way, which would show as a node that is missing. -/
theorem locations_take_turns (graph : Graph) (mode : Mode) (fuel : Nat) :
    (∀ (stack : List Path) (s : ConversionState),
      (∀ location, s.registry.find? location = some .pending ↔ location ∈ stack) →
      ∀ id input path,
        graph.convertInTurn mode fuel stack id input path s =
          graph.convertWithin mode fuel id input path s ∧
        (∀ location, (graph.convertWithin mode fuel id input path s).2.registry.find? location =
          some .pending ↔ location ∈ stack) ∧
        ∀ location value, s.registry.find? location = some (.done value) →
          (graph.convertWithin mode fuel id input path s).2.registry.find? location =
            some (.done value)) ∧
    ∀ (root : Fin graph.length) (input : Option Json) (path : Path) (resolver : Option Resolver),
      let run := graph.convertWithin mode fuel root input path (.start resolver)
      graph.convertInTurn mode fuel [] root input path (.start resolver) = run ∧
      run.1 ≠ .error .noNode ∧
      ∀ location, run.2.registry.find? location ≠ some .pending := by
  have hcalls : ∀ (stack : List Path) (s : ConversionState),
      (∀ location, s.registry.find? location = some .pending ↔ location ∈ stack) →
      ∀ id input path, graph.convertWithin mode fuel id input path s =
          graph.convertInTurn mode fuel stack id input path s ∧
        Standing stack (fun location value => s.registry.find? location = some (.done value))
          (graph.convertWithin mode fuel id input path s).2.registry :=
    fun stack s hs id input path =>
      inTurn_iff.1 (graph.convertInTurn_agrees mode _ fuel stack id input path) s
        ⟨hs, fun _ _ h => h⟩
  refine ⟨fun stack s hs id input path => ?_, fun root input path resolver => ?_⟩
  · obtain ⟨hrun, hstanding⟩ := hcalls stack s hs id input path
    exact ⟨hrun.symm, hstanding.pending, hstanding.done⟩
  · have hstart : ∀ location, (ConversionState.start resolver).registry.find? location =
        some .pending ↔ location ∈ ([] : List Path) :=
      fun location => iff_of_false (fun h => nomatch h) List.not_mem_nil
    obtain ⟨hrun, hstanding⟩ := hcalls [] (.start resolver) hstart root input path
    exact ⟨hrun.symm, graph.convertWithin_ne_noNode mode fuel root input path rfl,
      fun location h => nomatch (hstanding.pending location).1 h⟩

/-- A location that is reached again while it converts is handed out as a link, and stays pending
until its own conversion ends. -/
theorem locations_take_turns_pending :
    let mode := (Options.ofEntity .request).mode
    let s : ConversionState :=
      { ConversionState.start none with registry := Registry.empty.start .root }
    letters.convertInTurn mode 2 [.root] 1 (some (.str "a")) .root s =
      (.ok (.link .root), { s with registry := s.registry.link .root }) ∧
    ∀ location,
      (letters.convertWithin mode 2 1 (some (.str "a")) .root s).2.registry.find? location =
        some .pending ↔ location ∈ [Path.root] := by
  intro mode s
  have hstack : ∀ location, s.registry.find? location = some .pending ↔
      location ∈ [Path.root] := by
    intro location
    rw [List.mem_singleton]
    by_cases hroot : location = .root
    · subst hroot
      exact iff_of_true (Registry.find?_start_self _ _) rfl
    · refine iff_of_false (fun h => ?_) hroot
      cases (Registry.find?_start_of_ne hroot).symm.trans h
  obtain ⟨hrun, hpending, -⟩ :=
    (locations_take_turns letters mode 2).1 [.root] s hstack 1 (some (.str "a")) .root
  exact ⟨hrun.trans rfl, hpending⟩

end Graph

end SchemaGraph

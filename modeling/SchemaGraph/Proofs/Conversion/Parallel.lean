import SchemaGraph.Proofs.Conversion.Likeness

set_option autoImplicit false

/-! # Conversions side by side

Two conversions are compared by the states they may be in at the same time, by the errors they may
have collected, and by the failures after which nothing more is said of the second one
(`Comparison`). Everything a conversion is put together with respects this, whatever names the
children of a node: alike nodes that judge values convert in parallel as soon as their children do
(`Comparison.typed_parallel`). What two conversions do to the registry and to the resolver is a
matter of their references alone (`Comparison.Shares.step`).
-/

namespace SchemaGraph

namespace Conversion

variable {α β γ δ ι κ : Type}

/-! ## Comparisons -/

/-- How two conversions that run side by side are compared. -/
structure Comparison where
  /-- The states they may be in at the same time. -/
  states : ConversionState → ConversionState → Prop
  /-- The errors they may have collected at the same time. -/
  errors : List LocatedError → List LocatedError → Prop
  /-- The failures of the first after which nothing is said of the second. -/
  lost : Failure → Prop
  /-- Chains of references may come back to themselves. -/
  circles : Prop
  errors_empty : errors [] []
  errors_append : ∀ {found found' more more'}, errors found found' → errors more more' →
    errors (found ++ more) (found' ++ more')
  errors_nil : ∀ {found found'}, errors found found' → (found = [] ↔ found' = [])
  lost_cases : ∀ failure, lost failure → failure = .outOfFuel ∨ failure = .noNode

namespace Comparison

theorem lost_none (failure : Failure) (h : False) : failure = .outOfFuel ∨ failure = .noNode :=
  h.elim

/-- Conversions that collect the same errors. -/
def sharing (states : ConversionState → ConversionState → Prop) (lost : Failure → Prop)
    (lost_cases : ∀ failure, lost failure → failure = .outOfFuel ∨ failure = .noNode) :
    Comparison where
  states := states
  errors := Eq
  lost := lost
  circles := True
  errors_empty := rfl
  errors_append hfound hmore := by rw [hfound, hmore]
  errors_nil h := by rw [h]
  lost_cases := lost_cases

variable {cmp : Comparison} {P : α → β → Prop} {Q : γ → δ → Prop}

/-- Failures of the same kind. -/
inductive Fails (cmp : Comparison) : Failure → Failure → Prop where
  | errors {found found' : SchemaErrors} (h : cmp.errors found.toList found'.toList) :
      Fails cmp (.errors found) (.errors found')
  | undefined : Fails cmp .undefined .undefined
  | recursive (h : cmp.circles) : Fails cmp .recursive .recursive
  | outOfFuel : Fails cmp .outOfFuel .outOfFuel
  | noNode : Fails cmp .noNode .noNode

theorem Fails.refl (hsame : ∀ found, cmp.errors found found) (h : cmp.circles) :
    ∀ failure, cmp.Fails failure failure
  | .errors _ => .errors (hsame _)
  | .undefined => .undefined
  | .recursive => .recursive h
  | .outOfFuel => .outOfFuel
  | .noNode => .noNode

/-- Where the errors collected are the same, so are the failures. -/
theorem Fails.eq (hsame : ∀ {found found'}, cmp.errors found found' → found = found')
    {failure failure' : Failure} (h : cmp.Fails failure failure') : failure = failure' := by
  cases h with
  | @errors found found' h =>
      obtain ⟨first, rest⟩ := found
      obtain ⟨_, _⟩ := found'
      cases hsame h
      rfl
  | _ => rfl

/-- How two runs end, with related results or with failures of the same kind, if the first is not
lost. -/
inductive Ends (cmp : Comparison) (P : α → β → Prop) :
    Except Failure α × ConversionState → Except Failure β × ConversionState → Prop where
  | lost {failure : Failure} (h : cmp.lost failure) (s : ConversionState)
      (run : Except Failure β × ConversionState) : Ends cmp P (.error failure, s) run
  | fails {failure failure' : Failure} {s s' : ConversionState} (h : cmp.Fails failure failure')
      (hstates : cmp.states s s') : Ends cmp P (.error failure, s) (.error failure', s')
  | value {a : α} {b : β} {s s' : ConversionState} (h : P a b) (hstates : cmp.states s s') :
      Ends cmp P (.ok a, s) (.ok b, s')

theorem Ends.after {run : Except Failure α × ConversionState}
    {run' : Except Failure β × ConversionState} (h : cmp.Ends P run run')
    (change change' : ConversionState → ConversionState)
    (hchange : ∀ {t t'}, cmp.states t t' → cmp.states (change t) (change' t')) :
    cmp.Ends P (run.1, change run.2) (run'.1, change' run'.2) := by
  cases h with
  | lost h => exact .lost h _ _
  | fails h hstates => exact .fails h (hchange hstates)
  | value h hstates => exact .value h (hchange hstates)

/-- From whatever states two conversions start, they end alike. -/
def Parallel (cmp : Comparison) (P : α → β → Prop) (m : Conversion α) (m' : Conversion β) : Prop :=
  ∀ s s', cmp.states s s' → cmp.Ends P (m s) (m' s')

/-- Errors correspond where both conversions have the same location. -/
theorem carries (cmp : Comparison) (hsame : ∀ found, cmp.errors found found) (path : Path) :
    Carries cmp.errors path path where
  nil := cmp.errors_empty
  own _ := hsame _
  append := cmp.errors_append
  nil_iff := cmp.errors_nil

namespace Parallel

theorem pure {a : α} {b : β} (h : P a b) : cmp.Parallel P (Pure.pure a) (Pure.pure b) :=
  fun _ _ hs => .value h hs

theorem fails {failure failure' : Failure} (h : cmp.Fails failure failure') :
    cmp.Parallel P (Conversion.fail failure) (Conversion.fail failure') :=
  fun _ _ hs => .fails h hs

theorem refuse {found found' : SchemaErrors} (h : cmp.errors found.toList found'.toList) :
    cmp.Parallel P (Conversion.fail (.errors found)) (Conversion.fail (.errors found')) :=
  fails (.errors h)

/-- A conversion that is lost from the start runs in parallel to everything. -/
theorem lost {failure : Failure} (h : cmp.lost failure) (m : Conversion β) :
    cmp.Parallel P (Conversion.fail failure) m :=
  fun s _ _ => .lost h s _

theorem bind {m : Conversion α} {m' : Conversion β} {f : α → Conversion γ}
    {f' : β → Conversion δ} (hm : cmp.Parallel P m m')
    (hf : ∀ a b, P a b → cmp.Parallel Q (f a) (f' b)) :
    cmp.Parallel Q (m >>= f) (m' >>= f') := by
  intro s s' hs
  have h := hm s s' hs
  rw [run_bind, run_bind]
  generalize m s = run at h ⊢
  generalize m' s' = run' at h ⊢
  cases h with
  | lost h => exact .lost h _ _
  | fails h hstates => exact .fails h hstates
  | value h hstates => exact hf _ _ h _ _ hstates

/-- A failure that is kept as a value must go on if the conversion is lost. -/
theorem outcome {m : Conversion α} {m' : Conversion β} {f : Except Failure α → Conversion γ}
    {f' : Except Failure β → Conversion δ} (hm : cmp.Parallel P m m')
    (hvalue : ∀ a b, P a b → cmp.Parallel Q (f (.ok a)) (f' (.ok b)))
    (hfails : ∀ failure failure', cmp.Fails failure failure' →
      cmp.Parallel Q (f (.error failure)) (f' (.error failure')))
    (hlost : ∀ failure, cmp.lost failure → ∀ s, ∃ t, f (.error failure) s = (.error failure, t)) :
    cmp.Parallel Q (Conversion.outcome m >>= f) (Conversion.outcome m' >>= f') := by
  intro s s' hs
  have h := hm s s' hs
  rw [run_bind_of_ok (run_outcome m s), run_bind_of_ok (run_outcome m' s')]
  generalize m s = run at h ⊢
  generalize m' s' = run' at h ⊢
  cases h with
  | @lost failure h t run =>
      obtain ⟨u, hrun⟩ := hlost _ h t
      dsimp only
      rw [hrun]
      exact .lost h _ _
  | fails h hstates => exact hfails _ _ h _ _ hstates
  | value h hstates => exact hvalue _ _ h _ _ hstates

theorem attempt {m m' : Conversion α} (h : cmp.Parallel Eq m m') :
    cmp.Parallel (Matches cmp.errors) (Conversion.attempt m) (Conversion.attempt m') := by
  refine outcome h (fun a b hab => .pure (hab ▸ .ok a)) ?_ ?_
  · intro failure failure' hfails
    cases hfails with
    | errors h => exact .pure (.error h)
    | undefined => exact .fails .undefined
    | recursive h => exact .fails (.recursive h)
    | outOfFuel => exact .fails .outOfFuel
    | noNode => exact .fails .noNode
  · intro failure hlost s
    rcases cmp.lost_cases _ hlost with rfl | rfl <;> exact ⟨s, rfl⟩

theorem attemptMissing {m m' : Conversion Value} (h : cmp.Parallel Eq m m') :
    cmp.Parallel (Matches cmp.errors) (Conversion.attemptMissing m)
      (Conversion.attemptMissing m') := by
  refine outcome h (fun a b hab => .pure (hab ▸ .ok (some a))) ?_ ?_
  · intro failure failure' hfails
    cases hfails with
    | errors h => exact .pure (.error h)
    | undefined => exact .pure (.ok none)
    | recursive h => exact .fails (.recursive h)
    | outOfFuel => exact .fails .outOfFuel
    | noNode => exact .fails .noNode
  · intro failure hlost s
    rcases cmp.lost_cases _ hlost with rfl | rfl <;> exact ⟨s, rfl⟩

end Parallel

/-- Related nodes convert in parallel. -/
def ParallelNodes (cmp : Comparison) (R : ι → κ → Prop) (convert : Converting ι)
    (convert' : Converting κ) : Prop :=
  ∀ i k, R i k → ∀ input path, cmp.Parallel Eq (convert i input path) (convert' k input path)

variable {R : ι → κ → Prop} {convert : Converting ι} {convert' : Converting κ}

/-! ## Plans -/

variable {path path' : Path}

/-- The parts that answer two questions of one slot run in parallel. -/
structure ParallelParts (cmp : Comparison) (convert : Converting ι) (convert' : Converting κ)
    (path path' : Path) (x : Inquiry ι) (y : Inquiry κ) : Prop where
  slot : x.slot = y.slot
  parts : cmp.Parallel Eq (x.part convert path) (y.part convert' path')

theorem inquire_parallel {x : Inquiry ι} {y : Inquiry κ}
    (h : cmp.ParallelParts convert convert' path path' x y) :
    cmp.Parallel (Reply.Matches cmp.errors) (inquire convert path x)
      (inquire convert' path' y) := by
  unfold inquire
  rw [h.slot]
  split
  · exact .bind (.attemptMissing h.parts) fun _ _ hanswer => .pure ⟨rfl, hanswer⟩
  · refine .bind (.attempt h.parts) fun _ _ hanswer => .pure ⟨rfl, ?_⟩
    cases hanswer with
    | ok value => exact .ok _
    | error h => exact .error h

theorem inquireAll_parallel (isEager : Bool) {xs : List (Inquiry ι)} {ys : List (Inquiry κ)}
    (h : List.Forall₂ (cmp.ParallelParts convert convert' path path') xs ys) :
    cmp.Parallel (List.Forall₂ (Reply.Matches cmp.errors)) (inquireAll convert path isEager xs)
      (inquireAll convert' path' isEager ys) := by
  induction h with
  | nil => exact .pure .nil
  | cons hxy _ ih =>
      refine .bind (inquire_parallel hxy) fun here here' hhere => ?_
      rw [hhere.value?]
      split
      · exact .pure (.cons hhere .nil)
      · exact .bind ih fun more more' hmore => .pure (.cons hhere hmore)

/-- Plans that rule alike run in parallel if their parts do. -/
theorem plan_parallel {x : Plan ι} {y : Plan κ}
    (h : Plan.Alike (cmp.ParallelParts convert convert' path path') cmp.errors x y) :
    cmp.Parallel Eq (x.run convert path) (y.run convert' path') := by
  unfold Plan.run
  rw [h.isEager]
  refine .bind (inquireAll_parallel _ h.inquiries) fun replies replies' hreplies => ?_
  have hruling := h.ruling hreplies
  generalize x.ruling replies = result at hruling
  generalize y.ruling replies' = result' at hruling
  cases hruling with
  | ok value => exact .pure rfl
  | error h => exact .refuse h

/-- Alike nodes that judge values convert in parallel if what they refer to does. -/
theorem typed_parallel (hnodes : cmp.ParallelNodes R convert convert')
    (hsame : ∀ found, cmp.errors found found) (mode : Mode) (self : ι) (self' : κ)
    (common : Common) {a : Shape ι} {b : Shape κ} (h : Shape.Alike R a b) (input : Option Json)
    (path : Path) :
    cmp.Parallel Eq (step convert mode self (.typed common a) input path)
      (step convert' mode self' (.typed common b) input path) := by
  rw [step_typed, step_typed]
  have hplan := h.typedPlan (cmp.carries hsame path) mode common input
  generalize typedPlan mode common a input path = x at hplan
  generalize typedPlan mode common b input path = y at hplan
  cases hplan with
  | none => exact .fails .undefined
  | some hplan =>
      refine plan_parallel (hplan.imp fun inquiry inquiry' halike => ⟨halike.slot, ?_⟩)
      unfold Inquiry.part
      rw [halike.slot, halike.input]
      exact hnodes _ _ halike.node _ _

/-! ## References -/

/-- Two conversions that share the progress of locations and the chain of references, and whose
resolvers are related. -/
structure Shares (cmp : Comparison) (resolvers : Option Resolver → Option Resolver → Prop) :
    Prop where
  states : ∀ {s s'}, cmp.states s s' ↔
    s.registry = s'.registry ∧ s.visited = s'.visited ∧ resolvers s.resolver s'.resolver
  errors : ∀ found, cmp.errors found found
  circles : cmp.circles
  resolve : ∀ reference, cmp.Parallel Eq (resolve? reference) (resolve? reference)
  pushScope : ∀ {r r'}, resolvers r r' → ∀ url,
    resolvers (r.map fun resolver => resolver.pushScope url)
      (r'.map fun resolver => resolver.pushScope url)
  leaveScope : ∀ {r r'}, resolvers r r' →
    resolvers (r.map Resolver.leaveScope) (r'.map Resolver.leaveScope)

namespace Shares

variable {resolvers : Option Resolver → Option Resolver → Prop} {P : α → β → Prop}
  {m : Conversion α} {m' : Conversion β}

theorem update (shares : cmp.Shares resolvers) (change : Registry → Registry) :
    cmp.Parallel Eq (Conversion.update change) (Conversion.update change) := by
  intro s s' hs
  obtain ⟨hregistry, hvisited, hresolver⟩ := shares.states.1 hs
  exact .value rfl (shares.states.2 ⟨congrArg change hregistry, hvisited, hresolver⟩)

theorem progress (shares : cmp.Shares resolvers) (path : Path) :
    cmp.Parallel Eq (Conversion.progress path) (Conversion.progress path) :=
  fun _ _ hs => .value (congrArg (Registry.find? · path) (shares.states.1 hs).1) hs

theorem withOwnChain (shares : cmp.Shares resolvers) (h : cmp.Parallel P m m') :
    cmp.Parallel P (Conversion.withOwnChain m) (Conversion.withOwnChain m') := by
  intro s s' hs
  obtain ⟨hregistry, hvisited, hresolver⟩ := shares.states.1 hs
  have hstart : cmp.states { s with visited := [] } { s' with visited := [] } :=
    shares.states.2 ⟨hregistry, rfl, hresolver⟩
  refine (h _ _ hstart).after (fun t => { t with visited := s.visited })
    (fun t => { t with visited := s'.visited }) fun ht => ?_
  obtain ⟨hregistry, -, hresolver⟩ := shares.states.1 ht
  exact shares.states.2 ⟨hregistry, hvisited, hresolver⟩

theorem following (shares : cmp.Shares resolvers) (path : Path) (h : cmp.Parallel P m m') :
    cmp.Parallel P (Conversion.following path m) (Conversion.following path m') := by
  intro s s' hs
  obtain ⟨hregistry, hvisited, hresolver⟩ := shares.states.1 hs
  have hstart : cmp.states { s with visited := path :: s.visited }
      { s' with visited := path :: s'.visited } :=
    shares.states.2 ⟨hregistry, congrArg (List.cons path) hvisited, hresolver⟩
  refine (h _ _ hstart).after
    (fun t => { t with visited := t.visited.filter (· != path) })
    (fun t => { t with visited := t.visited.filter (· != path) }) fun ht => ?_
  obtain ⟨hregistry, hvisited, hresolver⟩ := shares.states.1 ht
  exact shares.states.2 ⟨hregistry, congrArg (List.filter (· != path)) hvisited, hresolver⟩

theorem inScope (shares : cmp.Shares resolvers) (url : String) (h : cmp.Parallel P m m') :
    cmp.Parallel P (Conversion.inScope url m) (Conversion.inScope url m') := by
  intro s s' hs
  obtain ⟨hregistry, hvisited, hresolver⟩ := shares.states.1 hs
  have hstart : cmp.states
      { s with resolver := s.resolver.map fun resolver => resolver.pushScope url }
      { s' with resolver := s'.resolver.map fun resolver => resolver.pushScope url } :=
    shares.states.2 ⟨hregistry, hvisited, shares.pushScope hresolver url⟩
  refine (h _ _ hstart).after
    (fun t => { t with resolver := t.resolver.map Resolver.leaveScope })
    (fun t => { t with resolver := t.resolver.map Resolver.leaveScope }) fun ht => ?_
  obtain ⟨hregistry, hvisited, hresolver⟩ := shares.states.1 ht
  exact shares.states.2 ⟨hregistry, hvisited, shares.leaveScope hresolver⟩

/-- What changes the progress of locations and goes on with a failure. -/
theorem updateFail (shares : cmp.Shares resolvers) (change : Registry → Registry)
    {failure failure' : Failure} (h : cmp.Fails failure failure') :
    cmp.Parallel Eq (Conversion.update change >>= fun _ => (fail failure : Conversion Value))
      (Conversion.update change >>= fun _ => (fail failure' : Conversion Value)) :=
  .bind (shares.update change) fun _ _ _ => .fails h

theorem enter (shares : cmp.Shares resolvers) (hnodes : cmp.ParallelNodes R convert convert')
    {i : ι} {k : κ} (h : R i k) (input : Option Json) (path : Path) :
    cmp.Parallel Eq (Conversion.enter convert i input path)
      (Conversion.enter convert' k input path) := by
  refine .bind (shares.progress path) ?_
  rintro found _ rfl
  have hown := shares.withOwnChain (hnodes i k h input path)
  split
  · exact .pure rfl
  · exact .bind (shares.update _) fun _ _ _ => .pure rfl
  · refine .bind (shares.update _) fun _ _ _ => .outcome hown ?_ ?_ ?_
    · rintro value _ rfl
      exact .bind (shares.update _) fun _ _ _ => .pure rfl
    · intro failure failure' hfails
      cases hfails with
      | errors h => exact shares.updateFail _ (.errors h)
      | undefined => exact shares.updateFail _ .undefined
      | recursive h => exact shares.updateFail _ (.recursive h)
      | outOfFuel => exact shares.updateFail _ .outOfFuel
      | noNode => exact shares.updateFail _ .noNode
    · intro failure hlost s
      rcases cmp.lost_cases _ hlost with rfl | rfl <;> exact ⟨_, rfl⟩

theorem arrive (shares : cmp.Shares resolvers) (hnodes : cmp.ParallelNodes R convert convert')
    {self : ι} {self' : κ} (hself : R self self') (messages : Messages) {i : ι} {k : κ}
    (h : R i k) (value : Json) (location path : Path) :
    cmp.Parallel Eq (Conversion.arrive convert self messages i value location path)
      (Conversion.arrive convert' self' messages k value location path) := by
  have hdeeper : cmp.Parallel Eq (deeper convert self i value location)
      (deeper convert' self' k value location) := by
    unfold deeper
    split
    · exact hnodes _ _ hself _ _
    · exact shares.withOwnChain (hnodes _ _ h _ _)
  intro s s' hs
  unfold Conversion.arrive
  rw [run_bind_of_ok (run_get s), run_bind_of_ok (run_get s'), (shares.states.1 hs).2.1]
  split
  · exact .fails (.recursive shares.circles) hs
  · refine Parallel.bind (shares.progress location) ?_ s s' hs
    rintro found _ rfl
    split
    · exact .refuse (shares.errors _)
    · exact .pure rfl
    · exact .bind (shares.update _) fun _ _ _ => .pure rfl
    · refine .bind (shares.update _) fun _ _ _ =>
        .outcome (shares.following location hdeeper) ?_ ?_ ?_
      · rintro value _ rfl
        exact .bind (shares.update _) fun _ _ _ => .pure rfl
      · intro failure failure' hfails
        cases hfails with
        | errors h =>
            exact shares.updateFail _ (.errors (cmp.errors_append (shares.errors [_]) h))
        | undefined => exact shares.updateFail _ .undefined
        | recursive h => exact shares.updateFail _ (.errors (shares.errors _))
        | outOfFuel => exact shares.updateFail _ .outOfFuel
        | noNode => exact shares.updateFail _ .noNode
      · intro failure hlost s
        rcases cmp.lost_cases _ hlost with rfl | rfl <;> exact ⟨_, rfl⟩

theorem reference (shares : cmp.Shares resolvers) (hnodes : cmp.ParallelNodes R convert convert')
    {self : ι} {self' : κ} (hself : R self self') (messages : Messages) {i : ι} {k : κ}
    (h : R i k) (input : Option Json) (path : Path) :
    cmp.Parallel Eq (Conversion.reference convert self messages i input path)
      (Conversion.reference convert' self' messages k input path) := by
  unfold Conversion.reference
  split
  · rename_i found _
    unfold follow
    cases found with
    | str text =>
        refine .bind (shares.resolve text) ?_
        rintro resolved _ rfl
        cases resolved with
        | none => exact .refuse (shares.errors _)
        | some target =>
            exact shares.inScope _ (shares.arrive hnodes hself messages h _ _ path)
    | _ => exact .refuse (shares.errors _)
  · exact shares.enter hnodes h input path

/-- Alike nodes convert in parallel if what they refer to does. -/
theorem step (shares : cmp.Shares resolvers) (hnodes : cmp.ParallelNodes R convert convert')
    (mode : Mode) {self : ι} {self' : κ} (hself : R self self') {a : Node ι} {b : Node κ}
    (h : Node.Alike R a b) (input : Option Json) (path : Path) :
    cmp.Parallel Eq (Conversion.step convert mode self a input path)
      (Conversion.step convert' mode self' b input path) := by
  cases h with
  | forward htarget => exact hnodes _ _ htarget input path
  | reference messages htarget => exact shares.reference hnodes hself messages htarget input path
  | typed common hshape =>
      exact typed_parallel hnodes shares.errors mode self self' common hshape input path

end Shares

end Comparison

/-! ## Conversions that do the same -/

variable {holds : ConversionState → Prop}

/-- Conversions that do exactly the same from states of which something holds, and keep it. -/
def exactly (holds : ConversionState → Prop) : Comparison :=
  .sharing (fun s s' => s = s' ∧ holds s) (fun _ => False) Comparison.lost_none

theorem exactly_parallel_iff {m m' : Conversion α} : (exactly holds).Parallel Eq m m' ↔
    ∀ s, holds s → m s = m' s ∧ holds (m s).2 := by
  constructor
  · intro h s hs
    have hrun := h s s ⟨rfl, hs⟩
    generalize m s = run at hrun ⊢
    generalize m' s = run' at hrun ⊢
    cases hrun with
    | lost h => exact h.elim
    | fails h hstates =>
        obtain ⟨rfl, ht⟩ := hstates
        rw [h.eq id]
        exact ⟨rfl, ht⟩
    | value h hstates =>
        obtain ⟨rfl, ht⟩ := hstates
        cases h
        exact ⟨rfl, ht⟩
  · rintro h s _ ⟨rfl, hs⟩
    obtain ⟨hrun, ht⟩ := h s hs
    rw [← hrun]
    revert ht
    rcases m s with ⟨failure | a, t⟩
    · exact fun ht => .fails (.refl Eq.refl trivial failure) ⟨rfl, ht⟩
    · exact fun ht => .value rfl ⟨rfl, ht⟩

end Conversion

end SchemaGraph

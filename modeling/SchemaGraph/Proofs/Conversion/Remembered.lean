import Mathlib.Data.Nat.Find
import SchemaGraph.Proofs.Conversion.Anew
import SchemaGraph.Proofs.Conversion.Following
import SchemaGraph.Proofs.Conversion.Frame
import SchemaGraph.Proofs.Conversion.Parallel

set_option autoImplicit false

/-! # References remembered

The registry remembers what became of a location, whatever node converted it. As long as a
directory admits every visit, this is what the location becomes on its own, and a conversion gives
what it gives with references converted anew (`convertWithin_recalls`). A reference is then
converted to what its target makes of the value (`references_give_targets`); where two targets
convert one location, the first one decides (`remembered_for_another`).

The induction is on the fuel of the conversion without memory. It carries the locations that are
being converted, each of which needs more fuel than is left (`Deep`): a conversion without memory
that comes back to one of them runs out of it.
-/

namespace SchemaGraph

namespace Conversion

section

variable (graph : Graph) (mode : Mode) (directory : Directory) (origin : Resolver)

/-! ## What is known of locations -/

/-- On its own, a location becomes this. -/
def Becomes (location : Path) (answer : Except (Option Failure) Value) : Prop :=
  ∃ home, directory.home location = some home ∧ ∃ fuel self, home.IsThrough graph self ∧
    verdict (alone origin (graph.convertAnew mode directory origin fuel) self location home) =
      answer

/-- None of the locations becomes anything with less fuel. -/
def Deep (pending : List Path) (fuel : Nat) : Prop :=
  ∀ location ∈ pending, ∃ home, directory.home location = some home ∧
    ∀ less, less < fuel → ∀ self, home.IsThrough graph self →
      alone origin (graph.convertAnew mode directory origin less) self location home =
        .error .outOfFuel

/-- The registry tells of every location what it becomes on its own, and which ones are being
converted. -/
structure Honest (pending : List Path) (registry : Registry) : Prop where
  pending : ∀ {location}, registry.find? location = some .pending → location ∈ pending
  poisoned : ∀ {location}, registry.find? location = some .poisoned →
    Becomes graph mode directory origin location (.error none)
  done : ∀ {location value}, registry.find? location = some (.done value) →
    Becomes graph mode directory origin location (.ok value)

/-- The resolver has the documents of `origin` and stands in a scope that makes no difference. -/
def Stands (scope : String) (s : ConversionState) : Prop :=
  ∃ r, s.resolver = some r ∧ Resolver.Remembers origin r ∧
    Uri.Akin directory.refers scope r.scope

/-- A conversion that remembers, beside one that does not. -/
def recalling (pending : List Path) : Comparison where
  states s s' := Stands directory origin s.scope s' ∧
    Honest graph mode directory origin pending s'.registry ∧ ∀ path ∈ s'.visited, path ∈ pending
  errors found found' := found = [] ↔ found' = []
  lost failure := failure = .outOfFuel ∨ failure = .noNode
  circles := False
  errors_empty := Iff.rfl
  errors_append hfound hmore := by
    rw [List.append_eq_nil_iff, List.append_eq_nil_iff, hfound, hmore]
  errors_nil := id
  lost_cases _ := id

end

variable {graph : Graph} {mode : Mode} {directory : Directory} {origin : Resolver}
  {pending : List Path} {g : Registry} {location path : Path} {s s₁ t : ConversionState}
  {home : Visit} {self target : NodeId} {fuel more : Nat} {value : Value} {scope : String}

namespace Deep

theorem nil (fuel : Nat) : Deep graph mode directory origin [] fuel := fun _ h => nomatch h

theorem less (h : Deep graph mode directory origin pending fuel) (hless : more ≤ fuel) :
    Deep graph mode directory origin pending more := by
  intro location hlocation
  obtain ⟨home, hhome, hdeep⟩ := h location hlocation
  exact ⟨home, hhome, fun less hlt => hdeep less (Nat.lt_of_lt_of_le hlt hless)⟩

/-- A location that becomes something needs some fuel, and nothing is there with less. -/
theorem descend (h : Deep graph mode directory origin pending fuel)
    (hhome : directory.home location = some home) (hself : home.IsThrough graph self)
    (hends : alone origin (graph.convertAnew mode directory origin fuel) self location home ≠
      .error .outOfFuel) :
    ∃ least, least ≤ fuel ∧ Deep graph mode directory origin (location :: pending) least ∧
      alone origin (graph.convertAnew mode directory origin least) self location home =
        alone origin (graph.convertAnew mode directory origin fuel) self location home := by
  classical
  have hexists : ∃ fuel, alone origin (graph.convertAnew mode directory origin fuel) self location
      home ≠ .error .outOfFuel := ⟨fuel, hends⟩
  have hleast := Nat.find_min' hexists hends
  refine ⟨Nat.find hexists, hleast, ?_, ?_⟩
  · intro other hother
    rcases List.mem_cons.1 hother with rfl | hother
    · refine ⟨home, hhome, fun less hless self' hself' => ?_⟩
      have hout := not_not.1 (Nat.find_min hexists hless)
      rw [← verdict_eq_outOfFuel, alone_self hself' hself, verdict_eq_outOfFuel]
      exact hout
    · exact h.less hleast other hother
  · exact (alone_approximates (convertAnew_approximates hleast)).resolve_left
      (Nat.find_spec hexists)

end Deep

theorem honest_empty (pending : List Path) :
    Honest graph mode directory origin pending .empty where
  pending h := nomatch h
  poisoned h := nomatch h
  done h := nomatch h

namespace Honest

theorem start (h : Honest graph mode directory origin pending g) (location : Path) :
    Honest graph mode directory origin (location :: pending) (g.start location) := by
  refine ⟨fun {other} hother => ?_, fun {other} hother => ?_, fun {other value} hother => ?_⟩ <;>
    by_cases hsame : other = location
  · exact hsame ▸ List.mem_cons_self
  · rw [Registry.find?_start_of_ne hsame] at hother
    exact List.mem_cons_of_mem _ (h.pending hother)
  · rw [hsame, Registry.find?_start_self] at hother
    cases hother
  · rw [Registry.find?_start_of_ne hsame] at hother
    exact h.poisoned hother
  · rw [hsame, Registry.find?_start_self] at hother
    cases hother
  · rw [Registry.find?_start_of_ne hsame] at hother
    exact h.done hother

/-- A location that is not being converted any more leaves what is known of others. -/
theorem close {k : Registry} (h : Honest graph mode directory origin (location :: pending) g)
    (hothers : ∀ {other}, other ≠ location → k.find? other = g.find? other)
    (hpending : k.find? location ≠ some .pending)
    (hpoisoned : k.find? location = some .poisoned →
      Becomes graph mode directory origin location (.error none))
    (hdone : ∀ {value}, k.find? location = some (.done value) →
      Becomes graph mode directory origin location (.ok value)) :
    Honest graph mode directory origin pending k := by
  refine ⟨fun {other} hother => ?_, fun {other} hother => ?_, fun {other value} hother => ?_⟩ <;>
    by_cases hsame : other = location
  · exact absurd (hsame ▸ hother) hpending
  · rw [hothers hsame] at hother
    exact (List.mem_cons.1 (h.pending hother)).resolve_left hsame
  · subst hsame
    exact hpoisoned hother
  · rw [hothers hsame] at hother
    exact h.poisoned hother
  · subst hsame
    exact hdone hother
  · rw [hothers hsame] at hother
    exact h.done hother

theorem finish (h : Honest graph mode directory origin (location :: pending) g)
    (hvalue : Becomes graph mode directory origin location (.ok value)) :
    Honest graph mode directory origin pending (g.finish location value) := by
  refine h.close Registry.find?_finish_of_ne ?_ ?_ ?_
  · rw [Registry.find?_finish_self]
    exact fun h => nomatch h
  · rw [Registry.find?_finish_self]
    exact fun h => nomatch h
  · rw [Registry.find?_finish_self]
    rintro _ ⟨⟩
    exact hvalue

theorem poison (h : Honest graph mode directory origin (location :: pending) g)
    (hfailed : Becomes graph mode directory origin location (.error none)) :
    Honest graph mode directory origin pending (g.poison location) := by
  refine h.close Registry.find?_poison_of_ne ?_ ?_ ?_
  · rw [Registry.find?_poison_self]
    exact fun h => nomatch h
  · exact fun _ => hfailed
  · rw [Registry.find?_poison_self]
    exact fun h => nomatch h

theorem remove (h : Honest graph mode directory origin (location :: pending) g) :
    Honest graph mode directory origin pending (g.remove location) := by
  refine h.close Registry.find?_remove_of_ne ?_ ?_ ?_ <;> rw [Registry.find?_remove_self] <;>
    exact fun h => nomatch h

end Honest

/-! ## How conversions end -/

/-- Results that are the same but for the errors. -/
inductive Same : Except Failure Value → Except Failure Value → Prop where
  | value (value : Value) : Same (.ok value) (.ok value)
  | errors (found found' : SchemaErrors) : Same (.error (.errors found)) (.error (.errors found'))
  | undefined : Same (.error .undefined) (.error .undefined)

theorem Same.eq_ok {a b : Except Failure Value} (h : Same a b) {value : Value} :
    b = .ok value ↔ a = .ok value := by
  cases h with
  | value => exact Iff.rfl
  | errors => exact iff_of_false (fun h => nomatch h) (fun h => nomatch h)
  | undefined => exact iff_of_false (fun h => nomatch h) (fun h => nomatch h)

/-- A conversion without memory tells nothing. -/
def IsLost (result : Except Failure Value) : Prop :=
  result = .error .outOfFuel ∨ result = .error .noNode

instance : DecidablePred IsLost
  | .error .outOfFuel => isTrue (.inl rfl)
  | .error .noNode => isTrue (.inr rfl)
  | .error (.errors _) => isFalse (by rintro (h | h) <;> cases h)
  | .error .undefined => isFalse (by rintro (h | h) <;> cases h)
  | .error .recursive => isFalse (by rintro (h | h) <;> cases h)
  | .ok _ => isFalse (by rintro (h | h) <;> cases h)

theorem ends_iff {run run' : Except Failure Value × ConversionState} :
    (recalling graph mode directory origin pending).Ends Eq run run' ↔
      IsLost run.1 ∨ Same run.1 run'.1 ∧
        (recalling graph mode directory origin pending).states run.2 run'.2 := by
  constructor
  · intro h
    cases h with
    | lost h => exact .inl (h.imp (congrArg _) (congrArg _))
    | fails h hs =>
        cases h with
        | errors h => exact .inr ⟨.errors _ _, hs⟩
        | undefined => exact .inr ⟨.undefined, hs⟩
        | recursive h => exact h.elim
        | outOfFuel => exact .inl (.inl rfl)
        | noNode => exact .inl (.inr rfl)
    | value h hs =>
        subst h
        exact .inr ⟨.value _, hs⟩
  · obtain ⟨a, t⟩ := run
    obtain ⟨b, u⟩ := run'
    rintro (hlost | ⟨hsame, hs⟩)
    · obtain rfl | rfl : a = _ ∨ a = _ := hlost
      · exact .lost (Or.inl rfl) _ _
      · exact .lost (Or.inr rfl) _ _
    · cases hsame with
      | value => exact .value rfl hs
      | errors found found' =>
          exact .fails (.errors (iff_of_false (List.cons_ne_nil _ _) (List.cons_ne_nil _ _))) hs
      | undefined => exact .fails .undefined hs

/-- A location that was converted is closed again. -/
theorem closeEntered_ends {run : Except Failure Value × ConversionState}
    {a : Except Failure Value}
    (h : (recalling graph mode directory origin (path :: pending)).Ends Eq (a, s) run)
    (hbecomes : Becomes graph mode directory origin path (verdict a))
    (hvisited : ∀ other ∈ run.2.visited, other ∈ path :: pending → other ∈ pending) :
    (recalling graph mode directory origin pending).Ends Eq (a, s) (closeEntered path run) := by
  obtain ⟨b, t⟩ := run
  refine ends_iff.2 ((ends_iff.1 h).imp_right ?_)
  rintro ⟨hsame, hstands, hhonest, hpaths⟩
  have hrest : ∀ other ∈ t.visited, other ∈ pending :=
    fun other hother => hvisited other hother (hpaths other hother)
  cases hsame with
  | value found => exact ⟨.value found, hstands, hhonest.finish hbecomes, hrest⟩
  | errors => exact ⟨.errors _ _, hstands, hhonest.poison hbecomes, hrest⟩
  | undefined => exact ⟨.undefined, hstands, hhonest.remove, hrest⟩

theorem closeReached_ends {run : Except Failure Value × ConversionState}
    {a : Except Failure Value} (messages : Messages) (path : Path)
    (h : (recalling graph mode directory origin (location :: pending)).Ends Eq (a, s) run)
    (hbecomes : Becomes graph mode directory origin location (verdict a))
    (hvisited : ∀ other ∈ run.2.visited, other ∈ location :: pending → other ∈ pending) :
    (recalling graph mode directory origin pending).Ends Eq (a, s)
      (closeReached messages location path run) := by
  obtain ⟨b, t⟩ := run
  refine ends_iff.2 ((ends_iff.1 h).imp_right ?_)
  rintro ⟨hsame, hstands, hhonest, hpaths⟩
  have hrest : ∀ other ∈ t.visited, other ∈ pending :=
    fun other hother => hvisited other hother (hpaths other hother)
  cases hsame with
  | value found => exact ⟨.value found, hstands, hhonest.finish hbecomes, hrest⟩
  | errors => exact ⟨.errors _ _, hstands, hhonest.poison hbecomes, hrest⟩
  | undefined => exact ⟨.undefined, hstands, hhonest.remove, hrest⟩

/-! ## Locations -/

theorem becomes (hhome : directory.home location = some home) (hself : home.IsThrough graph self)
    (fuel : Nat) : Becomes graph mode directory origin location
      (verdict (alone origin (graph.convertAnew mode directory origin fuel) self location home)) :=
  ⟨home, hhome, fuel, self, hself, rfl⟩

/-- What is known of a location is what it becomes. -/
theorem Becomes.verdict_eq {answer : Except (Option Failure) Value}
    (h : Becomes graph mode directory origin location answer)
    (hanswer : answer ≠ .error (some .outOfFuel))
    (hhome : directory.home location = some home) (hself : home.IsThrough graph self)
    (hends : alone origin (graph.convertAnew mode directory origin fuel) self location home ≠
      .error .outOfFuel) :
    verdict (alone origin (graph.convertAnew mode directory origin fuel) self location home) =
      answer := by
  obtain ⟨home', hhome', more, self', hself', rfl⟩ := h
  cases hhome.symm.trans hhome'
  exact alone_unique hself hself' hends fun hout => hanswer (verdict_eq_outOfFuel.2 hout)

/-- Where a location is being converted already, a conversion without memory never ends. -/
theorem Deep.out (h : Deep graph mode directory origin pending (fuel + 1))
    (hlocation : location ∈ pending) (hhome : directory.home location = some home)
    (hself : home.IsThrough graph self) :
    alone origin (graph.convertAnew mode directory origin fuel) self location home =
      .error .outOfFuel := by
  obtain ⟨home', hhome', hout⟩ := h location hlocation
  cases hhome.symm.trans hhome'
  exact hout fuel (Nat.lt_succ_self fuel) self hself

theorem Stands.akin {scope' : String} (hs : Stands directory origin scope s)
    (hakin : Uri.Akin directory.refers scope scope') : Stands directory origin scope' s := by
  obtain ⟨r, hr, hremembers, hscope⟩ := hs
  exact ⟨r, hr, hremembers, hakin.symm.trans hscope⟩

/-- Related scopes are left behind where a resolver keeps its own. -/
theorem Stands.keep {scope' : String} (hs : Stands directory origin scope s)
    (hkeeps : KeepsResolver s t) (ht : Stands directory origin scope' t) :
    Stands directory origin scope t := by
  obtain ⟨r, hr, -, hakin⟩ := hs
  obtain ⟨r', hr', hkept⟩ := hkeeps r hr
  obtain ⟨r'', hr'', hremembers, -⟩ := ht
  cases hr'.symm.trans hr''
  exact ⟨r', hr', hremembers, hkept.scope.symm ▸ hakin⟩

section

variable {convert : Converting}

/-- A conversion that remembers gives what one without memory does, with that much fuel or less. -/
structure Recalls (graph : Graph) (mode : Mode) (directory : Directory) (origin : Resolver)
    (fuel : Nat) (convert : Converting) : Prop where
  keeps : KeepsNodes KeepsResolver convert
  nodes : ∀ {less pending}, less ≤ fuel → Deep graph mode directory origin pending less →
    (recalling graph mode directory origin pending).ParallelNodes Eq
      (graph.convertAnew mode directory origin less) convert

/-- What stands at a location that is opened converts as it does on its own. -/
theorem landed_ends (recalls : Recalls graph mode directory origin fuel convert)
    (hdeep : Deep graph mode directory origin pending fuel)
    (hhome : directory.home location = some home) (hself : home.IsThrough graph self)
    (hends : alone origin (graph.convertAnew mode directory origin fuel) self location home ≠
      .error .outOfFuel)
    (hstands : Stands directory origin home.scope t)
    (hhonest : Honest graph mode directory origin (location :: pending) t.registry)
    (hvisited : ∀ other ∈ t.visited, other ∈ location :: pending) :
    (recalling graph mode directory origin (location :: pending)).Ends Eq
      (alone origin (graph.convertAnew mode directory origin fuel) self location home,
        origin.standing home.scope)
      (landed convert self home.node home.input location t) := by
  obtain ⟨least, hleast, hdeep, halone⟩ := hdeep.descend hhome hself hends
  have hnodes := recalls.nodes hleast hdeep
  have hstates : (recalling graph mode directory origin (location :: pending)).states
      (origin.standing home.scope) t := ⟨hstands, hhonest, hvisited⟩
  have hrun : (recalling graph mode directory origin (location :: pending)).Ends Eq
        (landed (graph.convertAnew mode directory origin least) self home.node home.input location
          (origin.standing home.scope))
        (landed convert self home.node home.input location t) ∧
      KeepsResolver t (landed convert self home.node home.input location t).2 := by
    unfold landed
    cases home.input.bind referenceOf? with
    | none => exact ⟨hnodes _ _ rfl _ _ _ _ hstates, recalls.keeps _ _ _ _⟩
    | some _ => exact ⟨hnodes _ _ rfl _ _ _ _ hstates, recalls.keeps _ _ _ _⟩
  obtain ⟨hrun, hkeeps⟩ := hrun
  rw [← halone]
  refine ends_iff.2 ((ends_iff.1 hrun).imp_right ?_)
  rintro ⟨hsame, hafter, hhonest, hvisited⟩
  exact ⟨hsame, hstands.keep hkeeps hafter, hhonest, hvisited⟩

/-- A chain of its own is put back. -/
theorem withOwnChain_ends {m : Conversion Value} {a : Except Failure Value}
    (h : (recalling graph mode directory origin pending).Ends Eq (a, s)
      (m { t with visited := [] }))
    (hvisited : ∀ other ∈ t.visited, other ∈ pending) :
    (recalling graph mode directory origin pending).Ends Eq (a, s) (withOwnChain m t) := by
  refine ends_iff.2 ((ends_iff.1 h).imp_right ?_)
  rintro ⟨hsame, hstands, hhonest, -⟩
  exact ⟨hsame, hstands, hhonest, hvisited⟩

/-- So does what a reference leads to. -/
theorem deeper_ends (recalls : Recalls graph mode directory origin fuel convert)
    (hdeep : Deep graph mode directory origin pending fuel) {found : Json}
    (hhome : directory.home location = some ⟨target, some found, scope⟩)
    (hself : Visit.IsThrough ⟨target, some found, scope⟩ graph self)
    (hends : alone origin (graph.convertAnew mode directory origin fuel) self location
      ⟨target, some found, scope⟩ ≠ .error .outOfFuel)
    (hstands : Stands directory origin scope t)
    (hhonest : Honest graph mode directory origin (location :: pending) t.registry)
    (hvisited : ∀ other ∈ t.visited, other ∈ location :: pending) :
    (recalling graph mode directory origin (location :: pending)).Ends Eq
      (alone origin (graph.convertAnew mode directory origin fuel) self location
        ⟨target, some found, scope⟩, origin.standing scope)
      (deeper convert self target found location t) := by
  unfold deeper
  cases hfound : referenceOf? found with
  | some _ =>
      have hrun := landed_ends recalls hdeep hhome hself hends hstands hhonest hvisited
      unfold landed at hrun
      rw [Option.bind_some, hfound] at hrun
      exact hrun
  | none =>
      have hrun := landed_ends (t := { t with visited := [] }) recalls hdeep hhome hself hends
        hstands hhonest (fun _ h => nomatch h)
      unfold landed at hrun
      rw [Option.bind_some, hfound] at hrun
      exact withOwnChain_ends hrun hvisited

/-- A location converts where it is entered as it does on its own. -/
theorem enter_ends (recalls : Recalls graph mode directory origin fuel convert)
    (hdeep : Deep graph mode directory origin pending (fuel + 1))
    (hhome : directory.home path = some home) (hplain : home.input.bind referenceOf? = none)
    (hstands : Stands directory origin home.scope t)
    (hhonest : Honest graph mode directory origin pending t.registry)
    (hvisited : ∀ other ∈ t.visited, other ∈ pending) (self : NodeId) :
    (recalling graph mode directory origin pending).Ends Eq
      (alone origin (graph.convertAnew mode directory origin fuel) self path home,
        origin.standing home.scope)
      (enter convert home.node home.input path t) := by
  have hself : home.IsThrough graph self := .inl hplain
  by_cases hends : alone origin (graph.convertAnew mode directory origin fuel) self path home =
      .error .outOfFuel
  · exact ends_iff.2 (.inl (.inl hends))
  have hclosed : t.registry.IsOpen path →
      (recalling graph mode directory origin pending).Ends Eq
        (alone origin (graph.convertAnew mode directory origin fuel) self path home,
          origin.standing home.scope)
        (enter convert home.node home.input path t) := by
    intro hopen
    rw [run_enter_open _ _ _ hopen]
    refine closeEntered_ends ?_ (becomes hhome hself fuel) (fun other hother _ => hvisited _ hother)
    have hrun := landed_ends (t := { t with registry := t.registry.start path, visited := [] })
      recalls (hdeep.less (Nat.le_succ fuel)) hhome hself hends hstands (hhonest.start path)
      (fun _ h => nomatch h)
    unfold landed at hrun
    rw [hplain] at hrun
    exact withOwnChain_ends hrun fun other hother => List.mem_cons_of_mem _ (hvisited _ hother)
  cases hfind : t.registry.find? path with
  | none => exact hclosed (.inl hfind)
  | some progress =>
      cases progress with
      | poisoned => exact hclosed (.inr hfind)
      | pending => exact absurd (hdeep.out (hhonest.pending hfind) hhome hself) hends
      | done value =>
          rw [run_enter, hfind]
          have hvalue := (hhonest.done hfind).verdict_eq (fun h => nomatch h) hhome hself hends
          rw [verdict_eq_ok.1 hvalue]
          exact ends_iff.2 (.inr ⟨.value value, hstands, hhonest, hvisited⟩)

/-- A location converts where a reference leads to it as it does on its own. -/
theorem arrive_ends (recalls : Recalls graph mode directory origin fuel convert)
    (hdeep : Deep graph mode directory origin pending (fuel + 1)) {found : Json}
    {messages : Messages} (hid : graph.get? self = some (.reference messages target))
    (hhome : directory.home location = some ⟨target, some found, scope⟩)
    (hstands : Stands directory origin scope t)
    (hhonest : Honest graph mode directory origin pending t.registry)
    (hvisited : ∀ other ∈ t.visited, other ∈ pending) (path : Path) :
    (recalling graph mode directory origin pending).Ends Eq
      (alone origin (graph.convertAnew mode directory origin fuel) self location
        ⟨target, some found, scope⟩, origin.standing scope)
      (arrive convert self messages target found location path t) := by
  have hself : Visit.IsThrough ⟨target, some found, scope⟩ graph self := .inr ⟨messages, hid⟩
  by_cases hends : alone origin (graph.convertAnew mode directory origin fuel) self location
      ⟨target, some found, scope⟩ = .error .outOfFuel
  · exact ends_iff.2 (.inl (.inl hends))
  rw [run_arrive]
  split
  · rename_i hmet
    exact absurd (hdeep.out (hvisited _ (List.contains_iff_mem.1 hmet)) hhome hself) hends
  · rename_i hnew
    cases hfind : t.registry.find? location with
    | some progress =>
        cases progress with
        | poisoned =>
            have hnone := (hhonest.poisoned hfind).verdict_eq (fun h => nomatch h) hhome hself hends
            obtain ⟨errors, herrors⟩ := exists_of_verdict hnone
            rw [herrors]
            exact ends_iff.2 (.inr ⟨.errors _ _, hstands, hhonest, hvisited⟩)
        | pending => exact absurd (hdeep.out (hhonest.pending hfind) hhome hself) hends
        | done value =>
            have hvalue := (hhonest.done hfind).verdict_eq (fun h => nomatch h) hhome hself hends
            rw [verdict_eq_ok.1 hvalue]
            exact ends_iff.2 (.inr ⟨.value value, hstands, hhonest, hvisited⟩)
    | none =>
        have hpaths : ∀ other ∈ location :: t.visited, other ∈ location :: pending := by
          intro other hother
          rcases List.mem_cons.1 hother with rfl | hother
          · exact List.mem_cons_self
          · exact List.mem_cons_of_mem _ (hvisited other hother)
        have hrun := deeper_ends (t := { t with registry := t.registry.start location,
                                                visited := location :: t.visited })
          recalls (hdeep.less (Nat.le_succ fuel)) hhome hself hends hstands
          (hhonest.start location) hpaths
        refine closeReached_ends messages path ?_ (becomes hhome hself fuel) ?_
        · refine ends_iff.2 ((ends_iff.1 hrun).imp_right ?_)
          rintro ⟨hsame, hstands, hhonest, hpaths⟩
          exact ⟨hsame, hstands, hhonest, fun other hother => hpaths other
            (List.mem_of_mem_filter hother)⟩
        · intro other hother hmem
          have hne : other ≠ location := bne_iff_ne.1 (List.mem_filter.1 hother).2
          exact (List.mem_cons.1 hmem).resolve_left hne

/-! ## References -/

/-- A conversion gives what one without memory gives, and ends in whatever scope. -/
def Agrees (graph : Graph) (mode : Mode) (directory : Directory) (origin : Resolver)
    (pending : List Path) (a : Except Failure Value)
    (run : Except Failure Value × ConversionState) : Prop :=
  IsLost a ∨ Same a run.1 ∧ (∃ scope, Stands directory origin scope run.2) ∧
    Honest graph mode directory origin pending run.2.registry ∧
    ∀ other ∈ run.2.visited, other ∈ pending

theorem Agrees.of_ends {a : Except Failure Value} {run : Except Failure Value × ConversionState}
    (h : (recalling graph mode directory origin pending).Ends Eq (a, s) run) :
    Agrees graph mode directory origin pending a run :=
  (ends_iff.1 h).imp_right fun ⟨hsame, hstands, hrest⟩ => ⟨hsame, ⟨_, hstands⟩, hrest⟩

theorem Agrees.ends {a : Except Failure Value} {run : Except Failure Value × ConversionState}
    (h : Agrees graph mode directory origin pending a run)
    (hstands : Stands directory origin s.scope t) (hkeeps : KeepsResolver t run.2) :
    (recalling graph mode directory origin pending).Ends Eq (a, s) run :=
  ends_iff.2 (h.imp_right fun ⟨hsame, ⟨_, hafter⟩, hrest⟩ =>
    ⟨hsame, hstands.keep hkeeps hafter, hrest⟩)

/-- A part that runs in a scope agrees with what runs inside. -/
theorem Agrees.inScope {url : String} {m : Conversion Value} {a : Except Failure Value}
    (h : Agrees graph mode directory origin pending a
      (m { t with resolver := t.resolver.map fun resolver => resolver.pushScope url })) :
    Agrees graph mode directory origin pending a (inScope url m t) := by
  refine h.imp_right ?_
  rintro ⟨hsame, ⟨scope, r, hr, hremembers, -⟩, hrest⟩
  exact ⟨hsame, ⟨_, r.leaveScope, congrArg (Option.map Resolver.leaveScope) hr,
    hremembers.leaveScope, .refl _ _⟩, hrest⟩

/-- A reference leads both conversions to the same location. -/
theorem follow_agrees (recalls : Recalls graph mode directory origin fuel convert)
    (hdeep : Deep graph mode directory origin pending (fuel + 1)) {messages : Messages}
    (hid : graph.get? self = some (.reference messages target)) {input : Option Json}
    {found : Json} (hfound : input.bind referenceOf? = some found) (path : Path)
    (hstands : Stands directory origin scope t)
    (hhonest : Honest graph mode directory origin pending t.registry)
    (hvisited : ∀ other ∈ t.visited, other ∈ pending) :
    Agrees graph mode directory origin pending
      (referenceAnew directory origin (graph.convertAnew mode directory origin fuel) self
        messages target input path scope)
      (follow convert self messages target found path t) := by
  unfold referenceAnew
  rw [hfound]
  cases found with
  | str text =>
      obtain ⟨r, hr, hremembers, hakin⟩ := hstands
      obtain ⟨hresolve, hafter⟩ := hremembers.resolve text
      have hscope : (r.resolve text).2.scope = r.scope := r.scope_resolve text
      unfold follow
      dsimp only
      rw [run_bind_of_ok (run_resolve?_of_some hr text), hresolve]
      generalize (r.resolve text).2 = r' at hafter hscope
      by_cases hrefers : text ∈ directory.refers
      · obtain ⟨hjoin, henter⟩ := hakin text hrefers
        rw [if_pos hrefers, ← hjoin]
        cases origin.valueAt (Uri.join scope text) with
        | error failure =>
            exact .inr ⟨.errors _ _, ⟨scope, r', rfl, hafter, hscope ▸ hakin⟩, hhonest, hvisited⟩
        | ok value =>
            obtain ⟨hentered, hinside⟩ := hafter.pushScope (Uri.join scope text)
            rw [hscope, hjoin, ← henter, ← hjoin] at hentered
            dsimp only
            rcases visit_cases ⟨target, some value, Uri.join scope (Uri.join scope text)⟩ with
              hlost | ⟨scope', hhome, hakin', halone⟩
            · exact .inl (.inr hlost)
            · have hstands : Stands directory origin scope'
                  { t with resolver := some (r'.pushScope (Uri.join scope text)) } :=
                ⟨_, rfl, hinside, hentered ▸ hakin'.symm⟩
              rw [halone]
              exact .inScope (.of_ends (arrive_ends recalls hdeep hid hhome hstands hhonest hvisited
                path))
      · rw [if_neg hrefers]
        exact .inl (.inr rfl)
  | _ => exact .inr ⟨.errors _ _, ⟨scope, hstands⟩, hhonest, hvisited⟩

/-- A node that follows references gives what one does that follows them anew. -/
theorem reference_ends (recalls : Recalls graph mode directory origin fuel convert)
    (hdeep : Deep graph mode directory origin pending (fuel + 1)) {messages : Messages}
    (hid : graph.get? self = some (.reference messages target)) (input : Option Json) (path : Path)
    (hs : (recalling graph mode directory origin pending).states s t) :
    (recalling graph mode directory origin pending).Ends Eq
      (referenceAnew directory origin (graph.convertAnew mode directory origin fuel) self messages
        target input path s.scope, s)
      (reference convert self messages target input path t) := by
  obtain ⟨hstands, hhonest, hvisited⟩ := hs
  have hkeeps := keepsResolver_frame.reference recalls.keeps self messages target input path t
  refine Agrees.ends ?_ hstands hkeeps
  unfold reference
  cases hinput : input.bind referenceOf? with
  | some found => exact follow_agrees recalls hdeep hid hinput path hstands hhonest hvisited
  | none =>
      unfold referenceAnew
      rw [hinput]
      rcases visit_cases ⟨target, input, s.scope⟩ with hlost | ⟨scope', hhome, hakin, halone⟩
      · exact .inl (.inr hlost)
      · exact halone ▸ .of_ends
          (enter_ends recalls hdeep hhome hinput (hstands.akin hakin) hhonest hvisited self)

/-- A step behind what a conversion without memory does with more fuel by one. -/
theorem step_recalls (recalls : Recalls graph mode directory origin fuel convert)
    (hdeep : Deep graph mode directory origin pending (fuel + 1)) {id : NodeId} {node : Node}
    (hid : graph.get? id = some node) (input : Option Json) (path : Path) :
    (recalling graph mode directory origin pending).Parallel Eq
      (graph.convertAnew mode directory origin (fuel + 1) id input path)
      (step convert mode id node input path) := by
  have hnodes := recalls.nodes (Nat.le_refl fuel) (hdeep.less (Nat.le_succ fuel))
  unfold Graph.convertAnew
  rw [hid]
  cases node with
  | reference messages target => exact fun _ _ => reference_ends recalls hdeep hid input path
  | forward target => exact hnodes _ _ rfl input path
  | typed common shape =>
      exact Comparison.typed_parallel hnodes (fun _ => Iff.rfl) mode id id common shape.alike_refl
        input path

/-- A conversion that remembers gives what one without memory gives with no more fuel. -/
theorem convertWithin_recalls (graph : Graph) (mode : Mode) (directory : Directory)
    (origin : Resolver) (fuel : Nat) :
    Recalls graph mode directory origin fuel (graph.convertWithin mode fuel) := by
  induction fuel with
  | zero =>
      refine ⟨keepsResolver_frame.convertWithin graph mode 0, fun hless _ => ?_⟩
      cases Nat.le_zero.1 hless
      exact fun _ _ _ _ _ => .lost (Or.inl rfl) _
  | succ fuel ih =>
      refine ⟨keepsResolver_frame.convertWithin graph mode (fuel + 1), ?_⟩
      rintro less pending hless hdeep id _ rfl input path
      cases less with
      | zero => exact .lost (Or.inl rfl) _
      | succ less =>
          have recalls : Recalls graph mode directory origin less
              (graph.convertWithin mode fuel) :=
            ⟨ih.keeps, fun h => ih.nodes (Nat.le_trans h (Nat.le_of_succ_le_succ hless))⟩
          show Comparison.Parallel _ _ _ (graph.convertWithin mode (fuel + 1) id input path)
          cases hid : graph.get? id with
          | none =>
              unfold Graph.convertAnew
              rw [hid]
              exact .lost (Or.inr rfl) _
          | some node =>
              unfold Graph.convertWithin
              rw [hid]
              exact step_recalls recalls hdeep hid input path

end

/-! ## One conversion after another -/

/-- What a graph is asked to convert. -/
structure Request where
  node : NodeId
  input : Option Json
  path : Path

end Conversion

namespace Graph

open Conversion

variable {graph : Graph} {mode : Mode} {directory : Directory} {origin : Resolver} {fuel : Nat}
  {s : ConversionState}

/-- Convert what is asked for. -/
def convertRequest (graph : Graph) (mode : Mode) (fuel : Nat) (request : Request) :
    Conversion Value :=
  graph.convertWithin mode fuel request.node request.input request.path

/-- The state after some conversions, one after the other. -/
def afterAll (graph : Graph) (mode : Mode) (fuel : Nat) (requests : List Request)
    (s : ConversionState) : ConversionState :=
  requests.foldl (fun s request => (graph.convertRequest mode fuel request s).2) s

/-- Without memory, a conversion ends, and the directory admits every visit. -/
def Settles (graph : Graph) (mode : Mode) (directory : Directory) (origin : Resolver) (fuel : Nat)
    (request : Request) : Prop :=
  ¬IsLost (graph.convertAnew mode directory origin fuel request.node request.input request.path
    (.start (some origin))).1

instance (graph : Graph) (mode : Mode) (directory : Directory) (origin : Resolver) (fuel : Nat)
    (request : Request) : Decidable (graph.Settles mode directory origin fuel request) :=
  inferInstanceAs (Decidable (¬IsLost _))

variable (graph mode directory) in
theorem recalling_start (hfresh : origin.IsFresh) :
    (recalling graph mode directory origin []).states (.start (some origin))
      (.start (some origin)) :=
  ⟨⟨origin, rfl, hfresh.remembers, .refl _ _⟩, honest_empty [], fun _ h => nomatch h⟩

/-- A conversion that settles gives what it gives without memory, and leaves what is true. -/
theorem convertRequest_settled {request : Request}
    (hsettles : graph.Settles mode directory origin fuel request)
    (hs : (recalling graph mode directory origin []).states (.start (some origin)) s) :
    Same (graph.convertAnew mode directory origin fuel request.node request.input request.path
        (.start (some origin))).1 (graph.convertRequest mode fuel request s).1 ∧
      (recalling graph mode directory origin []).states (.start (some origin))
        (graph.convertRequest mode fuel request s).2 := by
  have recalls := convertWithin_recalls graph mode directory origin fuel
  have hrun := recalls.nodes (Nat.le_refl fuel) (.nil fuel) request.node _ rfl request.input
    request.path _ _ hs
  obtain ⟨hsame, ⟨scope, hscope⟩, hhonest, hvisited⟩ :=
    (Agrees.of_ends hrun).resolve_left hsettles
  exact ⟨hsame, hs.1.keep (recalls.keeps _ _ _ _) hscope, hhonest, hvisited⟩

theorem afterAll_settled {requests : List Request}
    (hsettles : ∀ request ∈ requests, graph.Settles mode directory origin fuel request)
    (hs : (recalling graph mode directory origin []).states (.start (some origin)) s) :
    (recalling graph mode directory origin []).states (.start (some origin))
      (graph.afterAll mode fuel requests s) := by
  induction requests generalizing s with
  | nil => exact hs
  | cons request rest ih =>
      rw [List.forall_mem_cons] at hsettles
      exact ih hsettles.2 (convertRequest_settled hsettles.1 hs).2

/-- A reference that is followed anew ends as what it leads to does on its own. -/
theorem exists_alone {id n : NodeId} {messages : Messages}
    (hid : graph.get? id = some (.reference messages n)) {payload : Json} {text : String}
    (htext : referenceOf? payload = some (.str text)) {value : Json}
    (hvalue : origin.valueAt (Uri.join origin.scope text) = .ok value) {path : Path}
    (hsettles : graph.Settles mode directory origin fuel ⟨id, some payload, path⟩) :
    ∃ scope, directory.home (Path.ofUri (Uri.join origin.scope text)) =
        some ⟨n, some value, scope⟩ ∧
      Uri.Akin directory.refers (Uri.join origin.scope (Uri.join origin.scope text)) scope ∧
      alone origin (graph.convertAnew mode directory origin fuel) id
          (Path.ofUri (Uri.join origin.scope text)) ⟨n, some value, scope⟩ =
        (graph.convertAnew mode directory origin fuel id (some payload) path
          (.start (some origin))).1 ∧
      ¬IsLost (alone origin (graph.convertAnew mode directory origin fuel) id
        (Path.ofUri (Uri.join origin.scope text)) ⟨n, some value, scope⟩) := by
  cases fuel with
  | zero => exact absurd (.inl rfl) hsettles
  | succ fuel =>
      have hanew : (graph.convertAnew mode directory origin (fuel + 1) id (some payload) path
          (.start (some origin))).1 =
            if text ∈ directory.refers then
              visit directory origin (graph.convertAnew mode directory origin fuel) id
                (Path.ofUri (Uri.join origin.scope text))
                ⟨n, some value, Uri.join origin.scope (Uri.join origin.scope text)⟩
            else .error .noNode := by
        rw [convertAnew_reference hid]
        show referenceAnew _ _ _ _ _ _ _ _ origin.scope = _
        unfold referenceAnew
        rw [Option.bind_some, htext]
        dsimp only
        rw [hvalue]
      have hends : ¬IsLost (graph.convertAnew mode directory origin (fuel + 1) id (some payload)
          path (.start (some origin))).1 := hsettles
      rw [hanew] at hends ⊢
      by_cases hrefers : text ∈ directory.refers
      · rw [if_pos hrefers] at hends ⊢
        rcases visit_cases ⟨n, some value, Uri.join origin.scope (Uri.join origin.scope text)⟩ with
          hlost | ⟨scope, hhome, hakin, halone⟩
        · exact absurd (.inr hlost) hends
        · rw [halone] at hends ⊢
          have hmore := (alone_approximates
            (convertAnew_approximates (Nat.le_succ fuel))).resolve_left fun h => hends (.inl h)
          exact ⟨scope, hhome, hakin, hmore.symm, hmore ▸ hends⟩
      · rw [if_neg hrefers] at hends
        exact absurd (.inr rfl) hends

/-- A reference is converted to what its target makes of the value it leads to, whatever was
converted before, as long as each location has one node that converts it. -/
theorem references_give_targets (hfresh : origin.IsFresh) (earlier : List Request)
    {id n : NodeId} {messages : Messages} (hid : graph.get? id = some (.reference messages n))
    {payload : Json} {text : String} (htext : referenceOf? payload = some (.str text))
    {value : Json} (hvalue : origin.valueAt (Uri.join origin.scope text) = .ok value) (path : Path)
    (hsettles : ∀ request ∈ earlier ++ [⟨id, some payload, path⟩],
      graph.Settles mode directory origin fuel request) (result : Value) :
    (graph.convertWithin mode fuel id (some payload) path
        (graph.afterAll mode fuel earlier (.start (some origin)))).1 = .ok result ↔
      (landed (graph.convertWithin mode fuel) id n (some value)
        (Path.ofUri (Uri.join origin.scope text))
        (.start (some (origin.pushScope (Uri.join origin.scope text))))).1 = .ok result := by
  rw [List.forall_mem_append, List.forall_mem_singleton] at hsettles
  obtain ⟨hearlier, hown⟩ := hsettles
  obtain ⟨scope, hhome, hakin, halone, hends⟩ := exists_alone hid htext hvalue hown
  -- the reference, after everything that was converted before
  have hreference := (convertRequest_settled hown
    (afterAll_settled hearlier (recalling_start graph mode directory hfresh))).1
  -- what it leads to, on its own
  obtain ⟨hentered, hremembers⟩ := hfresh.remembers.pushScope (Uri.join origin.scope text)
  have hstands : Stands directory origin scope
      (.start (some (origin.pushScope (Uri.join origin.scope text)))) :=
    ⟨_, rfl, hremembers, hentered ▸ hakin.symm⟩
  have htarget := landed_ends (convertWithin_recalls graph mode directory origin fuel) (.nil fuel)
    hhome (.inr ⟨messages, hid⟩) (fun hout => hends (.inl hout)) hstands (honest_empty _)
    (fun _ h => nomatch h)
  have htarget := ((ends_iff.1 htarget).resolve_left hends).1
  rw [halone] at htarget
  exact hreference.eq_ok.trans htarget.eq_ok.symm

/-- A text and an integer, with two nodes that follow references to the text, and one that follows
those to the integer. -/
def readers : Graph where
  nodes := [.typed (.plain .builtIn) (.string .free), .typed (.plain .builtIn) (.integer .free),
    .reference .builtIn 0, .reference .builtIn 0, .reference .builtIn 1]
  closed := by decide

/-- A document with a text. -/
def lettered : Resolver := .ofDocument [] "" (.obj [("p", .str "x")])

/-- A reference to the text. -/
def toText : Json := .obj [("$ref", .str "#/p")]

/-- A result is the text. -/
def isText : Except Failure Value → Bool
  | .ok (.string text) => text == "x"
  | _ => false

theorem eq_of_isText {result : Except Failure Value} (h : isText result = true) :
    result = .ok (.string "x") := by
  unfold isText at h
  split at h
  · rw [eq_of_beq h]
  · cases h

/-- A node that follows references gives the text, after another one for texts did. -/
theorem references_give_targets_text :
    let mode := (Options.ofEntity .request).mode
    let directory : Directory := ⟨["#/p"], [(Path.ofUri "#/p", ⟨0, some (.str "x"), "#/p"⟩)]⟩
    let earlier : List Request := [⟨2, some toText, ⟨"", ["a"]⟩⟩]
    (∀ request ∈ earlier ++ [⟨3, some toText, ⟨"", ["b"]⟩⟩],
        readers.Settles mode directory lettered 9 request) ∧
      (readers.convertWithin mode 9 3 (some toText) ⟨"", ["b"]⟩
        (readers.afterAll mode 9 earlier (.start (some lettered)))).1 = .ok (.string "x") ∧
      (landed (readers.convertWithin mode 9) 3 0 (some (.str "x")) (Path.ofUri "#/p")
        (.start (some (lettered.pushScope "#/p")))).1 = .ok (.string "x") := by
  intro mode directory earlier
  have hsettles : ∀ request ∈ earlier ++ [⟨3, some toText, ⟨"", ["b"]⟩⟩],
      readers.Settles mode directory lettered 9 request := by decide +kernel
  have hjoin : Uri.join lettered.scope "#/p" = "#/p" := by decide +kernel
  have hvalue : lettered.valueAt (Uri.join lettered.scope "#/p") = .ok (.str "x") := by
    have hrun : (lettered.valueAt (Uri.join lettered.scope "#/p")).toOption.any
        (fun value => value.isSame (.str "x")) = true := by decide +kernel
    obtain ⟨value, hfound, hsame⟩ := exists_of_any hrun
    rw [hfound, Json.eq_of_isSame hsame]
  have hreference : (readers.convertWithin mode 9 3 (some toText) ⟨"", ["b"]⟩
      (readers.afterAll mode 9 earlier (.start (some lettered)))).1 = .ok (.string "x") :=
    eq_of_isText (by decide +kernel)
  have htarget := (references_give_targets ⟨rfl, rfl⟩ earlier (by rfl) (by rfl) hvalue ⟨"", ["b"]⟩
    hsettles (.string "x")).1 hreference
  rw [hjoin] at htarget
  exact ⟨hsettles, hreference, htarget⟩

/-- A conversion collected errors. -/
def isRefused : Except Failure Value → Bool
  | .error (.errors _) => true
  | _ => false

theorem verdict_of_isRefused {result : Except Failure Value} (h : isRefused result = true) :
    verdict result = .error none := by
  unfold isRefused at h
  split at h
  · rfl
  · cases h

/-- After a node for texts, one for integers gives the text too, which an integer is not; and after
one for integers, one for texts refuses it. -/
theorem remembered_for_another :
    let mode := (Options.ofEntity .request).mode
    let after (earlier id : NodeId) := (readers.convertWithin mode 9 id (some toText) ⟨"", ["b"]⟩
      (readers.afterAll mode 9 [⟨earlier, some toText, ⟨"", ["a"]⟩⟩] (.start (some lettered)))).1
    let alone (id target : NodeId) := (landed (readers.convertWithin mode 9) id target
      (some (.str "x")) (Path.ofUri "#/p") (.start (some (lettered.pushScope "#/p")))).1
    after 2 4 = .ok (.string "x") ∧ verdict (alone 4 1) = .error none ∧
      verdict (after 4 2) = .error none ∧ alone 2 0 = .ok (.string "x") := by
  intro mode after alone
  exact ⟨eq_of_isText (by decide +kernel), verdict_of_isRefused (by decide +kernel),
    verdict_of_isRefused (by decide +kernel), eq_of_isText (by decide +kernel)⟩

end Graph

end SchemaGraph

import SchemaGraph.Proofs.Conversion.Contract
import SchemaGraph.Proofs.Conversion.Registry

set_option autoImplicit false

/-! # Contracts of references

A node that follows references keeps a contract if the registry does wherever a location is
handed out, and where it is opened, converted and closed again (`Contract.Opens`). What is
converted in between may keep another contract, that of the open location.

Along a chain of references the locations being followed are restored, and the signal that the
chain came back to itself goes no further than the reference before it.
-/

namespace SchemaGraph

namespace Conversion

variable {ι : Type} {convert convert' : Converting ι} {node target : ι} {input : Option Json}
  {value : Json} {location path : Path} {s t : ConversionState}

/-! ## Runs -/

/-- Change the registry after a run. -/
def closed {α : Type} (result : Except Failure α) (t : ConversionState)
    (change : Registry → Registry) : Except Failure α × ConversionState :=
  (result, { t with registry := change t.registry })

theorem run_update (change : Registry → Registry) (s : ConversionState) :
    update change s = (.ok (), { s with registry := change s.registry }) := rfl

theorem run_resolve?_of_none (h : s.resolver = none) (text : String) :
    resolve? text s = (.ok none, s) := by
  unfold resolve?
  rw [h]

theorem run_resolve?_of_some {r : Resolver} (h : s.resolver = some r) (text : String) :
    resolve? text s =
      (.ok (r.resolve text).1.toOption, { s with resolver := some (r.resolve text).2 }) := by
  unfold resolve?
  rw [h]

/-- What becomes of a location that was entered, by the run of its conversion. -/
def closeEntered (path : Path) :
    Except Failure Value × ConversionState → Except Failure Value × ConversionState
  | (.ok value, t) => closed (.ok value) t fun registry => registry.finish path value
  | (.error (.errors errors), t) =>
    closed (.error (.errors errors)) t fun registry => registry.poison path
  | (.error failure, t) => closed (.error failure) t fun registry => registry.remove path

/-- Whatever becomes of a location that was entered, it is the only one that changes. -/
theorem closeEntered_eq (path : Path) (run : Except Failure Value × ConversionState) :
    ∃ change, closeEntered path run = closed run.1 run.2 change ∧
      ∀ (registry : Registry) other, other ≠ path →
        (change registry).find? other = registry.find? other := by
  rcases run with ⟨(errors | _ | _ | _ | _) | value, t⟩
  case ok =>
    exact ⟨fun registry => registry.finish path value, rfl,
      fun _ _ => Registry.find?_finish_of_ne⟩
  case error.errors =>
    exact ⟨fun registry => registry.poison path, rfl, fun _ _ => Registry.find?_poison_of_ne⟩
  all_goals
    exact ⟨fun registry => registry.remove path, rfl, fun _ _ => Registry.find?_remove_of_ne⟩

/-- What becomes of a location that a reference led to, by the run of its conversion. -/
def closeReached (messages : Messages) (location path : Path) :
    Except Failure Value × ConversionState → Except Failure Value × ConversionState
  | (.ok value, t) => closed (.ok value) t fun registry => registry.finish location value
  | (.error (.errors errors), t) =>
    closed (.error (.errors (errors.leading (LocatedError.ofKey messages path .badReference [])))) t
      fun registry => registry.poison location
  | (.error .recursive, t) =>
    closed (.error (.errors (.single (LocatedError.ofKey messages path .recursiveReference [])))) t
      fun registry => registry.poison location
  | (.error failure, t) => closed (.error failure) t fun registry => registry.remove location

theorem run_enter (convert : Converting ι) (target : ι) (input : Option Json) (path : Path)
    (s : ConversionState) : enter convert target input path s =
      match s.registry.find? path with
      | some (.done value) => (.ok value, s)
      | some .pending => closed (.ok (.link path)) s fun registry => registry.link path
      | _ => closeEntered path (withOwnChain (convert target input path)
          { s with registry := s.registry.start path }) := by
  unfold enter
  rw [run_bind_of_ok (show progress path s = (.ok (s.registry.find? path), s) from rfl)]
  rcases s.registry.find? path with _ | _ | _ | value
  · dsimp only
    rw [run_bind_of_ok (run_update _ s), run_bind_of_ok (run_outcome _ _)]
    rcases withOwnChain (convert target input path) { s with registry := s.registry.start path }
      with ⟨(_ | _ | _ | _ | _) | _, _⟩ <;> rfl
  · rfl
  · dsimp only
    rw [run_bind_of_ok (run_update _ s), run_bind_of_ok (run_outcome _ _)]
    rcases withOwnChain (convert target input path) { s with registry := s.registry.start path }
      with ⟨(_ | _ | _ | _ | _) | _, _⟩ <;> rfl
  · rfl

theorem run_enter_open (convert : Converting ι) (target : ι) (input : Option Json)
    (h : s.registry.IsOpen path) : enter convert target input path s =
      closeEntered path (withOwnChain (convert target input path)
        { s with registry := s.registry.start path }) := by
  rw [run_enter]
  rcases h with h | h <;> rw [h]

theorem run_arrive (convert : Converting ι) (node : ι) (messages : Messages) (target : ι)
    (value : Json) (location path : Path) (s : ConversionState) :
    arrive convert node messages target value location path s =
      if s.visited.contains location then (.error .recursive, s)
      else match s.registry.find? location with
        | some .poisoned => failWith messages path .badReference [] s
        | some (.done value) => (.ok value, s)
        | some .pending => closed (.ok (.link location)) s fun registry => registry.link location
        | none => closeReached messages location path
            (following location (deeper convert node target value location)
              { s with registry := s.registry.start location }) := by
  unfold arrive
  rw [run_bind_of_ok (run_get s)]
  split
  · rfl
  · rw [run_bind_of_ok (show progress location s = (.ok (s.registry.find? location), s) from rfl)]
    rcases s.registry.find? location with _ | _ | _ | value'
    · dsimp only
      rw [run_bind_of_ok (run_update _ s), run_bind_of_ok (run_outcome _ _)]
      rcases following location (deeper convert node target value location)
        { s with registry := s.registry.start location } with ⟨(_ | _ | _ | _ | _) | _, _⟩ <;> rfl
    · rfl
    · rfl
    · rfl

theorem run_arrive_open (convert : Converting ι) (node : ι) (messages : Messages) (target : ι)
    (value : Json) (path : Path) (hvisited : ¬s.visited.contains location = true)
    (h : s.registry.find? location = none) :
    arrive convert node messages target value location path s =
      closeReached messages location path
        (following location (deeper convert node target value location)
          { s with registry := s.registry.start location }) := by
  rw [run_arrive, if_neg hvisited, h]

namespace Contract

variable {world : World} {contract inner : Contract world} {absent : Prop}

/-! ## Laws of the registry -/

variable (contract) in
/-- A location is handed out: as a link while it converts, with its value when it is done. -/
structure Hands : Prop where
  link : ∀ {g path}, contract.holds g → g.find? path = some .pending →
    contract.holds (g.link path) ∧ contract.done g (g.link path) ∧
      contract.linkable g (g.link path) path
  reuse : ∀ {g path value other}, contract.holds g → g.find? path = some (.done value) →
    value.Links other → contract.linkable g g other

variable (contract inner) in
/-- A location is opened, a part of the conversion runs under the inner contract, and then the
location is closed. -/
structure Opens (path : Path) (part : Conversion Value) : Prop where
  start : ∀ {g}, contract.holds g → g.IsOpen path → inner.holds (g.start path)
  finish : ∀ {g s value t}, contract.holds g → g.IsOpen path → s.registry = g.start path →
    part s = (.ok value, t) → inner.holds t.registry → inner.done (g.start path) t.registry →
    (∀ other, value.Links other → inner.linkable (g.start path) t.registry other) →
    contract.holds (t.registry.finish path value) ∧
      contract.done g (t.registry.finish path value) ∧
      ∀ other, value.Links other → contract.linkable g (t.registry.finish path value) other
  poison : ∀ {g h}, contract.holds g → g.IsOpen path → inner.holds h →
    inner.failed (g.start path) h →
    contract.holds (h.poison path) ∧ contract.failed g (h.poison path)
  forget : ∀ {g h}, contract.holds g → g.IsOpen path → inner.holds h →
    inner.skipped (g.start path) h →
    contract.holds (h.remove path) ∧ contract.skipped g (h.remove path)
  tires : inner.tires → contract.tires

/-- A link to a location that converts is allowed. -/
theorem Hands.link_allowed (hands : contract.Hands) (hready : contract.Ready s)
    (h : s.registry.find? path = some .pending) : (contract.ending s absent).Allows
      (closed (.ok (.link path)) s fun registry => registry.link path) := by
  obtain ⟨hholds, hdone, hlink⟩ := hands.link hready.holds h
  refine ⟨⟨⟨hholds, hready.world⟩, rfl⟩, hdone, ?_⟩
  rintro _ ⟨⟩
  exact hlink

/-- So is the value of a location that is done. -/
theorem Hands.reuse_allowed (hands : contract.Hands) (hready : contract.Ready s) {found : Value}
    (h : s.registry.find? path = some (.done found)) :
    (contract.ending s absent).Allows (.ok found, s) :=
  ⟨hready.back, contract.done_refl _, fun _ => hands.reuse hready.holds h⟩

/-- A location that was opened with nothing being followed is closed again. -/
theorem Opens.close_entered {part : Conversion Value} (opens : Opens contract inner path part)
    (hready : contract.Ready s) (hs : s.visited = []) (hopen : s.registry.IsOpen path)
    (h : (inner.ending { s with registry := s.registry.start path } absent).Allows
      (part { s with registry := s.registry.start path })) :
    (contract.ending s absent).Allows
      (closeEntered path (part { s with registry := s.registry.start path })) := by
  rcases hrun : part { s with registry := s.registry.start path } with
    ⟨(errors | _ | _ | _ | _) | value, t⟩ <;> rw [hrun] at h
  · obtain ⟨hholds, hfailed⟩ := opens.poison hready.holds hopen h.1.holds h.2
    exact ⟨⟨⟨hholds, h.1.world⟩, h.1.visited⟩, hfailed⟩
  · obtain ⟨habsent, hback, hskipped⟩ := h
    obtain ⟨hholds, hskipped⟩ := opens.forget hready.holds hopen hback.holds hskipped
    exact ⟨habsent, ⟨⟨hholds, hback.world⟩, hback.visited⟩, hskipped⟩
  · exact absurd hs h.1
  · exact opens.tires h
  · exact h
  · obtain ⟨hback, hdone, hlinks⟩ := h
    obtain ⟨hholds, hdone, hlinks⟩ :=
      opens.finish hready.holds hopen rfl hrun hback.holds hdone hlinks
    exact ⟨⟨⟨hholds, hback.world⟩, hback.visited⟩, hdone, hlinks⟩

variable (contract) in
/-- How what a reference leads to ends: the signal that the chain came back may be given there,
even if the reference is the first one. -/
def reaching (s : ConversionState) : Ending Value :=
  { contract.ending s False with
    recursive := fun t => contract.Back s.visited t ∧ contract.failed s.registry t.registry }

/-- A location that a reference led to is closed again, and no signal is left if nothing was being
followed before. -/
theorem Opens.close_reached {part : Conversion Value}
    (opens : Opens contract inner location part) (messages : Messages)
    (hready : contract.Ready s) (hopen : s.registry.IsOpen location)
    (h : (inner.reaching { s with registry := s.registry.start location }).Allows
      (part { s with registry := s.registry.start location })) :
    (contract.ending s False).Allows
      (closeReached messages location path
        (part { s with registry := s.registry.start location })) := by
  -- errors and the signal both poison the location
  have hpoison : ∀ {t}, inner.Back s.visited t →
      inner.failed (s.registry.start location) t.registry →
      (contract.ending s False).errors { t with registry := t.registry.poison location } := by
    intro t hback hfailed
    obtain ⟨hholds, hfailed⟩ := opens.poison hready.holds hopen hback.holds hfailed
    exact ⟨⟨⟨hholds, hback.world⟩, hback.visited⟩, hfailed⟩
  rcases hrun : part { s with registry := s.registry.start location } with
    ⟨(errors | _ | _ | _ | _) | value, t⟩ <;> rw [hrun] at h
  · exact hpoison h.1 h.2
  · exact h.1.elim
  · exact hpoison h.1 h.2
  · exact opens.tires h
  · exact h
  · obtain ⟨hback, hdone, hlinks⟩ := h
    obtain ⟨hholds, hdone, hlinks⟩ :=
      opens.finish hready.holds hopen rfl hrun hback.holds hdone hlinks
    exact ⟨⟨⟨hholds, hback.world⟩, hback.visited⟩, hdone, hlinks⟩

/-! ## Chains -/

/-- A chain of its own is put back afterwards, and what comes back to it is inside of it. -/
theorem withOwnChain_meets {m m' : Conversion Value} (h : contract.Allows absent m m')
    (hready : contract.Ready s) :
    Meets (contract.ending s absent) (withOwnChain m) (withOwnChain m') s := by
  obtain ⟨hsame, hallows⟩ := h { s with visited := [] } ⟨hready.holds, hready.world⟩ rfl
  unfold withOwnChain
  refine ⟨by rw [hsame], ?_⟩
  generalize m { s with visited := [] } = run at hallows ⊢
  rcases run with ⟨(errors | _ | _ | _ | _) | found, t⟩
  · exact ⟨⟨⟨hallows.1.holds, hallows.1.world⟩, rfl⟩, hallows.2⟩
  · exact ⟨hallows.1, ⟨⟨hallows.2.1.holds, hallows.2.1.world⟩, rfl⟩, hallows.2.2⟩
  · exact absurd rfl hallows.1
  · exact hallows
  · exact hallows
  · exact ⟨⟨⟨hallows.1.holds, hallows.1.world⟩, rfl⟩, hallows.2⟩

/-- A new location is taken out again behind everything that was being followed before. -/
theorem following_meets {m m' : Conversion Value} (hnew : s.visited.contains location = false)
    (h : Meets (contract.ending { s with visited := location :: s.visited } False) m m'
      { s with visited := location :: s.visited }) :
    Meets (contract.reaching s) (following location m) (following location m') s := by
  have hback : ∀ {t}, contract.Back (location :: s.visited) t →
      contract.Back s.visited { t with visited := t.visited.filter (· != location) } := by
    intro t ht
    refine ⟨⟨ht.holds, ht.world⟩, ?_⟩
    show t.visited.filter (· != location) = s.visited
    rw [ht.visited, List.filter_cons_of_neg (by simp)]
    refine List.filter_eq_self.2 fun other hother => ?_
    have hne : location ∉ s.visited := by simpa using hnew
    exact bne_iff_ne.2 fun heq => hne (heq ▸ hother)
  obtain ⟨hsame, hallows⟩ := h
  unfold following
  refine ⟨by rw [hsame], ?_⟩
  generalize m { s with visited := location :: s.visited } = run at hallows ⊢
  rcases run with ⟨(errors | _ | _ | _ | _) | found, t⟩
  · exact ⟨hback hallows.1, hallows.2⟩
  · exact hallows.1.elim
  · exact ⟨hback hallows.2.1, hallows.2.2⟩
  · exact hallows
  · exact hallows
  · exact ⟨hback hallows.1, hallows.2⟩

/-! ## Locations -/

/-- A location keeps a contract where it is entered. -/
theorem enter_allows (hands : contract.Hands)
    (opens : Opens contract inner path (withOwnChain (convert target input path)))
    (h : inner.AllowsPart convert convert' (target, input)) :
    contract.Allows (input = none) (enter convert target input path)
      (enter convert' target input path) := by
  intro s hready hs
  -- a location that failed before is opened like one that is new
  have hopened : s.registry.IsOpen path → Meets (contract.ending s (input = none))
      (enter convert target input path) (enter convert' target input path) s := by
    intro hopen
    have hmeets := withOwnChain_meets (s := { s with registry := s.registry.start path }) (h path)
      ⟨opens.start hready.holds hopen, hready.world⟩
    refine ⟨?_, ?_⟩
    · rw [run_enter_open _ _ _ hopen, run_enter_open _ _ _ hopen, hmeets.same]
    · rw [run_enter_open _ _ _ hopen]
      exact opens.close_entered hready hs hopen hmeets.allows
  cases hfind : s.registry.find? path with
  | none => exact hopened (.inl hfind)
  | some progress =>
      cases progress with
      | poisoned => exact hopened (.inr hfind)
      | pending =>
          refine .of_run (closed (.ok (.link path)) s fun registry => registry.link path)
            (by rw [run_enter, hfind]) (by rw [run_enter, hfind]) ?_
          exact hands.link_allowed hready hfind
      | done found =>
          refine .of_run (.ok found, s) (by rw [run_enter, hfind]) (by rw [run_enter, hfind]) ?_
          exact hands.reuse_allowed hready hfind

variable (contract) in
/-- The conversions keep the contract where they go on with a chain of references. -/
def Continues (location : Path) (m m' : Conversion Value) : Prop :=
  ∀ s, contract.Ready s → s.visited.head? = some location →
    Meets (contract.ending s False) m m' s

variable (contract inner) in
/-- What a reference leads to keeps the inner contract. -/
structure Leads (convert convert' : Converting ι) (node target : ι) (value : Json)
    (location : Path) : Prop where
  opens : Opens contract inner location
    (following location (deeper convert node target value location))
  plain : referenceOf? value = none → inner.AllowsPart convert convert' (target, some value)
  chained : (referenceOf? value).isSome = true →
    inner.Continues location (convert node (some value) location)
      (convert' node (some value) location)

/-- Whatever a reference leads to is converted in a chain, which is restored. -/
theorem deeper_meets (leads : Leads contract inner convert convert' node target value location)
    (hready : inner.Ready s) (hs : s.visited.head? = some location) :
    Meets (inner.ending s False) (deeper convert node target value location)
      (deeper convert' node target value location) s := by
  have hchained := leads.chained
  have hplain := leads.plain
  unfold deeper
  cases hvalue : referenceOf? value with
  | some found =>
      rw [hvalue] at hchained
      exact hchained rfl s hready hs
  | none =>
      exact withOwnChain_meets ((hplain hvalue).given location) hready

/-- A location keeps a contract where a reference leads to it. -/
theorem arrive_meets (hands : contract.Hands)
    (leads : Leads contract inner convert convert' node target value location)
    (messages : Messages) (hready : contract.Ready s) :
    Meets (contract.ending s False) (arrive convert node messages target value location path)
      (arrive convert' node messages target value location path) s := by
  cases hvisited : s.visited.contains location with
  | true =>
      refine .of_run (.error .recursive, s) (by rw [run_arrive, if_pos hvisited])
        (by rw [run_arrive, if_pos hvisited]) ?_
      refine ⟨fun hnil => ?_, hready.back, contract.failed_refl _⟩
      rw [hnil] at hvisited
      cases hvisited
  | false =>
      have hnot : ¬s.visited.contains location = true := by
        rw [hvisited]
        exact Bool.false_ne_true
      cases hfind : s.registry.find? location with
      | some progress =>
          cases progress with
          | poisoned =>
              refine .of_run (failWith messages path .badReference [] s)
                (by rw [run_arrive, if_neg hnot, hfind]) (by rw [run_arrive, if_neg hnot, hfind]) ?_
              exact ⟨hready.back, contract.failed_refl _⟩
          | pending =>
              refine .of_run
                (closed (.ok (.link location)) s fun registry => registry.link location)
                (by rw [run_arrive, if_neg hnot, hfind]) (by rw [run_arrive, if_neg hnot, hfind]) ?_
              exact hands.link_allowed hready hfind
          | done found =>
              refine .of_run (.ok found, s) (by rw [run_arrive, if_neg hnot, hfind])
                (by rw [run_arrive, if_neg hnot, hfind]) ?_
              exact hands.reuse_allowed hready hfind
      | none =>
          have hopen : s.registry.IsOpen location := .inl hfind
          have hdeeper := deeper_meets leads
            (s := { s with registry := s.registry.start location,
                           visited := location :: s.visited })
            ⟨leads.opens.start hready.holds hopen, hready.world⟩ rfl
          have hmeets := following_meets
            (s := { s with registry := s.registry.start location }) hvisited hdeeper
          refine ⟨?_, ?_⟩
          · rw [run_arrive_open _ _ _ _ _ _ hnot hfind, run_arrive_open _ _ _ _ _ _ hnot hfind,
              hmeets.same]
          · rw [run_arrive_open _ _ _ _ _ _ hnot hfind]
            exact leads.opens.close_reached messages hready hopen hmeets.allows

/-! ## References -/

theorem inScope_meets {url : String} {m m' : Conversion Value}
    (h : Meets (contract.ending s absent) m m'
      { s with resolver := s.resolver.map fun resolver => resolver.pushScope url }) :
    Meets (contract.ending s absent) (inScope url m) (inScope url m') s := by
  obtain ⟨hsame, hallows⟩ := h
  have hback : ∀ {t : ConversionState}, contract.Back s.visited t →
      contract.Back s.visited { t with resolver := t.resolver.map Resolver.leaveScope } := by
    intro t ht
    refine ⟨⟨ht.holds, fun r hr => ?_⟩, ht.visited⟩
    obtain ⟨r', hr', rfl⟩ := Option.map_eq_some_iff.1 hr
    exact world.leave (ht.world r' hr')
  unfold inScope
  refine ⟨by rw [hsame], ?_⟩
  generalize m { s with resolver := s.resolver.map fun resolver => resolver.pushScope url } = run
    at hallows ⊢
  rcases run with ⟨(errors | _ | _ | _ | _) | found, t⟩
  · exact ⟨hback hallows.1, hallows.2⟩
  · exact ⟨hallows.1, hback hallows.2.1, hallows.2.2⟩
  · exact ⟨hallows.1, hback hallows.2.1, hallows.2.2⟩
  · exact hallows
  · exact hallows
  · exact ⟨hback hallows.1, hallows.2⟩

/-- Resolving leaves all but the resolver as it is. -/
theorem resolve_meets {text : String} (hmeets : world.meets text) (hready : contract.Ready s) :
    Meets (.only (fun found t => contract.Ready t ∧ t.registry = s.registry ∧
        t.visited = s.visited ∧ ∀ url value, found = some (url, value) →
          contract.Ready { t with resolver := t.resolver.map fun r => r.pushScope url } ∧
            ∃ r, world.holds r ∧ (r.resolve text).1 = .ok (url, value)) contract.tires)
      (resolve? text) (resolve? text) s := by
  cases hresolver : s.resolver with
  | none =>
      have hrun := run_resolve?_of_none hresolver text
      refine .of_run _ hrun hrun ⟨hready, rfl, rfl, fun url value h => ?_⟩
      cases h
  | some r =>
      have hworld := hready.world r hresolver
      have hrun := run_resolve?_of_some hresolver text
      refine .of_run _ hrun hrun ⟨⟨hready.holds, ?_⟩, rfl, rfl, fun url value h => ?_⟩
      · rintro _ ⟨⟩
        exact world.resolve hworld hmeets
      · have hresolved : (r.resolve text).1 = .ok (url, value) := by
          generalize (r.resolve text).1 = answer at h ⊢
          cases answer with
          | error e => cases h
          | ok found =>
              cases h
              rfl
        refine ⟨⟨hready.holds, ?_⟩, r, hworld, hresolved⟩
        rintro _ ⟨⟩
        exact world.enter hworld hmeets hresolved

/-- What is known of the value a reference resolves to, wherever it is met. -/
theorem follow_meets (hands : contract.Hands) (messages : Messages) {reference : Json}
    (h : ∀ {text}, reference = .str text → world.meets text ∧
      ∀ {r url value}, world.holds r → (r.resolve text).1 = .ok (url, value) →
        ∃ inner, Leads contract inner convert convert' node target value (Path.ofUri url))
    (hready : contract.Ready s) :
    Meets (contract.ending s False) (follow convert node messages target reference path)
      (follow convert' node messages target reference path) s := by
  cases reference with
  | str text =>
      obtain ⟨hmeets, hleads⟩ := h rfl
      refine (resolve_meets hmeets hready).bind (Ending.leaves_only id) fun found t hfound => ?_
      obtain ⟨ht, hregistry, hvisited, hfound⟩ := hfound
      have hback : contract.Back s.visited t := ⟨ht, hvisited⟩
      refine meets_after hback (hregistry ▸ contract.done_refl _) ?_
      cases found with
      | none => exact .refuse ⟨ht.back, contract.failed_refl _⟩
      | some found =>
          obtain ⟨url, value⟩ := found
          obtain ⟨hentered, r, hworld, hresolved⟩ := hfound url value rfl
          obtain ⟨inner, leads⟩ := hleads hworld hresolved
          exact inScope_meets (arrive_meets hands leads messages hentered)
  | _ => exact .refuse ⟨hready.back, contract.failed_refl _⟩

/-- A node that follows references keeps a contract, where it starts a chain of them and where it
goes on with one. -/
theorem reference_meets (hands : contract.Hands) (messages : Messages)
    (henter : input.bind referenceOf? = none →
      ∃ inner, Opens contract inner path (withOwnChain (convert target input path)) ∧
        inner.AllowsPart convert convert' (target, input))
    (hfollow : ∀ {text}, input.bind referenceOf? = some (.str text) → world.meets text ∧
      ∀ {r url value}, world.holds r → (r.resolve text).1 = .ok (url, value) →
        ∃ inner, Leads contract inner convert convert' node target value (Path.ofUri url))
    (hready : contract.Ready s) (hs : input.bind referenceOf? = none → s.visited = []) :
    Meets (contract.ending s (input = none)) (reference convert node messages target input path)
      (reference convert' node messages target input path) s := by
  unfold reference
  cases hinput : input.bind referenceOf? with
  | none =>
      obtain ⟨inner, opens, htarget⟩ := henter hinput
      exact enter_allows hands opens htarget s hready (hs hinput)
  | some found =>
      rw [hinput] at hfollow
      refine meets_mono (follow_meets hands messages (fun htext => ?_) hready) False.elim
      exact hfollow (congrArg some htext)

end Contract

/-! ## All nodes -/

/-- A world in which nothing is known of resolvers. -/
def World.any : World where
  holds _ := True
  meets _ := True
  resolve _ _ _ := trivial
  enter _ _ _ _ _ _ := trivial
  leave _ := trivial

namespace Contract

variable {contract : Contract World.any} {convert convert' : Converting ι} {id : ι} {node : Node ι}
  {mode : Mode}

variable (contract) in
/-- What a node needs of the calls it makes to keep a contract, whatever is resolved. -/
structure Calls (convert convert' : Converting ι) (id : ι) (node : Node ι) : Prop where
  hands : node.refers = true → contract.Hands
  parts : ∀ child ∈ node.children, ∀ input, contract.AllowsPart convert convert' (child, input)
  swallowed : node.swallows = true → ∀ child ∈ node.children, ∀ input,
    contract.tolerant.AllowsPart convert convert' (child, input)
  enters : ∀ {messages target}, node = .reference messages target → ∀ input path,
    Opens contract contract path (withOwnChain (convert target input path))
  arrives : ∀ {messages target}, node = .reference messages target → ∀ value path,
    Opens contract contract path (following path (deeper convert id target value path))
  continues : ∀ {messages target}, node = .reference messages target →
    ∀ payload, (referenceOf? payload).isSome = true → ∀ path,
      contract.Continues path (convert id (some payload) path) (convert' id (some payload) path)

namespace Calls

variable (calls : contract.Calls convert convert' id node)
include calls

theorem reference_meets {messages : Messages} {target : ι}
    (hnode : node = .reference messages target) (hready : contract.Ready s)
    (hs : input.bind referenceOf? = none → s.visited = []) :
    Meets (contract.ending s (input = none)) (reference convert id messages target input path)
      (reference convert' id messages target input path) s := by
  subst hnode
  have htarget := calls.parts target List.mem_cons_self
  refine Contract.reference_meets (calls.hands rfl) messages
    (fun _ => ⟨contract, calls.enters rfl input path, htarget input⟩) (fun _ => ⟨trivial, ?_⟩)
    hready hs
  exact fun _ _ => ⟨contract, calls.arrives rfl _ _, fun _ => htarget _,
    fun hvalue => calls.continues rfl _ hvalue _⟩

/-- Where nothing is being followed, every node keeps a contract if the calls it makes do. -/
theorem step_allows (input : Option Json) (path : Path) :
    contract.Allows (input = none) (step convert mode id node input path)
      (step convert' mode id node input path) := by
  cases node with
  | forward target => exact calls.parts target List.mem_cons_self input path
  | reference messages target =>
      exact fun s hready hs => calls.reference_meets rfl hready fun _ => hs
  | typed common shape =>
      refine step_typed fun part hpart => ?_
      have hchild : part.1 ∈ (Node.typed common shape).children := Node.parts_children hpart
      cases hswallows : shape.swallows with
      | false => exact calls.parts part.1 hchild part.2
      | true => exact calls.swallowed hswallows part.1 hchild part.2

/-- A node that follows references goes on with a chain of them. -/
theorem step_continues {messages : Messages} {target : ι}
    (hnode : node = .reference messages target) {payload : Json}
    (hpayload : (referenceOf? payload).isSome = true) (path : Path) :
    contract.Continues path (step convert mode id node (some payload) path)
      (step convert' mode id node (some payload) path) := by
  subst hnode
  intro s hready hs
  refine meets_mono (calls.reference_meets rfl hready fun hnone => ?_) fun h => by cases h
  rw [Option.bind_some] at hnone
  rw [hnone] at hpayload
  cases hpayload

end Calls

end Contract

end Conversion

end SchemaGraph

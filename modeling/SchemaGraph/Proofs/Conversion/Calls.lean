import SchemaGraph.Proofs.Conversion.Following

set_option autoImplicit false

/-! # Where parts convert

Besides by which node and on what, a part of a conversion is run at a location of its own, a
segment below the one of its payload or, for the node under a discriminating text, the same
(`Shape.Calls`). Conversions that run alike where a node calls them do so at the node
(`Agree.typed`, `Agree.reference`). So calls are watched by what each of them makes of the next
(`Graph.Confines`), and among them those that open a location
(`Graph.memoizingWithin_agrees`).
-/

namespace SchemaGraph

namespace Conversion

variable {α β ι : Type} {known : Resolver → Prop}

/-! ## Conversions that run alike -/

/-- As long as something is known of the resolver, two conversions run alike, and it stays known. -/
def Agree (known : Resolver → Prop) (m m' : Conversion α) : Prop :=
  ∀ s, (∀ r, s.resolver = some r → known r) →
    m' s = m s ∧ ∀ r, (m s).2.resolver = some r → known r

namespace Agree

variable {m m' : Conversion α} {f f' : α → Conversion β}

theorem pure (a : α) : Agree known (Pure.pure a) (Pure.pure a) := fun _ hs => ⟨rfl, hs⟩

theorem fail (failure : Failure) :
    Agree known (Conversion.fail failure : Conversion α) (Conversion.fail failure) :=
  fun _ hs => ⟨rfl, hs⟩

theorem failWith (messages : Messages) (path : Path) (key : MessageKey) (args : List String) :
    Agree known (Conversion.failWith messages path key args : Conversion α)
      (Conversion.failWith messages path key args) :=
  fail _

theorem bind (hm : Agree known m m') (hf : ∀ a, Agree known (f a) (f' a)) :
    Agree known (m >>= f) (m' >>= f') := by
  intro s hs
  obtain ⟨hsame, hknown⟩ := hm s hs
  rw [run_bind, run_bind, hsame]
  generalize m s = run at hknown ⊢
  rcases run with ⟨failure | a, t⟩
  · exact ⟨rfl, hknown⟩
  · exact hf a t hknown

theorem outcome (h : Agree known m m') :
    Agree known (Conversion.outcome m) (Conversion.outcome m') := by
  intro s hs
  obtain ⟨hsame, hknown⟩ := h s hs
  rw [run_outcome, run_outcome, hsame]
  exact ⟨rfl, hknown⟩

theorem update (change : Registry → Registry) :
    Agree known (Conversion.update change) (Conversion.update change) :=
  fun _ hs => ⟨rfl, hs⟩

/-! ## Nodes that judge values -/

theorem iff_parallel : Agree known m m' ↔
    (exactly fun s => ∀ r, s.resolver = some r → known r).Parallel Eq m m' := by
  rw [exactly_parallel_iff]
  exact forall_congr' fun s => imp_congr_right fun _ => and_congr_left' eq_comm

variable {convert convert' : Converting ι} {mode : Mode} {common : Common} {path : Path}

/-- A node that judges values, where its calls run alike. -/
theorem typed {self self' : ι} {shape : Shape ι} {input : Option Json}
    (h : ∀ payload, present? mode common input = some payload → ∀ node given place,
      shape.Calls payload path node given place →
        Agree known (convert node given place) (convert' node given place)) :
    Agree known (step convert mode self (.typed common shape) input path)
      (step convert' mode self' (.typed common shape) input path) := by
  rw [step_typed, step_typed]
  cases hplan : typedPlan mode common shape input path with
  | none => exact .fail _
  | some plan =>
      refine iff_parallel.2 (Comparison.plan_parallel (Plan.alike_self fun inquiry hinquiry => ?_))
      obtain ⟨payload, hpresent, -, -, hmem⟩ := mem_of_typedPlan hplan hinquiry
      exact ⟨rfl, iff_parallel.1 (h payload hpresent _ _ _ (Shape.calls_of_mem hmem path))⟩

/-! ## References -/

theorem withOwnChain {m m' : Conversion α} (h : Agree known m m') :
    Agree known (Conversion.withOwnChain m) (Conversion.withOwnChain m') := by
  intro s hs
  obtain ⟨hsame, hknown⟩ := h { s with visited := [] } hs
  unfold Conversion.withOwnChain
  rw [hsame]
  exact ⟨rfl, hknown⟩

theorem following {m m' : Conversion α} (location : Path) (h : Agree known m m') :
    Agree known (Conversion.following location m) (Conversion.following location m') := by
  intro s hs
  obtain ⟨hsame, hknown⟩ := h { s with visited := location :: s.visited } hs
  unfold Conversion.following
  rw [hsame]
  exact ⟨rfl, hknown⟩

theorem enter {target : ι} {input : Option Json}
    (h : Agree known (convert target input path) (convert' target input path)) :
    Agree known (Conversion.enter convert target input path)
      (Conversion.enter convert' target input path) := by
  have hprogress : Agree known (progress path) (progress path) := fun _ hs => ⟨rfl, hs⟩
  refine .bind hprogress fun found => ?_
  split
  · exact .pure _
  · exact .bind (.update _) fun _ => .pure _
  · refine .bind (.update _) fun _ => .bind h.withOwnChain.outcome fun here => ?_
    rcases here with (_ | _ | _ | _ | _) | value
    case ok => exact .bind (.update _) fun _ => .pure _
    all_goals exact .bind (.update _) fun _ => .fail _

theorem deeper {self target : ι} {value : Json} {location : Path}
    (hself : Agree known (convert self (some value) location) (convert' self (some value) location))
    (htarget : Agree known (convert target (some value) location)
      (convert' target (some value) location)) :
    Agree known (Conversion.deeper convert self target value location)
      (Conversion.deeper convert' self target value location) := by
  unfold Conversion.deeper
  split
  · exact hself
  · exact htarget.withOwnChain

theorem arrive {self target : ι} {value : Json} {location : Path} (messages : Messages)
    (hself : Agree known (convert self (some value) location) (convert' self (some value) location))
    (htarget : Agree known (convert target (some value) location)
      (convert' target (some value) location)) :
    Agree known (Conversion.arrive convert self messages target value location path)
      (Conversion.arrive convert' self messages target value location path) := by
  have hget : Agree known (get : Conversion ConversionState) get := fun _ hs => ⟨rfl, hs⟩
  have hprogress : Agree known (progress location) (progress location) := fun _ hs => ⟨rfl, hs⟩
  refine .bind hget fun state => ?_
  split
  · exact .fail _
  · refine .bind hprogress fun found => ?_
    split
    · exact .failWith _ _ _ _
    · exact .pure _
    · exact .bind (.update _) fun _ => .pure _
    · refine .bind (.update _) fun _ =>
        .bind ((deeper hself htarget).following location).outcome fun here => ?_
      rcases here with (_ | _ | _ | _ | _) | value
      case ok => exact .bind (.update _) fun _ => .pure _
      case error.recursive => exact .bind (.update _) fun _ => .failWith _ _ _ _
      all_goals exact .bind (.update _) fun _ => .fail _

/-- A reference, where what it leads to runs alike. -/
theorem follow {self target : ι} {messages : Messages} {reference : Json}
    (h : ∀ text, reference = .str text → ∀ r, known r → known (r.resolve text).2 ∧
      ∀ url value, (r.resolve text).1 = .ok (url, value) → ∃ inner : Resolver → Prop,
        inner ((r.resolve text).2.pushScope url) ∧ (∀ r', inner r' → known r'.leaveScope) ∧
        Agree inner (convert self (some value) (Path.ofUri url))
          (convert' self (some value) (Path.ofUri url)) ∧
        Agree inner (convert target (some value) (Path.ofUri url))
          (convert' target (some value) (Path.ofUri url))) :
    Agree known (Conversion.follow convert self messages target reference path)
      (Conversion.follow convert' self messages target reference path) := by
  cases reference with
  | str text =>
      intro s hs
      unfold Conversion.follow
      dsimp only
      rw [run_bind, run_bind]
      cases hresolver : s.resolver with
      | none =>
          rw [run_resolve?_of_none hresolver text]
          exact ⟨rfl, hs⟩
      | some r =>
          obtain ⟨hafter, hleads⟩ := h text rfl r (hs r hresolver)
          rw [run_resolve?_of_some hresolver text]
          dsimp only
          cases hanswer : (r.resolve text).1 with
          | error failure =>
              refine ⟨rfl, ?_⟩
              rintro _ ⟨⟩
              exact hafter
          | ok found =>
              obtain ⟨url, value⟩ := found
              obtain ⟨inner, hentered, hleave, hself, htarget⟩ := hleads url value hanswer
              have hstart : ∀ r',
                  ({ s with resolver := some ((r.resolve text).2.pushScope url) } :
                    ConversionState).resolver = some r' → inner r' := by
                rintro _ ⟨⟩
                exact hentered
              obtain ⟨hsame, hknown⟩ := arrive messages hself htarget _ hstart
              show (inScope url _ _) = (inScope url _ _) ∧
                ∀ r', (inScope url _ _).2.resolver = some r' → known r'
              unfold inScope
              dsimp only [Option.map]
              rw [hsame]
              refine ⟨rfl, fun r' hr' => ?_⟩
              obtain ⟨r'', hrun, rfl⟩ := Option.map_eq_some_iff.1 hr'
              exact hleave r'' (hknown r'' hrun)
  | _ => exact .failWith _ _ _ _

/-- A node that follows references, where what it opens runs alike. -/
theorem reference {self target : ι} {messages : Messages} {input : Option Json}
    (henter : Agree known (convert target input path) (convert' target input path))
    (h : ∀ text, input.bind referenceOf? = some (.str text) → ∀ r, known r →
      known (r.resolve text).2 ∧
      ∀ url value, (r.resolve text).1 = .ok (url, value) → ∃ inner : Resolver → Prop,
        inner ((r.resolve text).2.pushScope url) ∧ (∀ r', inner r' → known r'.leaveScope) ∧
        Agree inner (convert self (some value) (Path.ofUri url))
          (convert' self (some value) (Path.ofUri url)) ∧
        Agree inner (convert target (some value) (Path.ofUri url))
          (convert' target (some value) (Path.ofUri url))) :
    Agree known (Conversion.reference convert self messages target input path)
      (Conversion.reference convert' self messages target input path) := by
  unfold Conversion.reference
  cases hinput : input.bind referenceOf? with
  | none => exact henter.enter
  | some found =>
      rw [hinput] at h
      exact follow fun text htext => h text (congrArg some htext)

end Agree

end Conversion

/-! ## Graphs -/

namespace Graph

open Conversion

/-- The nodes answer calls of a kind by calls of that kind, and references lead to certain
locations. The kind depends on what is known of the resolver, and is another one behind a
reference. -/
structure Confines {σ : Type} (graph : Graph) (mode : Mode) (known : σ → Resolver → Prop)
    (kind : σ → NodeId → Option Json → Path → Prop) (place : Path → Prop) : Prop where
  forward : ∀ {k id target input path}, graph.get? id = some (.forward target) →
    kind k id input path → kind k target input path
  typed : ∀ {k id common shape input payload path node given place},
    graph.get? id = some (.typed common shape) → kind k id input path →
    present? mode common input = some payload → shape.Calls payload path node given place →
    kind k node given place
  enters : ∀ {k id messages target input path},
    graph.get? id = some (.reference messages target) → kind k id input path →
    kind k target input path
  resolves : ∀ {k r}, known k r → ∀ text, known k (r.resolve text).2
  follows : ∀ {k id messages target input path text r url value},
    graph.get? id = some (.reference messages target) → kind k id input path →
    input.bind referenceOf? = some (.str text) → known k r →
    (r.resolve text).1 = .ok (url, value) →
    place (Path.ofUri url) ∧ ∃ k', known k' ((r.resolve text).2.pushScope url) ∧
      (∀ r', known k' r' → known k r'.leaveScope) ∧
      kind k' id (some value) (Path.ofUri url) ∧ kind k' target (some value) (Path.ofUri url)

end Graph

namespace Conversion

/-- The calls by which locations are opened, watched: one for a value that is not allowed there ends
as if there were no node. -/
def memoizing (allowed : Json → Path → Bool) (convert : Converting) : Converting :=
  fun id input path =>
    if input.all fun value => allowed value path then convert id input path else fail .noNode

end Conversion

namespace Graph

open Conversion

/-- The conversion of a node in which every call that opens a location is watched. A node that
follows references makes no other calls: each is for what it has just begun to remember. -/
def memoizingWithin (graph : Graph) (mode : Mode) (allowed : Json → Path → Bool) : Nat → Converting
  | 0 => fun _ _ _ => fail .outOfFuel
  | fuel + 1 => fun id input path =>
    match graph.get? id with
    | none => fail .noNode
    | some (.reference messages target) =>
      reference (memoizing allowed (graph.memoizingWithin mode allowed fuel)) id messages target
        input path
    | some node => step (graph.memoizingWithin mode allowed fuel) mode id node input path

variable {σ : Type} {graph : Graph} {mode : Mode} {known : σ → Resolver → Prop}
  {kind : σ → NodeId → Option Json → Path → Prop} {place : Path → Prop}

/-- Watching changes nothing if whatever is called is allowed. -/
theorem memoizingWithin_agrees (confines : graph.Confines mode known kind place)
    {allowed : Json → Path → Bool}
    (hallowed : ∀ {k id value path}, kind k id (some value) path → allowed value path = true)
    (fuel : Nat) {k : σ} {id : NodeId} {input : Option Json} {path : Path}
    (h : kind k id input path) :
    Agree (known k) (graph.convertWithin mode fuel id input path)
      (graph.memoizingWithin mode allowed fuel id input path) := by
  induction fuel generalizing k id input path with
  | zero => exact .fail _
  | succ fuel ih =>
      have hwatched : ∀ {k id input path}, kind k id input path →
          Agree (known k) (graph.convertWithin mode fuel id input path)
            (memoizing allowed (graph.memoizingWithin mode allowed fuel) id input path) := by
        intro k id input path h
        have hpasses : (input.all fun value => allowed value path) = true := by
          cases input with
          | none => rfl
          | some value => exact hallowed h
        unfold memoizing
        rw [if_pos hpasses]
        exact ih h
      unfold convertWithin memoizingWithin
      cases hnode : graph.get? id with
      | none => exact .fail _
      | some node =>
          cases node with
          | forward target => exact ih (confines.forward hnode h)
          | reference messages target =>
              refine .reference (hwatched (confines.enters hnode h)) fun text htext r hr =>
                ⟨confines.resolves hr text, fun url value hanswer => ?_⟩
              obtain ⟨-, k', hentered, hleave, hself, htarget⟩ :=
                confines.follows hnode h htext hr hanswer
              exact ⟨known k', hentered, hleave, hwatched hself, hwatched htarget⟩
          | typed common shape =>
              exact .typed fun payload hpresent node given place hcall =>
                ih (confines.typed hnode h hpresent hcall)

end Graph

end SchemaGraph

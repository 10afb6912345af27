import SchemaGraph.Proofs.Compiler.Histories
import SchemaGraph.Proofs.Compiler.Reached
import SchemaGraph.Proofs.Conversion.Calls

set_option autoImplicit false

/-! # What a check remembers at a location

The location of a conversion is where errors are reported, and the name under which a value is
remembered. While a schema is checked it is where the value stands, with one exception: the values
of `not` and `additionalProperties` are tried by two nodes each, and each of them converts at a
location of its own, below the one of the value (`Json.Below`). So a check remembers a value only
where it stands, or behind such an index (`Compiler.check_remembers_placed`).
-/

namespace SchemaGraph

namespace Model

/-! ## Forks -/

/-- The keywords whose values are tried by two nodes. -/
def forks : List String := ["not", "additionalProperties"]

/-- A node that tries its payload by others. -/
def isFork (id : NodeId) : Bool := id == negation || id == additional

/-- Forks stand under their keywords alone, try two nodes at most, and none of them is a fork. -/
def keepsForks (id : NodeId) : Node → Bool
  | .typed _ (.array node _ _ _) => !isFork node
  | .typed _ (.map node _) => !isFork node
  | .typed _ (.object shape) =>
    shape.properties.all (fun (name, node) => !isFork node || forks.contains name) &&
      shape.patterns.all (fun (_, node) => !isFork node) &&
      shape.additional.children.all fun node => !isFork node
  | .typed _ (.oneOf subtypes) =>
    isFork id && decide (subtypes.length ≤ 2) && subtypes.all fun node => !isFork node
  | .typed _ (.discriminated _ _) => false
  | .typed _ (.allOf _) => false
  | .typed _ (.anyOf _) => false
  | .typed _ (.not _) => false
  | .typed _ _ => true
  | .forward target => !isFork target
  | .reference _ target => !isFork target && !isFork id

theorem keepsForks_of_get? {messages : Messages} {id : NodeId} {node : Node}
    (h : (graph messages).get? id = some node) : keepsForks id node = true := by
  have hall : ((nodes messages).zipIdx.all fun (node, id) => keepsForks id node) = true := rfl
  have hmem : (node, id) ∈ (nodes messages).zipIdx := List.mem_zipIdx_iff_getElem?.2 h
  exact List.all_eq_true.1 hall _ hmem

end Model

/-! ## Values below a value -/

/-- The location some segments further down. -/
def Path.below (path : Path) (segments : List String) : Path :=
  { path with parts := path.parts ++ segments }

theorem Path.below_child (path : Path) (segments : List String) (segment : String) :
    (path.below segments).child segment = path.below (segments ++ [segment]) := by
  unfold below child
  rw [List.append_assoc]

namespace Json

/-- What a check finds below a value, behind some segments: what stands there, but the index of a
branch may follow the keyword of a fork and lead nowhere. -/
inductive Below (top : Json) : List String → Json → Prop where
  | here : Below top [] top
  | step {segments : List String} {value part : Json} {segment : String}
      (h : Below top segments value) (hstep : value.step? segment = some part) :
      Below top (segments ++ [segment]) part
  | branch {segments : List String} {value : Json} {key : String} {index : Nat}
      (h : Below top (segments ++ [key]) value) (hkey : key ∈ Model.forks) (hindex : index < 2) :
      Below top (segments ++ [key] ++ [toString index]) value

variable {top value : Json} {segments : List String}

theorem Below.isRegular (h : top.Below segments value) (hregular : top.isRegular = true) :
    value.isRegular = true := by
  induction h with
  | here => exact hregular
  | step _ hstep ih => exact (has_of_step hstep).all ih
  | branch _ _ _ ih => exact ih

theorem Below.inside (h : top.Below segments value) : value ∈ top.inside := by
  induction h with
  | here => exact mem_inside_self top
  | step _ hstep ih => exact (has_of_step hstep).inside ih
  | branch _ _ _ ih => exact ih

/-- In a value that has no keyword of a fork, none is passed. -/
theorem Below.plain (h : top.Below segments value)
    (hnone : (top.all fun part => Model.forks.all fun key => (part.step? key).isNone) = true) :
    ∀ key ∈ Model.forks, key ∉ segments := by
  induction h with
  | here => exact fun _ _ hmem => nomatch hmem
  | step hbelow hstep ih =>
      intro key hkey hmem
      rcases List.mem_append.1 hmem with hmem | hmem
      · exact ih key hkey hmem
      · obtain rfl := List.mem_singleton.1 hmem
        have hhere := List.all_eq_true.1 (test_of_mem_inside hnone hbelow.inside) key hkey
        rw [hstep] at hhere
        cases hhere
  | @branch segments value key _ _ hkey _ ih =>
      exact absurd (List.mem_append_right segments (List.mem_singleton_self key)) (ih key hkey)

/-- Where no fork is passed, that is what stands there. -/
theorem Below.walk (h : top.Below segments value) (hplain : ∀ key ∈ Model.forks, key ∉ segments) :
    top.walk? segments = some value := by
  induction h with
  | here => rfl
  | @step segments value part segment _ hstep ih =>
      have hfront := ih fun key hkey hmem => hplain key hkey (List.mem_append_left _ hmem)
      rw [walk_snoc hfront]
      exact hstep
  | @branch segments value key index _ hkey =>
      refine absurd ?_ (hplain key hkey)
      exact List.mem_append_left _ (List.mem_append_right _ (List.mem_singleton_self key))

end Json

/-! ## Placed values -/

namespace Resolver

variable {origin : Resolver} {first landing : Landing} {value : Json} {path : Path}
  {segments : List String}

/-- From the first landing references reach one, and the value is what a check finds below it, at
the location. -/
def Placed (origin : Resolver) (first : Landing) (value : Json) (path : Path) : Prop :=
  ∃ landing segments, origin.Reaches first landing ∧ path = landing.path.below segments ∧
    landing.value.Below segments value

/-- All documents are as they are read. -/
def IsRegular (origin : Resolver) : Prop :=
  ∀ uri document, origin.documentAt uri = .ok document → document.isRegular = true

theorem IsRegular.valueAt (h : origin.IsRegular) {url : String}
    (hvalue : origin.valueAt url = .ok value) : value.isRegular = true := by
  obtain ⟨document, hdocument, hwalk⟩ := valueAt_eq_ok.1 hvalue
  have hstands : document.StandsAt value ⟨"", Uri.pointerSegments (Uri.defrag url).2⟩ :=
    ⟨rfl, hwalk⟩
  exact hstands.all (h _ _ hdocument)

/-- What is below a landing stands at its location, unless the pointer of the landing is ambiguous
or a fork is passed. -/
theorem standsAt_below (hvalue : origin.valueAt landing.url = .ok landing.value)
    (hpointer : Uri.isUnambiguous (Uri.defrag landing.url).2 = true)
    (hbelow : landing.value.Below segments value) (hplain : ∀ key ∈ Model.forks, key ∉ segments) :
    origin.StandsAt (landing.path.below segments) value := by
  obtain ⟨document, hdocument, hwalk⟩ := standsAt_of_valueAt hpointer hvalue
  refine ⟨document, hdocument, ?_⟩
  show document.walk? ((Path.ofUri landing.url).parts ++ segments) = some value
  rw [Json.walk_append, hwalk]
  exact hbelow.walk hplain

/-- In a document on its own, without a keyword of a fork, all that is placed stands where it is. -/
theorem Placed.standsAt {document : Json} (h : origin.Placed first value path)
    (closed : document.SelfContained) (hdocument : origin.documentAt "" = .ok document)
    (hfirst : Landing.IsLocal document first) (hvalue : origin.valueAt first.url = .ok first.value)
    (hforkless : (document.all fun part =>
      Model.forks.all fun key => (part.step? key).isNone) = true) :
    origin.StandsAt path value := by
  obtain ⟨landing, segments, hreached, rfl, hbelow⟩ := h
  have hlocal := hreached.local closed hdocument hfirst
  exact standsAt_below (hreached.value hvalue) (isUnambiguous_of_isLocal hlocal.url) hbelow
    (hbelow.plain (Json.holds_of_mem_inside (fun hwhole hpart => hpart.all hwhole) hforkless
      hlocal.value))

end Resolver

/-! ## The model -/

namespace Model

open Conversion

variable {origin : Resolver} {first : Landing} {base : String} {entered : List String}

/-- What a node of the model converts in a scope is placed below a landing with that scope, and what
a fork converts stands under its keyword. -/
def Converts (origin : Resolver) (first : Landing) (base : String) (entered : List String)
    (id : NodeId) (input : Option Json) (path : Path) : Prop :=
  ∀ value, input = some value → ∃ landing segments, origin.Reaches first landing ∧
    landing.scope = entered.headD base ∧ path = landing.path.below segments ∧
    landing.value.Below segments value ∧
    (isFork id = true → ∃ front, ∃ key ∈ forks, segments = front ++ [key])

/-- What references reach is converted by all nodes but forks. -/
theorem converts_landing {landing : Landing} (h : origin.Reaches first landing)
    (hscope : landing.scope = entered.headD base) {id : NodeId} (hid : isFork id = false) :
    Converts origin first base entered id (some landing.value) landing.path := by
  rintro _ ⟨⟩
  refine ⟨landing, [], h, hscope, ?_, .here, fun hfork => absurd hfork (Bool.eq_false_iff.1 hid)⟩
  show landing.path = ⟨landing.path.base, landing.path.parts ++ []⟩
  rw [List.append_nil]

namespace Converts

variable {id node : NodeId} {input : Option Json} {value part : Json} {path : Path}

/-- From a value conversions go on to its parts. -/
theorem step {segment : String} (h : Converts origin first base entered id (some value) path)
    (hstep : value.step? segment = some part) (hnode : isFork node = true → segment ∈ forks) :
    Converts origin first base entered node (some part) (path.child segment) := by
  rintro _ ⟨⟩
  obtain ⟨landing, segments, hreached, hscope, rfl, hbelow, -⟩ := h value rfl
  exact ⟨landing, segments ++ [segment], hreached, hscope, Path.below_child _ _ _,
    hbelow.step hstep, fun hfork => ⟨segments, segment, hnode hfork, rfl⟩⟩

theorem plain {segment : String} (h : Converts origin first base entered id (some value) path)
    (hstep : value.step? segment = some part)
    (hnode : isFork node = false) :
    Converts origin first base entered node (some part) (path.child segment) :=
  h.step hstep fun hfork => absurd hfork (Bool.eq_false_iff.1 hnode)

/-- A fork has its payload converted at locations further down. -/
theorem branch {index : Nat} (h : Converts origin first base entered id (some value) path)
    (hid : isFork id = true) (hnode : isFork node = false) (hindex : index < 2) :
    Converts origin first base entered node (some value) (path.item index) := by
  rintro _ ⟨⟩
  obtain ⟨landing, segments, hreached, hscope, rfl, hbelow, hfork⟩ := h value rfl
  obtain ⟨front, key, hkey, rfl⟩ := hfork hid
  exact ⟨landing, front ++ [key] ++ [toString index], hreached, hscope, Path.below_child _ _ _,
    hbelow.branch hkey hindex, fun hfork => absurd hfork (Bool.eq_false_iff.1 hnode)⟩

/-- Any node that is no fork may convert the same. -/
theorem same (h : Converts origin first base entered id input path) (hnode : isFork node = false) :
    Converts origin first base entered node input path := by
  intro value hvalue
  obtain ⟨landing, segments, hreached, hscope, hpath, hbelow, -⟩ := h value hvalue
  exact ⟨landing, segments, hreached, hscope, hpath, hbelow,
    fun hfork => absurd hfork (Bool.eq_false_iff.1 hnode)⟩

theorem placed (h : Converts origin first base entered id (some value) path) :
    origin.Placed first value path := by
  obtain ⟨landing, segments, hreached, -, hpath, hbelow, -⟩ := h value rfl
  exact ⟨landing, segments, hreached, hpath, hbelow⟩

theorem isRegular (h : Converts origin first base entered id (some value) path)
    (hregular : origin.IsRegular) (hfirst : origin.valueAt first.url = .ok first.value) :
    value.isRegular = true := by
  obtain ⟨landing, segments, hreached, -, -, hbelow, -⟩ := h value rfl
  exact hbelow.isRegular (hregular.valueAt (hreached.value hfirst))

/-- What a node calls for its payload is converted at its place. -/
theorem called {common : Common} {shape : Shape} {given : Option Json} {place : Path}
    (h : Converts origin first base entered id (some value) path)
    (hkeeps : keepsForks id (.typed common shape) = true) (hvalue : value.isRegular = true)
    (hcall : shape.Calls value path node given place) :
    Converts origin first base entered node given place := by
  cases hcall with
  | item hitem =>
      simp only [keepsForks, Bool.not_eq_true'] at hkeeps
      exact h.plain (Json.step_of_item hvalue hitem) hkeeps
  | entry hitem =>
      simp only [keepsForks, Bool.not_eq_true'] at hkeeps
      exact h.plain (Json.step_of_entry hvalue hitem) hkeeps
  | @undeclared shape node key item hitem hmem =>
      simp only [keepsForks, Bool.and_eq_true, List.all_eq_true, Bool.not_eq_true'] at hkeeps
      refine h.plain (Json.step_of_entry hvalue hitem) ?_
      rcases nodes_destination hmem with hpattern | hadditional
      · obtain ⟨entry, hentry, rfl⟩ := List.mem_map.1 hpattern
        exact hkeeps.1.2 entry hentry
      · exact hkeeps.2 _ hadditional
  | @declared shape node name hname =>
      simp only [keepsForks, Bool.and_eq_true, List.all_eq_true, Bool.or_eq_true,
        Bool.not_eq_true'] at hkeeps
      cases hfind : Entries.find? name (value.asObj?.getD []) with
      | none => rintro _ ⟨⟩
      | some item =>
          have hstep := Json.step_of_entry hvalue (Entries.mem_of_find? hfind)
          -- a fork may be declared under its keyword alone
          rcases hkeeps.1.1 (name, node) hname with hplain | hkey
          · exact h.plain hstep hplain
          · exact h.step hstep fun _ => List.contains_iff_mem.1 hkey
  | selected hname => cases hkeeps
  | @subtype _ _ index hsubtype =>
      cases shape with
      | oneOf subtypes =>
          simp only [keepsForks, Bool.and_eq_true, List.all_eq_true, Bool.not_eq_true',
            decide_eq_true_eq] at hkeeps
          have hlt : index < subtypes.length := (List.getElem?_eq_some_iff.1 hsubtype).1
          exact h.branch hkeeps.1.1 (hkeeps.2 _ (List.mem_of_getElem? hsubtype))
            (Nat.lt_of_lt_of_le hlt hkeeps.1.2)
      | allOf subtypes | anyOf subtypes | not subtypes => cases hkeeps
      | _ => cases hsubtype

end Converts

/-- Nothing stands in for what is absent. -/
def lacksDefault : Node → Bool
  | .typed common _ => common.default.isNone
  | _ => true

theorem default_of_get? {messages : Messages} {id : NodeId} {common : Common} {shape : Shape}
    (h : (graph messages).get? id = some (.typed common shape)) : common.default = none := by
  have hall : (nodes messages).all lacksDefault = true := rfl
  exact Option.isNone_iff_eq_none.1 (List.all_eq_true.1 hall _ (List.mem_of_getElem? h))

/-- The model has no defaults, so what is present was given. -/
theorem present_of_get? {messages : Messages} {id : NodeId} {common : Common} {shape : Shape}
    {mode : Mode} {input : Option Json} {payload : Json}
    (h : (graph messages).get? id = some (.typed common shape))
    (hpresent : present? mode common input = some payload) : input = some payload := by
  rwa [present?_of_lacks (default_of_get? h)] at hpresent

/-- The model only converts what is placed, and opens locations that references reach. -/
theorem confines_converts (messages : Messages) (mode : Mode) (hregular : origin.IsRegular)
    (hfirst : origin.valueAt first.url = .ok first.value) :
    (graph messages).Confines mode (origin.StandsIn base) (Converts origin first base)
      (origin.Opens first) where
  forward hnode h := h.same (by simpa [keepsForks] using keepsForks_of_get? hnode)
  enters hnode h := by
    have hkeeps := keepsForks_of_get? hnode
    simp only [keepsForks, Bool.and_eq_true, Bool.not_eq_true'] at hkeeps
    exact h.same hkeeps.1
  resolves hr text := hr.resolve text
  follows {entered id messages target input path text r url value} hnode h htext hr hanswer := by
    have hkeeps := keepsForks_of_get? hnode
    simp only [keepsForks, Bool.and_eq_true, Bool.not_eq_true'] at hkeeps
    obtain ⟨payload, hpayload, href⟩ := Option.bind_eq_some_iff.1 htext
    obtain ⟨landing, segments, hreached, hscope, -, hbelow, -⟩ := h payload hpayload
    have hlands := hr.lands hanswer
    rw [← hscope] at hlands
    have hnext := hreached.next ⟨payload, hbelow.inside, href⟩ hlands
    refine ⟨⟨_, hnext, rfl⟩, _, (hr.resolve text).enter url, fun r' hr' => hr'.leave, ?_, ?_⟩
    · exact converts_landing hnext (by rw [hscope]; rfl) hkeeps.2
    · exact converts_landing hnext (by rw [hscope]; rfl) hkeeps.1
  typed hnode h hpresent hcall := by
    obtain rfl := present_of_get? hnode hpresent
    exact h.called (keepsForks_of_get? hnode) (h.isRegular hregular hfirst) hcall

end Model

/-! ## Checks -/

namespace Compiler

open Compiling Conversion

/-- What a check tells of the run of the model. -/
def told (path : Path) : Except Failure Value → Except CompileFailure Unit
  | .error (.errors errors) => .error (.errors errors)
  | .error .recursive =>
    .error (.errors (.single (LocatedError.ofKey .builtIn path .recursiveReference [])))
  | .error .outOfFuel => .error .outOfFuel
  | _ => .ok ()

theorem check_told {c d : Compiler} {reference url : String} {written : Json}
    (h : pointer reference c = (.ok (url, written), d)) (fuel : Nat) :
    (Compiling.check fuel reference c).1 = told (Path.ofUri url)
      ((Model.graph d.messages).convertWithin (Options.ofEntity .specification).mode fuel Model.entry
        (some written) (Path.ofUri url) (.start (some (d.resolver.pushScope url)))).1 := by
  rw [fst_check h]
  unfold Graph.convertAt
  dsimp only
  generalize (Model.graph d.messages).convertWithin (Options.ofEntity .specification).mode fuel
    Model.entry (some written) (Path.ofUri url) (.start (some (d.resolver.pushScope url))) = run
  rcases run with ⟨(_ | _ | _ | _ | _) | _, _⟩ <;> rfl

/-- Where a pointer leads a check, and what is known of the resolver there. -/
theorem pointer_lands {origin : Resolver} {c d : Compiler} {reference url : String} {written : Json}
    (hc : origin.Remembers c.resolver) (h : pointer reference c = (.ok (url, written), d)) :
    origin.valueAt url = .ok written ∧ origin.StandsIn c.resolver.base
      (Uri.join c.resolver.scope url :: c.resolver.entered) (d.resolver.pushScope url) := by
  have hstands : origin.StandsIn c.resolver.base c.resolver.entered c.resolver := ⟨hc, rfl, rfl⟩
  rw [run_pointer_eq] at h
  obtain ⟨hanswer, rfl⟩ := Prod.mk.inj h
  have hresolved : (c.resolver.resolve reference).1 = .ok (url, written) := by
    cases hrun : (c.resolver.resolve reference).1 with
    | error failure =>
        rw [hrun] at hanswer
        cases hanswer
    | ok found =>
        rw [hrun] at hanswer
        cases hanswer
        rfl
  exact ⟨(hc.resolve_eq_ok.1 hresolved).2, (hstands.resolve reference).enter url⟩

/-- A compiler that retrieves nothing has one document. -/
theorem isRegular_ofDocument {document : Json} (config : Config) (h : document.isRegular = true) :
    (ofDocument [] document config).resolver.IsRegular := by
  intro uri found hfound
  unfold Resolver.documentAt at hfound
  split at hfound
  · rename_i stored hstored
    cases hfound
    cases List.mem_singleton.1 (Entries.mem_of_find? hstored)
    exact h
  · cases hfound

/-- Whatever was called before, the run of the model behind a check opens locations only for values
that are placed there: watching it for that changes nothing. A placed value stands at its location,
unless it is below something that is reached by an ambiguous pointer, or behind the keyword of a
fork. -/
theorem check_remembers_placed (retrievers : List (String × Retriever)) (document : Json)
    (config : Config) (earlier : List Call) {reference url : String} {written : Json} {d : Compiler}
    (hregular : (ofDocument retrievers document config).resolver.IsRegular)
    (hpointer : pointer reference ((ofDocument retrievers document config).calls earlier).1 =
      (.ok (url, written), d)) (fuel : Nat) :
    let start := ofDocument retrievers document config
    let c := (start.calls earlier).1
    let first : Landing := ⟨url, Uri.join c.resolver.scope url, written⟩
    let model := Model.graph d.messages
    let mode := (Options.ofEntity .specification).mode
    let s := ConversionState.start (some (d.resolver.pushScope url))
    (c.check fuel reference).1 =
        told first.path (model.convertWithin mode fuel Model.entry (some written) first.path s).1 ∧
      (∀ allowed : Json → Path → Bool,
        (∀ value path, start.resolver.Placed first value path → allowed value path = true) →
        model.memoizingWithin mode allowed fuel Model.entry (some written) first.path s =
          model.convertWithin mode fuel Model.entry (some written) first.path s) ∧
      ∀ value path, start.resolver.Placed first value path →
        start.resolver.StandsAt path value ∨ ∃ landing segments,
          start.resolver.Reaches first landing ∧ path = landing.path.below segments ∧
          (Uri.isUnambiguous (Uri.defrag landing.url).2 = false ∨
            ∃ key ∈ Model.forks, key ∈ segments) := by
  intro start c first model mode s
  obtain ⟨hvalue, hstands⟩ :=
    pointer_lands (calls_remember retrievers document config earlier) hpointer
  refine ⟨check_told hpointer fuel, fun allowed hallowed => ?_, fun value path hplaced => ?_⟩
  · have hconfines : model.Confines mode (start.resolver.StandsIn c.resolver.base)
        (Model.Converts start.resolver first c.resolver.base) (start.resolver.Opens first) :=
      Model.confines_converts d.messages mode hregular hvalue
    have hentry : Model.Converts start.resolver first c.resolver.base
        (Uri.join c.resolver.scope url :: c.resolver.entered) Model.entry (some written)
        first.path := Model.converts_landing .here rfl rfl
    refine (Graph.memoizingWithin_agrees hconfines (fun h => hallowed _ _ h.placed) fuel hentry s
      ?_).1
    rintro _ ⟨⟩
    exact hstands
  · obtain ⟨landing, segments, hreached, rfl, hbelow⟩ := hplaced
    cases hpointer : Uri.isUnambiguous (Uri.defrag landing.url).2 with
    | false => exact .inr ⟨landing, segments, hreached, rfl, .inl hpointer⟩
    | true =>
        by_cases hplain : ∃ key ∈ Model.forks, key ∈ segments
        · exact .inr ⟨landing, segments, hreached, rfl, .inr hplain⟩
        · refine .inl (Resolver.standsAt_below (hreached.value hvalue) hpointer hbelow ?_)
          exact fun key hkey hmem => hplain ⟨key, hkey, hmem⟩

/-- A schema one of whose properties is the same as another one. -/
def sharingSchema : Json :=
  .obj [("properties", .obj [("a", .obj [("$ref", .str "#/S/properties/b")]),
    ("b", .obj [("type", .str "string")])])]

def sharingDocument : Json := .obj [("S", sharingSchema)]

/-- What a check of it opens stands at the locations opened: watching for that changes nothing. -/
theorem check_remembers_placed_sharing :
    let start := ofDocument [] sharingDocument .default
    let d : Compiler := { start with resolver := (start.resolver.resolve "#/S").2 }
    let model := Model.graph d.messages
    let mode := (Options.ofEntity .specification).mode
    let s := ConversionState.start (some (d.resolver.pushScope "#/S"))
    pointer "#/S" start = (.ok ("#/S", sharingSchema), d) ∧
      ∀ allowed, (∀ value path, start.resolver.StandsAt path value → allowed value path = true) →
        model.memoizingWithin mode allowed 20 Model.entry (some sharingSchema) (Path.ofUri "#/S") s =
          model.convertWithin mode 20 Model.entry (some sharingSchema) (Path.ofUri "#/S") s := by
  intro start d model mode s
  have hclosed : sharingDocument.SelfContained := ⟨by decide +kernel, by decide +kernel⟩
  have hinside : Uri.isLocal "#/S" = true := by decide +kernel
  have htarget : Resolver.resolveFragment sharingDocument (Uri.defrag "#/S").2 =
      .ok sharingSchema := by
    have hsegments : Uri.pointerSegments (Uri.defrag "#/S").2 = ["S"] := by decide +kernel
    rw [Resolver.resolveFragment_eq_ok, hsegments]
    rfl
  have hpointer := run_pointer (c := start) ⟨Resolver.serves_ofConfig [] sharingDocument rfl,
    .inl rfl⟩ rfl (.inr (Uri.isFragment_of_isLocal hinside)) htarget
  have hwatched :=
    (check_remembers_placed [] sharingDocument .default [] (isRegular_ofDocument .default
      hclosed.regular) hpointer 20).2.1
  refine ⟨hpointer, fun allowed hallowed => ?_⟩
  refine hwatched allowed fun value path hplaced => hallowed value path ?_
  refine hplaced.standsAt hclosed rfl
    ⟨hinside, ?_, Json.mem_inside_of_resolveFragment htarget⟩ ?_ (by decide +kernel)
  · exact Uri.join_fragment (.inl rfl) (Uri.isFragment_of_isLocal hinside)
  · exact (pointer_lands (calls_remember [] sharingDocument .default []) hpointer).1

/-- A schema that refers to the only item of its `not`. -/
def excludingSchema : Json :=
  .obj [("not", .arr [.obj [("type", .str "string")]]),
    ("properties", .obj [("a", .obj [("$ref", .str "#/S/not/0")])])]

/-- What is tried for the value of `not` is remembered at a location below, which belongs to its
item: the item is a schema, and yet a reference to it is refused. -/
theorem check_remembers_elsewhere :
    let start := ofDocument [] (.obj [("S", excludingSchema)]) .default
    (Json.obj [("S", excludingSchema)]).walk? ["S", "not", "0"] =
        some (.obj [("type", .str "string")]) ∧
      (start.check 20 "#/S/not/0").1 = .ok () ∧
      (start.check 20 "#/S").1 = .error (.errors (.single
        (LocatedError.ofKey .builtIn ⟨"", ["S", "properties", "a"]⟩ .badReference []))) := by
  refine ⟨rfl, by decide +kernel, by decide +kernel⟩

end Compiler

end SchemaGraph

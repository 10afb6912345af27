import SchemaGraph.Proofs.Conversion.Keys
import SchemaGraph.Proofs.Conversion.Reports
import SchemaGraph.Proofs.Conversion.Termination

set_option autoImplicit false

/-! # What lists, maps and objects report

Where no node follows references, a node says the same of what it is given whatever was converted
before it (`Steady`). So what the parts of a list, a map or an object report is a list of their own
runs, each taken by itself, and the composite reports exactly that, one after the other, besides
what an object finds wrong with its keys (`Graph.composites_report`). No error of one part keeps
another part from being converted.
-/

namespace SchemaGraph

namespace Conversion

variable {α β γ ι : Type}

/-! ## Runs by themselves -/

/-- What a node says of what it is given, where nothing came before. -/
def apart (convert : Converting ι) (node : ι) (input : Option Json) (path : Path) :
    Except Failure Value :=
  (convert node input path (.start none)).1

/-- Nodes say the same whatever came before, and leave no traces. -/
def Steady (convert : Converting ι) : Prop :=
  ∀ node input path s, convert node input path s = (apart convert node input path, s)

/-- A run that ended with errors. -/
def Refused (run : Except Failure Value) : Prop := ∃ errors, run = .error (.errors errors)

/-- Without a value there are errors, unless fuel ran out or what is absent has no default. -/
def Answers (absent : Prop) (run : Except Failure Value) : Prop :=
  ∀ failure, run = .error failure →
    failure = .outOfFuel ∨ (∃ errors, failure = .errors errors) ∨ absent ∧ failure = .undefined

theorem Answers.mono {absent absent' : Prop} {run : Except Failure Value} (h : Answers absent run)
    (himp : absent → absent') : Answers absent' run :=
  fun failure hfailure => (h failure hfailure).imp_right (Or.imp_right (And.imp_left himp))

/-- The errors of runs, one after the other. -/
def reports (runs : List (Except Failure Value)) : List LocatedError :=
  runs.flatMap (reported silent)

theorem reported_eq_nil {run : Except Failure Value} : reported silent run = [] ↔ ¬Refused run := by
  rcases run with (errors | _ | _ | _ | _) | value
  case error.errors => exact iff_of_false (fun h => nomatch h) (fun h => h ⟨errors, rfl⟩)
  all_goals exact iff_of_true rfl fun ⟨_, h⟩ => nomatch h

/-- There are errors exactly if some run was refused. -/
theorem reports_eq_nil {runs : List (Except Failure Value)} :
    reports runs = [] ↔ ∀ run ∈ runs, ¬Refused run := by
  unfold reports
  rw [List.flatMap_eq_nil_iff]
  exact forall₂_congr fun run _ => reported_eq_nil

/-! ## Parts by themselves -/

/-- What is known of the nodes that parts convert through. -/
structure StandsApart (convert : Converting ι) (known : ι → Prop) : Prop where
  steady : Steady convert
  answers : ∀ {node}, known node → ∀ input path,
    Answers (input = none) (apart convert node input path)

variable {convert : Converting ι} {known : ι → Prop} {path : Path}

/-- The run of the part that answers a question. -/
def partRun (convert : Converting ι) (path : Path) (inquiry : Inquiry ι) : Except Failure Value :=
  apart convert inquiry.node inquiry.input (inquiry.slot.location path)

/-- What a part reports is what is heard of it. -/
theorem errors_of_replied {inquiry : Inquiry ι} {reply : Reply}
    (h : Replied (fun inquiry result => result = partRun convert path inquiry) inquiry reply) :
    reply.errors = reported silent (partRun convert path inquiry) := by
  cases h with
  | value h | nothing _ h | errors h =>
      rw [← h]
      rfl

theorem told_of_heard {inquiries : List (Inquiry ι)} {replies : List Reply} (test : Slot → Bool)
    (heard : Heard (fun inquiry result => result = partRun convert path inquiry) false inquiries
      replies) :
    told (replies.filter fun reply => test reply.slot) =
      reports ((inquiries.filter fun inquiry => test inquiry.slot).map (partRun convert path)) := by
  have hreplied := heard.forall₂
  clear heard
  induction hreplied with
  | nil => rfl
  | @cons inquiry reply rest more hhere _ ih =>
      rw [List.filter_cons, List.filter_cons, hhere.slot]
      split
      · show reply.errors ++ told _ = reported silent (partRun convert path inquiry) ++ reports _
        rw [ih, errors_of_replied hhere]
      · exact ih

/-- A node that judges a payload leaves no traces: fuel runs out in a part, or it rules on what the
parts say by themselves. -/
theorem comes_apart (nodes : StandsApart convert known) {shape : Shape ι}
    (hknown : ∀ node ∈ shape.children, known node) (mode : Mode) (common : Common)
    (payload : Json) (path : Path) (s : ConversionState) :
    ((shape.plan mode common payload path).run convert path s).2 = s ∧
      (.error .outOfFuel ∈ (shape.inquiries mode payload).map (partRun convert path) ∧
        ((shape.plan mode common payload path).run convert path s).1 = .error .outOfFuel ∨
      ∃ replies, Heard (fun inquiry result => result = partRun convert path inquiry) shape.isEager
          (shape.inquiries mode payload) replies ∧
        ((shape.plan mode common payload path).run convert path s).1 =
          (shape.ruling mode common payload path replies).mapError .errors) := by
  have hparts : ∀ inquiry ∈ (shape.plan mode common payload path).inquiries,
      Brings (· = s) (· = partRun convert path inquiry) (inquiry.part convert path) := by
    intro inquiry _ t ht
    unfold Inquiry.part
    rw [nodes.steady]
    exact ⟨ht, rfl⟩
  obtain ⟨hstate, hcomes⟩ := Brings.run hparts s rfl
  refine ⟨hstate, ?_⟩
  generalize ((shape.plan mode common payload path).run convert path s).1 = result at hcomes ⊢
  cases hcomes with
  | rules heard => exact .inr ⟨_, heard, rfl⟩
  | @strays inquiry failure hmem hanswers hstray =>
      have hnode : known inquiry.node := hknown _ (Shape.calls_of_mem hmem path).mem_children
      obtain rfl | ⟨errors, rfl⟩ | ⟨habsent, rfl⟩ :=
        nodes.answers hnode inquiry.input _ failure hanswers.symm
      · exact .inl ⟨List.mem_map.2 ⟨inquiry, hmem, hanswers.symm⟩, rfl⟩
      · cases hstray
      · -- what may not be missing is there
        have hslot : (!inquiry.slot.mayLack) = true := hstray
        obtain ⟨item, hitem⟩ := Shape.exists_input hmem (by simpa using hslot)
        cases habsent.symm.trans hitem

/-- The replies to inquiries tell that no part ran out of fuel. -/
theorem not_exhausted {inquiries : List (Inquiry ι)} {replies : List Reply}
    (heard : Heard (fun inquiry result => result = partRun convert path inquiry) false inquiries
      replies) : .error .outOfFuel ∉ inquiries.map (partRun convert path) := by
  intro hfuel
  obtain ⟨inquiry, hinquiry, hrun⟩ := List.mem_map.1 hfuel
  obtain ⟨reply, -, hreplied⟩ := heard.exists_reply hinquiry
  cases hreplied with
  | value h | nothing _ h | errors h => cases h.trans hrun

/-! ## Lists and maps -/

/-- The runs of the items of a list, from an index on. -/
def itemRuns (convert : Converting ι) (node : ι) (path : Path) (index : Nat)
    (payload : List Json) : List (Except Failure Value) :=
  (payload.zipIdx index).map fun (item, index) => apart convert node (some item) (path.item index)

/-- The runs of the values of a map. -/
def entryRuns (convert : Converting ι) (node : ι) (path : Path)
    (payload : List (String × Json)) : List (Except Failure Value) :=
  payload.map fun (key, item) => apart convert node (some item) (path.child key)

/-! ## Objects -/

/-- The runs for the keys that are not declared, in their order. -/
def undeclaredRuns (convert : Converting ι) (shape : ObjectShape ι) (path : Path)
    (payload : List (String × Json)) : List (Except Failure Value) :=
  payload.flatMap fun (key, item) =>
    if Entries.contains key shape.properties then []
    else (destination shape key).nodes.map fun node =>
      apart convert node (some item) (path.child key)

/-- The runs for the declared properties that are not skipped, also for absent ones. -/
def declaredRuns (convert : Converting ι) (skip : String → Bool) (payload : List (String × Json))
    (path : Path) (properties : List (String × ι)) : List (Except Failure Value) :=
  (properties.filter fun (name, _) => !skip name).map fun (name, node) =>
    apart convert node (Entries.find? name payload) (path.child name)

variable {shape : ObjectShape ι} {payload : List (String × Json)}

theorem undeclaredRuns_eq : undeclaredRuns convert shape path payload =
    (undeclaredInquiries shape payload).map (partRun convert path) := by
  unfold undeclaredRuns undeclaredInquiries
  rw [List.map_flatMap]
  refine List.flatMap_congr fun entry _ => ?_
  dsimp only
  split
  · rfl
  · rw [List.map_map]
    rfl

theorem declaredRuns_eq {skip : String → Bool} {properties : List (String × ι)} :
    declaredRuns convert skip payload path properties =
      (declaredInquiries skip payload properties).map (partRun convert path) := by
  unfold declaredRuns declaredInquiries
  rw [List.map_map]
  rfl

/-! ## Composites -/

/-- The composite of some parts: fuel runs out if it does in a part; else it fails exactly with
the errors given, and has a value if there are none. -/
structure Unites (runs : List (Except Failure Value)) (errors : List LocatedError)
    (m : Conversion Value) : Prop where
  exhausted : .error .outOfFuel ∈ runs → ∀ s, m s = (.error .outOfFuel, s)
  fails : .error .outOfFuel ∉ runs → ∀ s found,
    m s = (.error (.errors found), s) ↔ found.toList = errors
  converts : .error .outOfFuel ∉ runs → ∀ s, (∃ value, m s = (.ok value, s)) ↔ errors = []

namespace Unites

variable {runs : List (Except Failure Value)} {errors : List LocatedError}

theorem of_collect {m : Conversion Value} (h : ∀ s,
    .error .outOfFuel ∈ runs ∧ m s = (.error .outOfFuel, s) ∨ .error .outOfFuel ∉ runs ∧
      ∃ value, m s = ((collect errors value).mapError .errors, s)) : Unites runs errors m := by
  have hends : .error .outOfFuel ∉ runs → ∀ s,
      ∃ value, m s = ((collect errors value).mapError .errors, s) :=
    fun hfuel s => ((h s).resolve_left fun hrun => hfuel hrun.1).2
  refine ⟨fun hfuel s => ((h s).resolve_right fun hrun => hrun.1 hfuel).2,
    fun hfuel s found => ?_, fun hfuel s => ?_⟩
  all_goals
    obtain ⟨value, hrun⟩ := hends hfuel s
    rw [hrun]
  · cases errors with
    | nil => exact iff_of_false (fun h => nomatch h) (fun h => nomatch h)
    | cons first rest =>
        obtain ⟨first', rest'⟩ := found
        constructor
        · rintro ⟨⟩
          rfl
        · rintro ⟨⟩
          rfl
  · cases errors with
    | nil => exact iff_of_true ⟨value, rfl⟩ rfl
    | cons first rest => exact iff_of_false (fun ⟨_, h⟩ => nomatch h) (fun h => nomatch h)

theorem fails_iff {m : Conversion Value} (h : Unites runs errors m)
    (hends : .error .outOfFuel ∉ runs) (s : ConversionState) :
    (∃ found, m s = (.error (.errors found), s)) ↔ errors ≠ [] := by
  simp only [h.fails hends]
  cases errors with
  | nil => exact iff_of_false (fun ⟨_, h⟩ => nomatch h) (fun h => h rfl)
  | cons first rest => exact iff_of_true ⟨⟨first, rest⟩, rfl⟩ (fun h => nomatch h)

theorem errors_eq {m : Conversion Value} (h : Unites runs errors m) {s : ConversionState}
    {found : SchemaErrors} (hm : m s = (.error (.errors found), s)) : found.toList = errors := by
  by_cases hfuel : .error .outOfFuel ∈ runs
  · rw [h.exhausted hfuel s] at hm
    cases hm
  · exact (h.fails hfuel s found).1 hm

end Unites

/-- The keys of a payload are not as the object wants them: one is excluded, a required one that is
not excluded is missing, or one that is neither declared nor matched is denied. -/
def Misfits (mode : Mode) (shape : ObjectShape ι) (payload : List (String × Json)) : Prop :=
  (∃ name ∈ shape.excludedFrom mode.entity, name ∈ payload.map Prod.fst) ∨
  (∃ name ∈ shape.required,
    name ∉ shape.excludedFrom mode.entity ∧ name ∉ payload.map Prod.fst) ∨
  (shape.additional = .deny ∧ ∃ key ∈ payload.map Prod.fst, shape.place key = .additional)

/-- Everything an object reports, in its order. -/
def objectErrors (convert : Converting ι) (mode : Mode) (common : Common) (shape : ObjectShape ι)
    (payload : List (String × Json)) (path : Path) : List LocatedError :=
  forbidden mode common shape payload path ++
    (missing mode shape payload).map (fun name => common.error path .required [name]) ++
    reports (undeclaredRuns convert shape path payload) ++
    summary common path .additionalProperties (refusedKeys shape payload) ++
    reports (declaredRuns convert (skips shape mode payload) payload path shape.properties)

/-! ## When composites fail -/

theorem missing_eq_nil {mode : Mode} :
    missing mode shape payload = [] ↔
      ∀ name ∈ shape.required, name ∉ shape.excludedFrom mode.entity →
        name ∈ payload.map Prod.fst := by
  unfold missing
  rw [List.filter_eq_nil_iff]
  refine forall₂_congr fun name _ => ?_
  rw [← Entries.contains_iff, ← List.contains_iff_mem]
  cases (shape.excludedFrom mode.entity).contains name <;> simp

theorem refusedKeys_eq_nil :
    refusedKeys shape payload = [] ↔
      (shape.additional = .deny → ∀ key ∈ payload.map Prod.fst, shape.place key ≠ .additional) := by
  unfold refusedKeys
  cases shape.additional with
  | deny =>
      unfold keysAt
      rw [List.filter_eq_nil_iff]
      simp
  | _ => exact iff_of_true rfl fun h => nomatch h

/-- An object has nothing to report where its keys are as it wants them and no part is refused. -/
theorem objectErrors_eq_nil {mode : Mode} {common : Common} {path : Path} :
    objectErrors convert mode common shape payload path = [] ↔
      ¬Misfits mode shape payload ∧
      ∀ run ∈ undeclaredRuns convert shape path payload ++
        declaredRuns convert (skips shape mode payload) payload path shape.properties,
        ¬Refused run := by
  have hkeys : ¬Misfits mode shape payload ↔
      forbidden mode common shape payload path = [] ∧ missing mode shape payload = [] ∧
        refusedKeys shape payload = [] := by
    rw [forbidden_eq_nil, missing_eq_nil, refusedKeys_eq_nil]
    unfold Misfits
    push Not
    rfl
  unfold objectErrors
  rw [hkeys, List.forall_mem_append, ← reports_eq_nil, ← reports_eq_nil]
  simp only [List.append_eq_nil_iff, List.map_eq_nil_iff, summary_eq_nil_iff]
  tauto

/-! ## Answers of nodes -/

theorem Hinges.answers {P : Prop} {m : Conversion Value} (h : Hinges P m) (s : ConversionState) :
    Answers False (m s).1 := by
  intro failure hfailure
  by_cases hP : P
  · rw [h.exhausts hP s] at hfailure
    cases hfailure
    exact .inl rfl
  · obtain ⟨here, hs⟩ := h.ends hP s
    rw [hs] at hfailure
    cases here <;> cases hfailure
    exact .inr (.inl ⟨_, rfl⟩)

theorem Settles.answers {P : Prop} {m : Conversion Value}
    (h : Settles P (Conversion.attemptMissing m)) (s : ConversionState) : Answers True (m s).1 := by
  intro failure hfailure
  by_cases hP : P
  · rw [(exhausted_iff h s).2 hP] at hfailure
    cases hfailure
    exact .inl rfl
  · obtain ⟨a, ha⟩ := h.ends hP s
    rw [run_attemptMissing] at ha
    rcases hm : m s with ⟨(errors | _ | _ | _ | _) | value, t⟩ <;> rw [hm] at ha hfailure <;>
      cases hfailure
    · exact .inr (.inl ⟨errors, rfl⟩)
    · exact .inr (.inr ⟨trivial, rfl⟩)
    all_goals cases ha

end Conversion

namespace Shape

open Conversion

variable {ι : Type} {shape : Shape ι} {payload : Json}

/-- Parts of the payload convert, each at a location of its own, and all of them report. -/
def isComposite : Shape ι → Bool
  | array .. | map .. | object _ => true
  | _ => false

/-- The runs of the parts of a payload. -/
def partRuns (convert : Converting ι) (mode : Mode) (payload : Json) (path : Path) :
    Shape ι → List (Except Failure Value)
  | array node .. => itemRuns convert node path 0 (payload.asArr?.getD [])
  | map node _ => entryRuns convert node path (payload.asObj?.getD [])
  | object shape =>
    undeclaredRuns convert shape path (payload.asObj?.getD []) ++
      declaredRuns convert (skips shape mode (payload.asObj?.getD [])) (payload.asObj?.getD [])
        path shape.properties
  | _ => []

/-- What is reported before the checks of the node: what the parts report, and an object has
errors of its own. -/
def composedErrors (convert : Converting ι) (mode : Mode) (common : Common) (payload : Json)
    (path : Path) : Shape ι → List LocatedError
  | object shape => objectErrors convert mode common shape (payload.asObj?.getD []) path
  | shape => reports (shape.partRuns convert mode payload path)

/-- Only objects find fault with the keys of a payload. -/
def Misfits (mode : Mode) (payload : Json) : Shape ι → Prop
  | object shape => Conversion.Misfits mode shape (payload.asObj?.getD [])
  | _ => False

theorem coercion?_of_isComposite (h : shape.isComposite = true) :
    shape.coercion? payload = none := by
  cases shape <;> first | rfl | cases h

theorem isNull_of_isComposite (h : shape.isComposite = true)
    (hadmits : shape.admits payload = true) : payload.isNull = false := by
  cases payload with
  | null => cases shape <;> simp_all [isComposite, admits, Json.isArr, Json.isObj]
  | _ => rfl

/-- There is something to report exactly if a part was refused, or the keys are at fault. -/
theorem composedErrors_ne_nil {convert : Converting ι} {mode : Mode} {common : Common}
    {path : Path} : shape.composedErrors convert mode common payload path ≠ [] ↔
      shape.Misfits mode payload ∨
        ∃ run ∈ shape.partRuns convert mode payload path, Refused run := by
  have hreports : ∀ runs, reports runs ≠ [] ↔ False ∨ ∃ run ∈ runs, Refused run := by
    intro runs
    rw [ne_eq, reports_eq_nil, false_or]
    push Not
    rfl
  cases shape with
  | array node size unique distinctBy => exact hreports _
  | map node size => exact hreports _
  | object shape =>
      refine (not_congr objectErrors_eq_nil).trans ?_
      rw [not_and_or, not_not]
      push Not
      rfl
  | _ => exact hreports []

variable {convert : Converting ι} {known : ι → Prop} {mode : Mode} {common : Common} {path : Path}

/-- The parts of a composite are what it asks about, one after the other. -/
theorem partRuns_eq (hcomposite : shape.isComposite = true) :
    shape.partRuns convert mode payload path =
      (shape.inquiries mode payload).map (partRun convert path) := by
  cases shape with
  | array node size unique distinctBy =>
      show itemRuns _ _ _ _ _ = List.map _ (List.map _ _)
      rw [List.map_map]
      rfl
  | map node size =>
      show entryRuns _ _ _ _ = List.map _ (List.map _ _)
      rw [List.map_map]
      rfl
  | object shape =>
      show undeclaredRuns _ _ _ _ ++ declaredRuns _ _ _ _ _ = List.map _ (_ ++ _)
      rw [List.map_append, undeclaredRuns_eq, declaredRuns_eq]
  | _ => cases hcomposite

/-- What a composite heard from its parts it reports, with its own errors. -/
theorem ruling_of_isComposite (hcomposite : shape.isComposite = true) {replies : List Reply}
    (heard : Heard (fun inquiry result => result = partRun convert path inquiry) false
      (shape.inquiries mode payload) replies) :
    ∃ value, shape.ruling mode common payload path replies =
      collect (shape.composedErrors convert mode common payload path) value := by
  have htold : told replies = reports (shape.partRuns convert mode payload path) := by
    have hall := told_of_heard (fun _ => true) heard
    rwa [List.filter_true, List.filter_true, ← partRuns_eq hcomposite] at hall
  cases shape with
  | array node size unique distinctBy => exact ⟨_, congrArg (collect · _) htold⟩
  | map node size => exact ⟨_, congrArg (collect · _) htold⟩
  | object shape =>
      -- what may lack is a declared property
      have hundeclared := told_of_heard (fun slot => !slot.mayLack) heard
      have hdeclared := told_of_heard Slot.mayLack heard
      change _ = reports (((undeclaredInquiries _ _ ++ declaredInquiries _ _ _).filter _).map _)
        at hundeclared
      change _ = reports (((undeclaredInquiries _ _ ++ declaredInquiries _ _ _).filter _).map _)
        at hdeclared
      rw [filter_undeclared, ← undeclaredRuns_eq] at hundeclared
      rw [filter_declared, ← declaredRuns_eq] at hdeclared
      refine ⟨_, congrArg (collect · _) ?_⟩
      unfold objectComplaints
      rw [hundeclared, hdeclared]
      rfl
  | _ => cases hcomposite

/-- The conversion step of a composite unites its parts. -/
theorem unites (nodes : StandsApart convert known) (mode : Mode) (common : Common)
    (hcomposite : shape.isComposite = true) (hknown : ∀ node ∈ shape.children, known node)
    (payload : Json) (path : Path) :
    Unites (shape.partRuns convert mode payload path)
      (shape.composedErrors convert mode common payload path)
      (result convert mode common shape payload path) := by
  rw [partRuns_eq hcomposite, result_eq]
  refine .of_collect fun s => ?_
  obtain ⟨hstate, hends⟩ := comes_apart nodes hknown mode common payload path s
  generalize (shape.plan mode common payload path).run convert path s = run at hstate hends
  obtain ⟨result, t⟩ := run
  obtain rfl : t = s := hstate
  rcases hends with ⟨hfuel, hresult⟩ | ⟨replies, heard, hresult⟩
  · exact .inl ⟨hfuel, Prod.ext hresult rfl⟩
  · have heager : shape.isEager = false := by cases shape <;> first | rfl | cases hcomposite
    rw [heager] at heard
    obtain ⟨value, hruling⟩ := ruling_of_isComposite hcomposite heard
    rw [hruling] at hresult
    exact .inr ⟨not_exhausted heard, value, Prod.ext hresult rfl⟩

end Shape

/-! ## Graphs -/

namespace Graph

open Conversion

variable {graph : Graph} {mode : Mode} {fuel : Nat}

theorem standsApart (h : graph.IsDirect) (mode : Mode) (fuel : Nat) :
    StandsApart (graph.convertWithin mode fuel) (· < graph.length) := by
  constructor
  · -- from any state the run is the one at the root, moved to the location
    intro node input path s
    have hmoves := (convertWithin_moves h mode path fuel).follows node input .root (.start none)
    rw [Path.under_root] at hmoves
    unfold apart
    rw [hmoves s, hmoves (.start none)]
  · intro node hnode input path
    have rules := rulesWithin h mode fuel
    cases input with
    | none => exact ((rules.missing hnode none path).answers _).mono fun _ => rfl
    | some payload => exact ((rules.present hnode payload path).answers _).mono False.elim

/-- A node whose parts fail fails, with the same errors. -/
theorem convertWithin_of_result {id : NodeId} {common : Common} {shape : Shape}
    (hnode : graph.get? id = some (.typed common shape)) (hcomposite : shape.isComposite = true)
    {payload : Json} (hadmits : shape.admits payload = true) {path : Path}
    {s t : ConversionState} {failure : Failure}
    (h : result (graph.convertWithin mode fuel) mode common shape payload path s =
      (.error failure, t)) :
    graph.convertWithin mode (fuel + 1) id (some payload) path s = (.error failure, t) := by
  have hplan : payloadPlan mode common payload path shape =
      (shape.plan mode common payload path).andThen (approved common shape payload path) :=
    payloadPlan_of_admits (Shape.isNull_of_isComposite hcomposite hadmits)
      (coercedTo_of_none (Shape.coercion?_of_isComposite hcomposite)) hadmits
  have hgiven : shape.given mode.entity (some payload) = some payload := by
    cases shape <;> first | rfl | cases hcomposite
  rw [convertWithin_succ hnode]
  show step _ mode id _ _ path s = _
  rw [step_typed]
  unfold typedPlan judgedPlan
  rw [hgiven]
  show ((payloadPlan mode common payload path shape).andThen _).run _ path s = _
  rw [hplan, Plan.run_andThen, Plan.run_andThen, ← result_eq, run_bind, run_bind, h]

/-- What a list or a map reports is what its parts report, one after the other; an object reports
its excluded keys, its missing ones, what its undeclared keys report, its refused keys and what its
declared properties report. It fails in its conversion step exactly if a part is refused or the
keys are at fault, and so does the node. A part reports what it does by itself, whatever was
converted before. -/
theorem composites_report (h : graph.IsDirect) (mode : Mode) (fuel : Nat) :
    Steady (graph.convertWithin mode fuel) ∧
    ∀ id common shape, graph.get? id = some (.typed common shape) → shape.isComposite = true →
      ∀ payload path,
        Unites (shape.partRuns (graph.convertWithin mode fuel) mode payload path)
          (shape.composedErrors (graph.convertWithin mode fuel) mode common payload path)
          (result (graph.convertWithin mode fuel) mode common shape payload path) ∧
        (shape.composedErrors (graph.convertWithin mode fuel) mode common payload path ≠ [] ↔
          shape.Misfits mode payload ∨
            ∃ run ∈ shape.partRuns (graph.convertWithin mode fuel) mode payload path, Refused run) ∧
        (shape.admits payload = true → ∀ s failure,
          result (graph.convertWithin mode fuel) mode common shape payload path s =
            (.error failure, s) →
          graph.convertWithin mode (fuel + 1) id (some payload) path s = (.error failure, s)) := by
  have nodes := standsApart h mode fuel
  refine ⟨nodes.steady, fun id common shape hnode hcomposite payload path => ⟨?_, ?_, ?_⟩⟩
  · exact Shape.unites nodes mode common hcomposite (known_children hnode) payload path
  · exact Shape.composedErrors_ne_nil
  · exact fun hadmits s failure => convertWithin_of_result hnode hcomposite hadmits

/-- A person has a name, an age and a number of its own that requests must not have. -/
def people : Graph where
  nodes := [
    .typed (.plain .builtIn)
      (.object ⟨[("age", 1), ("id", 1), ("name", 2)], ["name"], [], .deny, ["id"], [], .free⟩),
    .typed (.plain .builtIn) (.integer .free),
    .typed (.plain .builtIn) (.string .free)]
  closed := by
    simp [Node.children, Shape.children, Additional.children]

/-- A person with a number of its own, an age that is a text, a nickname and no name: everything
that is wrong is reported at once. -/
theorem composites_report_people : ∃ found : SchemaErrors,
    people.convertWithin ⟨.request, true⟩ 2 0
      (some (.obj [("id", Json.ofInt 1), ("age", .str "old"), ("nick", .null)])) .root
      (.start none) = (.error (.errors found), .start none) ∧
    found.kinds = [.readOnlyViolation, .requiredMissing, .unexpectedAdditionalProperty,
      .typeMismatch] := by
  have hdirect : people.IsDirect := holds_of_nodes (by simp [people, Node.refers])
  obtain ⟨hunites, -, hnode⟩ := (composites_report hdirect ⟨.request, true⟩ 1).2 0 _ _ rfl rfl
    (.obj [("id", Json.ofInt 1), ("age", .str "old"), ("nick", .null)]) .root
  obtain ⟨found, hfound⟩ := (hunites.fails_iff
    (fun hfuel => nomatch hunites.exhausted hfuel (.start none)) (.start none)).2 fun h => nomatch h
  refine ⟨found, hnode rfl _ _ hfound, ?_⟩
  unfold SchemaErrors.kinds
  rw [hunites.errors_eq hfound]
  rfl

end Graph

end SchemaGraph

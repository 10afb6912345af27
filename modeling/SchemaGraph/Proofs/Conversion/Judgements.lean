import SchemaGraph.Proofs.Conversion.Rulings

set_option autoImplicit false

/-! # Judgements

A node that judges values does so in steps around its shape: a missing value may be replaced,
`null` passes or not, the payload is coerced and must have the right type, the value must pass the
checks, and a text is parsed. All of it is one plan (`typedPlan`), and running the plan is the
conversion step (`step_typed`). So what a node gives was judged by what its parts gave
(`typed_ok`), and every value was made in one of a few ways (`made_of_ruling`).
-/

namespace SchemaGraph

variable {ι : Type}

/-- Errors of the subtypes are dropped. -/
def Shape.swallows : Shape ι → Bool
  | anyOf _ => true
  | oneOf _ => true
  | not _ => true
  | _ => false

def Node.swallows : Node ι → Bool
  | .typed _ shape => shape.swallows
  | _ => false

/-! ## Nodes as plans -/

namespace Shape

/-- What is judged: a text with a format is encoded before. -/
def given (entity : Entity) (input : Option Json) : Shape ι → Option Json
  | text format _ => input.map (format.encoded entity)
  | _ => input

/-- What comes of a value that passed its checks: a text with a format is parsed. -/
def finished (mode : Mode) (common : Common) (path : Path) (shape : Shape ι) (value : Value) :
    Except SchemaErrors Value :=
  match shape, value with
  | .text format _, .string written =>
    match format.finish? mode.entity written with
    | some value => .ok value
    | none => Conversion.refusing common path format.message []
  | _, value => .ok value

end Shape

namespace Conversion

/-- The payload after coercion, or why there is none. -/
def coercedTo (mode : Mode) (common : Common) (shape : Shape ι) (payload : Json) (path : Path) :
    Except SchemaErrors Json :=
  if mode.strict then .ok payload
  else match shape.coercion? payload with
    | none => .ok payload
    | some (_, some cast) => .ok cast
    | some (key, none) => refusing common path key []

/-- A value that passed the checks of its node. -/
def approved (common : Common) (shape : Shape ι) (payload : Json) (path : Path) (value : Value) :
    Except SchemaErrors Value :=
  collect ((violations common shape value payload).map fun violation => violation.located path)
    value

/-- All steps of a node that judges a payload, up to its checks. -/
def payloadPlan (mode : Mode) (common : Common) (payload : Json) (path : Path) (shape : Shape ι) :
    Plan ι :=
  if payload.isNull then
    .settled (if common.nullable then .ok .null else refusing common path .nullable [])
  else match coercedTo mode common shape payload path with
    | .error errors => .settled (.error errors)
    | .ok cast =>
      if shape.admits cast then
        (shape.plan mode common cast path).andThen (approved common shape cast path)
      else .settled (refusing common path shape.typeMessage [])

/-- The same for what may be missing. -/
def judgedPlan (mode : Mode) (common : Common) (shape : Shape ι) (input : Option Json)
    (path : Path) : Option (Plan ι) :=
  (present? mode common input).map fun payload => payloadPlan mode common payload path shape

/-- All steps of a node that judges values. -/
def typedPlan (mode : Mode) (common : Common) (shape : Shape ι) (input : Option Json)
    (path : Path) : Option (Plan ι) :=
  (judgedPlan mode common shape (shape.given mode.entity input) path).map
    fun plan => plan.andThen (shape.finished mode common path)

variable {convert : Converting ι} {mode : Mode} {common : Common} {shape : Shape ι}
  {input : Option Json} {path : Path}

/-- Run a plan, if there is something to judge. -/
def proceed (convert : Converting ι) (path : Path) : Option (Plan ι) → Conversion Value
  | none => fail .undefined
  | some plan => plan.run convert path

theorem coerced_eq (payload : Json) :
    coerced mode common shape payload path = settle (coercedTo mode common shape payload path) := by
  unfold coerced coercedTo
  split
  · rfl
  · rcases shape.coercion? payload with _ | ⟨key, _ | cast⟩ <;> rfl

theorem judged_plan : judged convert mode common shape input path =
    proceed convert path (judgedPlan mode common shape input path) := by
  unfold judged judgedPlan
  cases present? mode common input with
  | none => rfl
  | some payload =>
      dsimp only [Option.map_some, proceed]
      unfold payloadPlan
      split
      · split <;> rfl
      · unfold checked
        rw [coerced_eq]
        cases coercedTo mode common shape payload path with
        | error errors => rfl
        | ok cast =>
            show (if !shape.admits cast then _ else _) = _
            dsimp only
            cases shape.admits cast with
            | false => rfl
            | true =>
                rw [if_pos rfl, Plan.run_andThen, ← result_eq]
                exact bind_congr fun value => failOn_bind _ _

/-- The conversion step of a node that judges values runs its plan. -/
theorem step_typed (self : ι) : step convert mode self (.typed common shape) input path =
    proceed convert path (typedPlan mode common shape input path) := by
  have hsteps : step convert mode self (.typed common shape) input path = (do
      let value ← judged convert mode common shape (shape.given mode.entity input) path
      settle (shape.finished mode common path value)) := by
    cases shape with
    | text format bounds =>
        refine bind_congr fun value => ?_
        unfold parsed Shape.finished
        cases value with
        | string written =>
            dsimp only
            cases format.finish? mode.entity written <;> rfl
        | _ => rfl
    | _ => exact (bind_pure (judged convert mode common _ input path)).symm
  rw [hsteps, judged_plan]
  unfold typedPlan
  cases judgedPlan mode common shape (shape.given mode.entity input) path with
  | none => rfl
  | some plan => exact (plan.run_andThen _).symm

/-! ## What a plan can be -/

/-- What becomes of a payload: `null` passes, it is refused, or the shape rules on it, or on what it
is coerced to. -/
inductive Judges (mode : Mode) (common : Common) (payload : Json) (path : Path) (shape : Shape ι) :
    Plan ι → Prop where
  | null (h : payload.isNull = true) :
      Judges mode common payload path shape (.settled (.ok .null))
  | refuses (key : MessageKey) (args : List String) :
      Judges mode common payload path shape (.settled (refusing common path key args))
  | asks {cast : Json} (there : payload.isNull = false)
      (coerced : coercedTo mode common shape payload path = .ok cast)
      (admits : shape.admits cast = true) :
      Judges mode common payload path shape
        ((shape.plan mode common cast path).andThen (approved common shape cast path))

/-- A refusal to coerce is one error. -/
theorem coercedTo_error {payload : Json} {errors : SchemaErrors}
    (h : coercedTo mode common shape payload path = .error errors) :
    ∃ key, errors = .single (common.error path key []) := by
  unfold coercedTo at h
  split at h
  · cases h
  · split at h <;> cases h
    exact ⟨_, rfl⟩

/-- What is judged is the payload, or what it is coerced to unless the conversion is strict. -/
theorem coercedTo_ok {payload cast : Json}
    (h : coercedTo mode common shape payload path = .ok cast) :
    cast = payload ∨
      mode.strict = false ∧ ∃ key, shape.coercion? payload = some (key, some cast) := by
  unfold coercedTo at h
  split at h
  · cases h
    exact .inl rfl
  · split at h <;> cases h
    · exact .inl rfl
    · exact .inr ⟨Bool.eq_false_iff.2 ‹_›, _, ‹_›⟩

/-- What has its type already, and whatever a node has no type for, is not coerced. -/
theorem coercedTo_of_none {payload : Json} (h : shape.coercion? payload = none) :
    coercedTo mode common shape payload path = .ok payload := by
  unfold coercedTo
  rw [h]
  exact ite_self _

theorem coerced_of_none {payload : Json} (h : shape.coercion? payload = none) :
    coerced mode common shape payload path = pure payload := by
  rw [coerced_eq, coercedTo_of_none h]
  rfl

/-- A payload of the right type is judged by the shape. -/
theorem payloadPlan_of_admits {payload cast : Json} (hnull : payload.isNull = false)
    (hcast : coercedTo mode common shape payload path = .ok cast)
    (hadmits : shape.admits cast = true) : payloadPlan mode common payload path shape =
      (shape.plan mode common cast path).andThen (approved common shape cast path) := by
  unfold payloadPlan
  rw [hnull, hcast]
  exact if_pos hadmits

theorem payloadPlan_judges (payload : Json) :
    Judges mode common payload path shape (payloadPlan mode common payload path shape) := by
  unfold payloadPlan
  split
  · split
    · exact .null ‹_›
    · exact .refuses _ _
  · rename_i hthere
    split
    · rename_i errors herrors
      obtain ⟨key, rfl⟩ := coercedTo_error herrors
      exact .refuses key []
    · split
      · exact .asks (Bool.eq_false_iff.2 hthere) ‹_› ‹_›
      · exact .refuses _ _

/-- What a value was made of. -/
inductive Made (payload : Json) (replies : List Reply) : Shape ι → Value → Prop where
  | same {shape : Shape ι} : Made payload replies shape (Value.ofJson payload)
  | list {node : ι} {size : CountBounds} {unique : Bool} {distinctBy : Option (List String)}
      (h : told replies = []) :
      Made payload replies (.array node size unique distinctBy) (.array (held replies))
  | map {node : ι} {size : CountBounds} (h : told replies = []) :
      Made payload replies (.map node size) (.map (heldAt .additional replies))
  | object {shape : ObjectShape ι} :
      Made payload replies (.object shape)
        (.object (sorted shape (payload.asObj?.getD []) replies))
  | merged {subtypes : List ι} :
      Made payload replies (.allOf subtypes)
        (Value.merge ((accepted (outcomes replies)).map Prod.snd))
  | passed {shape : Shape ι} {value : Value}
      (h : ∃ reply ∈ replies, reply.slot.isHanded = true ∧ reply.value? = some value) :
      Made payload replies shape value

theorem collect_ok {errors : List LocatedError} {value value' : Value}
    (h : collect errors value = .ok value') : errors = [] ∧ value' = value := by
  cases errors with
  | nil =>
      cases h
      exact ⟨rfl, rfl⟩
  | cons first rest => cases h

section

variable {shape : ObjectShape ι} {payload : Json} {replies : List Reply} {value : Value}

/-- Where an object converts, it was told no errors, and nothing is wrong with its keys: none is
refused or excluded, and no required one is missing. -/
structure Sorts (mode : Mode) (shape : ObjectShape ι) (payload : Json) (replies : List Reply)
    (value : Value) : Prop where
  value : value = .object (sorted shape (payload.asObj?.getD []) replies)
  told : told replies = []
  refused : refusedKeys shape (payload.asObj?.getD []) = []
  skipping : ∀ key, skips shape mode (payload.asObj?.getD []) key =
    (shape.excludedFrom mode.entity).contains key
  permitted : ∀ key ∈ shape.excludedFrom mode.entity, key ∉ (payload.asObj?.getD []).map Prod.fst

theorem object_ok
    (h : (Shape.object shape).ruling mode common payload path replies = .ok value) :
    Sorts mode shape payload replies value := by
  obtain ⟨hnone, rfl⟩ := collect_ok h
  obtain ⟨htold, hrefused, hmissing, hforbidden⟩ := of_objectComplaints_eq_nil hnone
  refine ⟨rfl, htold, hrefused, fun key => ?_, forbidden_eq_nil.1 hforbidden⟩
  rw [skips_eq, hmissing]
  rfl

/-- A key that is there is not skipped. -/
theorem Sorts.kept (h : Sorts mode shape payload replies value) {key : String}
    (hkey : key ∈ (payload.asObj?.getD []).map Prod.fst) :
    skips shape mode (payload.asObj?.getD []) key = false := by
  rw [h.skipping]
  exact Bool.eq_false_iff.2 fun hexcluded =>
    h.permitted key (List.contains_iff_mem.1 hexcluded) hkey

end

/-- A subtype that accepted gave its value in a reply. -/
theorem reply_of_accepted {replies : List Reply} {value : Value}
    (h : value ∈ (accepted (outcomes replies)).map Prod.snd) :
    ∃ reply ∈ replies, reply.slot.isHanded = true ∧ reply.value? = some value := by
  obtain ⟨⟨index, _⟩, haccepted, rfl⟩ := List.mem_map.1 h
  obtain ⟨⟨_, outcome⟩, houtcome, hvalue⟩ := List.mem_filterMap.1 haccepted
  obtain ⟨⟨slot, answer⟩, hreply, hgiven⟩ := List.mem_filterMap.1 houtcome
  cases outcome with
  | error errors => cases hvalue
  | ok value =>
      cases hvalue
      refine ⟨_, hreply, ?_⟩
      split at hgiven <;> cases hgiven
      rename_i heq
      cases heq
      exact ⟨rfl, rfl⟩

/-- How a value came about. -/
theorem made_of_ruling {payload : Json} {replies : List Reply} {value : Value}
    (h : shape.ruling mode common payload path replies = .ok value) :
    Made payload replies shape value := by
  cases shape with
  | integer bounds =>
      dsimp only [Shape.ruling] at h
      split at h <;> cases h
      rename_i hvalue
      rw [← hvalue]
      exact .same
  | array node size unique distinctBy =>
      obtain ⟨htold, rfl⟩ := collect_ok h
      exact .list htold
  | map node size =>
      obtain ⟨htold, rfl⟩ := collect_ok h
      exact .map htold
  | object shape =>
      obtain ⟨-, rfl⟩ := collect_ok h
      exact .object
  | discriminated property mapping =>
      dsimp only [Shape.ruling] at h
      split at h
      · cases h
        exact .passed ⟨_, List.mem_cons_self, rfl, rfl⟩
      · cases h
      · split at h <;> cases h
  | allOf subtypes =>
      dsimp only [Shape.ruling] at h
      split at h <;> cases h
      exact .merged
  | anyOf subtypes =>
      dsimp only [Shape.ruling] at h
      split at h <;> cases h
      rename_i haccepted
      exact .passed (reply_of_accepted (by rw [haccepted]; exact List.mem_cons_self))
  | oneOf subtypes =>
      dsimp only [Shape.ruling] at h
      split at h <;> cases h
      rename_i haccepted
      exact .passed (reply_of_accepted (by rw [haccepted]; exact List.mem_cons_self))
  | not subtypes =>
      dsimp only [Shape.ruling] at h
      split at h <;> cases h
      exact .same
  | _ =>
      cases h
      exact .same

theorem present?_given : present? mode common (shape.given mode.entity input) = none ↔
    present? mode common input = none := by
  cases input with
  | some payload => cases shape <;> exact iff_of_false (fun h => nomatch h) (fun h => nomatch h)
  | none => cases shape <;> exact Iff.rfl

/-- There is nothing to judge where nothing is there. -/
theorem typedPlan_eq_none : typedPlan mode common shape input path = none ↔
    present? mode common input = none := by
  unfold typedPlan judgedPlan
  rw [Option.map_eq_none_iff, Option.map_eq_none_iff]
  exact present?_given

/-- About a payload of the right type everything is asked, about another one nothing. -/
theorem asked_of_payloadPlan (payload : Json) :
    (payloadPlan mode common payload path shape).inquiries =
      if payload.isNull = false ∧ shape.admits payload = true then shape.inquiries mode payload
      else [] := by
  unfold payloadPlan
  by_cases hnull : payload.isNull = true
  · have hno : ¬(payload.isNull = false ∧ shape.admits payload = true) :=
      fun h => Bool.false_ne_true (h.1.symm.trans hnull)
    rw [if_pos hnull, if_neg hno]
    rfl
  · rw [if_neg hnull]
    cases hcoercion : shape.coercion? payload with
    | none =>
        rw [coercedTo_of_none hcoercion]
        dsimp only
        by_cases hadmits : shape.admits payload = true
        · rw [if_pos hadmits, if_pos ⟨Bool.eq_false_iff.2 hnull, hadmits⟩]
          rfl
        · rw [if_neg hadmits, if_neg fun h => hadmits h.2]
          rfl
    | some cast =>
        -- what may be coerced has no parts
        have hnone : ∀ mode payload, shape.inquiries mode payload = [] := by
          cases shape <;> first | exact fun _ _ => rfl | cases hcoercion
        rw [hnone, ite_self]
        cases coercedTo mode common shape payload path with
        | error errors => rfl
        | ok cast =>
            dsimp only
            split
            · exact hnone _ _
            · rfl

/-- So is it by a node that judges what it is given. -/
theorem asked_of_typedPlan {plan : Plan ι} {payload : Json}
    (hplan : typedPlan mode common shape input path = some plan)
    (hpresent : present? mode common input = some payload) :
    plan.inquiries = if payload.isNull = false ∧ shape.admits payload = true then
      shape.inquiries mode payload else [] := by
  unfold typedPlan judgedPlan at hplan
  cases hgiven : present? mode common (shape.given mode.entity input) with
  | none =>
      rw [hgiven] at hplan
      cases hplan
  | some given =>
      rw [hgiven] at hplan
      cases hplan
      refine (asked_of_payloadPlan given).trans ?_
      cases shape with
      | text format bounds => exact (ite_self []).trans (ite_self []).symm
      | _ =>
          cases hgiven.symm.trans hpresent
          rfl

/-- What a node asks is what its shape asks about a payload of the right type. -/
theorem mem_of_typedPlan {plan : Plan ι}
    (hplan : typedPlan mode common shape input path = some plan)
    {inquiry : Inquiry ι} (h : inquiry ∈ plan.inquiries) :
    ∃ payload, present? mode common input = some payload ∧ payload.isNull = false ∧
      shape.admits payload = true ∧ inquiry ∈ shape.inquiries mode payload := by
  cases hpresent : present? mode common input with
  | none =>
      rw [typedPlan_eq_none.2 hpresent] at hplan
      cases hplan
  | some payload =>
      rw [asked_of_typedPlan hplan hpresent] at h
      split at h
      · exact ⟨payload, rfl, ‹_ ∧ _›.1, ‹_ ∧ _›.2, h⟩
      · cases h

/-- The plan of a node is as eager as its shape, unless nothing is asked. -/
theorem isEager_of_typedPlan {plan : Plan ι}
    (hplan : typedPlan mode common shape input path = some plan) :
    plan.inquiries = [] ∨ plan.isEager = shape.isEager := by
  unfold typedPlan judgedPlan at hplan
  cases hpresent : present? mode common (shape.given mode.entity input) with
  | none =>
      rw [hpresent] at hplan
      cases hplan
  | some payload =>
      rw [hpresent] at hplan
      cases hplan
      have hjudges : Judges mode common payload path shape
        (payloadPlan mode common payload path shape) := payloadPlan_judges payload
      show (payloadPlan mode common payload path shape).inquiries = [] ∨
        (payloadPlan mode common payload path shape).isEager = shape.isEager
      generalize payloadPlan mode common payload path shape = inner at hjudges
      cases hjudges with
      | null | refuses => exact .inl rfl
      | asks => exact .inr rfl

/-- Related states stand before and after a node that judges values if they do around its calls. -/
theorem keeps_typed {R : ConversionState → ConversionState → Prop} (comp : Composes R)
    (h : ∀ {payload node given place}, present? mode common input = some payload →
      shape.Calls payload path node given place → Keeps R (convert node given place)) (self : ι) :
    Keeps R (step convert mode self (.typed common shape) input path) := by
  rw [step_typed]
  cases hplan : typedPlan mode common shape input path with
  | none => exact comp.throw _
  | some plan =>
      refine keeps_plan comp fun inquiry hinquiry => ?_
      obtain ⟨payload, hpresent, -, -, hmem⟩ := mem_of_typedPlan hplan hinquiry
      exact h hpresent (Shape.calls_of_mem hmem path)

/-- A node that has something to judge is not without an answer, if the nodes it asks are not. -/
theorem typed_there {payload : Json} (hpresent : present? mode common input = some payload)
    (h : ∀ {node item place}, shape.Calls payload path node (some item) place →
      ∀ s, (convert node (some item) place s).1 ≠ .error .undefined)
    (self : ι) (s : ConversionState) :
    (step convert mode self (.typed common shape) input path s).1 ≠ .error .undefined := by
  rw [step_typed]
  cases hplan : typedPlan mode common shape input path with
  | none => cases hpresent.symm.trans (typedPlan_eq_none.1 hplan)
  | some plan =>
      intro hmissing
      obtain ⟨inquiry, hinquiry, ⟨t, hanswer⟩, hstray⟩ := (comes_of_run plan s).stray hmissing
      obtain ⟨_, hpayload, -, -, hmem⟩ := mem_of_typedPlan hplan hinquiry
      cases hpresent.symm.trans hpayload
      have hslot : (!inquiry.slot.mayLack) = true := hstray
      obtain ⟨item, hitem⟩ := Shape.exists_input hmem (by simpa using hslot)
      have hcall := Shape.calls_of_mem hmem path
      unfold Inquiry.part at hanswer
      rw [hitem] at hcall hanswer
      exact h hcall t hanswer

/-! ## What a node gives -/

/-- A node that drops no errors comes to a value where there are none. -/
theorem told_of_ruling {answers : Inquiry ι → Except Failure Value → Prop} {payload : Json}
    {replies : List Reply} {value : Value} (hswallows : shape.swallows = false)
    (heard : Heard answers shape.isEager (shape.inquiries mode payload) replies)
    (h : shape.ruling mode common payload path replies = .ok value) : told replies = [] := by
  cases shape with
  | array node size unique distinctBy => exact (collect_ok h).1
  | map node size => exact (collect_ok h).1
  | object shape => exact (object_ok h).told
  | discriminated property mapping =>
      change Heard answers false ((selected property mapping payload).toList.map fun node =>
        ⟨.whole, node, some payload⟩) replies at heard
      generalize selected property mapping payload = found at heard
      cases found with
      | none =>
          cases heard
          rfl
      | some node =>
          rcases heard with _ | ⟨_, hstops⟩ | ⟨hhere, _, _ | _ | _⟩
          · cases hstops
          · cases hhere with
            | errors => cases h
            | value | nothing => rfl
  | allOf subtypes =>
      rw [told_eq_errorsOf (subtype_of_heard heard)]
      dsimp only [Shape.ruling] at h
      split at h
      · rename_i hnone
        rw [hnone]
        rfl
      · cases h
  | anyOf | oneOf | not => cases hswallows
  | _ =>
      cases heard
      rfl

/-- How a node that judges values comes to one: it passes `null`, or its shape rules on what it
heard, the checks of the node approve, and the value is finished. -/
inductive Judgement (answers : Inquiry ι → Except Failure Value → Prop) (mode : Mode)
    (common : Common) (shape : Shape ι) (payload : Json) (path : Path) :
    List Reply → Value → Prop where
  | null (h : payload.isNull = true) : Judgement answers mode common shape payload path [] .null
  | made {cast : Json} {replies : List Reply} {made value : Value} (there : payload.isNull = false)
      (coerced : coercedTo mode common shape payload path = .ok cast)
      (admits : shape.admits cast = true)
      (heard : Heard answers shape.isEager (shape.inquiries mode cast) replies)
      (ruled : shape.ruling mode common cast path replies = .ok made)
      (approved : violations common shape made cast = [])
      (finished : shape.finished mode common path made = .ok value) :
      Judgement answers mode common shape payload path replies value

theorem exists_of_bind_ok {α β : Type} {x : Except SchemaErrors α} {f : α → Except SchemaErrors β}
    {b : β} (h : x.bind f = .ok b) : ∃ a, x = .ok a ∧ f a = .ok b := by
  cases x with
  | ok a => exact ⟨a, rfl, h⟩
  | error errors => cases h

/-- What the plan of a node comes to is judged. -/
theorem judgement_of_ruling {answers : Inquiry ι → Except Failure Value → Prop} {plan : Plan ι}
    (hplan : typedPlan mode common shape input path = some plan) {replies : List Reply}
    {value : Value} (heard : Heard answers plan.isEager plan.inquiries replies)
    (hruling : plan.ruling replies = .ok value) :
    ∃ payload, present? mode common (shape.given mode.entity input) = some payload ∧
      Judgement answers mode common shape payload path replies value := by
  unfold typedPlan judgedPlan at hplan
  cases hpresent : present? mode common (shape.given mode.entity input) with
  | none =>
      rw [hpresent] at hplan
      cases hplan
  | some payload =>
      rw [hpresent] at hplan
      cases hplan
      refine ⟨payload, rfl, ?_⟩
      obtain ⟨passed, hpassed, finished⟩ := exists_of_bind_ok hruling
      have hjudges : Judges mode common payload path shape
        (payloadPlan mode common payload path shape) := payloadPlan_judges payload
      change Heard answers (payloadPlan mode common payload path shape).isEager
        (payloadPlan mode common payload path shape).inquiries replies at heard
      change (payloadPlan mode common payload path shape).ruling replies = .ok passed at hpassed
      generalize payloadPlan mode common payload path shape = inner at hpassed hjudges heard
      cases hjudges with
      | null hnull =>
          cases hpassed
          cases heard
          have hvalue : shape.finished mode common path .null = .ok .null := by cases shape <;> rfl
          cases hvalue.symm.trans finished
          exact .null hnull
      | refuses => cases hpassed
      | @asks cast hthere hcast hadmits =>
          obtain ⟨made, hruled, happroved⟩ := exists_of_bind_ok hpassed
          obtain ⟨hnone, rfl⟩ := collect_ok happroved
          exact .made hthere hcast hadmits heard hruled (List.map_eq_nil_iff.1 hnone) finished

/-- What a node that judges values gives is judged by what its parts gave. -/
theorem typed_ok {self : ι} {s : ConversionState} {value : Value}
    (h : (step convert mode self (.typed common shape) input path s).1 = .ok value) :
    ∃ payload replies, present? mode common (shape.given mode.entity input) = some payload ∧
      Judgement (Said convert path) mode common shape payload path replies value := by
  rw [step_typed] at h
  cases hplan : typedPlan mode common shape input path with
  | none =>
      rw [hplan] at h
      cases h
  | some plan =>
      rw [hplan] at h
      obtain ⟨replies, heard, hruling⟩ := (comes_of_run plan s).ok h
      obtain ⟨payload, hpresent, hjudgement⟩ := judgement_of_ruling hplan heard hruling
      exact ⟨payload, replies, hpresent, hjudgement⟩

/-- A node that drops no errors was told none. -/
theorem told_of_judgement {answers : Inquiry ι → Except Failure Value → Prop} {payload : Json}
    {replies : List Reply} {value : Value} (hswallows : shape.swallows = false)
    (h : Judgement answers mode common shape payload path replies value) : told replies = [] := by
  cases h with
  | null => rfl
  | made _ _ _ heard ruled => exact told_of_ruling hswallows heard ruled

/-- Only a text is finished. -/
theorem finished_ok {made value : Value} (h : shape.finished mode common path made = .ok value) :
    value = made ∨ ∃ (format : TextFormat) (text : String),
      format.finish? mode.entity text = some value := by
  unfold Shape.finished at h
  split at h
  · split at h
    · cases h
      exact .inr ⟨_, _, ‹_›⟩
    · cases h
  · cases h
    exact .inl rfl

end Conversion

end SchemaGraph

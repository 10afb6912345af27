import SchemaGraph.Proofs.Conversion.Contract

set_option autoImplicit false

/-! # Lenient conversions

A coercion leaves alone what has the right type already (`Shape.coercion?_of_admits`). So what a
strict conversion accepts, a lenient one accepts too, and comes to the same value: each part that
a strict conversion went through with is gone through in the same way, and after it the two see
the same.

The argument needs that parts which refuse do so for the whole. `anyOf`, `oneOf` and `not` drop
the errors of their subtypes, and there a subtype that starts to accept changes the result.
-/

namespace SchemaGraph

/-- Coercions are for payloads of another type. -/
theorem Shape.coercion?_of_admits {ι : Type} {shape : Shape ι} {payload : Json}
    (h : shape.admits payload = true) : shape.coercion? payload = none := by
  cases shape <;> simp_all [admits, coercion?]

namespace Conversion

variable {α β ι : Type}

/-! ## Good runs -/

/-- Whenever the first comes to something good, the second does exactly the same. -/
def Confirms (good : α → Prop) (m m' : Conversion α) : Prop :=
  ∀ s a t, m s = (.ok a, t) → good a → m' s = (.ok a, t)

/-- Everything is good. -/
def Any (_ : α) : Prop := True

namespace Confirms

variable {good : α → Prop} {good' : β → Prop} {m m' : Conversion α}

theorem refl (m : Conversion α) : Confirms good m m := fun _ _ _ h _ => h

theorem fail (failure : Failure) (m' : Conversion α) :
    Confirms good (Conversion.fail failure) m' := by
  intro s a t h
  cases h

/-- What comes to something good had a good start. -/
theorem bind {f f' : α → Conversion β} (hm : Confirms good m m')
    (hf : ∀ a, Confirms good' (f a) (f' a))
    (hstart : ∀ {r a s b t}, m r = (.ok a, s) → f a s = (.ok b, t) → good' b → good a) :
    Confirms good' (m >>= f) (m' >>= f') := by
  intro s b u h hb
  obtain ⟨a, t, ha, hrest⟩ := bind_ok h
  rw [run_bind_of_ok (hm s a t ha (hstart ha hrest hb))]
  exact hf a t b u hrest hb

end Confirms

/-- Also if there is no value, the second agrees. -/
structure Vouches (m m' : Conversion Value) : Prop where
  value : Confirms Any m m'
  missing : ∀ s t, m s = (.error .undefined, t) → m' s = (.error .undefined, t)

theorem Vouches.refl (m : Conversion Value) : Vouches m m := ⟨.refl m, fun _ _ => id⟩

/-- Whatever the nodes are given, the second conversion agrees with what the first comes to. -/
def VouchesNodes (convert convert' : Converting ι) : Prop :=
  ∀ node input path, Vouches (convert node input path) (convert' node input path)

variable {convert convert' : Converting ι} {path : Path}

/-! ## Parts -/

/-- What is answered without errors is answered alike. -/
theorem inquire_confirms (nodes : VouchesNodes convert convert') (inquiry : Inquiry ι) :
    Confirms (fun reply => reply.errors = []) (inquire convert path inquiry)
      (inquire convert' path inquiry) := by
  intro s reply t hrun hclean
  have hpart : Vouches (inquiry.part convert path) (inquiry.part convert' path) :=
    nodes inquiry.node inquiry.input (inquiry.slot.location path)
  rw [run_inquire] at hrun ⊢
  rcases hanswer : inquiry.part convert path s with ⟨(errors | _ | _ | _ | _) | value, u⟩ <;>
    rw [hanswer] at hrun
  case error.errors =>
    cases hrun
    cases hclean
  case error.undefined =>
    rw [hpart.missing s u hanswer]
    exact hrun
  case ok =>
    rw [hpart.value s value u hanswer trivial]
    exact hrun
  all_goals cases hrun

theorem inquireAll_confirms (nodes : VouchesNodes convert convert') (isEager : Bool) :
    ∀ inquiries : List (Inquiry ι), Confirms (fun replies => told replies = [])
      (inquireAll convert path isEager inquiries) (inquireAll convert' path isEager inquiries)
  | [] => .refl _
  | first :: rest => by
      refine (inquire_confirms nodes first).bind (fun here => ?_) ?_
      · split
        · exact .refl _
        · refine (inquireAll_confirms nodes isEager rest).bind (fun more => .refl _) ?_
          intro r more s replies t _ hput hnone
          obtain ⟨rfl, -⟩ := pure_ok hput
          exact (List.append_eq_nil_iff.1 hnone).2
      · intro r here s replies t _ hrest hnone
        split at hrest
        · obtain ⟨rfl, -⟩ := pure_ok hrest
          exact (List.append_eq_nil_iff.1 hnone).1
        · obtain ⟨more, u, -, hput⟩ := bind_ok hrest
          obtain ⟨rfl, -⟩ := pure_ok hput
          exact (List.append_eq_nil_iff.1 hnone).1

/-- A plan that comes to a value where it is told no errors does so with both. -/
theorem plan_confirms (nodes : VouchesNodes convert convert') {plan : Plan ι}
    (hclean : ∀ {replies value}, Heard (Said convert path) plan.isEager plan.inquiries replies →
      plan.ruling replies = .ok value → told replies = []) :
    Confirms Any (plan.run convert path) (plan.run convert' path) := by
  refine (inquireAll_confirms nodes plan.isEager plan.inquiries).bind (fun replies => .refl _) ?_
  intro r replies s value t hreplies hsettled _
  have hruled : plan.ruling replies = .ok value := by
    rw [run_settle] at hsettled
    generalize plan.ruling replies = ruled at hsettled
    cases ruled <;> cases hsettled
    rfl
  exact hclean (heard_of_inquireAll hreplies) hruled

/-! ## Nodes -/

/-- What passes the type check is not coerced, and only the entity decides about the parts. -/
theorem payloadPlan_lenient {entity : Entity} {common : Common} {shape : Shape ι} {payload : Json}
    (hadmits : shape.admits payload = true) :
    payloadPlan ⟨entity, false⟩ common payload path shape =
      payloadPlan ⟨entity, true⟩ common payload path shape := by
  unfold payloadPlan
  rw [coercedTo_of_none (Shape.coercion?_of_admits hadmits)]
  cases shape <;> rfl

/-- What a strict node does not refuse at once, a lenient one does in the same way. -/
theorem typedPlan_lenient {entity : Entity} {common : Common} {shape : Shape ι}
    {input : Option Json} {plan : Plan ι}
    (hplan : typedPlan ⟨entity, true⟩ common shape input path = some plan) :
    typedPlan ⟨entity, false⟩ common shape input path = some plan ∨
      ∀ replies value, plan.ruling replies ≠ .ok value := by
  have hpresent : present? ⟨entity, false⟩ common (shape.given entity input) =
      present? ⟨entity, true⟩ common (shape.given entity input) := by
    cases shape.given entity input <;> rfl
  have hfinished : shape.finished ⟨entity, false⟩ common path =
      shape.finished ⟨entity, true⟩ common path := by
    cases shape <;> rfl
  unfold typedPlan judgedPlan at hplan ⊢
  rw [hpresent, hfinished]
  dsimp only at hplan ⊢
  generalize present? ⟨entity, true⟩ common (shape.given entity input) = given at hplan ⊢
  cases given with
  | none => cases hplan
  | some payload =>
      cases hplan
      by_cases hnull : payload.isNull = true
      · left
        unfold payloadPlan
        simp only [Option.map_some, if_pos hnull]
      · cases hadmits : shape.admits payload with
        | true =>
            left
            simp only [Option.map_some, payloadPlan_lenient hadmits]
        | false =>
            right
            intro replies value hruled
            unfold payloadPlan coercedTo at hruled
            simp [hnull, hadmits] at hruled
            cases hruled

/-- A node that follows no references and drops no errors vouches for what its children do. -/
theorem step_vouches (nodes : VouchesNodes convert convert') (home : MovesNodes .root convert)
    (entity : Entity) (self : ι) {node : Node ι} (hdirect : node.refers = false)
    (hkeeps : node.swallows = false) (input : Option Json) (path : Path) :
    Vouches (step convert ⟨entity, true⟩ self node input path)
      (step convert' ⟨entity, false⟩ self node input path) := by
  cases node with
  | forward target => exact nodes target input path
  | reference messages target => cases hdirect
  | typed common shape =>
      cases hpresent : present? ⟨entity, true⟩ common input with
      | none =>
          have hnothing : present? ⟨entity, false⟩ common input = none := by
            rw [← hpresent]
            cases input <;> rfl
          rw [step_typed, step_typed, typedPlan_eq_none.2 hpresent, typedPlan_eq_none.2 hnothing]
          exact .refl _
      | some payload =>
          -- what is there is never missing
          have hthere : ∀ s,
              (step convert ⟨entity, true⟩ self (.typed common shape) input path s).1 ≠
                .error .undefined :=
            typed_there hpresent (fun _ => home.there _ _ _) self
          refine ⟨?_, fun s t h => absurd (congrArg Prod.fst h) (hthere s)⟩
          rw [step_typed, step_typed]
          cases hplan : typedPlan ⟨entity, true⟩ common shape input path with
          | none => exact .fail _ _
          | some plan =>
              rcases typedPlan_lenient hplan with hsame | hrefused
              · rw [hsame]
                refine plan_confirms nodes fun heard hruled => ?_
                obtain ⟨payload, -, hjudgement⟩ := judgement_of_ruling hplan heard hruled
                exact told_of_judgement hkeeps hjudgement
              · intro s value t hrun
                obtain ⟨replies, -, hruled⟩ := (comes_of_run plan s).ok (congrArg Prod.fst hrun)
                exact absurd hruled (hrefused replies value)

end Conversion

/-! ## Graphs -/

namespace Graph

variable {graph : Graph}

theorem convertWithin_vouches (hdirect : graph.IsDirect)
    (hkeeps : ∀ id node, graph.get? id = some node → node.swallows = false) (entity : Entity)
    (fuel : Nat) : Conversion.VouchesNodes (graph.convertWithin ⟨entity, true⟩ fuel)
      (graph.convertWithin ⟨entity, false⟩ fuel) := by
  induction fuel with
  | zero =>
      intro id input path
      exact ⟨.fail _ _, fun s t h => by cases h⟩
  | succ fuel ih =>
      intro id input path
      cases hnode : graph.get? id with
      | none =>
          unfold convertWithin
          rw [hnode]
          exact ⟨.fail _ _, fun s t h => by cases h⟩
      | some node =>
          rw [convertWithin_succ hnode, convertWithin_succ hnode]
          exact Conversion.step_vouches ih (convertWithin_moves hdirect _ .root fuel) entity id
            (hdirect id node hnode) (hkeeps id node hnode) input path

/-- Lenient conversions are conservative: where nothing drops errors and no node follows references,
they come to the same value as strict ones that come to a value, and to none as strict ones that
come to none. -/
theorem lenient_of_strict (hdirect : graph.IsDirect)
    (hkeeps : ∀ id node, graph.get? id = some node → node.swallows = false) (entity : Entity)
    (fuel : Nat) (entry : NodeId) (input : Option Json) (path : Path)
    (resolver : Option Resolver) :
    (∀ result,
      (graph.convertAt fuel entry input path ⟨entity, true⟩ resolver).1 = .converted result →
        (graph.convertAt fuel entry input path ⟨entity, false⟩ resolver).1 = .converted result) ∧
    ((graph.convertAt fuel entry input path ⟨entity, true⟩ resolver).1 = .nothing →
      (graph.convertAt fuel entry input path ⟨entity, false⟩ resolver).1 = .nothing) := by
  have hvouches := convertWithin_vouches hdirect hkeeps entity fuel entry input path
  unfold convertAt
  rcases hrun : graph.convertWithin ⟨entity, true⟩ fuel entry input path (.start resolver) with
    ⟨(_ | _ | _ | _ | _) | value, t⟩
  case error.undefined =>
    rw [hvouches.missing _ t hrun]
    exact ⟨fun result h => (nomatch h), fun _ => rfl⟩
  case ok =>
    rw [hvouches.value _ value t hrun trivial]
    exact ⟨fun result h => h, fun h => (nomatch h)⟩
  all_goals exact ⟨fun result h => (nomatch h), fun h => (nomatch h)⟩

/-- Objects with an age, which is an integer. -/
def aged : Graph where
  nodes := [
    .typed (.plain .builtIn) (.object ⟨[("age", 1)], ["age"], [], .deny, [], [], .free⟩),
    .typed (.plain .builtIn) (.integer .free)]
  closed := by
    simp [Node.children, Shape.children, Additional.children]

/-- An age that is a number has the same value to both; one that is a text is only read
leniently. -/
theorem lenient_of_strict_age :
    (∃ result,
      (aged.convertAt 2 0 (some (.obj [("age", Json.ofInt 3)])) .root ⟨.request, true⟩ none).1 =
        .converted result ∧
      (aged.convertAt 2 0 (some (.obj [("age", Json.ofInt 3)])) .root ⟨.request, false⟩ none).1 =
        .converted result) ∧
    (aged.convertAt 2 0 (some (.obj [("age", .str "3")])) .root ⟨.request, true⟩
      none).1.isFailed = true ∧
    (aged.convertAt 2 0 (some (.obj [("age", .str "3")])) .root ⟨.request, false⟩
      none).1.isConverted = true := by
  have hdirect : aged.IsDirect := holds_of_nodes (by simp [aged, Node.refers])
  have hkeeps : ∀ id node, aged.get? id = some node → node.swallows = false :=
    holds_of_nodes (by simp [aged, Node.swallows, Shape.swallows])
  refine ⟨?_, rfl, rfl⟩
  obtain ⟨result, hresult⟩ := Outcome.exists_of_isConverted (show
    (aged.convertAt 2 0 (some (.obj [("age", Json.ofInt 3)])) .root ⟨.request, true⟩
      none).1.isConverted = true from rfl)
  refine ⟨result, hresult, ?_⟩
  exact (lenient_of_strict hdirect hkeeps .request 2 0 _ .root none).1 result hresult

end Graph

end SchemaGraph

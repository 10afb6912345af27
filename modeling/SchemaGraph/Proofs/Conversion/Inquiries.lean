import Mathlib.Data.List.Forall2
import SchemaGraph.Conversion.Run
import SchemaGraph.Proofs.Buckets
import SchemaGraph.Proofs.Run

set_option autoImplicit false

/-! # What a conversion step asks

A node that judges values asks other nodes about parts of its payload, or about the payload as a
whole, one after the other, and rules by what they answered (`Plan`). An eager one goes no further
than the first value.

A property of everything that is asked needs one induction, over the inquiries, whatever the parts
are. `Brings.run` is that induction for what runs give: what is known of every answer is known of
all the replies that the ruling is about (`Heard`).
-/

namespace SchemaGraph

/-- What an answer is for. -/
inductive Slot where
  | item (index : Nat)
  /-- The value under a key, and the bucket it goes to. -/
  | property (place : Buckets.Place) (key : String)
  | subtype (index : Nat)
  /-- The value itself. -/
  | whole
  deriving DecidableEq

namespace Slot

/-- Where a question is asked, given where the payload stands. -/
def location (path : Path) : Slot → Path
  | item index => path.item index
  | property _ key => path.child key
  | subtype index => path.item index
  | whole => path

/-- Only a declared property may come to no value. -/
def mayLack : Slot → Bool
  | property .declared _ => true
  | _ => false

end Slot

/-- A question to a node. -/
structure Inquiry (ι : Type := NodeId) where
  slot : Slot
  node : ι
  input : Option Json

/-- The part of a conversion that answers a question. -/
def Inquiry.part {ι : Type} (inquiry : Inquiry ι) (convert : Converting ι) (path : Path) :
    Conversion Value :=
  convert inquiry.node inquiry.input (inquiry.slot.location path)

/-- An answer: a value, no value where one may be missing, or errors. -/
structure Reply where
  slot : Slot
  answer : Except SchemaErrors (Option Value)

namespace Reply

def value? (reply : Reply) : Option Value :=
  match reply.answer with
  | .ok value => value
  | .error _ => none

def errors (reply : Reply) : List LocatedError :=
  match reply.answer with
  | .ok _ => []
  | .error errors => errors.toList

end Reply

/-- A failure that is no answer. -/
def Failure.isStray (slot : Slot) : Failure → Bool
  | errors _ => false
  | undefined => !slot.mayLack
  | _ => true

namespace Conversion

variable {α ι : Type} {convert : Converting ι} {path : Path} {isEager : Bool}

/-! ## Asking -/

/-- Ask one node. -/
def inquire (convert : Converting ι) (path : Path) (inquiry : Inquiry ι) : Conversion Reply :=
  if inquiry.slot.mayLack then do
    let answer ← attemptMissing (inquiry.part convert path)
    pure ⟨inquiry.slot, answer⟩
  else do
    let answer ← attempt (inquiry.part convert path)
    pure ⟨inquiry.slot, answer.map some⟩

/-- Ask one node after the other; an eager one goes no further than the first value. -/
def inquireAll (convert : Converting ι) (path : Path) (isEager : Bool) :
    List (Inquiry ι) → Conversion (List Reply)
  | [] => pure []
  | first :: rest => do
    let here ← inquire convert path first
    if isEager && here.value?.isSome then pure [here]
    else do
      let more ← inquireAll convert path isEager rest
      pure (here :: more)

/-- End with a value or with errors. -/
def settle (result : Except SchemaErrors α) : Conversion α :=
  match result with
  | .ok a => pure a
  | .error errors => fail (.errors errors)

theorem run_settle (result : Except SchemaErrors α) (s : ConversionState) :
    settle result s = (result.mapError .errors, s) := by
  cases result <;> rfl

/-- A part that is asked about answers with a value or with errors; other failures go on. -/
theorem run_inquire (inquiry : Inquiry ι) (s : ConversionState) :
    inquire convert path inquiry s = match inquiry.part convert path s with
      | (.ok value, t) => (.ok ⟨inquiry.slot, .ok (some value)⟩, t)
      | (.error (.errors errors), t) => (.ok ⟨inquiry.slot, .error errors⟩, t)
      | (.error .undefined, t) =>
        if inquiry.slot.mayLack then (.ok ⟨inquiry.slot, .ok none⟩, t) else (.error .undefined, t)
      | (.error failure, t) => (.error failure, t) := by
  unfold inquire
  cases inquiry.slot.mayLack with
  | true =>
      rw [if_pos rfl, run_bind, run_attemptMissing]
      rcases inquiry.part convert path s with ⟨(_ | _ | _ | _ | _) | _, _⟩ <;> rfl
  | false =>
      rw [if_neg Bool.false_ne_true, run_bind, run_attempt]
      rcases inquiry.part convert path s with ⟨(_ | _ | _ | _ | _) | _, _⟩ <;> rfl

/-! ## Plans -/

/-- What a node does with a payload: what it asks, and what it makes of the replies. -/
structure Plan (ι : Type := NodeId) where
  inquiries : List (Inquiry ι)
  isEager : Bool
  ruling : List Reply → Except SchemaErrors Value

namespace Plan

/-- Nothing is asked. -/
def settled (result : Except SchemaErrors Value) : Plan ι := ⟨[], false, fun _ => result⟩

/-- The value is ruled on once more. -/
def andThen (plan : Plan ι) (more : Value → Except SchemaErrors Value) : Plan ι :=
  { plan with ruling := fun replies => (plan.ruling replies).bind more }

/-- Ask, and end as the ruling answers. -/
def run (convert : Converting ι) (path : Path) (plan : Plan ι) : Conversion Value := do
  let replies ← inquireAll convert path plan.isEager plan.inquiries
  settle (plan.ruling replies)

theorem run_andThen (plan : Plan ι) (more : Value → Except SchemaErrors Value) :
    (plan.andThen more).run convert path =
      (do
        let value ← plan.run convert path
        settle (more value)) := by
  unfold run
  rw [bind_assoc]
  refine bind_congr fun replies => ?_
  show settle ((plan.ruling replies).bind more) = _
  cases plan.ruling replies <;> rfl

end Plan

/-! ## What is heard -/

/-- A reply is what the node that was asked answers. -/
inductive Replied (answers : Inquiry ι → Except Failure Value → Prop) (inquiry : Inquiry ι) :
    Reply → Prop where
  | value {value : Value} (h : answers inquiry (.ok value)) :
      Replied answers inquiry ⟨inquiry.slot, .ok (some value)⟩
  | nothing (hslot : inquiry.slot.mayLack = true) (h : answers inquiry (.error .undefined)) :
      Replied answers inquiry ⟨inquiry.slot, .ok none⟩
  | errors {errors : SchemaErrors} (h : answers inquiry (.error (.errors errors))) :
      Replied answers inquiry ⟨inquiry.slot, .error errors⟩

theorem Replied.slot {answers : Inquiry ι → Except Failure Value → Prop} {inquiry : Inquiry ι}
    {reply : Reply} (h : Replied answers inquiry reply) : reply.slot = inquiry.slot := by
  cases h <;> rfl

/-- The replies to inquiries, up to the first value if that is enough. -/
inductive Heard (answers : Inquiry ι → Except Failure Value → Prop) (isEager : Bool) :
    List (Inquiry ι) → List Reply → Prop where
  | nil : Heard answers isEager [] []
  | stops {first : Inquiry ι} {rest : List (Inquiry ι)} {here : Reply}
      (hhere : Replied answers first here) (h : (isEager && here.value?.isSome) = true) :
      Heard answers isEager (first :: rest) [here]
  | goes {first : Inquiry ι} {rest : List (Inquiry ι)} {here : Reply} {more : List Reply}
      (hhere : Replied answers first here) (h : (isEager && here.value?.isSome) = false)
      (hmore : Heard answers isEager rest more) :
      Heard answers isEager (first :: rest) (here :: more)

namespace Heard

variable {answers : Inquiry ι → Except Failure Value → Prop} {inquiries : List (Inquiry ι)}
  {replies : List Reply}

/-- Every reply is one to an inquiry. -/
theorem exists_inquiry (h : Heard answers isEager inquiries replies) :
    ∀ reply ∈ replies, ∃ inquiry ∈ inquiries, Replied answers inquiry reply := by
  induction h with
  | nil => exact fun _ hreply => nomatch hreply
  | @stops first rest here hhere _ =>
      intro reply hreply
      obtain rfl := List.mem_singleton.1 hreply
      exact ⟨first, List.mem_cons_self, hhere⟩
  | @goes first rest here more hhere _ _ ih =>
      intro reply hreply
      rcases List.mem_cons.1 hreply with rfl | hreply
      · exact ⟨first, List.mem_cons_self, hhere⟩
      · obtain ⟨inquiry, hinquiry, hreplied⟩ := ih reply hreply
        exact ⟨inquiry, List.mem_cons_of_mem first hinquiry, hreplied⟩

/-- A value that was heard is one that was given. -/
theorem value_of_mem (h : Heard answers isEager inquiries replies) {reply : Reply} {value : Value}
    (hreply : reply ∈ replies) (hvalue : reply.value? = some value) :
    ∃ inquiry ∈ inquiries, reply.slot = inquiry.slot ∧ answers inquiry (.ok value) := by
  obtain ⟨inquiry, hinquiry, hreplied⟩ := h.exists_inquiry reply hreply
  refine ⟨inquiry, hinquiry, hreplied.slot, ?_⟩
  cases hreplied with
  | value hanswer =>
      cases hvalue
      exact hanswer
  | nothing => cases hvalue
  | errors => cases hvalue

/-- Without haste every inquiry has its reply. -/
theorem forall₂ (h : Heard answers false inquiries replies) :
    List.Forall₂ (Replied answers) inquiries replies := by
  induction h with
  | nil => exact .nil
  | stops _ h => cases h
  | goes hhere _ _ ih => exact .cons hhere ih

/-- Where no value is given, haste makes no difference. -/
theorem patient (h : Heard answers isEager inquiries replies)
    (hnone : ∀ reply ∈ replies, reply.value? = none) : Heard answers false inquiries replies := by
  induction h with
  | nil => exact .nil
  | @stops first rest here hhere h =>
      rw [hnone here List.mem_cons_self, Bool.and_eq_true] at h
      cases h.2
  | @goes first rest here more hhere _ _ ih =>
      exact .goes hhere rfl (ih fun reply hreply => hnone reply (List.mem_cons_of_mem here hreply))

theorem exists_reply (h : Heard answers false inquiries replies) {inquiry : Inquiry ι}
    (hinquiry : inquiry ∈ inquiries) : ∃ reply ∈ replies, Replied answers inquiry reply := by
  have hreplied := h.forall₂
  clear h
  induction hreplied with
  | nil => cases hinquiry
  | @cons first here rest more hhere _ ih =>
      rcases List.mem_cons.1 hinquiry with rfl | hinquiry
      · exact ⟨here, List.mem_cons_self, hhere⟩
      · obtain ⟨reply, hreply, hreplied⟩ := ih hinquiry
        exact ⟨reply, List.mem_cons_of_mem here hreply, hreplied⟩

end Heard

/-- How asking ends: with a ruling, or with a failure that is no answer. -/
inductive Comes (answers : Inquiry ι → Except Failure Value → Prop) (isEager : Bool)
    (inquiries : List (Inquiry ι)) (ruling : List Reply → Except SchemaErrors α) :
    Except Failure α → Prop where
  | rules {replies : List Reply} (heard : Heard answers isEager inquiries replies) :
      Comes answers isEager inquiries ruling ((ruling replies).mapError .errors)
  | strays {inquiry : Inquiry ι} {failure : Failure} (hmem : inquiry ∈ inquiries)
      (hanswers : answers inquiry (.error failure)) (hstray : failure.isStray inquiry.slot = true) :
      Comes answers isEager inquiries ruling (.error failure)

/-- A value comes of a ruling. -/
theorem Comes.ok {answers : Inquiry ι → Except Failure Value → Prop} {inquiries : List (Inquiry ι)}
    {ruling : List Reply → Except SchemaErrors α} {result : Except Failure α} {a : α}
    (h : Comes answers isEager inquiries ruling result) (hresult : result = .ok a) :
    ∃ replies, Heard answers isEager inquiries replies ∧ ruling replies = .ok a := by
  cases h with
  | @rules replies heard =>
      refine ⟨replies, heard, ?_⟩
      generalize ruling replies = ruled at hresult
      cases ruled <;> cases hresult
      rfl
  | strays => cases hresult

/-- So do errors. -/
theorem Comes.refused {answers : Inquiry ι → Except Failure Value → Prop}
    {inquiries : List (Inquiry ι)} {ruling : List Reply → Except SchemaErrors α}
    {result : Except Failure α} {errors : SchemaErrors}
    (h : Comes answers isEager inquiries ruling result)
    (hresult : result = .error (.errors errors)) :
    ∃ replies, Heard answers isEager inquiries replies ∧ ruling replies = .error errors := by
  cases h with
  | @rules replies heard =>
      refine ⟨replies, heard, ?_⟩
      generalize ruling replies = ruled at hresult
      cases ruled <;> cases hresult
      rfl
  | strays _ _ hstray =>
      cases hresult
      cases hstray

/-- What is neither a value nor errors is a failure that went on. -/
theorem Comes.stray {answers : Inquiry ι → Except Failure Value → Prop}
    {inquiries : List (Inquiry ι)} {ruling : List Reply → Except SchemaErrors α}
    {result : Except Failure α} (h : Comes answers isEager inquiries ruling result)
    (hresult : result = .error .undefined) : ∃ inquiry ∈ inquiries,
      answers inquiry (.error .undefined) ∧ Failure.undefined.isStray inquiry.slot = true := by
  cases h with
  | @rules replies heard =>
      generalize ruling replies = ruled at hresult
      cases ruled <;> cases hresult
  | strays hmem hanswers hstray =>
      cases hresult
      exact ⟨_, hmem, hanswers, hstray⟩

/-! ## What runs bring about -/

/-- Where something holds of the state it holds after a run, and the result is a good one. -/
def Brings (holds : ConversionState → Prop) (good : Except Failure α → Prop)
    (part : Conversion α) : Prop :=
  ∀ s, holds s → holds (part s).2 ∧ good (part s).1

namespace Brings

variable {holds : ConversionState → Prop} {good good' : Except Failure α → Prop}
  {answers : Inquiry ι → Except Failure Value → Prop}

theorem fail {failure : Failure} (h : good (.error failure)) :
    Brings holds good (Conversion.fail failure) :=
  fun _ hs => ⟨hs, h⟩

theorem bind {β : Type} {m : Conversion α} {f : α → Conversion β}
    {better : Except Failure β → Prop} (hm : Brings holds good m)
    (hf : ∀ a, good (.ok a) → Brings holds better (f a))
    (hfails : ∀ failure, good (.error failure) → better (.error failure)) :
    Brings holds better (m >>= f) := by
  intro s hs
  obtain ⟨hstate, hgood⟩ := hm s hs
  rw [run_bind]
  generalize m s = run at hstate hgood ⊢
  rcases run with ⟨failure | a, t⟩
  · exact ⟨hstate, hfails failure hgood⟩
  · exact hf a hgood t hstate

theorem mono {m : Conversion α} (hm : Brings holds good m)
    (h : ∀ result, good result → good' result) : Brings holds good' m :=
  fun s hs => ⟨(hm s hs).1, h _ (hm s hs).2⟩

/-- What is known of the parts is known of all the replies. -/
theorem inquireAll : ∀ inquiries : List (Inquiry ι),
    (∀ inquiry ∈ inquiries, Brings holds (answers inquiry) (inquiry.part convert path)) →
    Brings holds (Comes answers isEager inquiries .ok)
      (Conversion.inquireAll convert path isEager inquiries)
  | [], _ => fun s hs => ⟨hs, .rules .nil⟩
  | first :: rest, h => by
      intro s hs
      obtain ⟨hafter, hanswers⟩ := h first List.mem_cons_self s hs
      have hrest := inquireAll rest fun inquiry hinquiry =>
        h inquiry (List.mem_cons_of_mem first hinquiry)
      -- a reply here, and whatever comes of the rest
      have hgoes : ∀ (here : Reply) t, holds t → Replied answers first here →
          holds ((if isEager && here.value?.isSome then pure [here] else do
            let more ← Conversion.inquireAll convert path isEager rest
            pure (here :: more) : Conversion (List Reply)) t).2 ∧
          Comes answers isEager (first :: rest) .ok
            ((if isEager && here.value?.isSome then pure [here] else do
              let more ← Conversion.inquireAll convert path isEager rest
              pure (here :: more) : Conversion (List Reply)) t).1 := by
        intro here t ht hhere
        cases hstops : isEager && here.value?.isSome with
        | true => exact ⟨ht, .rules (.stops hhere hstops)⟩
        | false =>
            obtain ⟨hstate, hcomes⟩ := hrest t ht
            rw [if_neg Bool.false_ne_true, run_bind]
            generalize Conversion.inquireAll convert path isEager rest t = run at hstate hcomes ⊢
            obtain ⟨result, u⟩ := run
            generalize hresult : result = outcome at hcomes
            cases hcomes with
            | rules heard =>
                subst hresult
                exact ⟨hstate, .rules (.goes hhere hstops heard)⟩
            | strays hmem hanswers hstray =>
                subst hresult
                exact ⟨hstate, .strays (List.mem_cons_of_mem first hmem) hanswers hstray⟩
      show holds ((inquire convert path first >>= _) s).2 ∧
        Comes answers isEager (first :: rest) .ok ((inquire convert path first >>= _) s).1
      rw [run_bind, run_inquire]
      generalize first.part convert path s = run at hafter hanswers ⊢
      rcases run with ⟨(errors | _ | _ | _ | _) | value, t⟩
      · exact hgoes _ t hafter (.errors hanswers)
      · cases hslot : first.slot.mayLack with
        | true => exact hgoes _ t hafter (.nothing hslot hanswers)
        | false =>
            refine ⟨hafter, .strays List.mem_cons_self hanswers ?_⟩
            simp [Failure.isStray, hslot]
      · exact ⟨hafter, .strays List.mem_cons_self hanswers rfl⟩
      · exact ⟨hafter, .strays List.mem_cons_self hanswers rfl⟩
      · exact ⟨hafter, .strays List.mem_cons_self hanswers rfl⟩
      · exact hgoes _ t hafter (.value hanswers)

/-- What is known of the parts is known of what is ruled on. -/
theorem run {plan : Plan ι}
    (h : ∀ inquiry ∈ plan.inquiries, Brings holds (answers inquiry) (inquiry.part convert path)) :
    Brings holds (Comes answers plan.isEager plan.inquiries plan.ruling)
      (plan.run convert path) := by
  intro s hs
  have hasked : Brings holds (Comes answers plan.isEager plan.inquiries .ok)
      (Conversion.inquireAll convert path plan.isEager plan.inquiries) :=
    inquireAll plan.inquiries h
  obtain ⟨hstate, hcomes⟩ := hasked s hs
  unfold Plan.run
  rw [run_bind]
  generalize Conversion.inquireAll convert path plan.isEager plan.inquiries s = run
    at hstate hcomes ⊢
  obtain ⟨result, t⟩ := run
  generalize hresult : result = outcome at hcomes
  cases hcomes with
  | @rules replies heard =>
      subst hresult
      show holds (settle (plan.ruling replies) t).2 ∧
        Comes answers plan.isEager plan.inquiries plan.ruling (settle (plan.ruling replies) t).1
      rw [run_settle]
      exact ⟨hstate, .rules heard⟩
  | strays hmem hanswers hstray =>
      subst hresult
      exact ⟨hstate, .strays hmem hanswers hstray⟩

end Brings

/-- What a part gives in some state. -/
def Said (convert : Converting ι) (path : Path) (inquiry : Inquiry ι)
    (result : Except Failure Value) : Prop :=
  ∃ s, (inquiry.part convert path s).1 = result

/-- Whatever replies come of asking, they are heard from the parts. -/
theorem heard_of_inquireAll {inquiries : List (Inquiry ι)} {replies : List Reply}
    {s t : ConversionState} (h : inquireAll convert path isEager inquiries s = (.ok replies, t)) :
    Heard (Said convert path) isEager inquiries replies := by
  have hasked : Brings (fun _ => True) (Comes (Said convert path) isEager inquiries .ok)
      (inquireAll convert path isEager inquiries) :=
    .inquireAll inquiries fun _ _ t _ => ⟨trivial, t, rfl⟩
  obtain ⟨_, heard, hreplies⟩ := (hasked s trivial).2.ok (congrArg Prod.fst h)
  cases hreplies
  exact heard

/-- Whatever comes of a plan, it is about what the parts gave. -/
theorem comes_of_run (plan : Plan ι) (s : ConversionState) :
    Comes (Said convert path) plan.isEager plan.inquiries plan.ruling (plan.run convert path s).1 :=
  have hrun : Brings (fun _ => True)
      (Comes (Said convert path) plan.isEager plan.inquiries plan.ruling) (plan.run convert path) :=
    .run fun _ _ t _ => ⟨trivial, t, rfl⟩
  (hrun s trivial).2

/-- Related states stand before and after a plan if they do around its parts. -/
theorem keeps_plan {R : ConversionState → ConversionState → Prop} (comp : Composes R)
    {plan : Plan ι} (h : ∀ inquiry ∈ plan.inquiries, Keeps R (inquiry.part convert path)) :
    Keeps R (plan.run convert path) := by
  intro s
  have hrun : Brings (R s) (Comes (fun _ _ => True) plan.isEager plan.inquiries plan.ruling)
      (plan.run convert path) :=
    .run fun inquiry hinquiry t ht => ⟨comp.trans ht (h inquiry hinquiry t), trivial⟩
  exact (hrun s (comp.refl s)).1

end Conversion

end SchemaGraph

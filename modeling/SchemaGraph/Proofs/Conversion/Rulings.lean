import SchemaGraph.Proofs.Conversion.Questions

set_option autoImplicit false

/-! # How nodes rule

From the replies a node puts a value together, or it reports errors (`Shape.ruling`). What it asks
and how it rules is a plan, and running the plan is what the node does with a payload of the right
type (`result_eq`): the lists of items, of entries and of subtypes are gone through only here.
-/

namespace SchemaGraph

variable {ι : Type}

/-! ## How it is ruled -/

namespace Conversion

/-- The values given, in their order. -/
def held (replies : List Reply) : List Value := replies.filterMap Reply.value?

/-- The values given for keys that go to a bucket. -/
def heldAt (place : Buckets.Place) (replies : List Reply) : List (String × Value) :=
  replies.filterMap fun reply =>
    match reply.slot.keyAt? place, reply.value? with
    | some key, some value => some (key, value)
    | _, _ => none

/-- The errors given, one after the other. -/
def told (replies : List Reply) : List LocatedError := replies.flatMap Reply.errors

/-- What subtypes said. -/
def outcomes (replies : List Reply) : List (Nat × Except SchemaErrors Value) :=
  replies.filterMap fun
    | ⟨.subtype index, .ok (some value)⟩ => some (index, .ok value)
    | ⟨.subtype index, .error errors⟩ => some (index, .error errors)
    | _ => none

theorem told_eq_nil_iff {replies : List Reply} :
    told replies = [] ↔ ∀ reply ∈ replies, reply.errors = [] := List.flatMap_eq_nil_iff

/-- The errors of subtypes are those of the ones that refused. -/
theorem told_eq_errorsOf : ∀ {replies : List Reply},
    (∀ reply ∈ replies, ∃ index, reply.slot = .subtype index) →
    told replies = errorsOf (refusals (outcomes replies))
  | [], _ => rfl
  | ⟨slot, answer⟩ :: rest, h => by
      obtain ⟨index, hslot⟩ := h _ List.mem_cons_self
      have hrest : told rest = errorsOf (refusals (outcomes rest)) :=
        told_eq_errorsOf fun reply hreply => h reply (List.mem_cons_of_mem _ hreply)
      change slot = .subtype index at hslot
      subst hslot
      rcases answer with errors | _ | value
      · exact congrArg (errors.toList ++ ·) hrest
      · exact hrest
      · exact hrest

/-- The values of subtypes are those of the ones that accepted. -/
theorem accepted_eq_held : ∀ {replies : List Reply},
    (∀ reply ∈ replies, ∃ index, reply.slot = .subtype index) →
    (accepted (outcomes replies)).map Prod.snd = held replies
  | [], _ => rfl
  | ⟨slot, answer⟩ :: rest, h => by
      obtain ⟨index, hslot⟩ := h _ List.mem_cons_self
      have hrest : (accepted (outcomes rest)).map Prod.snd = held rest :=
        accepted_eq_held fun reply hreply => h reply (List.mem_cons_of_mem _ hreply)
      change slot = .subtype index at hslot
      subst hslot
      rcases answer with errors | _ | value
      · exact hrest
      · exact hrest
      · exact congrArg (value :: ·) hrest

theorem mem_heldAt {place : Buckets.Place} {replies : List Reply} {key : String} {value : Value} :
    (key, value) ∈ heldAt place replies ↔
      ∃ reply ∈ replies, reply.slot = .property place key ∧ reply.value? = some value := by
  unfold heldAt
  rw [List.mem_filterMap]
  refine exists_congr fun reply => and_congr_right fun _ => ?_
  cases hslot : reply.slot with
  | property place' key' =>
      unfold Slot.keyAt?
      by_cases hplace : place' = place
      · subst hplace
        cases hvalue : reply.value? <;> simp [Prod.ext_iff]
      · simp [hplace]
  | _ => simp [Slot.keyAt?]

section

variable {answers : Inquiry ι → Except Failure Value → Prop} {inquiries : List (Inquiry ι)}
  {replies : List Reply}

/-- What is heard of subtypes is for subtypes. -/
theorem subtype_of_heard {isEager : Bool} {payload : Json} {subtypes : List ι} {index : Nat}
    (heard : Heard answers isEager (subtypeInquiries payload index subtypes) replies) :
    ∀ reply ∈ replies, ∃ index, reply.slot = .subtype index := by
  intro reply hreply
  obtain ⟨inquiry, hinquiry, hreplied⟩ := heard.exists_inquiry reply hreply
  obtain ⟨⟨_, number⟩, -, rfl⟩ := List.mem_map.1 hinquiry
  exact ⟨number, hreplied.slot⟩

/-- Where no errors are told, what was asked was answered, with a value if one may not lack. -/
theorem answered_of_told (heard : Heard answers false inquiries replies) (hnone : told replies = [])
    {inquiry : Inquiry ι} (hinquiry : inquiry ∈ inquiries) :
    (∃ value, answers inquiry (.ok value) ∧
      ∃ reply ∈ replies, reply.slot = inquiry.slot ∧ reply.value? = some value) ∨
      inquiry.slot.mayLack = true ∧ answers inquiry (.error .undefined) := by
  obtain ⟨reply, hreply, hreplied⟩ := heard.exists_reply hinquiry
  have hclean := told_eq_nil_iff.1 hnone reply hreply
  cases hreplied with
  | @value value h => exact .inl ⟨value, h, _, hreply, rfl, rfl⟩
  | nothing hslot h => exact .inr ⟨hslot, h⟩
  | errors => cases hclean

/-- The values of a list stand for what was asked, one for one. -/
theorem held_forall₂ (heard : Heard answers false inquiries replies) (hnone : told replies = [])
    (hthere : ∀ inquiry ∈ inquiries, inquiry.slot.mayLack = false) :
    List.Forall₂ (fun inquiry value => answers inquiry (.ok value)) inquiries (held replies) := by
  have hreplied := heard.forall₂
  clear heard
  induction hreplied with
  | nil => exact .nil
  | @cons inquiry reply _ more hhere _ ih =>
      have hclean := told_eq_nil_iff.1 hnone
      have hmore := ih (told_eq_nil_iff.2 fun other hother => hclean other (.tail _ hother))
        fun other hother => hthere other (.tail _ hother)
      cases hhere with
      | value h => exact .cons h hmore
      | nothing hslot =>
          rw [hthere inquiry List.mem_cons_self] at hslot
          cases hslot
      | errors => cases hclean _ List.mem_cons_self

end

/-- A result, unless errors were collected. -/
def collect (errors : List LocatedError) (value : Value) : Except SchemaErrors Value :=
  match SchemaErrors.ofList? errors with
  | some errors => .error errors
  | none => .ok value

/-- A refusal with one error. -/
def refusing {α : Type} (common : Common) (path : Path) (key : MessageKey) (args : List String) :
    Except SchemaErrors α :=
  .error (.single (common.error path key args))

/-- Everything an object finds wrong, in its order. -/
def objectComplaints (mode : Mode) (common : Common) (shape : ObjectShape ι)
    (payload : List (String × Json)) (path : Path) (replies : List Reply) : List LocatedError :=
  forbidden mode common shape payload path ++
    (missing mode shape payload).map (fun name => common.error path .required [name]) ++
    told (replies.filter fun reply => !reply.slot.mayLack) ++
    summary common path .additionalProperties (refusedKeys shape payload) ++
    told (replies.filter fun reply => reply.slot.mayLack)

/-- Where nothing is wrong with an object, it was told no errors, no key is refused, no required
property is missing, and no excluded one is there. -/
theorem of_objectComplaints_eq_nil {mode : Mode} {common : Common} {shape : ObjectShape ι}
    {payload : List (String × Json)} {path : Path} {replies : List Reply}
    (h : objectComplaints mode common shape payload path replies = []) :
    told replies = [] ∧ refusedKeys shape payload = [] ∧ missing mode shape payload = [] ∧
      forbidden mode common shape payload path = [] := by
  unfold objectComplaints at h
  simp only [List.append_eq_nil_iff, List.map_eq_nil_iff, summary_eq_nil_iff, told_eq_nil_iff,
    List.mem_filter] at h
  obtain ⟨⟨⟨⟨hforbidden, hmissing⟩, hundeclared⟩, hrefused⟩, hdeclared⟩ := h
  refine ⟨told_eq_nil_iff.2 fun reply hreply => ?_, hrefused, hmissing, hforbidden⟩
  cases hslot : reply.slot.mayLack with
  | true => exact hdeclared reply ⟨hreply, hslot⟩
  | false => exact hundeclared reply ⟨hreply, by rw [hslot]; rfl⟩

/-- The buckets of an object. -/
def sorted (shape : ObjectShape ι) (payload : List (String × Json)) (replies : List Reply) :
    Buckets Value :=
  ⟨heldAt .declared replies, heldAt .pattern replies,
    verbatim shape payload ++ heldAt .additional replies⟩

end Conversion

namespace Shape

open Conversion

/-- What a node makes of the replies about a payload of the right type. -/
def ruling (mode : Mode) (common : Common) (payload : Json) (path : Path)
    (replies : List Reply) : Shape ι → Except SchemaErrors Value
  | integer _ =>
    match Value.ofJson payload with
    | .integer n h => .ok (.integer n h)
    | _ => refusing common path .int64Format []
  | array .. => collect (told replies) (.array (held replies))
  | map .. => collect (told replies) (.map (heldAt .additional replies))
  | object shape =>
    collect (objectComplaints mode common shape (payload.asObj?.getD []) path replies)
      (.object (sorted shape (payload.asObj?.getD []) replies))
  | discriminated property mapping =>
    match replies with
    | ⟨.whole, .ok (some value)⟩ :: _ => .ok value
    | ⟨.whole, .error errors⟩ :: _ => .error errors
    | _ =>
      if (payload.get? property).isNone then
        refusing common path .discriminatorNotPresent [property]
      else refusing common path .discriminatorNotMatch [commaDelimited (mapping.map Prod.fst)]
  | allOf _ =>
    match refusals (outcomes replies) with
    | [] => .ok (Value.merge ((accepted (outcomes replies)).map Prod.snd))
    | refused =>
      .error ⟨common.error path .notAll [commaDelimitedIndexes (refused.map Prod.fst)],
        errorsOf refused⟩
  | anyOf _ =>
    match accepted (outcomes replies) with
    | [] => .error ⟨common.error path .notAny [], errorsOf (refusals (outcomes replies))⟩
    | (_, value) :: _ => .ok value
  | oneOf _ =>
    match accepted (outcomes replies) with
    | [] => .error ⟨common.error path .noOne [], errorsOf (refusals (outcomes replies))⟩
    | [(_, value)] => .ok value
    | several => refusing common path .ambiguous [commaDelimitedIndexes (several.map Prod.fst)]
  | not _ =>
    match accepted (outcomes replies) with
    | [] => .ok (Value.ofJson payload)
    | _ => refusing common path .notAcceptable []
  | _ => .ok (Value.ofJson payload)

/-- The conversion step of a node, from its parts. -/
def plan (mode : Mode) (common : Common) (payload : Json) (path : Path) (shape : Shape ι) :
    Conversion.Plan ι :=
  ⟨shape.inquiries mode payload, shape.isEager,
    fun replies => shape.ruling mode common payload path replies⟩

end Shape

/-! ## Conversion steps as plans -/

namespace Conversion

variable {α β : Type} {convert : Converting ι} {path : Path}

/-- What follows a run matters for what the run gives only. -/
theorem bind_congr_of_gives {m : Conversion α} {f g : α → Conversion β}
    (h : ∀ s a t, m s = (.ok a, t) → f a = g a) : m >>= f = m >>= g := by
  funext s
  rw [run_bind, run_bind]
  rcases hm : m s with ⟨failure | a, t⟩
  · rfl
  · dsimp only
    rw [h s a t hm]

theorem failOn_bind (errors : List LocatedError) (value : Value) :
    (do failOn errors; pure value : Conversion Value) = settle (collect errors value) := by
  cases errors <;> rfl

/-- Asking about something that is there attempts the part. -/
theorem inquire_bind {slot : Slot} (h : slot.mayLack = false) (node : ι) (input : Option Json)
    (f : Reply → Conversion α) :
    (inquire convert path ⟨slot, node, input⟩ >>= f) =
      attempt (convert node input (slot.location path)) >>= fun answer =>
        f ⟨slot, answer.map some⟩ := by
  unfold inquire
  rw [if_neg (Bool.eq_false_iff.1 h), bind_assoc]
  rfl

theorem inquireAll_cons (first : Inquiry ι) (rest : List (Inquiry ι))
    (f : List Reply → Conversion α) :
    (inquireAll convert path false (first :: rest) >>= f) =
      inquire convert path first >>= fun here =>
        inquireAll convert path false rest >>= fun more => f (here :: more) := by
  show (inquire convert path first >>= fun here =>
    inquireAll convert path false rest >>= fun more => pure (here :: more)) >>= f = _
  rw [bind_assoc]
  refine bind_congr fun here => ?_
  rw [bind_assoc]
  rfl

theorem inquireAll_append (before after : List (Inquiry ι)) (f : List Reply → Conversion α) :
    (inquireAll convert path false (before ++ after) >>= f) =
      inquireAll convert path false before >>= fun replies =>
        inquireAll convert path false after >>= fun more => f (replies ++ more) := by
  induction before generalizing f with
  | nil => rfl
  | cons first rest ih =>
      rw [List.cons_append, inquireAll_cons, inquireAll_cons]
      exact bind_congr fun here => ih fun replies => f (here :: replies)

theorem items_eq (node : ι) : ∀ payload index,
    items (fun item here => convert node (some item) here) path index payload = (do
      let replies ← inquireAll convert path false (itemInquiries node index payload)
      pure (held replies, told replies))
  | [], _ => rfl
  | item :: rest, index => by
      unfold items
      rw [items_eq node rest (index + 1)]
      unfold itemInquiries
      rw [List.zipIdx_cons, List.map_cons, inquireAll_cons, inquire_bind rfl]
      refine bind_congr fun here => ?_
      rw [bind_assoc]
      refine bind_congr fun more => ?_
      cases here <;> rfl

theorem entries_eq (node : ι) : ∀ payload,
    entries (fun item here => convert node (some item) here) path payload = (do
      let replies ← inquireAll convert path false (entryInquiries node payload)
      pure (heldAt .additional replies, told replies))
  | [] => rfl
  | (key, item) :: rest => by
      unfold entries
      rw [entries_eq node rest]
      unfold entryInquiries
      rw [List.map_cons, inquireAll_cons, inquire_bind rfl]
      refine bind_congr fun here => ?_
      rw [bind_assoc]
      refine bind_congr fun more => ?_
      cases here <;> rfl

theorem undeclared_eq (shape : ObjectShape ι) : ∀ payload,
    undeclared convert shape path payload = (do
      let replies ← inquireAll convert path false (undeclaredInquiries shape payload)
      pure ⟨heldAt .pattern replies, verbatim shape payload ++ heldAt .additional replies,
        refusedKeys shape payload, told replies⟩)
  | [] => by
      unfold refusedKeys verbatim
      cases shape.additional <;> rfl
  | (key, item) :: rest => by
      have hrest := undeclared_eq shape rest
      unfold undeclared undeclaredInquiries
      rw [List.flatMap_cons]
      dsimp only
      split
      · rename_i hdeclared
        rw [refusedKeys_of_declared hdeclared, verbatim_of_declared hdeclared]
        exact hrest
      · rename_i hundeclared
        rw [refusedKeys_of_destination hundeclared, verbatim_of_destination hundeclared, hrest]
        cases hdestination : destination shape key with
        | verbatim | refused =>
            dsimp only
            rw [bind_assoc]
            rfl
        | pattern node =>
            show _ = inquireAll convert path false (_ :: undeclaredInquiries shape rest) >>= _
            rw [inquireAll_cons, inquire_bind rfl]
            refine bind_congr fun here => ?_
            rw [bind_assoc]
            refine bind_congr fun more => ?_
            cases here <;> rfl
        | additional node =>
            have hnone : verbatim shape rest = [] := verbatim_eq_nil hdestination rest
            show _ = inquireAll convert path false (_ :: undeclaredInquiries shape rest) >>= _
            rw [inquireAll_cons, inquire_bind rfl, hnone]
            refine bind_congr fun here => ?_
            rw [bind_assoc]
            refine bind_congr fun more => ?_
            cases here <;> rfl

theorem declared_eq (skip : String → Bool) (payload : List (String × Json)) : ∀ properties,
    declared convert skip payload path properties = (do
      let replies ← inquireAll convert path false (declaredInquiries skip payload properties)
      pure (heldAt .declared replies, told replies))
  | [] => rfl
  | (name, node) :: rest => by
      unfold declared
      rw [declaredInquiries_cons, declared_eq skip payload rest]
      split
      · rfl
      · rw [inquireAll_cons]
        show _ = ((attemptMissing _ >>= fun answer => pure _) >>= _)
        rw [bind_assoc]
        refine bind_congr fun here => ?_
        rw [bind_assoc]
        refine bind_congr fun more => ?_
        rcases here with errors | _ | value <;> rfl

theorem each_eq (payload : Json) : ∀ subtypes index,
    each convert payload path index subtypes = (do
      let replies ← inquireAll convert path false (subtypeInquiries payload index subtypes)
      pure (outcomes replies))
  | [], _ => rfl
  | subtype :: rest, index => by
      unfold each
      rw [each_eq payload rest (index + 1)]
      unfold subtypeInquiries
      rw [List.zipIdx_cons, List.map_cons, inquireAll_cons, inquire_bind rfl]
      refine bind_congr fun here => ?_
      rw [bind_assoc]
      refine bind_congr fun more => ?_
      cases here <;> rfl

theorem anyOf_eq (common : Common) (payload : Json) : ∀ subtypes index errors,
    anyOf convert common payload path index errors subtypes = (do
      let replies ← inquireAll convert path true (subtypeInquiries payload index subtypes)
      settle (match accepted (outcomes replies) with
        | [] => .error ⟨common.error path .notAny [],
            errors ++ errorsOf (refusals (outcomes replies))⟩
        | (_, value) :: _ => .ok value))
  | [], _, errors => by
      show _ = settle (.error ⟨common.error path .notAny [], errors ++ []⟩)
      rw [List.append_nil]
      rfl
  | subtype :: rest, index, errors => by
      unfold anyOf subtypeInquiries
      rw [List.zipIdx_cons, List.map_cons]
      show _ = ((inquire convert path _ >>= _) >>= _)
      rw [bind_assoc, inquire_bind rfl]
      refine bind_congr fun here => ?_
      cases here with
      | ok value => rfl
      | error found =>
          dsimp only
          rw [anyOf_eq common payload rest (index + 1)]
          show _ = ((inquireAll convert path true (subtypeInquiries payload (index + 1) rest) >>= _)
            >>= _)
          rw [bind_assoc]
          refine bind_congr fun replies => ?_
          rw [List.append_assoc]
          rfl

theorem noneOf_eq (common : Common) (payload : Json) : ∀ subtypes index,
    noneOf convert common payload path index subtypes = (do
      let replies ← inquireAll convert path true (subtypeInquiries payload index subtypes)
      settle (match accepted (outcomes replies) with
        | [] => .ok (Value.ofJson payload)
        | _ => refusing common path .notAcceptable []))
  | [], _ => rfl
  | subtype :: rest, index => by
      unfold noneOf subtypeInquiries
      rw [List.zipIdx_cons, List.map_cons]
      show _ = ((inquire convert path _ >>= _) >>= _)
      rw [bind_assoc, inquire_bind rfl]
      refine bind_congr fun here => ?_
      cases here with
      | ok value => rfl
      | error found =>
          dsimp only
          rw [noneOf_eq common payload rest (index + 1)]
          show _ = ((inquireAll convert path true (subtypeInquiries payload (index + 1) rest) >>= _)
            >>= _)
          rw [bind_assoc]
          rfl

theorem keyAt?_of_mayLack {slot : Slot} {place : Buckets.Place}
    (h : slot.mayLack = decide (place ≠ .declared)) : slot.keyAt? place = none := by
  cases slot with
  | property place' key => cases place' <;> cases place <;> first | rfl | cases h
  | _ => rfl

theorem heldAt_eq_nil (place : Buckets.Place) {replies : List Reply}
    (h : ∀ reply ∈ replies, reply.slot.mayLack = decide (place ≠ .declared)) :
    heldAt place replies = [] := by
  refine List.filterMap_eq_nil_iff.2 fun reply hreply => ?_
  rw [keyAt?_of_mayLack (h reply hreply)]

theorem object_eq (mode : Mode) (common : Common) (shape : ObjectShape ι)
    (payload : List (String × Json)) :
    object convert mode common shape payload path = (do
      let replies ← inquireAll convert path false (undeclaredInquiries shape payload ++
        declaredInquiries (skips shape mode payload) payload shape.properties)
      settle (collect (objectComplaints mode common shape payload path replies)
        (.object (sorted shape payload replies)))) := by
  rw [inquireAll_append]
  unfold object
  dsimp only
  rw [undeclared_eq, bind_assoc]
  refine bind_congr_of_gives fun s replies t hreplies => ?_
  rw [pure_bind, declared_eq, bind_assoc]
  refine bind_congr_of_gives fun u more v hmore => ?_
  rw [pure_bind]
  have hreplies : ∀ reply ∈ replies, reply.slot.mayLack = false := by
    intro reply hreply
    obtain ⟨inquiry, hinquiry, hreplied⟩ :=
      (heard_of_inquireAll hreplies).exists_inquiry reply hreply
    rw [hreplied.slot, mayLack_undeclared hinquiry]
  have hmore : ∀ reply ∈ more, reply.slot.mayLack = true := by
    intro reply hreply
    obtain ⟨inquiry, hinquiry, hreplied⟩ := (heard_of_inquireAll hmore).exists_inquiry reply hreply
    rw [hreplied.slot, mayLack_declared hinquiry]
  have hheld : sorted shape payload (replies ++ more) = ⟨heldAt .declared more,
      heldAt .pattern replies, verbatim shape payload ++ heldAt .additional replies⟩ := by
    have happend : ∀ place, heldAt place (replies ++ more) =
        heldAt place replies ++ heldAt place more := fun _ => List.filterMap_append
    unfold sorted
    rw [happend, happend, happend, heldAt_eq_nil .declared hreplies, heldAt_eq_nil .pattern hmore,
      heldAt_eq_nil .additional hmore, List.nil_append, List.append_nil, List.append_nil]
  have hundeclared : (replies ++ more).filter (fun reply => !reply.slot.mayLack) = replies := by
    rw [List.filter_append, List.filter_eq_self.2 (by simpa using hreplies),
      List.filter_eq_nil_iff.2 (by simpa using hmore), List.append_nil]
  have hdeclared : (replies ++ more).filter (fun reply => reply.slot.mayLack) = more := by
    rw [List.filter_append, List.filter_eq_nil_iff.2 (by simpa using hreplies),
      List.filter_eq_self.2 (by simpa using hmore), List.nil_append]
  rw [hheld, ← failOn_bind]
  unfold objectComplaints missing
  rw [hundeclared, hdeclared]
  -- the names an entity must not have are looked up one by one
  simp only [← ObjectShape.excludedFrom_eq]
  rfl

theorem discriminated_eq (mode : Mode) (common : Common) (property : String)
    (mapping : List (String × ι)) (payload : Json) :
    discriminated convert common property mapping payload path =
      ((Shape.discriminated property mapping).plan mode common payload path).run convert path := by
  unfold discriminated Plan.run Shape.plan
  dsimp only [Shape.inquiries, Shape.isEager, Shape.ruling]
  unfold selected
  cases hget : payload.get? property with
  | none => rfl
  | some discriminator =>
      dsimp only [Option.bind_some]
      cases discriminator.asStr?.bind fun name => Entries.find? name mapping with
      | none => rfl
      | some node =>
          dsimp only
          funext s
          show _ = (inquireAll convert path false [⟨.whole, node, some payload⟩] >>= _) s
          rw [inquireAll_cons, inquire_bind rfl]
          show _ = (attempt (convert node (some payload) path) >>= _) s
          rw [run_bind, run_attempt]
          rcases convert node (some payload) path s with ⟨(_ | _ | _ | _ | _) | _, _⟩ <;> rfl

/-- Every conversion step asks and rules. -/
theorem result_eq (mode : Mode) (common : Common) (shape : Shape ι) (payload : Json) :
    result convert mode common shape payload path =
      (shape.plan mode common payload path).run convert path := by
  cases shape with
  | integer bounds =>
      unfold result Shape.plan Plan.run
      dsimp only [Shape.ruling]
      cases Value.ofJson payload <;> rfl
  | array node size unique distinctBy =>
      show (items _ path 0 _ >>= _) = _
      rw [items_eq, bind_assoc]
      exact bind_congr fun replies => failOn_bind _ _
  | map node size =>
      show (entries _ path _ >>= _) = _
      rw [entries_eq, bind_assoc]
      exact bind_congr fun replies => failOn_bind _ _
  | object shape => exact object_eq mode common shape _
  | discriminated property mapping => exact discriminated_eq mode common property mapping payload
  | allOf subtypes =>
      show (each convert payload path 0 subtypes >>= _) = _
      rw [each_eq, bind_assoc]
      refine bind_congr fun replies => ?_
      dsimp only [Shape.plan, Shape.ruling]
      rw [pure_bind]
      cases refusals (outcomes replies) <;> rfl
  | anyOf subtypes => exact anyOf_eq common payload subtypes 0 []
  | oneOf subtypes =>
      show (each convert payload path 0 subtypes >>= _) = _
      rw [each_eq, bind_assoc]
      refine bind_congr fun replies => ?_
      dsimp only [Shape.plan, Shape.ruling]
      rw [pure_bind]
      rcases accepted (outcomes replies) with _ | ⟨_, _ | _⟩ <;> rfl
  | not subtypes => exact noneOf_eq common payload subtypes 0
  | _ => rfl

end Conversion

end SchemaGraph

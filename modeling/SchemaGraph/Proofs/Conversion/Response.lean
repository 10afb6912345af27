import SchemaGraph.Conversion.Converted
import SchemaGraph.Proofs.Conversion.Judgements
import SchemaGraph.Proofs.Shows

set_option autoImplicit false

/-! # Strict responses

A strict conversion of a response only judges: where it gives a value, that value shows the
payload. Nothing is cast and nothing takes the place of what is missing; a key that no node takes
is reported, and so is a key that must not be there.
-/

namespace SchemaGraph

namespace Conversion

variable {ι : Type}

/-- How a strict response is converted. -/
def strictResponse : Mode := ⟨.response, true⟩

/-- How a node converts in a strict response: a payload to what shows it, and nothing to no
value. -/
structure Echoes (convert : Converting ι) (node : ι) : Prop where
  shows : ∀ {payload}, payload.IsPlain → ∀ path s value,
    (convert node (some payload) path s).1 = .ok value → value.Shows payload
  there : ∀ {payload}, payload.IsPlain → ∀ path s,
    (convert node (some payload) path s).1 ≠ .error .undefined
  lacks : ∀ path s value, (convert node none path s).1 ≠ .ok value

end Conversion

/-- What a node calls on is a part of its payload. -/
theorem Shape.Calls.isPlain {ι : Type} {shape : Shape ι} {payload item : Json} {path place : Path}
    {node : ι} (h : shape.Calls payload path node (some item) place) (hplain : payload.IsPlain) :
    item.IsPlain := by
  have hentry : ∀ {key}, (key, item) ∈ payload.asObj?.getD [] → item.IsPlain := by
    intro key hmem
    cases payload with
    | obj entries => exact hplain.entry hmem
    | _ => cases hmem
  generalize hgiven : some item = given at h
  cases h with
  | item hmem =>
      cases hgiven
      cases payload with
      | arr items => exact hplain.item (List.mem_of_getElem? hmem)
      | _ => cases hmem
  | entry hmem =>
      cases hgiven
      exact hentry hmem
  | undeclared hmem =>
      cases hgiven
      exact hentry hmem
  | declared => exact hentry (Entries.mem_of_find? hgiven.symm)
  | selected | subtype =>
      cases hgiven
      exact hplain

namespace Conversion

section

variable {ι : Type} {convert : Converting ι} {shape : Shape ι} {payload : Json} {path : Path}
  {inquiry : Inquiry ι}

/-! ## Answers -/

/-- An answer shows what was asked about. -/
theorem shows_of_said (hnodes : ∀ node ∈ shape.children, Echoes convert node)
    (hplain : payload.IsPlain) (hinquiry : inquiry ∈ shape.inquiries strictResponse payload)
    {value : Value} (hanswer : Said convert path inquiry (.ok value)) :
    ∃ item, inquiry.input = some item ∧ value.Shows item := by
  obtain ⟨s, hanswer⟩ := hanswer
  have hcall := Shape.calls_of_mem hinquiry path
  have hnode := hnodes inquiry.node hcall.mem_children
  unfold Inquiry.part at hanswer
  cases hinput : inquiry.input with
  | none =>
      rw [hinput] at hanswer
      exact absurd hanswer (hnode.lacks _ s value)
  | some item =>
      rw [hinput] at hcall hanswer
      exact ⟨item, rfl, hnode.shows (hcall.isPlain hplain) _ s value hanswer⟩

/-- Only what is not there comes to no value. -/
theorem missing_of_said (hnodes : ∀ node ∈ shape.children, Echoes convert node)
    (hplain : payload.IsPlain) (hinquiry : inquiry ∈ shape.inquiries strictResponse payload)
    (hanswer : Said convert path inquiry (.error .undefined)) : inquiry.input = none := by
  obtain ⟨s, hanswer⟩ := hanswer
  have hcall := Shape.calls_of_mem hinquiry path
  unfold Inquiry.part at hanswer
  cases hinput : inquiry.input with
  | none => rfl
  | some item =>
      rw [hinput] at hcall hanswer
      exact absurd hanswer
        ((hnodes inquiry.node hcall.mem_children).there (hcall.isPlain hplain) _ s)

/-- An entry of the result shows the entry of the payload under its key. -/
theorem exists_of_held (hnodes : ∀ node ∈ shape.children, Echoes convert node)
    (hplain : payload.IsPlain) {isEager : Bool} {replies : List Reply}
    (heard : Heard (Said convert path) isEager (shape.inquiries strictResponse payload) replies)
    {place : Buckets.Place} {key : String} {value : Value}
    (h : (key, value) ∈ heldAt place replies) :
    ∃ item, (key, item) ∈ payload.asObj?.getD [] ∧ value.Shows item := by
  obtain ⟨reply, hreply, hslot, hvalue⟩ := mem_heldAt.1 h
  obtain ⟨inquiry, hinquiry, hsame, hanswer⟩ := heard.value_of_mem hreply hvalue
  obtain ⟨item, hinput, hshow⟩ := shows_of_said hnodes hplain hinquiry hanswer
  exact ⟨item, Shape.mem_of_property hinquiry (hsame.symm.trans hslot) hinput, hshow⟩

/-- Every key that is there and asked about is in the result. -/
theorem mem_held (hnodes : ∀ node ∈ shape.children, Echoes convert node)
    (hplain : payload.IsPlain) {replies : List Reply}
    (heard : Heard (Said convert path) false (shape.inquiries strictResponse payload) replies)
    (hnone : told replies = []) {place : Buckets.Place} {key : String}
    (hinquiry : inquiry ∈ shape.inquiries strictResponse payload)
    (hthere : inquiry.input ≠ none) (hslot : inquiry.slot = .property place key) :
    key ∈ (heldAt place replies).map Prod.fst := by
  rcases answered_of_told heard hnone hinquiry with
    ⟨value, -, reply, hreply, hsame, hvalue⟩ | ⟨-, h⟩
  · exact List.mem_map_of_mem (mem_heldAt.2 ⟨reply, hreply, hsame.trans hslot, hvalue⟩)
  · exact absurd (missing_of_said hnodes hplain hinquiry h) hthere

end

/-! ## Objects -/

section

variable {ι : Type} {convert : Converting ι}

variable {shape : ObjectShape ι} {payload : List (String × Json)} {path : Path}
  {replies : List Reply} {value : Value}

/-- What stands in the result of an object comes from the payload. -/
theorem exists_of_sorted (hnodes : ∀ node ∈ (Shape.object shape).children, Echoes convert node)
    (hplain : (Json.obj payload).IsPlain)
    (heard : Heard (Said convert path) false
      ((Shape.object shape).inquiries strictResponse (.obj payload)) replies) {key : String}
    (h : (key, value) ∈ (sorted shape payload replies).entries) :
    ∃ item, (key, item) ∈ payload ∧ value.Shows item := by
  rcases Buckets.mem_entries.1 h with h | h | h
  · exact exists_of_held hnodes hplain heard h
  · exact exists_of_held hnodes hplain heard h
  · rcases List.mem_append.1 h with h | h
    · obtain ⟨item, hitem, -, rfl⟩ := mem_verbatim h
      exact ⟨item, hitem, Value.shows_ofJson item (hplain.entry hitem)⟩
    · exact exists_of_held hnodes hplain heard h

/-- An object that converts has every key of the payload. -/
theorem Sorts.mem_sorted (h : Sorts strictResponse shape (.obj payload) replies value)
    (hnodes : ∀ node ∈ (Shape.object shape).children, Echoes convert node)
    (hplain : (Json.obj payload).IsPlain)
    (heard : Heard (Said convert path) false
      ((Shape.object shape).inquiries strictResponse (.obj payload)) replies) {key : String}
    (hkey : key ∈ payload.map Prod.fst) :
    key ∈ (sorted shape payload replies).entries.map Prod.fst := by
  have hheld : ∀ {inquiry : Inquiry ι} {place},
      inquiry ∈ (Shape.object shape).inquiries strictResponse (.obj payload) →
      inquiry.input ≠ none → inquiry.slot = .property place key →
      key ∈ (heldAt place replies).map Prod.fst := mem_held hnodes hplain heard h.told
  show key ∈ ((heldAt .declared replies ++ heldAt .pattern replies) ++
    (verbatim shape payload ++ heldAt .additional replies)).map Prod.fst
  simp only [List.map_append, List.mem_append]
  by_cases hdeclared : Entries.contains key shape.properties = true
  · obtain ⟨⟨name, node⟩, hproperty, heq⟩ := List.mem_map.1 (Entries.contains_iff.1 hdeclared)
    obtain rfl : name = key := heq
    have hasked : ⟨.property .declared name, node, Entries.find? name payload⟩ ∈
        (Shape.object shape).inquiries strictResponse (.obj payload) :=
      List.mem_append_right _ (mem_declaredInquiries.2 ⟨name, node, hproperty, h.kept hkey, rfl⟩)
    refine .inl (.inl (hheld hasked (fun hnone => ?_) rfl))
    exact Option.not_isSome_iff_eq_none.2 hnone (Entries.contains_iff.2 hkey)
  · obtain ⟨⟨name, item⟩, hitem, heq⟩ := List.mem_map.1 hkey
    obtain rfl : name = key := heq
    have hanswered : ∀ node ∈ (destination shape name).nodes,
        name ∈ (heldAt (destination shape name).place replies).map Prod.fst := fun node hnode =>
      hheld (List.mem_append_left _ (mem_undeclaredInquiries.2
        ⟨name, item, node, hitem, hdeclared, hnode, rfl⟩)) (fun hnone => nomatch hnone) rfl
    cases hdestination : destination shape name with
    | verbatim =>
        exact .inr (.inl (List.mem_map_of_mem
          (mem_verbatim_of_destination hdeclared hdestination hitem)))
    | refused =>
        have hmem := mem_refusedKeys_of_destination hdeclared hdestination hkey
        rw [show refusedKeys shape payload = [] from h.refused] at hmem
        cases hmem
    | pattern node =>
        rw [hdestination] at hanswered
        exact .inl (.inr (hanswered node List.mem_cons_self))
    | additional node =>
        rw [hdestination] at hanswered
        exact .inr (.inr (hanswered node List.mem_cons_self))

/-- An object that converts shows its payload. -/
theorem Sorts.shows (h : Sorts strictResponse shape (.obj payload) replies value)
    (hnodes : ∀ node ∈ (Shape.object shape).children, Echoes convert node)
    (hplain : (Json.obj payload).IsPlain)
    (heard : Heard (Said convert path) false
      ((Shape.object shape).inquiries strictResponse (.obj payload)) replies) :
    value.Shows (.obj payload) := by
  have hmembers : value.members? = some (sorted shape payload replies).entries := by
    rw [h.value]
    rfl
  refine Value.EntriesShow.shows (fun key part hpart => ?_) hmembers fun key hkey =>
    h.mem_sorted hnodes hplain heard hkey
  obtain ⟨item, hitem, hshow⟩ := exists_of_sorted hnodes hplain heard hpart
  refine ⟨List.mem_map_of_mem hitem, fun other hother => ?_⟩
  rw [hplain.unique hother hitem]
  exact hshow

end

end Conversion

/-! ## Nodes -/

/-- A strict response takes the payload over: neither are bytes encoded, nor is a combination
empty. -/
def Shape.echoes {ι : Type} : Shape ι → Bool
  | .text .bytes _ => false
  | .allOf [] => false
  | _ => true

/-- The same of a node, which does not follow references in the payload either. -/
def Node.echoes {ι : Type} : Node ι → Bool
  | .reference .. => false
  | .forward _ => true
  | .typed _ shape => shape.echoes

/-- A node that takes texts for bytes. -/
def Node.takesBytes {ι : Type} : Node ι → Bool
  | .typed _ (.text .bytes _) => true
  | _ => false

theorem Node.not_echoes {ι : Type} {node : Node ι} (h : node.takesBytes = true) :
    node.echoes = false := by
  unfold Node.takesBytes at h
  split at h
  · rfl
  · cases h

namespace Conversion

variable {ι : Type} {convert : Converting ι} {shape : Shape ι} {common : Common} {payload : Json}
  {path : Path} {replies : List Reply} {value : Value}

/-- A node that was handed the payload gave what shows it. -/
theorem shows_of_handed (hnodes : ∀ node ∈ shape.children, Echoes convert node)
    (hplain : payload.IsPlain)
    (heard : Heard (Said convert path) shape.isEager (shape.inquiries strictResponse payload)
      replies)
    (h : ∃ reply ∈ replies, reply.slot.isHanded = true ∧ reply.value? = some value) :
    value.Shows payload := by
  obtain ⟨reply, hreply, hslot, hvalue⟩ := h
  obtain ⟨inquiry, hinquiry, hsame, hanswer⟩ := heard.value_of_mem hreply hvalue
  obtain ⟨item, hinput, hshow⟩ := shows_of_said hnodes hplain hinquiry hanswer
  rw [Shape.input_of_handed hinquiry (hsame ▸ hslot)] at hinput
  cases hinput
  exact hshow

/-- A list without errors has a value for each item. -/
theorem list_shows {node : ι} {items : List Json} (hnode : Echoes convert node)
    (hplain : (Json.arr items).IsPlain)
    (heard : Heard (Said convert path) false (itemInquiries node 0 items) replies)
    (hnone : told replies = []) : (Value.array (held replies)).Shows (.arr items) := by
  have hheld := held_forall₂ heard hnone fun inquiry hinquiry => by
    obtain ⟨_, -, rfl⟩ := List.mem_map.1 hinquiry
    rfl
  obtain ⟨hlength, hget⟩ := List.forall₂_iff_get.1 hheld
  have hitems : (itemInquiries node 0 items).length = items.length := by
    unfold itemInquiries
    rw [List.length_map, List.length_zipIdx]
  refine .array (hlength.symm.trans hitems) fun i value item hvalue hitem => ?_
  obtain ⟨hi, rfl⟩ := List.getElem?_eq_some_iff.1 hvalue
  obtain ⟨hj, rfl⟩ := List.getElem?_eq_some_iff.1 hitem
  obtain ⟨s, hanswer⟩ := hget i (hitems.symm ▸ hj) hi
  have hasked : (itemInquiries node 0 items).get ⟨i, hitems.symm ▸ hj⟩ =
      ⟨.item i, node, some items[i]⟩ := by
    simp [itemInquiries]
  rw [hasked] at hanswer
  exact hnode.shows (hplain.item (List.getElem_mem hj)) _ s _ hanswer

/-- A map without errors has a value under each key. -/
theorem map_shows {node : ι} {size : CountBounds} {payload : List (String × Json)}
    (hnodes : ∀ child ∈ (Shape.map node size).children, Echoes convert child)
    (hplain : (Json.obj payload).IsPlain)
    (heard : Heard (Said convert path) false
      ((Shape.map node size).inquiries strictResponse (.obj payload)) replies)
    (hnone : told replies = []) :
    (Value.map (heldAt .additional replies)).Shows (.obj payload) := by
  have hmembers : (Value.map (heldAt .additional replies)).members? =
    some (heldAt .additional replies) := rfl
  refine Value.EntriesShow.shows (fun key value hvalue => ?_) hmembers fun key hkey => ?_
  · obtain ⟨item, hitem, hshow⟩ := exists_of_held hnodes hplain heard hvalue
    refine ⟨List.mem_map_of_mem hitem, fun part hpart => ?_⟩
    rw [hplain.unique hpart hitem]
    exact hshow
  · obtain ⟨⟨name, item⟩, hitem, hname⟩ := List.mem_map.1 hkey
    obtain rfl : name = key := hname
    have hasked : ⟨.property .additional name, node, some item⟩ ∈
        (Shape.map node size).inquiries strictResponse (.obj payload) :=
      List.mem_map.2 ⟨(name, item), hitem, rfl⟩
    exact mem_held hnodes hplain heard hnone hasked (fun h => nomatch h) rfl

/-- Where no subtype refuses, each has a value. -/
theorem accepted_of_all {subtypes : List ι} (hne : subtypes ≠ [])
    (heard : Heard (Said convert path) false (subtypeInquiries payload 0 subtypes) replies)
    (hnone : told replies = []) : (accepted (outcomes replies)).map Prod.snd ≠ [] := by
  have hheld := held_forall₂ heard hnone fun inquiry hinquiry => by
    obtain ⟨_, -, rfl⟩ := List.mem_map.1 hinquiry
    rfl
  rw [accepted_eq_held (subtype_of_heard heard)]
  intro hempty
  rw [hempty] at hheld
  cases subtypes with
  | nil => exact hne rfl
  | cons => cases hheld

/-- What a node makes of answers that show their parts shows the payload. -/
theorem ruling_shows (hshape : shape.echoes = true)
    (hnodes : ∀ node ∈ shape.children, Echoes convert node) (hplain : payload.IsPlain)
    (hadmits : shape.admits payload = true)
    (heard : Heard (Said convert path) shape.isEager (shape.inquiries strictResponse payload)
      replies)
    (h : shape.ruling strictResponse common payload path replies = .ok value) :
    value.Shows payload := by
  cases made_of_ruling h with
  | same => exact Value.shows_ofJson payload hplain
  | passed hvalue => exact shows_of_handed hnodes hplain heard hvalue
  | object =>
      cases payload with
      | obj payload =>
          exact (object_ok h).shows hnodes hplain heard
      | _ => cases hadmits
  | list hnone =>
      cases payload with
      | arr items => exact list_shows (hnodes _ List.mem_cons_self) hplain heard hnone
      | _ => cases hadmits
  | map hnone =>
      cases payload with
      | obj payload => exact map_shows hnodes hplain heard hnone
      | _ => cases hadmits
  | @merged subtypes =>
      have hne : subtypes ≠ [] := by
        rintro rfl
        cases hshape
      refine Value.merge_shows (accepted_of_all hne heard (told_of_ruling rfl heard h)) ?_
      exact fun value hvalue => shows_of_handed hnodes hplain heard (reply_of_accepted hvalue)

theorem encoded_response {format : TextFormat} (hformat : format ≠ .bytes) (payload : Json) :
    format.encoded .response payload = payload := by
  cases format with
  | bytes => exact absurd rfl hformat
  | _ => rfl

/-- A text that shows the payload is finished to itself. -/
theorem finished_shows (hshape : shape.echoes = true) (hvalue : value.Shows payload)
    {result : Value} (h : shape.finished strictResponse common path value = .ok result) :
    result.Shows payload := by
  unfold Shape.finished at h
  split at h
  · rename_i format bounds written
    split at h
    · rename_i hfinish
      cases h
      have hsame : result = .string written := by
        cases format with
        | bytes => cases hshape
        | uuid =>
            obtain ⟨_, _, rfl⟩ := Option.map_eq_some_iff.1 hfinish
            rfl
        | _ => exact (Option.some.inj hfinish).symm
      rw [hsame]
      exact hvalue
    · cases h
  · cases h
    exact hvalue

/-- A node echoes if its children do. -/
theorem step_echo (self : ι) {node : Node ι} (hnode : node.echoes = true)
    (hnodes : ∀ child ∈ node.children, Echoes convert child) :
    Echoes (fun _ => step convert strictResponse self node) self := by
  cases node with
  | reference messages target => cases hnode
  | forward target =>
      have htarget := hnodes target List.mem_cons_self
      exact ⟨htarget.shows, htarget.there, htarget.lacks⟩
  | typed common shape =>
      have hshape : shape.echoes = true := hnode
      refine ⟨fun {payload} hplain path s value h => ?_, fun {payload} hplain path s => ?_,
        fun path s value h => ?_⟩
      · obtain ⟨given, replies, hgiven, hjudgement⟩ := typed_ok h
        -- only bytes are encoded
        have hsame : given = payload := by
          cases shape with
          | text format bounds =>
              have hformat : format ≠ .bytes := by
                rintro rfl
                cases hshape
              exact (Option.some.inj hgiven).symm.trans (encoded_response hformat payload)
          | _ => exact (Option.some.inj hgiven).symm
        subst hsame
        cases hjudgement with
        | null hnull =>
            cases given with
            | null => exact .null
            | _ => cases hnull
        | made _ hcoerced hadmits heard hruled _ hfinished =>
            obtain rfl := (coercedTo_ok hcoerced).resolve_right fun h => nomatch h.1
            exact finished_shows hshape
              (ruling_shows hshape hnodes hplain hadmits heard hruled) hfinished
      · exact typed_there rfl (fun hcall => (hnodes _ hcall.mem_children).there
          (hcall.isPlain hplain) _) self s
      · obtain ⟨given, replies, hgiven, -⟩ := typed_ok h
        rw [present?_given.2 rfl] at hgiven
        cases hgiven

end Conversion

/-! ## Graphs -/

namespace Graph

/-- A node that parts of a payload, or the payload itself, may convert through. -/
inductive Reaches (graph : Graph) (entry : NodeId) : NodeId → Prop where
  | here : Reaches graph entry entry
  | child {id child : NodeId} {node : Node} (parent : Reaches graph entry id)
      (found : graph.get? id = some node) (mem : child ∈ node.children) : Reaches graph entry child

/-- Strict responses are taken over by a graph whose nodes do so, however deep. -/
theorem convertWithin_echo {graph : Graph} {entry : NodeId}
    (h : ∀ id node, graph.Reaches entry id → graph.get? id = some node → node.echoes = true)
    (fuel : Nat) : ∀ id, graph.Reaches entry id →
      Conversion.Echoes (graph.convertWithin Conversion.strictResponse fuel) id := by
  induction fuel with
  | zero =>
      intro id _
      refine ⟨fun _ path s value h => ?_, fun _ path s h => ?_, fun path s value h => ?_⟩ <;>
        cases h
  | succ fuel ih =>
      intro id hid
      unfold convertWithin
      cases hget : graph.get? id with
      | none =>
          refine ⟨fun _ path s value h => ?_, fun _ path s h => ?_, fun path s value h => ?_⟩ <;>
            rw [hget] at h <;> cases h
      | some node =>
          have hstep := Conversion.step_echo id (h id node hid hget) fun child hchild =>
            ih child (.child hid hget hchild)
          refine ⟨fun hplain path s value h => ?_, fun hplain path s h => ?_,
            fun path s value h => ?_⟩ <;> rw [hget] at h
          · exact hstep.shows hplain path s value h
          · exact hstep.there hplain path s h
          · exact hstep.lacks path s value h

/-- Seen from outside: a value that comes out is the payload. -/
theorem convertAt_shows {graph : Graph} {fuel : Nat} {entry : NodeId}
    (h : Conversion.Echoes (graph.convertWithin Conversion.strictResponse fuel) entry)
    {payload : Json} (hplain : payload.IsPlain) (path : Path) (resolver : Option Resolver) :
    (graph.convertAt fuel entry (some payload) path Conversion.strictResponse resolver).1 ≠
        .nothing ∧
      ∀ result,
        (graph.convertAt fuel entry (some payload) path Conversion.strictResponse resolver).1 =
          .converted result → result.value.toJson = payload := by
  have hshows := h.shows hplain path (.start resolver)
  have hthere := h.there hplain path (.start resolver)
  unfold convertAt
  generalize graph.convertWithin Conversion.strictResponse fuel entry (some payload) path
    (.start resolver) = run at hshows hthere ⊢
  obtain ⟨r, s⟩ := run
  cases r with
  | ok value =>
      refine ⟨(fun hnothing => by cases hnothing), fun result hresult => ?_⟩
      cases hresult
      exact (hshows value rfl).toJson hplain.regular
  | error failure =>
      refine ⟨fun hnothing => ?_, fun result hresult => ?_⟩
      · cases failure with
        | undefined => exact hthere rfl
        | _ => cases hnothing
      · cases failure <;> cases hresult

theorem convert_shows {graph : Graph} {fuel : Nat} {entry : NodeId}
    (h : Conversion.Echoes (graph.convertWithin Conversion.strictResponse fuel) entry)
    {payload : Json} (hplain : payload.IsPlain) {result : Converted}
    (hresult : graph.convert fuel entry payload Conversion.strictResponse = .converted result) :
    result.value.toJson = payload := by
  obtain ⟨hsome, hshown⟩ := convertAt_shows h hplain .root none
  unfold convert at hresult
  split at hresult
  · rename_i hnothing
    exact absurd hnothing hsome
  · exact hshown result hresult

end Graph

end SchemaGraph

import SchemaGraph.Proofs.Conversion.Parts
import SchemaGraph.Proofs.Links

set_option autoImplicit false

/-! # Contracts of conversions

A contract says what every conversion of a node finds and what it brings about: relations between
the registry before and after it, one for each way to end, and the links that its value may hold.
A node that follows no references keeps a contract if the conversions of its parts do
(`Contract.step_typed`). Every part starts with no reference being followed, ends so, and gives
no signal, except that one which is missing may come to no value.

Subtypes whose errors are dropped (`anyOf`, `oneOf`, `not`) are held to more: also when they
refuse, they must bring about what a value does.

Contracts compare two conversions, which must run alike wherever the contract lets them start.
-/

namespace SchemaGraph

namespace Conversion

variable {α β γ ι : Type}

/-! ## Ends of runs -/

/-- How a run may end. No run may end for lack of a node. -/
structure Ending (α : Type) where
  value : α → ConversionState → Prop
  errors : ConversionState → Prop
  missing : ConversionState → Prop
  recursive : ConversionState → Prop
  /-- Fuel may run out. -/
  tires : Prop

namespace Ending

def Allows (ending : Ending α) : Except Failure α × ConversionState → Prop
  | (.ok a, t) => ending.value a t
  | (.error (.errors _), t) => ending.errors t
  | (.error .undefined, t) => ending.missing t
  | (.error .recursive, t) => ending.recursive t
  | (.error .outOfFuel, _) => ending.tires
  | (.error .noNode, _) => False

/-- With a value, unless fuel runs out. -/
def only (value : α → ConversionState → Prop) (tires : Prop) : Ending α :=
  ⟨value, fun _ => False, fun _ => False, fun _ => False, tires⟩

/-- What fails in the one way fails in the other. -/
structure Leaves (ending : Ending α) (ending' : Ending β) : Prop where
  errors : ∀ t, ending.errors t → ending'.errors t
  missing : ∀ t, ending.missing t → ending'.missing t
  recursive : ∀ t, ending.recursive t → ending'.recursive t
  tires : ending.tires → ending'.tires

theorem leaves_only {value : α → ConversionState → Prop} {tires : Prop} {ending' : Ending β}
    (h : tires → ending'.tires) : (only value tires).Leaves ending' :=
  ⟨fun _ => False.elim, fun _ => False.elim, fun _ => False.elim, h⟩

end Ending

/-- Both conversions run alike from a state, and end as is allowed. -/
structure Meets (ending : Ending α) (m m' : Conversion α) (s : ConversionState) : Prop where
  same : m' s = m s
  allows : ending.Allows (m s)

namespace Meets

variable {ending : Ending α} {ending' : Ending β} {m m' : Conversion α} {f f' : α → Conversion β}
  {s : ConversionState}

theorem of_run (run : Except Failure α × ConversionState) (h : m s = run) (h' : m' s = run)
    (hallows : ending.Allows run) : Meets ending m m' s :=
  ⟨h'.trans h.symm, h ▸ hallows⟩

theorem pure {a : α} (h : ending.value a s) : Meets ending (Pure.pure a) (Pure.pure a) s :=
  ⟨rfl, h⟩

theorem refuse {errors : SchemaErrors} (h : ending.errors s) :
    Meets ending (fail (.errors errors)) (fail (.errors errors)) s :=
  ⟨rfl, h⟩

/-- What follows may build on the first run. -/
theorem bind_of_run (hm : Meets ending m m' s) (hothers : ending.Leaves ending')
    (hvalue : ∀ a t, m s = (.ok a, t) → ending.value a t → Meets ending' (f a) (f' a) t) :
    Meets ending' (m >>= f) (m' >>= f') s := by
  obtain ⟨hsame, hallows⟩ := hm
  unfold Ending.Allows at hallows
  rcases hrun : m s with ⟨failure | a, t⟩
  · rw [hrun] at hsame hallows
    refine of_run (.error failure, t) ?_ ?_ ?_
    · rw [run_bind, hrun]
    · rw [run_bind, hsame]
    · cases failure with
      | errors errors => exact hothers.errors t hallows
      | undefined => exact hothers.missing t hallows
      | recursive => exact hothers.recursive t hallows
      | outOfFuel => exact hothers.tires hallows
      | noNode => exact hallows
  · rw [hrun] at hsame hallows
    obtain ⟨hnext, hends⟩ := hvalue a t hrun hallows
    refine ⟨?_, ?_⟩
    · rw [run_bind_of_ok hsame, run_bind_of_ok hrun, hnext]
    · rw [run_bind_of_ok hrun]
      exact hends

theorem bind (hm : Meets ending m m' s) (hothers : ending.Leaves ending')
    (hvalue : ∀ a t, ending.value a t → Meets ending' (f a) (f' a) t) :
    Meets ending' (m >>= f) (m' >>= f') s :=
  hm.bind_of_run hothers fun a t _ => hvalue a t

theorem mono {other : Ending α} (hm : Meets ending m m' s) (hothers : ending.Leaves other)
    (hvalue : ∀ a t, ending.value a t → other.value a t) : Meets other m m' s := by
  refine ⟨hm.same, ?_⟩
  have hallows := hm.allows
  generalize m s = run at hallows ⊢
  rcases run with ⟨(_ | _ | _ | _ | _) | a, t⟩
  · exact hothers.errors t hallows
  · exact hothers.missing t hallows
  · exact hothers.recursive t hallows
  · exact hothers.tires hallows
  · exact hallows
  · exact hvalue a t hallows

end Meets

/-! ## Contracts -/

/-- What is known of a resolver, whatever it is asked. -/
structure World where
  holds : Resolver → Prop
  /-- The references that may be met. -/
  meets : String → Prop
  resolve : ∀ {r}, holds r → ∀ {reference}, meets reference → holds (r.resolve reference).2
  enter : ∀ {r}, holds r → ∀ {reference url value}, meets reference →
    (r.resolve reference).1 = .ok (url, value) → holds ((r.resolve reference).2.pushScope url)
  leave : ∀ {r}, holds r → holds r.leaveScope

/-- What conversions find (`holds`), what they bring about with a value (`done`), with errors
(`failed`) and without either (`skipped`), and the links that may stand in a value. -/
structure Contract (world : World) where
  holds : Registry → Prop
  done : Registry → Registry → Prop
  failed : Registry → Registry → Prop
  skipped : Registry → Registry → Prop
  linkable : Registry → Registry → Path → Prop
  /-- Fuel may run out. -/
  tires : Prop
  skipped_refl : ∀ g, skipped g g
  done_of_skipped : ∀ {g h}, skipped g h → done g h
  failed_of_done : ∀ {g h}, done g h → failed g h
  done_trans : ∀ {g h k}, done g h → done h k → done g k
  failed_trans : ∀ {g h k}, failed g h → failed h k → failed g k
  linkable_before : ∀ {g h k path}, done g h → linkable h k path → linkable g k path
  linkable_after : ∀ {g h k path}, linkable g h path → done h k → linkable g k path

namespace Contract

variable {world : World} (contract : Contract world) {s t u : ConversionState} {absent : Prop}

theorem done_refl (g : Registry) : contract.done g g :=
  contract.done_of_skipped (contract.skipped_refl g)

theorem failed_refl (g : Registry) : contract.failed g g :=
  contract.failed_of_done (contract.done_refl g)

/-- A state that the contract speaks of. -/
structure Ready (s : ConversionState) : Prop where
  holds : contract.holds s.registry
  world : ∀ r, s.resolver = some r → world.holds r

/-- The same after a run, with the same references being followed. -/
structure Back (visited : List Path) (t : ConversionState) : Prop extends contract.Ready t where
  visited : t.visited = visited

/-- How the conversion of a node ends; `absent` if what it is given may be missing. -/
def ending (s : ConversionState) (absent : Prop) : Ending Value where
  value value t := contract.Back s.visited t ∧ contract.done s.registry t.registry ∧
    ∀ path, value.Links path → contract.linkable s.registry t.registry path
  errors t := contract.Back s.visited t ∧ contract.failed s.registry t.registry
  missing t := absent ∧ contract.Back s.visited t ∧ contract.skipped s.registry t.registry
  recursive t := s.visited ≠ [] ∧ contract.Back s.visited t ∧ contract.failed s.registry t.registry
  tires := contract.tires

/-- The conversions keep the contract wherever no reference is being followed. -/
def Allows (absent : Prop) (m m' : Conversion Value) : Prop :=
  ∀ s, contract.Ready s → s.visited = [] → Meets (contract.ending s absent) m m' s

/-- Errors bring about what values do. -/
def Tolerant : Prop := ∀ g h, contract.failed g h → contract.done g h

/-- The contract for parts whose errors are dropped. -/
def tolerant : Contract world :=
  { contract with
    failed := contract.done
    failed_of_done := id
    failed_trans := contract.done_trans }

theorem tolerant_isTolerant : contract.tolerant.Tolerant := fun _ _ => id

variable {contract}

theorem Ready.back (h : contract.Ready s) : contract.Back s.visited s := ⟨h, rfl⟩

theorem Back.trans (hst : contract.Back s.visited t) (htu : contract.Back t.visited u) :
    contract.Back s.visited u :=
  ⟨htu.toReady, htu.visited.trans hst.visited⟩

theorem meets_mono {m m' : Conversion Value} {other : Prop}
    (h : Meets (contract.ending s absent) m m' s) (himp : absent → other) :
    Meets (contract.ending s other) m m' s :=
  h.mono ⟨fun _ => id, fun _ => And.imp_left himp, fun _ => id, id⟩ fun _ _ => id

theorem meets_of_tolerant {m m' : Conversion Value}
    (h : Meets (contract.tolerant.ending s absent) m m' s) :
    Meets (contract.ending s absent) m m' s := by
  have hback : ∀ {t}, contract.tolerant.Back s.visited t → contract.Back s.visited t :=
    fun h => ⟨⟨h.holds, h.world⟩, h.visited⟩
  refine h.mono ⟨fun t ht => ?_, fun t ht => ?_, fun t ht => ?_, id⟩ fun value t ht => ?_
  · exact ⟨hback ht.1, contract.failed_of_done ht.2⟩
  · exact ⟨ht.1, hback ht.2.1, ht.2.2⟩
  · exact ⟨ht.1, hback ht.2.1, contract.failed_of_done ht.2.2⟩
  · exact ⟨hback ht.1, ht.2⟩

/-- What is met after a part that brought about what a value does is met from the start. -/
theorem meets_after {m m' : Conversion Value} (hback : contract.Back s.visited t)
    (hdone : contract.done s.registry t.registry) (h : Meets (contract.ending t False) m m' t) :
    Meets (contract.ending s absent) m m' t := by
  refine h.mono ⟨fun u hu => ?_, fun u hu => hu.1.elim, fun u hu => ?_, id⟩ fun value u hu => ?_
  · exact ⟨hback.trans hu.1, contract.failed_trans (contract.failed_of_done hdone) hu.2⟩
  · exact ⟨hback.visited ▸ hu.1, hback.trans hu.2.1,
      contract.failed_trans (contract.failed_of_done hdone) hu.2.2⟩
  · exact ⟨hback.trans hu.1, contract.done_trans hdone hu.2.1,
      fun path hlinks => contract.linkable_before hdone (hu.2.2 path hlinks)⟩

/-! ## Gathering parts -/

variable (contract) in
/-- What several parts brought about: if there were no errors (`clean`), or they make no
difference, what a value does. -/
structure Gathered (s t : ConversionState) (clean : Prop) (links : Path → Prop) : Prop where
  back : contract.Back s.visited t
  failed : contract.failed s.registry t.registry
  done : clean ∨ contract.Tolerant → contract.done s.registry t.registry
  links : clean ∨ contract.Tolerant → ∀ path, links path →
    contract.linkable s.registry t.registry path

namespace Gathered

variable {clean clean' : Prop} {links links' : Path → Prop}

theorem start (clean : Prop) (h : contract.Ready s) (hlinks : ∀ path, ¬links path) :
    contract.Gathered s s clean links where
  back := h.back
  failed := contract.failed_refl _
  done _ := contract.done_refl _
  links _ path hpath := absurd hpath (hlinks path)

theorem trans (hst : contract.Gathered s t clean links)
    (htu : contract.Gathered t u clean' links') :
    contract.Gathered s u (clean ∧ clean') fun path => links path ∨ links' path where
  back := hst.back.trans htu.back
  failed := contract.failed_trans hst.failed htu.failed
  done h := contract.done_trans (hst.done (h.imp_left And.left)) (htu.done (h.imp_left And.right))
  links h path hpath := by
    rcases hpath with hpath | hpath
    · exact contract.linkable_after (hst.links (h.imp_left And.left) path hpath)
        (htu.done (h.imp_left And.right))
    · exact contract.linkable_before (hst.done (h.imp_left And.left))
        (htu.links (h.imp_left And.right) path hpath)

theorem mono (h : contract.Gathered s t clean links) (hclean : clean' → clean)
    (hlinks : ∀ path, links' path → links path) : contract.Gathered s t clean' links' where
  back := h.back
  failed := h.failed
  done hends := h.done (hends.imp_left hclean)
  links hends path hpath := h.links (hends.imp_left hclean) path (hlinks path hpath)

/-- After the parts come errors. -/
theorem refuse (h : contract.Gathered s t clean links) (errors : SchemaErrors) :
    Meets (contract.ending s absent) (fail (.errors errors)) (fail (.errors errors)) t :=
  .refuse ⟨h.back, h.failed⟩

/-- After the parts comes a value with no other links. -/
theorem value (h : contract.Gathered s t clean links) (hclean : clean ∨ contract.Tolerant)
    {value : Value} (hlinks : ∀ path, value.Links path → links path) :
    Meets (contract.ending s absent) (pure value) (pure value) t :=
  .pure ⟨h.back, h.done hclean, fun path hpath => h.links hclean path (hlinks path hpath)⟩

end Gathered

/-! ## Replies -/

/-- The links in values that were heard. -/
def Mentions (replies : List Reply) (path : Path) : Prop :=
  ∃ reply ∈ replies, ∃ value, reply.value? = some value ∧ value.Links path

variable {convert convert' : Converting ι} {path : Path}

variable (contract) in
/-- Wherever it stands, the conversion of a part keeps the contract. -/
def AllowsPart (convert convert' : Converting ι) (part : Part ι) : Prop :=
  ∀ path, contract.Allows (part.2 = none) (convert part.1 part.2 path) (convert' part.1 part.2 path)

/-- A part that is there comes to a value or to errors. -/
theorem AllowsPart.given {node : ι} {payload : Json}
    (h : contract.AllowsPart convert convert' (node, some payload)) (path : Path) :
    contract.Allows False (convert node (some payload) path) (convert' node (some payload) path) :=
  fun s hready hs => meets_mono (h path s hready hs) fun habsent => by cases habsent

variable (contract) in
/-- The part that answers a question keeps the contract, and lacks a value where it may. -/
def AllowsInquiry (convert convert' : Converting ι) (path : Path) (inquiry : Inquiry ι) : Prop :=
  contract.Allows (inquiry.slot.mayLack = true) (inquiry.part convert path)
    (inquiry.part convert' path)

theorem AllowsPart.inquiry {inquiry : Inquiry ι}
    (h : contract.AllowsPart convert convert' inquiry.asked)
    (hinput : inquiry.slot.mayLack = false → ∃ item, inquiry.input = some item) (path : Path) :
    contract.AllowsInquiry convert convert' path inquiry := by
  intro s hready hs
  refine meets_mono (h _ s hready hs) fun hnone => Bool.of_not_eq_false fun hslot => ?_
  obtain ⟨item, hitem⟩ := hinput hslot
  cases hitem.symm.trans hnone

variable (contract) in
/-- Parts that come to replies. -/
def gathering (s : ConversionState) : Ending (List Reply) :=
  .only (fun replies t => contract.Gathered s t (told replies = []) (Mentions replies))
    contract.tires

theorem inquire_meets {inquiry : Inquiry ι}
    (h : contract.AllowsInquiry convert convert' path inquiry) (hready : contract.Ready s)
    (hs : s.visited = []) :
    Meets (.only (fun here t => contract.Gathered s t (told [here] = []) (Mentions [here]))
      contract.tires) (inquire convert path inquiry) (inquire convert' path inquiry) s := by
  obtain ⟨hsame, hallows⟩ := h s hready hs
  refine ⟨by rw [run_inquire, run_inquire, hsame], ?_⟩
  have hsilent : ∀ {reply : Reply} path, reply.value? = none → ¬Mentions [reply] path := by
    rintro reply path hnone ⟨_, hreply, value, hvalue, -⟩
    obtain rfl := List.mem_singleton.1 hreply
    cases hnone.symm.trans hvalue
  rw [run_inquire]
  generalize inquiry.part convert path s = run at hallows ⊢
  rcases run with ⟨(errors | _ | _ | _ | _) | value, t⟩
  · refine ⟨hallows.1, hallows.2, fun hends => ?_,
      fun _ path hpath => absurd hpath (hsilent path rfl)⟩
    exact hends.resolve_left (fun h => nomatch h) _ _ hallows.2
  · obtain ⟨hslot, hback, hskipped⟩ := hallows
    have hdone := contract.done_of_skipped hskipped
    dsimp only
    rw [if_pos hslot]
    exact ⟨hback, contract.failed_of_done hdone, fun _ => hdone,
      fun _ path hpath => absurd hpath (hsilent path rfl)⟩
  · exact absurd hs hallows.1
  · exact hallows
  · exact hallows
  · refine ⟨hallows.1, contract.failed_of_done hallows.2.1, fun _ => hallows.2.1, fun _ path => ?_⟩
    rintro ⟨_, hreply, _, hvalue, hlinks⟩
    obtain rfl := List.mem_singleton.1 hreply
    cases hvalue
    exact hallows.2.2 path hlinks

/-- What the parts bring about is gathered, one after the other. -/
theorem inquireAll_meets (isEager : Bool) : ∀ {inquiries : List (Inquiry ι)} {s : ConversionState},
    (∀ inquiry ∈ inquiries, contract.AllowsInquiry convert convert' path inquiry) →
    contract.Ready s → s.visited = [] →
    Meets (contract.gathering s) (inquireAll convert path isEager inquiries)
      (inquireAll convert' path isEager inquiries) s
  | [], _, _, hready, _ => .pure (.start _ hready fun _ ⟨_, hreply, _⟩ => nomatch hreply)
  | first :: rest, s, h, hready, hs => by
      refine (inquire_meets (h first List.mem_cons_self) hready hs).bind
        (Ending.leaves_only id) fun here t hhere => ?_
      have hrest := inquireAll_meets isEager
        (fun inquiry hinquiry => h inquiry (List.mem_cons_of_mem first hinquiry))
        hhere.back.toReady (hhere.back.visited.trans hs)
      split
      · exact .pure hhere
      · refine hrest.bind (Ending.leaves_only id) fun more u hmore => .pure ?_
        refine (hhere.trans hmore).mono (fun hnone => ?_) fun path hpath => ?_
        · have hboth : told [here] ++ told more = [] := by
            rw [← hnone]
            exact List.flatMap_append.symm
          exact List.append_eq_nil_iff.1 hboth
        · obtain ⟨reply, hreply, hvalue⟩ := hpath
          rcases List.mem_cons.1 hreply with rfl | hreply
          · exact .inl ⟨reply, List.mem_cons_self, hvalue⟩
          · exact .inr ⟨reply, hreply, hvalue⟩

/-- A plan keeps a contract if its parts do, and if it comes to values without dropping errors,
where those make a difference, and with no links but those it heard of. -/
theorem plan_allows {plan : Plan ι}
    (h : ∀ inquiry ∈ plan.inquiries, contract.AllowsInquiry convert convert' path inquiry)
    (hruling : ∀ replies value, Heard (Said convert path) plan.isEager plan.inquiries replies →
      plan.ruling replies = .ok value →
      (told replies = [] ∨ contract.Tolerant) ∧ ∀ path, value.Links path → Mentions replies path) :
    contract.Allows absent (plan.run convert path) (plan.run convert' path) := by
  intro s hready hs
  refine (inquireAll_meets plan.isEager h hready hs).bind_of_run (Ending.leaves_only id)
    fun replies t hrun hgathered => ?_
  cases hruled : plan.ruling replies with
  | error errors => exact hgathered.refuse errors
  | ok value =>
      obtain ⟨hclean, hlinks⟩ := hruling replies value (heard_of_inquireAll hrun) hruled
      exact hgathered.value hclean hlinks

end Contract

end Conversion

/-! ## Nodes without references -/

/-- The parts of a payload convert through children of the node. -/
theorem Shape.parts_children {ι : Type} {mode : Mode} {payload : Json} {part : Part ι}
    {shape : Shape ι} (h : part ∈ shape.parts mode payload) : part.1 ∈ shape.children := by
  rw [Shape.parts_eq] at h
  obtain ⟨inquiry, hinquiry, rfl⟩ := List.mem_map.1 h
  exact (Shape.calls_of_mem hinquiry .root).mem_children

theorem Node.parts_children {ι : Type} {mode : Mode} {input : Option Json} {part : Part ι}
    {node : Node ι} (h : part ∈ node.parts mode input) : part.1 ∈ node.children := by
  cases node with
  | forward target =>
      rcases List.mem_singleton.1 h with rfl
      exact List.mem_cons_self
  | reference messages target => cases h
  | typed common shape =>
      unfold Node.parts at h
      dsimp only at h
      split at h
      · cases h
      · exact Shape.parts_children h

namespace Conversion

namespace Contract

variable {ι : Type} {world : World} {contract : Contract world} {absent : Prop}
  {convert convert' : Converting ι} {payload : Json} {path : Path} {mode : Mode} {common : Common}
  {shape : Shape ι}

/-- A value links to nothing but what was heard of. -/
theorem mentions_of_made {replies : List Reply} {value : Value}
    (h : Made payload replies shape value) {location : Path} (hlinks : value.Links location) :
    Mentions replies location := by
  have hheldAt : ∀ {place entry}, entry ∈ heldAt place replies → entry.2.Links location →
      Mentions replies location := by
    intro place entry hentry hlinks
    obtain ⟨reply, hreply, hvalue⟩ := List.mem_filterMap.1 hentry
    split at hvalue
    · cases hvalue
      exact ⟨reply, hreply, _, ‹_›, hlinks⟩
    · cases hvalue
  cases h with
  | same => exact absurd hlinks (Value.not_links_ofJson payload)
  | list =>
      obtain ⟨value, hvalue, hlinks⟩ := Value.links_array.1 hlinks
      obtain ⟨reply, hreply, hgiven⟩ := List.mem_filterMap.1 hvalue
      exact ⟨reply, hreply, value, hgiven, hlinks⟩
  | map =>
      obtain ⟨entry, hentry, hlinks⟩ := Value.links_map.1 hlinks
      exact hheldAt hentry hlinks
  | object =>
      obtain ⟨entry, hentry, hlinks⟩ := Value.links_object.1 hlinks
      rcases Buckets.mem_entries.1 hentry with hentry | hentry | hentry
      · exact hheldAt hentry hlinks
      · exact hheldAt hentry hlinks
      · rcases List.mem_append.1 hentry with hentry | hentry
        · obtain ⟨item, -, -, hvalue⟩ := mem_verbatim hentry
          rw [hvalue] at hlinks
          exact absurd hlinks (Value.not_links_ofJson item)
        · exact hheldAt hentry hlinks
  | merged =>
      obtain ⟨value, hvalue, hlinks⟩ := Value.links_merge hlinks
      obtain ⟨reply, hreply, -, hgiven⟩ := reply_of_accepted hvalue
      exact ⟨reply, hreply, value, hgiven, hlinks⟩
  | passed hvalue =>
      obtain ⟨reply, hreply, -, hgiven⟩ := hvalue
      exact ⟨reply, hreply, value, hgiven, hlinks⟩

/-- A node that follows no references keeps a contract if its parts do. -/
theorem step_typed_of_tolerant {self : ι} {input : Option Json}
    (h : ∀ part ∈ (Node.typed common shape).parts mode input,
      contract.AllowsPart convert convert' part)
    (htolerant : shape.swallows = true → contract.Tolerant) :
    contract.Allows (input = none) (step convert mode self (.typed common shape) input path)
      (step convert' mode self (.typed common shape) input path) := by
  rw [Conversion.step_typed, Conversion.step_typed]
  cases hplan : typedPlan mode common shape input path with
  | none =>
      have hinput : input = none := by
        cases input with
        | none => rfl
        | some payload => cases typedPlan_eq_none.1 hplan
      exact fun s hready _ => ⟨rfl, hinput, hready.back, contract.skipped_refl _⟩
  | some plan =>
      refine plan_allows (fun inquiry hinquiry => ?_) fun replies value heard hruling => ?_
      · obtain ⟨payload, hpresent, -, -, hmem⟩ := mem_of_typedPlan hplan hinquiry
        refine AllowsPart.inquiry (h _ ?_) (Shape.exists_input hmem) path
        dsimp only [Node.parts]
        rw [hpresent]
        dsimp only
        rw [Shape.parts_eq]
        exact List.mem_map_of_mem hmem
      · obtain ⟨payload, -, hjudgement⟩ := judgement_of_ruling hplan heard hruling
        cases hjudgement with
        | null => exact ⟨.inl rfl, fun path hpath => nomatch hpath⟩
        | made _ _ _ heard ruled _ finished =>
            refine ⟨?_, fun path hpath => ?_⟩
            · cases hswallows : shape.swallows with
              | true => exact .inr (htolerant hswallows)
              | false => exact .inl (told_of_ruling hswallows heard ruled)
            · rcases finished_ok finished with rfl | ⟨format, text, hfinish⟩
              · exact mentions_of_made (made_of_ruling ruled) hpath
              · exact absurd hpath (Value.not_links_finish hfinish)

/-- A node that follows no references keeps a contract if its parts do, to the tolerant version
of it where errors are dropped. -/
theorem step_typed {self : ι} {input : Option Json}
    (h : ∀ part ∈ (Node.typed common shape).parts mode input,
      (if shape.swallows then contract.tolerant else contract).AllowsPart convert convert' part) :
    contract.Allows (input = none) (step convert mode self (.typed common shape) input path)
      (step convert' mode self (.typed common shape) input path) := by
  cases hswallows : shape.swallows with
  | false =>
      rw [hswallows, if_neg Bool.false_ne_true] at h
      refine step_typed_of_tolerant h fun htrue => ?_
      rw [hswallows] at htrue
      cases htrue
  | true =>
      rw [hswallows, if_pos rfl] at h
      intro s hready hs
      exact meets_of_tolerant (step_typed_of_tolerant h (fun _ => contract.tolerant_isTolerant) s
        ⟨hready.holds, hready.world⟩ hs)

end Contract

end Conversion

end SchemaGraph

import SchemaGraph.Proofs.Buckets
import SchemaGraph.Proofs.Conversion.Calls
import SchemaGraph.Proofs.Conversion.Told

set_option autoImplicit false

/-! # What conversions report

A conversion at a location inside of one that is being converted, its home, reports different
errors: they are inside of the location, or of locations that were opened on the way (`Reports`).
So do the parts of a value, each behind a segment of its own, and the errors of one part are
different from those of the next (`Reports.both`). What a node adds itself stands at the location of
its payload (`Reports.close`).
-/

namespace SchemaGraph

namespace Slot

/-- The segment that an answer is behind, unless it is for the value itself. -/
def segment? : Slot → Option String
  | item index => some (toString index)
  | property _ key => some key
  | subtype index => some (toString index)
  | whole => none

theorem location_of_segment {path : Path} {slot : Slot} {key : String}
    (h : slot.segment? = some key) : slot.location path = path.child key := by
  cases slot <;> cases h <;> rfl

end Slot

namespace Shape

open Conversion

variable {ι : Type}

/-- The properties an object declares. -/
def declares : Shape ι → List String
  | object shape => shape.properties.map Prod.fst
  | _ => []

/-- The properties an object requires. -/
def requires : Shape ι → List String
  | object shape => shape.required
  | _ => []

/-- The parts of a payload are found by its keys. -/
def isKeyed : Shape ι → Bool
  | map .. | object _ => true
  | _ => false

theorem Calls.within {shape : Shape ι} {payload : Json} {path location : Path} {node : ι}
    {given : Option Json} (h : shape.Calls payload path node given location) :
    location.Within path := by
  cases h with
  | selected => exact .refl path
  | _ => exact Path.within_child path _

/-- The payload is converted by another node, where it stands. -/
def isDiscriminated : Shape ι → Bool
  | discriminated .. => true
  | _ => false

theorem toString_inj {index index' : Nat} (h : toString index = toString index') :
    index = index' := by
  have hdigits : Nat.toDigits 10 index = Nat.toDigits 10 index' := by
    rw [← Nat.toList_repr, ← Nat.toList_repr, ← Nat.toString_eq_repr, ← Nat.toString_eq_repr, h]
  rw [← Nat.ofDigitChars_ten_toDigits (n := index), hdigits, Nat.ofDigitChars_ten_toDigits]

/-- Numbered parts are behind different segments. -/
theorem numbered_segments {α : Type} (slot : Nat → Slot)
    (hslot : ∀ index, (slot index).segment? = some (toString index)) (parts : List α)
    (inquiry : α × Nat → Inquiry ι) (hinquiry : ∀ part, (inquiry part).slot = slot part.2) :
    ∃ keys : List String, keys.Nodup ∧ ((parts.zipIdx 0).map inquiry).map
      (fun inquiry => inquiry.slot.segment?) = keys.map some := by
  refine ⟨(List.range' 0 parts.length).map toString,
    (List.nodup_range' ..).map fun _ _ => toString_inj, ?_⟩
  rw [← List.zipIdx_map_snd 0 parts, List.map_map, List.map_map, List.map_map]
  refine List.map_congr_left fun part _ => ?_
  show (inquiry part).slot.segment? = some (toString part.2)
  rw [hinquiry, hslot]

/-- The keys that are not declared are keys of the payload. -/
theorem undeclared_segments (shape : ObjectShape ι) : ∀ entries : List (String × Json),
    ∃ keys : List String, keys.Sublist (entries.map Prod.fst) ∧
      (∀ key ∈ keys, ¬Entries.contains key shape.properties = true) ∧
      (undeclaredInquiries shape entries).map (fun inquiry => inquiry.slot.segment?) =
        keys.map some
  | [] => ⟨[], .refl _, List.forall_mem_nil _, rfl⟩
  | (key, item) :: rest => by
      obtain ⟨keys, hsublist, hundeclared, hsegments⟩ := undeclared_segments shape rest
      unfold undeclaredInquiries
      rw [List.flatMap_cons, List.map_append]
      dsimp only
      split
      · exact ⟨keys, hsublist.cons key, hundeclared, hsegments⟩
      · rename_i hnew
        cases destination shape key with
        | pattern node | additional node =>
            exact ⟨key :: keys, hsublist.cons_cons key, List.forall_mem_cons.2 ⟨hnew, hundeclared⟩,
              congrArg (some key :: ·) hsegments⟩
        | verbatim | refused => exact ⟨keys, hsublist.cons key, hundeclared, hsegments⟩

theorem declared_segments (skip : String → Bool) (entries : List (String × Json))
    (properties : List (String × ι)) :
    ∃ names : List String, names.Sublist (properties.map Prod.fst) ∧
      (declaredInquiries skip entries properties).map (fun inquiry => inquiry.slot.segment?) =
        names.map some := by
  refine ⟨(properties.filter fun property => !skip property.1).map Prod.fst,
    List.filter_sublist.map _, ?_⟩
  unfold declaredInquiries
  rw [List.map_map, List.map_map]
  rfl

/-- What is asked about a payload is behind different segments, if its keys and the properties that
are declared are different ones. -/
theorem segments {shape : Shape ι} {payload : Json} (mode : Mode) (hnames : shape.declares.Nodup)
    (hkeys : shape.isKeyed = true → ((payload.asObj?.getD []).map Prod.fst).Nodup)
    (hwhole : shape.isDiscriminated = false) :
    ∃ keys : List String, keys.Nodup ∧
      (shape.inquiries mode payload).map (fun inquiry => inquiry.slot.segment?) =
        keys.map some := by
  cases shape with
  | array node size unique distinctBy =>
      exact numbered_segments Slot.item (fun _ => rfl) _ _ fun _ => rfl
  | map node size =>
      refine ⟨_, hkeys rfl, ?_⟩
      show (List.map _ (List.map _ _)) = _
      rw [List.map_map, List.map_map]
      rfl
  | object shape =>
      obtain ⟨others, hothers, hundeclared, hsegments⟩ :=
        undeclared_segments shape (payload.asObj?.getD [])
      obtain ⟨names, hsublist, hsegments'⟩ := declared_segments
        (skips shape mode (payload.asObj?.getD [])) (payload.asObj?.getD []) shape.properties
      refine ⟨others ++ names, (hothers.nodup (hkeys rfl)).append (hsublist.nodup hnames) ?_, ?_⟩
      · exact List.disjoint_left.2 fun key hother hname =>
          hundeclared key hother (Entries.contains_iff.2 (hsublist.subset hname))
      · show (List.map _ (_ ++ _)) = _
        rw [List.map_append, List.map_append, hsegments, hsegments']
  | discriminated => cases hwhole
  | allOf subtypes | anyOf subtypes | oneOf subtypes | not subtypes =>
      exact numbered_segments Slot.subtype (fun _ => rfl) _ _ fun _ => rfl
  | _ => exact ⟨[], List.nodup_nil, rfl⟩

end Shape

namespace Conversion

variable {α β γ ι : Type}

/-! ## Runs -/

/-- The errors of a run: those it failed with, or those its value holds. -/
def reported (told : α → List LocatedError) : Except Failure α → List LocatedError
  | .ok a => told a
  | .error (.errors errors) => errors.toList
  | .error _ => []

/-- Values that hold no errors. -/
def silent (_ : α) : List LocatedError := []

/-- The errors a part was refused with. -/
def refusal : Except SchemaErrors α → List LocatedError
  | .ok _ => []
  | .error errors => errors.toList

theorem reported_mapError (result : Except SchemaErrors α) :
    reported silent (result.mapError .errors) = refusal result := by
  cases result <;> rfl

theorem reported_error (told : α → List LocatedError) (told' : β → List LocatedError)
    (failure : Failure) :
    reported told (.error failure) = reported told' (.error failure) := by
  cases failure <;> rfl

/-- A node does not report the same twice by itself: it declares a property once, and neither the
required properties nor the checks are reported alike. -/
structure Distinct (common : Common) (shape : Shape ι) : Prop where
  names : shape.declares.Nodup
  required : (shape.requires.map fun name =>
    Violation.ofKey common.messages .required [name]).Nodup
  checks : ∀ value payload, (violations common shape value payload).Nodup

/-- Where a conversion starts: none of the locations that may be opened is inside of another one,
and its home, one of them, is being converted. -/
structure Ready (place : Path → Prop) (known : Resolver → Prop) (home : Path)
    (s : ConversionState) : Prop where
  separate : Path.Separate place
  housed : place home
  pending : s.registry.find? home = some .pending
  known : ∀ r, s.resolver = some r → known r

/-- What a run did since a registry was left, and the errors it tells. -/
structure Tells (place : Path → Prop) (known : Resolver → Prop) (g : Registry)
    (area : Path → Prop) (told : α → List LocatedError)
    (run : Except Failure α × ConversionState) : Prop where
  known : ∀ r, run.2.resolver = some r → known r
  retains : g.Retains place run.2.registry
  told : Told place g run.2.registry area (reported told run.1)

/-- Wherever a conversion starts, it reports different errors of the area, and of what it opened. -/
def Reports (place : Path → Prop) (known : Resolver → Prop) (home : Path) (area : Path → Prop)
    (told : α → List LocatedError) (m : Conversion α) : Prop :=
  ∀ s, Ready place known home s → Tells place known s.registry area told (m s)

variable {place : Path → Prop} {known : Resolver → Prop} {home path : Path}
  {area area' : Path → Prop} {keys keys' : String → Prop} {told : α → List LocatedError}
  {told' : β → List LocatedError} {s t : ConversionState} {g : Registry}

theorem Ready.home_known (h : Ready place known home s) : s.registry.find? home ≠ none := by
  rw [h.pending]
  exact fun h => nomatch h

/-- A run leaves a state to go on from. -/
theorem Tells.ready {run : Except Failure α × ConversionState}
    (h : Tells place known s.registry area told run) (hs : Ready place known home s) :
    Ready place known home run.2 :=
  ⟨hs.separate, hs.housed, h.retains.pending home hs.housed hs.pending, h.known⟩

theorem Tells.mono {run : Except Failure α × ConversionState}
    (h : Tells place known g area told run) {g' : Registry} (hbefore : g'.Retains place g)
    (harea : ∀ path, area path → area' path) :
    Tells place known g' area' told run :=
  ⟨h.known, hbefore.trans h.retains, h.told.mono hbefore (.refl _) harea⟩

theorem Tells.closed {run : Except Failure α × ConversionState} {change : Registry → Registry}
    (h : Tells place known g area told run) (hchange : ∀ other, place other →
      (change run.2.registry).find? other = run.2.registry.find? other) :
    Tells place known g area told (Conversion.closed run.1 run.2 change) :=
  ⟨h.known, h.retains.trans (.of_find hchange),
    h.told.mono (.refl _) (.of_find hchange) fun _ => id⟩

/-- At its location a conversion reports different errors, and does nothing else. -/
def Owns (path : Path) (m : Conversion α) : Prop :=
  ∀ s, ∃ result, m s = (result, s) ∧ (reported silent result).Nodup ∧
    ∀ error ∈ reported silent result, error.path = path

namespace Owns

theorem pure (path : Path) (a : α) : Owns path (Pure.pure a : Conversion α) :=
  fun _ => ⟨.ok a, rfl, List.nodup_nil, List.forall_mem_nil _⟩

theorem signal {failure : Failure} (h : ∀ errors, failure ≠ .errors errors) :
    Owns path (fail failure : Conversion α) := by
  refine fun _ => ⟨.error failure, rfl, ?_⟩
  cases failure with
  | errors errors => exact absurd rfl (h errors)
  | _ => exact ⟨List.nodup_nil, List.forall_mem_nil _⟩

theorem failWith (messages : Messages) (path : Path) (key : MessageKey) (args : List String) :
    Owns path (Conversion.failWith messages path key args : Conversion α) := by
  exact fun _ => ⟨_, rfl, List.nodup_singleton _, List.forall_mem_singleton.2 rfl⟩

theorem settle {result : Except SchemaErrors α} (hnodup : (refusal result).Nodup)
    (hpath : ∀ error ∈ refusal result, error.path = path) :
    Owns path (Conversion.settle result) := by
  intro s
  rw [run_settle]
  refine ⟨_, rfl, ?_⟩
  rw [reported_mapError]
  exact ⟨hnodup, hpath⟩

theorem path_of_mem {result : Except SchemaErrors α} {error : LocatedError}
    (h : Owns path (Conversion.settle result)) (hmem : error ∈ refusal result) :
    error.path = path := by
  obtain ⟨_, hrun, -, hpath⟩ := h (.start none)
  rw [run_settle] at hrun
  cases hrun
  rw [reported_mapError] at hpath
  exact hpath error hmem

end Owns

/-- What is told below a location is different from what stands at the location itself. -/
theorem Ready.headed {own errors : List LocatedError} (hs : Ready place known home s)
    (hpath : path.Within home) (hsg : s.registry.Retains place g) (hnodup : own.Nodup)
    (hown : ∀ error ∈ own, error.path = path)
    (htold : Told place s.registry g (path.Beneath keys) errors) :
    Told place s.registry g (·.Within path) (own ++ errors) := by
  have hhere : ∀ other, other = path → other.Within home := by
    rintro _ rfl
    exact hpath
  have hnothere : ∀ other, other = path → ¬path.Beneath keys other := by
    rintro _ rfl
    exact Path.not_beneath_self
  have hboth := Told.append hs.separate hs.housed hs.home_known (.refl _) hsg hhere
    (fun _ h => h.within.trans hpath) hnothere (.own hnodup hown) htold
  refine hboth.mono (.refl _) (.refl _) ?_
  rintro _ (rfl | h)
  · exact .refl _
  · exact h.within

/-- Different errors of some kinds, at one location. -/
structure Marked (path : Path) (kinds : ErrorKind → Prop) (errors : List LocatedError) : Prop where
  nodup : errors.Nodup
  located : ∀ error ∈ errors, error.path = path ∧ kinds error.kind

namespace Marked

variable {kinds kinds' : ErrorKind → Prop} {errors errors' : List LocatedError}

theorem nil : Marked path kinds [] := ⟨List.nodup_nil, List.forall_mem_nil _⟩

theorem single {error : LocatedError} (hpath : error.path = path) (hkind : kinds error.kind) :
    Marked path kinds [error] :=
  ⟨List.nodup_singleton _, List.forall_mem_singleton.2 ⟨hpath, hkind⟩⟩

theorem mono (h : Marked path kinds errors) (hkinds : ∀ kind, kinds kind → kinds' kind) :
    Marked path kinds' errors :=
  ⟨h.nodup, fun error hmem => (h.located error hmem).imp_right (hkinds _)⟩

theorem append (hkinds : ∀ kind, kinds kind → ¬kinds' kind) (h : Marked path kinds errors)
    (h' : Marked path kinds' errors') :
    Marked path (fun kind => kinds kind ∨ kinds' kind) (errors ++ errors') := by
  refine ⟨h.nodup.append h'.nodup ?_, fun error hmem => ?_⟩
  · exact List.disjoint_left.2 fun error hmem hmem' =>
      hkinds _ (h.located error hmem).2 (h'.located error hmem').2
  · rcases List.mem_append.1 hmem with hmem | hmem
    · exact (h.located error hmem).imp_right .inl
    · exact (h'.located error hmem).imp_right .inr

end Marked

/-! ## What a node adds -/

section

variable {mode : Mode} {common : Common} {path : Path}

theorem refusal_collect (errors : List LocatedError) (value : Value) :
    refusal (collect errors value) = errors := by
  cases errors <;> rfl

/-- What the subtypes that refused are told about is part of all that is told. -/
theorem errorsOf_sublist : ∀ replies : List Reply,
    (errorsOf (refusals (outcomes replies))).Sublist (Conversion.told replies)
  | [] => List.Sublist.refl _
  | ⟨slot, answer⟩ :: rest => by
      have hrest := errorsOf_sublist rest
      have hskip := hrest.trans (List.sublist_append_right (Reply.errors ⟨slot, answer⟩) _)
      rcases answer with errors | _ | value
      · cases slot with
        | subtype index => exact (List.Sublist.refl errors.toList).append hrest
        | _ => exact hskip
      · cases slot <;> exact hskip
      · cases slot <;> exact hskip

theorem marked_summary {kinds : ErrorKind → Prop} (common : Common) (path : Path)
    {key : MessageKey} (names : List String)
    (hkind : kinds (common.error path key [commaDelimited names]).kind) :
    Marked path kinds (summary common path key names) := by
  unfold summary
  split
  · exact .nil
  · exact .single rfl hkind

theorem marked_forbidden (mode : Mode) (common : Common) (shape : ObjectShape ι)
    (entries : List (String × Json)) (path : Path) :
    Marked path (fun kind => kind = .readOnlyViolation ∨ kind = .writeOnlyViolation)
      (forbidden mode common shape entries path) := by
  unfold forbidden excluded
  cases mode.entity with
  | specification => exact .nil
  | request => exact marked_summary _ _ _ (.inl rfl)
  | response => exact marked_summary _ _ _ (.inr rfl)

theorem located_injective (path : Path) :
    Function.Injective fun violation : Violation => violation.located path := by
  rintro ⟨_, _⟩ ⟨_, _⟩ ⟨⟩
  rfl

theorem marked_missing {shape : ObjectShape ι} (hrequired : (shape.required.map fun name =>
      Violation.ofKey common.messages .required [name]).Nodup) (mode : Mode)
    (entries : List (String × Json)) (path : Path) :
    Marked path (· = .requiredMissing)
      ((missing mode shape entries).map fun name => common.error path .required [name]) := by
  have hmap : (shape.required.map fun name => common.error path .required [name]).Nodup := by
    have hnodup := hrequired.map (located_injective path)
    rw [List.map_map] at hnodup
    exact hnodup
  refine ⟨hmap.sublist (List.filter_sublist.map _), fun error hmem => ?_⟩
  obtain ⟨name, -, rfl⟩ := List.mem_map.1 hmem
  exact ⟨rfl, rfl⟩

/-- What is reported was told, or a node found it by itself, at the location of its payload. If it
is `distinct`, the node finds nothing twice. -/
def Adds (path : Path) (distinct : Prop) (told reported : List LocatedError) : Prop :=
  ∃ own : List LocatedError, (distinct → own.Nodup) ∧ (∀ error ∈ own, error.path = path) ∧
    reported.Subperm (own ++ told)

namespace Adds

variable {distinct distinct' : Prop} {told reported : List LocatedError} {error : LocatedError}

theorem nothing (h : reported.Subperm told) : Adds path distinct told reported :=
  ⟨[], fun _ => List.nodup_nil, List.forall_mem_nil _, h⟩

theorem one (hpath : error.path = path) (h : reported.Subperm told) :
    Adds path distinct told (error :: reported) :=
  ⟨[error], fun _ => List.nodup_singleton error, List.forall_mem_singleton.2 hpath,
    (List.subperm_cons error).2 h⟩

theorem mono (h : Adds path distinct told reported) (hdistinct : distinct' → distinct) :
    Adds path distinct' told reported := by
  obtain ⟨own, hnodup, hpath, hsub⟩ := h
  exact ⟨own, fun h => hnodup (hdistinct h), hpath, hsub⟩

theorem mem (h : Adds path distinct told reported) (hmem : error ∈ reported) :
    error.path = path ∨ error ∈ told := by
  obtain ⟨own, -, hpath, hsub⟩ := h
  exact (List.mem_append.1 (hsub.subset hmem)).imp_left (hpath error)

end Adds

/-- What an object finds wrong is what it was told, and errors of its own. -/
theorem objectComplaints_adds (shape : ObjectShape ι) (entries : List (String × Json))
    (replies : List Reply) :
    Adds path (Distinct common (.object shape)) (Conversion.told replies)
      (objectComplaints mode common shape entries path replies) := by
  have hforbidden := marked_forbidden mode common shape entries path
  have hrefused : Marked path (· = .unexpectedAdditionalProperty)
      (summary common path .additionalProperties (refusedKeys shape entries)) :=
    marked_summary common path _ rfl
  refine ⟨forbidden mode common shape entries path ++
      (missing mode shape entries).map (fun name => common.error path .required [name]) ++
      summary common path .additionalProperties (refusedKeys shape entries),
    fun distinct => ?_, fun error hmem => ?_, List.Perm.subperm ?_⟩
  · have hmissing := marked_missing distinct.required mode entries path
    exact ((hforbidden.append (by rintro _ (rfl | rfl) <;> decide) hmissing).append
      (by rintro _ ((rfl | rfl) | rfl) <;> decide) hrefused).nodup
  · simp only [List.mem_append] at hmem
    rcases hmem with (hmem | hmem) | hmem
    · exact (hforbidden.located error hmem).1
    · obtain ⟨name, -, rfl⟩ := List.mem_map.1 hmem
      rfl
    · exact (hrefused.located error hmem).1
  have htold : (Conversion.told (replies.filter fun reply => !reply.slot.mayLack) ++
      Conversion.told (replies.filter fun reply => reply.slot.mayLack)).Perm
        (Conversion.told replies) := by
    have hboth := (List.filter_append_perm (fun reply => reply.slot.mayLack) replies).flatMap_right
      Reply.errors
    rw [List.flatMap_append] at hboth
    exact List.perm_append_comm.trans hboth
  refine List.perm_iff_count.2 fun error => ?_
  have hcount := List.perm_iff_count.1 htold error
  unfold objectComplaints
  simp only [List.count_append] at hcount ⊢
  omega

/-- What a node rules is what it was told, and errors of its own, which are different ones if the
node does not report the same twice by itself. -/
theorem ruling_adds (shape : Shape ι) (payload : Json) (replies : List Reply) :
    Adds path (Distinct common shape) (Conversion.told replies)
      (refusal (shape.ruling mode common payload path replies)) := by
  have hcollect : ∀ value, (refusal (collect (Conversion.told replies) value)).Subperm
      (Conversion.told replies) := by
    intro value
    rw [refusal_collect]
  have hrefused := (errorsOf_sublist replies).subperm
  cases shape with
  | integer bounds =>
      dsimp only [Shape.ruling]
      split
      · exact .nothing List.nil_subperm
      · exact .one rfl List.nil_subperm
  | array node size unique distinctBy => exact .nothing (hcollect _)
  | map node size => exact .nothing (hcollect _)
  | object shape =>
      dsimp only [Shape.ruling]
      rw [refusal_collect]
      exact objectComplaints_adds shape _ replies
  | discriminated property mapping =>
      dsimp only [Shape.ruling]
      split
      · exact .nothing List.nil_subperm
      · exact .nothing (List.sublist_append_left _ _).subperm
      · split <;> exact .one rfl List.nil_subperm
  | allOf subtypes =>
      dsimp only [Shape.ruling]
      split
      · exact .nothing List.nil_subperm
      · exact .one rfl hrefused
  | anyOf subtypes =>
      dsimp only [Shape.ruling]
      split
      · exact .one rfl hrefused
      · exact .nothing List.nil_subperm
  | oneOf subtypes =>
      dsimp only [Shape.ruling]
      split
      · exact .one rfl hrefused
      · exact .nothing List.nil_subperm
      · exact .one rfl List.nil_subperm
  | not subtypes =>
      dsimp only [Shape.ruling]
      split
      · exact .nothing List.nil_subperm
      · exact .one rfl List.nil_subperm
  | _ => exact .nothing List.nil_subperm

/-- The checks of a value find different things wrong. -/
theorem own_of_approved {shape : Shape ι} (distinct : Distinct common shape) (payload : Json)
    (value : Value) : Owns path (settle (approved common shape payload path value)) := by
  refine .settle ?_ ?_
  all_goals unfold approved; rw [refusal_collect]
  · exact (distinct.checks value payload).map (located_injective path)
  · intro error hmem
    obtain ⟨violation, -, rfl⟩ := List.mem_map.1 hmem
    rfl

theorem own_of_finished (shape : Shape ι) (value : Value) :
    Owns path (settle (shape.finished mode common path value)) := by
  unfold Shape.finished
  split
  · split
    · exact .pure path _
    · exact .failWith common.messages path _ _
  · exact .pure path _

end

namespace Reports

variable {m : Conversion α} {n : Conversion β}

theorem mono (h : Reports place known home area told m) (harea : ∀ path, area path → area' path) :
    Reports place known home area' told m :=
  fun s hs => (h s hs).mono (.refl _) harea

theorem of_owns (h : Owns path m) : Reports place known home (·.Within path) silent m := by
  intro s hs
  obtain ⟨result, hrun, hnodup, hpath⟩ := h s
  rw [hrun]
  refine ⟨hs.known, .refl _, .own hnodup fun error hmem => ?_⟩
  rw [hpath error hmem]
  exact .refl path

/-- One after the other, by what is told in between. -/
theorem bind {f : α → Conversion β} (hm : Reports place known home area told m)
    (harea : ∀ path, area path → area' path)
    (hf : ∀ a s t, Ready place known home s → Ready place known home t →
      s.registry.Retains place t.registry →
      Told place s.registry t.registry area (told a) →
      Tells place known s.registry area' told' (f a t)) :
    Reports place known home area' told' (m >>= f) := by
  intro s hs
  have hrun := hm s hs
  have ht := hrun.ready hs
  rw [run_bind]
  generalize m s = run at hrun ht
  rcases run with ⟨failure | a, t⟩
  · refine ⟨hrun.known, hrun.retains, ?_⟩
    show Told _ _ _ _ (reported told' (.error failure))
    rw [reported_error told' told]
    exact hrun.told.mono (.refl _) (.refl _) harea
  · exact hf a s t hs ht hrun.retains hrun.told

/-- What a part told is dropped. -/
theorem drop {f : α → Conversion β} (hm : Reports place known home area told m)
    (harea : ∀ path, area path → area' path)
    (hf : ∀ a, Reports place known home area' told' (f a)) :
    Reports place known home area' told' (m >>= f) :=
  hm.bind harea fun a _ t _ ht hst _ => (hf a t ht).mono hst fun _ => id

/-- A part, and what follows it behind other segments, whose errors are put behind its own. -/
theorem both {n : α → Conversion β} {f : α → β → Conversion γ} {told'' : γ → List LocatedError}
    (hpath : path.Within home) (hkeys : ∀ key, keys key → ¬keys' key)
    (hm : Reports place known home (path.Beneath keys) told m)
    (hn : ∀ a, Reports place known home (path.Beneath keys') told' (n a))
    (hf : ∀ a b, ∃ c, f a b = Pure.pure c ∧ told'' c = told a ++ told' b) :
    Reports place known home (path.Beneath fun key => keys key ∨ keys' key) told''
      (m >>= fun a => n a >>= f a) := by
  have hinside : ∀ {keys : String → Prop} (place : Path), path.Beneath keys place →
      place.Within home := fun _ h => h.within.trans hpath
  refine hm.bind (fun _ h => h.mono fun _ => .inl) fun a s t hs ht hst htold => ?_
  have hrun := hn a t ht
  rw [run_bind]
  generalize n a t = run at hrun
  rcases run with ⟨failure | b, u⟩
  · refine ⟨hrun.known, hst.trans hrun.retains, ?_⟩
    show Told _ _ _ _ (reported told'' (.error failure))
    rw [reported_error told'' told']
    exact hrun.told.mono hst (.refl _) fun _ h => h.mono fun _ => .inr
  · obtain ⟨c, hc, hsum⟩ := hf a b
    dsimp only
    rw [hc]
    refine ⟨hrun.known, hst.trans hrun.retains, ?_⟩
    show Told _ _ _ _ (told'' c)
    rw [hsum]
    have hboth := Told.append hs.separate hs.housed hs.home_known hst hrun.retains hinside hinside
      (fun _ h => h.apart hkeys) htold hrun.told
    exact hboth.mono (.refl _) (.refl _) fun _ => Path.beneath_or.2

/-- What the parts told is reported, with what a node finds at the location itself. -/
theorem close {f : α → Except SchemaErrors β} (hpath : path.Within home)
    (hm : Reports place known home (path.Beneath keys) told m)
    (hf : ∀ a, Adds path True (told a) (refusal (f a))) :
    Reports place known home (·.Within path) silent (do
      let a ← m
      settle (f a)) := by
  refine hm.bind (fun _ => Path.Beneath.within) fun a s t hs ht hst htold => ?_
  obtain ⟨own, hnodup, hplace, hsub⟩ := hf a
  rw [run_settle]
  refine ⟨ht.known, hst, (hs.headed hpath hst (hnodup trivial) hplace htold).subperm ?_⟩
  show (reported silent ((f a).mapError .errors)).Subperm (own ++ told a)
  rw [reported_mapError]
  exact hsub

/-! ## Parts -/

variable {convert : Converting ι} {mode : Mode} {common : Common} {payload : Json}

theorem inquire {inquiry : Inquiry ι}
    (h : Reports place known home area silent (inquiry.part convert path)) :
    Reports place known home area Reply.errors (Conversion.inquire convert path inquiry) := by
  intro s hs
  have hrun := h s hs
  rw [run_inquire]
  generalize inquiry.part convert path s = run at hrun
  rcases run with ⟨(errors | _ | _ | _ | _) | value, t⟩
  case error.undefined =>
    dsimp only
    split <;> exact ⟨hrun.known, hrun.retains, hrun.told⟩
  all_goals exact ⟨hrun.known, hrun.retains, hrun.told⟩

theorem inquireAll_pair (isEager : Bool) (first : Inquiry ι) (rest : List (Inquiry ι)) :
    Conversion.inquireAll convert path isEager (first :: rest) =
      Conversion.inquire convert path first >>= fun here =>
        (if isEager && here.value?.isSome then Pure.pure []
          else Conversion.inquireAll convert path isEager rest) >>= fun more =>
            Pure.pure (here :: more) := by
  refine bind_congr fun here => ?_
  cases isEager && here.value?.isSome <;> rfl

/-- What is asked behind different segments is told behind them. -/
theorem inquireAll {isEager : Bool} (hpath : path.Within home) :
    ∀ {inquiries : List (Inquiry ι)} {keys : List String},
      inquiries.map (fun inquiry => inquiry.slot.segment?) = keys.map some → keys.Nodup →
      (∀ inquiry ∈ inquiries, Reports place known home
        (·.Within (inquiry.slot.location path)) silent (inquiry.part convert path)) →
      Reports place known home (path.Beneath (· ∈ keys)) Conversion.told
        (Conversion.inquireAll convert path isEager inquiries)
  | [], _, _, _, _ => fun _ hs => ⟨hs.known, .refl _, .nil⟩
  | first :: rest, [], hkeys, _, _ => nomatch hkeys
  | first :: rest, key :: keys, hkeys, hnodup, h => by
      obtain ⟨hkey, hkeys⟩ := List.cons.inj hkeys
      obtain ⟨hnew, hnodup⟩ := List.nodup_cons.1 hnodup
      have hhere : ∀ other, other = key → other ∉ keys := by
        rintro _ rfl
        exact hnew
      have hfirst : Reports place known home (path.Beneath (· = key)) Reply.errors
          (Conversion.inquire convert path first) := by
        refine (inquire (h first List.mem_cons_self)).mono fun _ hwithin => ⟨key, rfl, ?_⟩
        rw [Slot.location_of_segment hkey] at hwithin
        exact hwithin
      have hrest : Reports place known home (path.Beneath (· ∈ keys)) Conversion.told
          (Conversion.inquireAll convert path isEager rest) :=
        inquireAll hpath hkeys hnodup fun inquiry hinquiry => h inquiry (.tail _ hinquiry)
      have hnext : ∀ here : Reply, Reports place known home (path.Beneath (· ∈ keys))
          Conversion.told (if isEager && here.value?.isSome then Pure.pure []
            else Conversion.inquireAll convert path isEager rest) := by
        intro here
        split
        · exact fun _ hs => ⟨hs.known, .refl _, .nil⟩
        · exact hrest
      rw [inquireAll_pair]
      have hboth : Reports place known home (path.Beneath fun other => other = key ∨ other ∈ keys)
          Conversion.told _ :=
        both hpath hhere hfirst hnext fun here more => ⟨here :: more, rfl, rfl⟩
      exact hboth.mono fun _ hbeneath => hbeneath.mono fun _ => List.mem_cons.2

/-! ## Nodes that judge values -/

/-- What is called for a payload reports different errors at its own location, and keys are behind
different segments. -/
structure Conducts (place : Path → Prop) (known : Resolver → Prop) (home : Path)
    (convert : Converting ι) (shape : Shape ι) (payload : Json) (path : Path) : Prop where
  calls : ∀ node given location, shape.Calls payload path node given location →
    Reports place known home (·.Within location) silent (convert node given location)
  keys : shape.isKeyed = true → ((payload.asObj?.getD []).map Prod.fst).Nodup

/-- Only payloads without parts are coerced. -/
theorem Conducts.of_coerced {shape : Shape ι} {cast : Json}
    (hcast : coercedTo mode common shape payload path = .ok cast)
    (h : Conducts place known home convert shape payload path) :
    Conducts place known home convert shape cast path := by
  rcases coercedTo_ok hcast with rfl | ⟨-, key, hcoercion⟩
  · exact h
  · refine ⟨fun node given location hcall => absurd hcall (Shape.not_calls_of_coercion hcoercion),
      fun hkeyed => ?_⟩
    cases shape with
    | map node size | object shape => cases hcoercion
    | _ => cases hkeyed

/-- A text is encoded, and has no parts. -/
theorem Conducts.of_given {shape : Shape ι} {input : Option Json}
    (h : ∀ payload, present? mode common input = some payload →
      Conducts place known home convert shape payload path)
    (hpresent : present? mode common (shape.given mode.entity input) = some payload) :
    Conducts place known home convert shape payload path := by
  cases shape with
  | text format bounds =>
      refine ⟨fun node given location hcall => ?_, fun hkeyed => nomatch hkeyed⟩
      cases hcall with
      | subtype hsubtype => cases hsubtype
  | _ => exact h payload hpresent

/-- What a shape makes of a payload of the right type. -/
theorem ruled {shape : Shape ι} (hpath : path.Within home) (distinct : Distinct common shape)
    (h : Conducts place known home convert shape payload path) :
    Reports place known home (·.Within path) silent
      ((shape.plan mode common payload path).run convert path) := by
  cases hwhole : shape.isDiscriminated with
  | false =>
      obtain ⟨keys, hnodup, hkeys⟩ := Shape.segments mode distinct.names h.keys hwhole
      refine close hpath (inquireAll hpath hkeys hnodup fun inquiry hinquiry => ?_)
        fun replies => ?_
      · exact h.calls _ _ _ (Shape.calls_of_mem hinquiry path)
      · exact (ruling_adds shape payload replies).mono fun _ => distinct
  | true =>
      cases shape with
      | discriminated property mapping =>
          rw [← discriminated_eq]
          unfold discriminated
          split
          · exact of_owns (.failWith _ _ _ _)
          · split
            · rename_i hfound
              obtain ⟨name, -, hfind⟩ := Option.bind_eq_some_iff.1 hfound
              exact h.calls _ _ _ (.selected (Entries.mem_of_find? hfind))
            · exact of_owns (.failWith _ _ _ _)
      | _ => cases hwhole

/-- A node that judges values. -/
theorem typed {self : ι} {shape : Shape ι} {input : Option Json} (hpath : path.Within home)
    (distinct : Distinct common shape)
    (h : ∀ payload, present? mode common input = some payload →
      Conducts place known home convert shape payload path) :
    Reports place known home (·.Within path) silent
      (step convert mode self (.typed common shape) input path) := by
  rw [step_typed]
  unfold typedPlan judgedPlan
  cases hpresent : present? mode common (shape.given mode.entity input) with
  | none => exact of_owns (.signal fun _ h => nomatch h)
  | some payload =>
      have hconducts := Conducts.of_given h hpresent
      have hjudges : Judges mode common payload path shape
        (payloadPlan mode common payload path shape) := payloadPlan_judges payload
      suffices Reports place known home (·.Within path) silent
          ((payloadPlan mode common payload path shape).run convert path) by
        show Reports _ _ _ _ _ (((payloadPlan mode common payload path shape).andThen _).run _ _)
        rw [Plan.run_andThen]
        exact this.drop (fun _ => id) fun value => of_owns (own_of_finished shape value)
      generalize payloadPlan mode common payload path shape = plan at hjudges
      cases hjudges with
      | null => exact of_owns (.pure _ _)
      | refuses key args => exact of_owns (.failWith common.messages path key args)
      | asks _ coerced _ =>
          rw [Plan.run_andThen]
          exact (ruled hpath distinct (hconducts.of_coerced coerced)).drop (fun _ => id)
            fun value => of_owns (own_of_approved distinct _ value)

/-! ## References -/

theorem withOwnChain {m : Conversion α} (h : Reports place known home area told m) :
    Reports place known home area told (Conversion.withOwnChain m) := by
  intro s hs
  have hrun := h { s with visited := [] } ⟨hs.separate, hs.housed, hs.pending, hs.known⟩
  exact ⟨hrun.known, hrun.retains, hrun.told⟩

theorem following {m : Conversion α} (location : Path)
    (h : Reports place known home area told m) :
    Reports place known home area told (Conversion.following location m) := by
  intro s hs
  have hrun := h { s with visited := location :: s.visited }
    ⟨hs.separate, hs.housed, hs.pending, hs.known⟩
  exact ⟨hrun.known, hrun.retains, hrun.told⟩

/-- A location inside of its home, which references do not open. -/
theorem enter {target : ι} {input : Option Json} (hpath : path.Within home)
    (h : Reports place known home (·.Within path) silent (convert target input path)) :
    Reports place known home (·.Within path) silent
      (Conversion.enter convert target input path) := by
  intro s hs
  have hopened : s.registry.IsOpen path → Tells place known s.registry (·.Within path) silent
      (closeEntered path (Conversion.withOwnChain (convert target input path)
        { s with registry := s.registry.start path })) := by
    intro hopen
    have hne : ∀ other, place other → other ≠ path := by
      rintro _ hplace rfl
      obtain rfl := hs.separate hs.housed hplace hpath
      exact hopen.ne_pending hs.pending
    have hstarted : s.registry.Retains place (s.registry.start path) :=
      .of_find fun other hother => Registry.find?_start_of_ne (hne other hother)
    have hready : Ready place known home { s with registry := s.registry.start path } :=
      ⟨hs.separate, hs.housed, hstarted.pending home hs.housed hs.pending, hs.known⟩
    have hrun := (h.withOwnChain _ hready).mono hstarted fun _ => id
    generalize Conversion.withOwnChain (convert target input path)
      { s with registry := s.registry.start path } = run at hrun
    obtain ⟨change, hclosed, hothers⟩ := closeEntered_eq path run
    rw [hclosed]
    exact hrun.closed fun other hother => hothers _ other (hne other hother)
  rw [run_enter]
  rcases hfind : s.registry.find? path with _ | _ | _ | value
  · exact hopened (.inl hfind)
  · exact ⟨hs.known, .of_find fun _ _ => rfl, .nil⟩
  · exact hopened (.inr hfind)
  · exact ⟨hs.known, .refl _, .nil⟩

theorem deeper {self target : ι} {value : Json} {location : Path}
    (hself : Reports place known home (·.Within location) silent
      (convert self (some value) location))
    (htarget : Reports place known home (·.Within location) silent
      (convert target (some value) location)) :
    Reports place known home (·.Within location) silent
      (Conversion.deeper convert self target value location) := by
  unfold Conversion.deeper
  split
  · exact hself
  · exact htarget.withOwnChain

/-- A location that a reference leads to is its own home while it converts. -/
theorem arrive {self target : ι} {value : Json} {location : Path} (messages : Messages)
    (hpath : path.Within home) (hplace : place location)
    (hself : Reports place known location (·.Within location) silent
      (convert self (some value) location))
    (htarget : Reports place known location (·.Within location) silent
      (convert target (some value) location)) :
    Reports place known home (·.Within path) silent
      (Conversion.arrive convert self messages target value location path) := by
  intro s hs
  rw [run_arrive]
  split
  · exact ⟨hs.known, .refl _, .nil⟩
  · rcases hfind : s.registry.find? location with _ | _ | _ | found
    · have hready : Ready place known location
          { s with registry := s.registry.start location } :=
        ⟨hs.separate, hplace, Registry.find?_start_self _ _, hs.known⟩
      have hrun := (deeper hself htarget).following location _ hready
      dsimp only
      generalize Conversion.following location
        (Conversion.deeper convert self target value location)
        { s with registry := s.registry.start location } = run at hrun
      rcases run with ⟨(errors | _ | _ | _ | _) | result, t⟩
      case ok =>
        exact ⟨hrun.known, .close hfind hrun.retains fun _ => Registry.find?_finish_of_ne, .nil⟩
      case error.errors =>
        have hothers : ∀ other, other ≠ location →
            (t.registry.poison location).find? other = t.registry.find? other :=
          fun _ => Registry.find?_poison_of_ne
        have hretains := Registry.Retains.close hfind hrun.retains hothers
        have hinner : Told place s.registry (t.registry.poison location)
            (path.Beneath fun _ => False) errors.toList := by
          refine ⟨hrun.told.nodup, fun error hmem => .inr ?_⟩
          refine .close hplace hfind ?_ hothers (hrun.told.located error hmem)
          rw [Registry.find?_poison_self]
          exact fun h => nomatch h
        refine ⟨hrun.known, hretains, hs.headed hpath hretains
          (List.nodup_singleton (LocatedError.ofKey messages path .badReference []))
          (List.forall_mem_singleton.2 rfl) hinner⟩
      case error.recursive =>
        refine ⟨hrun.known, .close hfind hrun.retains fun _ => Registry.find?_poison_of_ne, ?_⟩
        exact .own (List.nodup_singleton _) (List.forall_mem_singleton.2 (.refl path))
      all_goals
        exact ⟨hrun.known, .close hfind hrun.retains fun _ => Registry.find?_remove_of_ne, .nil⟩
    · exact ⟨hs.known, .of_find fun _ _ => rfl, .nil⟩
    · exact of_owns (.failWith _ _ _ _) s hs
    · exact ⟨hs.known, .refl _, .nil⟩

/-- A reference, where what it leads to reports different errors. -/
theorem follow {self target : ι} {messages : Messages} {reference : Json} (hpath : path.Within home)
    (h : ∀ text, reference = .str text → ∀ r, known r → known (r.resolve text).2 ∧
      ∀ url value, (r.resolve text).1 = .ok (url, value) →
        place (Path.ofUri url) ∧ ∃ inner : Resolver → Prop,
          inner ((r.resolve text).2.pushScope url) ∧ (∀ r', inner r' → known r'.leaveScope) ∧
          Reports place inner (Path.ofUri url) (·.Within (Path.ofUri url)) silent
            (convert self (some value) (Path.ofUri url)) ∧
          Reports place inner (Path.ofUri url) (·.Within (Path.ofUri url)) silent
            (convert target (some value) (Path.ofUri url))) :
    Reports place known home (·.Within path) silent
      (Conversion.follow convert self messages target reference path) := by
  have hunresolvable : Reports place known home (·.Within path) silent
      (failWith messages path .unresolvableReference [] : Conversion Value) :=
    of_owns (.failWith _ _ _ _)
  cases reference with
  | str text =>
      intro s hs
      unfold Conversion.follow
      dsimp only
      rw [run_bind]
      cases hresolver : s.resolver with
      | none =>
          rw [run_resolve?_of_none hresolver text]
          exact hunresolvable s hs
      | some r =>
          obtain ⟨hafter, hleads⟩ := h text rfl r (hs.known r hresolver)
          rw [run_resolve?_of_some hresolver text]
          dsimp only
          cases hanswer : (r.resolve text).1 with
          | error failure =>
              have hready : Ready place known home
                  { s with resolver := some (r.resolve text).2 } := by
                refine ⟨hs.separate, hs.housed, hs.pending, ?_⟩
                rintro _ ⟨⟩
                exact hafter
              exact hunresolvable _ hready
          | ok found =>
              obtain ⟨url, value⟩ := found
              obtain ⟨hplace, inner, hentered, hleave, hself, htarget⟩ := hleads url value hanswer
              have hready : Ready place inner home
                  { s with resolver := some ((r.resolve text).2.pushScope url) } := by
                refine ⟨hs.separate, hs.housed, hs.pending, ?_⟩
                rintro _ ⟨⟩
                exact hentered
              have harrived := arrive messages hpath hplace hself htarget _ hready
              refine ⟨fun r' hr' => ?_, harrived.retains, harrived.told⟩
              obtain ⟨r'', hr'', rfl⟩ := Option.map_eq_some_iff.1 hr'
              exact hleave r'' (harrived.known r'' hr'')
  | _ => exact hunresolvable

end Reports

end Conversion

/-! ## Graphs -/

namespace Graph

open Conversion

variable {σ : Type} {graph : Graph} {mode : Mode} {known : σ → Resolver → Prop}
  {kind : σ → NodeId → Option Json → Path → Prop} {place : Path → Prop} {home : Path}

/-- Where a conversion confines itself, and its nodes do not report the same twice by themselves, it
reports different errors, inside of a location that is being converted. -/
theorem convertWithin_reports (confines : graph.Confines mode known kind place)
    (distinct : ∀ id common shape, graph.get? id = some (.typed common shape) →
      Distinct common shape)
    (hkeys : ∀ {k id input path common shape payload},
      graph.get? id = some (.typed common shape) → kind k id input path →
      present? mode common input = some payload →
      ((payload.asObj?.getD []).map Prod.fst).Nodup)
    (fuel : Nat) {k : σ} {id : NodeId} {input : Option Json} {path : Path}
    (h : kind k id input path) (hpath : path.Within home) :
    Reports place (known k) home (·.Within path) silent
      (graph.convertWithin mode fuel id input path) := by
  induction fuel generalizing k id input path home with
  | zero => exact .of_owns (.signal (by rintro _ ⟨⟩))
  | succ fuel ih =>
      unfold convertWithin
      cases hnode : graph.get? id with
      | none => exact .of_owns (.signal (by rintro _ ⟨⟩))
      | some node =>
          cases node with
          | forward target => exact ih (confines.forward hnode h) hpath
          | reference messages target =>
              show Reports _ _ _ _ _ (Conversion.reference _ id messages target input path)
              unfold Conversion.reference
              cases hinput : input.bind referenceOf? with
              | none => exact .enter hpath (ih (confines.enters hnode h) hpath)
              | some found =>
                  refine .follow hpath fun text htext r hr =>
                    ⟨confines.resolves hr text, fun url value hanswer => ?_⟩
                  rw [htext] at hinput
                  obtain ⟨hplace, k', hentered, hleave, hself, htarget⟩ :=
                    confines.follows hnode h hinput hr hanswer
                  exact ⟨hplace, known k', hentered, hleave, ih hself (.refl _),
                    ih htarget (.refl _)⟩
          | typed common shape =>
              refine .typed hpath (distinct id common shape hnode) fun payload hpresent =>
                ⟨fun node given location hcall => ?_, fun _ => hkeys hnode h hpresent⟩
              exact ih (confines.typed hnode h hpresent hcall) (hcall.within.trans hpath)

end Graph

end SchemaGraph

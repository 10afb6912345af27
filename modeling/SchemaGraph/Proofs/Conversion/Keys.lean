import SchemaGraph.Proofs.Buckets
import SchemaGraph.Proofs.Conversion.Judgements
import SchemaGraph.Proofs.Conversion.Location

set_option autoImplicit false

/-! # The keys of a converted object

An object node puts every key of its payload into one bucket, the one its shape says
(`Sorts.mem_keys_iff`). Besides them there are only declared properties that come to a value
although they are absent (`Sorts.mem_keys_iff_of_absent`). Whatever its nodes do, no key ends in two
buckets (`sorted_apart`).
-/

namespace SchemaGraph

namespace Conversion

variable {ι : Type} {convert : Converting ι} {mode : Mode} {common : Common}
  {shape : ObjectShape ι} {payload : Json} {path : Path} {replies : List Reply} {value : Value}
  {answers : Inquiry ι → Except Failure Value → Prop} {inquiries : List (Inquiry ι)}
  {place : Buckets.Place} {key : String}

/-! ## The keys of an object -/

/-- What is asked about a key is for the bucket of the key. -/
theorem place_of_inquiry {inquiry : Inquiry ι}
    (h : inquiry ∈ (Shape.object shape).inquiries mode payload)
    (hslot : inquiry.slot = .property place key) : shape.place key = place := by
  rcases List.mem_append.1 h with h | h
  · obtain ⟨_, item, node, -, hundeclared, -, rfl⟩ := mem_undeclaredInquiries.1 h
    cases hslot
    exact ObjectShape.place_of_destination hundeclared
  · obtain ⟨_, node, hname, -, rfl⟩ := mem_declaredInquiries.1 h
    cases hslot
    exact ObjectShape.place_of_declared (Entries.contains_iff.2 (List.mem_map.2 ⟨_, hname, rfl⟩))

/-- Every key of a converted object is where the shape says, whatever the nodes do. -/
theorem place_of_mem (heard : Heard answers false ((Shape.object shape).inquiries mode payload)
      replies)
    (h : key ∈ (sorted shape (payload.asObj?.getD []) replies).keys place) :
    shape.place key = place := by
  have hheld : key ∈ (heldAt place replies).map Prod.fst → shape.place key = place := by
    intro hkey
    obtain ⟨⟨_, value⟩, hentry, rfl⟩ := List.mem_map.1 hkey
    obtain ⟨reply, hreply, hslot, -⟩ := mem_heldAt.1 hentry
    obtain ⟨inquiry, hinquiry, hreplied⟩ := heard.exists_inquiry reply hreply
    exact place_of_inquiry hinquiry (hreplied.slot.symm.trans hslot)
  cases place with
  | additional =>
      change key ∈ (verbatim _ _ ++ heldAt _ _).map Prod.fst at h
      rw [List.map_append, List.mem_append] at h
      rcases h with hkept | hkey
      · obtain ⟨⟨_, value⟩, hentry, rfl⟩ := List.mem_map.1 hkept
        obtain ⟨item, -, hplace, -⟩ := mem_verbatim hentry
        exact hplace
      · exact hheld hkey
  | _ => exact hheld h

/-- So no key is in two buckets. -/
theorem sorted_apart (heard : Heard answers false ((Shape.object shape).inquiries mode payload)
    replies) : (sorted shape (payload.asObj?.getD []) replies).IsApart :=
  fun _ _ _ hkey hkey' => (place_of_mem heard hkey).symm.trans (place_of_mem heard hkey')

/-- A key is in a bucket once for each time it was asked about. -/
theorem heldAt_sublist (heard : Heard answers false inquiries replies) (place : Buckets.Place) :
    ((heldAt place replies).map Prod.fst).Sublist
      (inquiries.filterMap fun inquiry => inquiry.slot.keyAt? place) := by
  have hreplied := heard.forall₂
  clear heard
  induction hreplied with
  | nil => exact .refl _
  | @cons inquiry reply _ more hhere _ ih =>
      unfold heldAt at ih ⊢
      rw [List.filterMap_cons, List.filterMap_cons, hhere.slot]
      cases inquiry.slot.keyAt? place with
      | none => exact ih
      | some key =>
          cases reply.value? with
          | none => exact ih.cons key
          | some value => exact ih.cons_cons key

/-- What may not lack is there, unless errors are told. -/
theorem keys_heldAt (heard : Heard answers false inquiries replies) (hnone : told replies = [])
    (hplace : place ≠ .declared) : (heldAt place replies).map Prod.fst =
      inquiries.filterMap fun inquiry => inquiry.slot.keyAt? place := by
  have hreplied := heard.forall₂
  clear heard
  induction hreplied with
  | nil => rfl
  | @cons inquiry reply _ more hhere _ ih =>
      obtain ⟨hclean, hmore⟩ := List.append_eq_nil_iff.1 hnone
      have hrest := ih hmore
      unfold heldAt at hrest ⊢
      rw [List.filterMap_cons, List.filterMap_cons, hhere.slot]
      cases hhere with
      | value h =>
          cases inquiry.slot.keyAt? place with
          | none => exact hrest
          | some key => exact congrArg (key :: ·) hrest
      | nothing hslot =>
          -- only a declared property may lack a value
          have hother : inquiry.slot.keyAt? place = none :=
            keyAt?_of_mayLack (hslot.trans (decide_eq_true hplace).symm)
          rw [hother]
          exact hrest
      | errors => cases hclean

/-- Where no key is refused, every key that is not declared is asked about for its bucket, or kept
as it is. -/
theorem undeclared_keysAt : ∀ {entries : List (String × Json)}, refusedKeys shape entries = [] →
    (undeclaredInquiries shape entries).filterMap (fun inquiry => inquiry.slot.keyAt? .pattern) =
        keysAt shape .pattern entries ∧
      (verbatim shape entries).map Prod.fst ++ (undeclaredInquiries shape entries).filterMap
        (fun inquiry => inquiry.slot.keyAt? .additional) = keysAt shape .additional entries
  | [], _ => by
      unfold verbatim
      cases shape.additional <;> exact ⟨rfl, rfl⟩
  | (key, item) :: rest, hrefused => by
      unfold undeclaredInquiries
      rw [List.flatMap_cons, keysAt_cons, keysAt_cons]
      dsimp only
      split
      · rename_i hdeclared
        rw [refusedKeys_of_declared hdeclared] at hrefused
        rw [verbatim_of_declared hdeclared, ObjectShape.place_of_declared hdeclared]
        exact undeclared_keysAt hrefused
      · rename_i hundeclared
        rw [refusedKeys_of_destination hundeclared] at hrefused
        rw [verbatim_of_destination hundeclared, ObjectShape.place_of_destination hundeclared]
        cases hdestination : destination shape key with
        | refused =>
            rw [hdestination] at hrefused
            cases hrefused
        | verbatim =>
            rw [hdestination] at hrefused
            obtain ⟨hpattern, hadditional⟩ := undeclared_keysAt hrefused
            exact ⟨hpattern, congrArg (key :: ·) hadditional⟩
        | pattern node =>
            rw [hdestination] at hrefused
            obtain ⟨hpattern, hadditional⟩ := undeclared_keysAt hrefused
            exact ⟨congrArg (key :: ·) hpattern, hadditional⟩
        | additional node =>
            rw [hdestination] at hrefused
            obtain ⟨hpattern, hadditional⟩ := undeclared_keysAt hrefused
            have hkept : verbatim shape rest = [] := verbatim_eq_nil hdestination rest
            rw [hkept] at hadditional ⊢
            exact ⟨hpattern, congrArg (key :: ·) hadditional⟩

/-! ## Objects -/

/-- The buckets besides the declared one have the keys of the payload that go there. -/
theorem Sorts.keys (h : Sorts mode shape payload replies value)
    (heard : Heard answers false ((Shape.object shape).inquiries mode payload) replies)
    (hplace : place ≠ .declared) :
    (sorted shape (payload.asObj?.getD []) replies).keys place =
      keysAt shape place (payload.asObj?.getD []) := by
  obtain ⟨hpattern, hadditional⟩ := undeclared_keysAt h.refused
  have hheld := keys_heldAt heard h.told hplace
  have hdeclared : (declaredInquiries (skips shape mode (payload.asObj?.getD []))
      (payload.asObj?.getD []) shape.properties).filterMap
        (fun inquiry => inquiry.slot.keyAt? place) = [] := by
    refine List.filterMap_eq_nil_iff.2 fun inquiry hinquiry => keyAt?_of_mayLack ?_
    rw [mayLack_declared hinquiry, decide_eq_true hplace]
  change _ = List.filterMap _ (undeclaredInquiries shape _ ++ declaredInquiries _ _ _) at hheld
  rw [List.filterMap_append, hdeclared, List.append_nil] at hheld
  cases place with
  | declared => exact absurd rfl hplace
  | pattern => exact hheld.trans hpattern
  | additional =>
      show (verbatim _ _ ++ heldAt _ _).map Prod.fst = _
      rw [List.map_append, hheld]
      exact hadditional

/-- Of the properties an object declares, each is there at most once. -/
theorem declared_nodup (hnames : (shape.properties.map Prod.fst).Nodup)
    (heard : Heard answers false ((Shape.object shape).inquiries mode payload) replies) :
    ((sorted shape (payload.asObj?.getD []) replies).keys .declared).Nodup := by
  have hsublist := heldAt_sublist heard .declared
  have hundeclared : (undeclaredInquiries shape (payload.asObj?.getD [])).filterMap
      (fun inquiry => inquiry.slot.keyAt? .declared) = [] :=
    List.filterMap_eq_nil_iff.2 fun inquiry hinquiry =>
      keyAt?_of_mayLack (mayLack_undeclared hinquiry)
  change List.Sublist _ (List.filterMap _ (undeclaredInquiries shape _ ++
    declaredInquiries _ _ _)) at hsublist
  have hdeclared : (declaredInquiries (skips shape mode (payload.asObj?.getD []))
      (payload.asObj?.getD []) shape.properties).filterMap
        (fun inquiry => inquiry.slot.keyAt? .declared) = (shape.properties.filter
          fun property => !skips shape mode (payload.asObj?.getD []) property.1).map Prod.fst := by
    unfold declaredInquiries
    rw [List.filterMap_map]
    exact congrFun List.filterMap_eq_map _
  rw [List.filterMap_append, hundeclared, List.nil_append, hdeclared] at hsublist
  exact (hsublist.trans (List.filter_sublist.map _)).nodup hnames

/-! ## Declared properties -/

/-- Wherever it starts, a node makes this of an input. -/
def Yields (convert : Converting ι) (node : ι) (input : Option Json) (value : Value) : Prop :=
  ∀ path s, (convert node input path s).1 = .ok value

/-- A conversion that is the same everywhere yields what it gives once. -/
theorem MovesNodes.yields (nodes : ∀ place, MovesNodes place convert) {node : ι}
    {input : Option Json} {s : ConversionState} (h : (convert node input path s).1 = .ok value) :
    Yields convert node input value := by
  have hroot : ∀ place s₀ s', convert node input place s' =
      ((convert node input .root s₀).1.mapError (Failure.moved place), s') := by
    intro place s₀ s'
    have hfollows := (nodes place).follows node input .root s₀ s'
    rwa [Path.under_root] at hfollows
  intro path' s'
  rw [hroot path s s] at h
  rw [hroot path' s s']
  rcases hrun : (convert node input .root s).1 with failure | found
  · rw [hrun] at h
    cases h
  · rw [hrun] at h
    cases h
    rfl

/-- A declared property that is not skipped has the value its node yields, if there is one, and a
value if it is there. -/
theorem declared_of_not_skipped (nodes : ∀ place, MovesNodes place convert)
    (heard : Heard (Said convert path) false ((Shape.object shape).inquiries mode payload) replies)
    (hnone : told replies = []) {node : ι} (hnode : (key, node) ∈ shape.properties)
    (hkept : skips shape mode (payload.asObj?.getD []) key = false) :
    (∃ value, (key, value) ∈ heldAt .declared replies ∧
      Yields convert node (Entries.find? key (payload.asObj?.getD [])) value) ∨
    key ∉ (payload.asObj?.getD []).map Prod.fst ∧
      ∀ value, ¬Yields convert node (Entries.find? key (payload.asObj?.getD [])) value := by
  have hinquiry : (⟨.property .declared key, node, Entries.find? key (payload.asObj?.getD [])⟩ :
      Inquiry ι) ∈ (Shape.object shape).inquiries mode payload :=
    List.mem_append_right _ (mem_declaredInquiries.2 ⟨key, node, hnode, hkept, rfl⟩)
  rcases answered_of_told heard hnone hinquiry with ⟨value, ⟨s, hsaid⟩, hreply⟩ | ⟨-, s, hsaid⟩
  · exact .inl ⟨value, mem_heldAt.2 hreply, MovesNodes.yields nodes hsaid⟩
  · refine .inr ⟨fun hpresent => ?_, fun value hyields => ?_⟩
    · -- only a property that is absent lacks a value
      obtain ⟨item, hitem⟩ := Option.isSome_iff_exists.1 (Entries.contains_iff.2 hpresent)
      unfold Inquiry.part at hsaid
      dsimp only at hsaid
      rw [hitem] at hsaid
      exact (nodes .root).there node item _ s hsaid
    · cases hsaid.symm.trans (hyields _ s)

/-- Where nothing is wrong, the declared bucket has what the declared properties come to. -/
theorem mem_declared_iff (nodes : ∀ place, MovesNodes place convert)
    (heard : Heard (Said convert path) false ((Shape.object shape).inquiries mode payload) replies)
    (hnone : told replies = []) :
    (key, value) ∈ heldAt .declared replies ↔ ∃ node, (key, node) ∈ shape.properties ∧
      skips shape mode (payload.asObj?.getD []) key = false ∧
        Yields convert node (Entries.find? key (payload.asObj?.getD [])) value := by
  constructor
  · intro hentry
    obtain ⟨reply, hreply, hslot, hvalue⟩ := mem_heldAt.1 hentry
    obtain ⟨inquiry, hinquiry, hsame, s, hsaid⟩ := heard.value_of_mem hreply hvalue
    rw [hslot] at hsame
    rcases List.mem_append.1 hinquiry with hinquiry | hinquiry
    · have hmayLack := mayLack_undeclared hinquiry
      rw [← hsame] at hmayLack
      cases hmayLack
    · obtain ⟨name, node, hname, hkept, rfl⟩ := mem_declaredInquiries.1 hinquiry
      cases hsame
      exact ⟨node, hname, hkept, MovesNodes.yields nodes hsaid⟩
  · rintro ⟨node, hnode, hkept, hyields⟩
    rcases declared_of_not_skipped nodes heard hnone hnode hkept with
      ⟨found, hentry, hfound⟩ | ⟨-, hlacks⟩
    · have hsame : Except.ok value = Except.ok found :=
        (hyields .root (.start none)).symm.trans (hfound .root (.start none))
      cases hsame
      exact hentry
    · exact absurd hyields (hlacks value)

/-! ## Where keys end -/

/-- Every key of the payload is in the bucket the shape says, and in no other. -/
theorem Sorts.mem_keys_iff (h : Sorts mode shape payload replies value)
    (nodes : ∀ place, MovesNodes place convert)
    (heard : Heard (Said convert path) false ((Shape.object shape).inquiries mode payload) replies)
    (hkey : key ∈ (payload.asObj?.getD []).map Prod.fst) :
    key ∈ (sorted shape (payload.asObj?.getD []) replies).keys place ↔
      place = shape.place key := by
  have hthere : key ∈ (sorted shape (payload.asObj?.getD []) replies).keys (shape.place key) := by
    by_cases hplace : shape.place key = .declared
    · obtain ⟨⟨name, node⟩, hnode, heq⟩ :=
        List.mem_map.1 (Entries.contains_iff.1 (ObjectShape.declared_of_place hplace))
      obtain rfl : name = key := heq
      rw [hplace]
      rcases declared_of_not_skipped nodes heard h.told hnode (h.kept hkey) with
        ⟨found, hentry, -⟩ | ⟨habsent, -⟩
      · exact List.mem_map.2 ⟨_, hentry, rfl⟩
      · exact absurd hkey habsent
    · rw [h.keys heard hplace]
      exact mem_keysAt.2 ⟨hkey, rfl⟩
  constructor
  · exact fun hmem => sorted_apart heard _ place _ hmem hthere
  · rintro rfl
    exact hthere

/-- A key that is not in the payload is a declared property that comes to a value although it is
absent; it is not excluded. -/
theorem Sorts.mem_keys_iff_of_absent (h : Sorts mode shape payload replies value)
    (nodes : ∀ place, MovesNodes place convert)
    (heard : Heard (Said convert path) false ((Shape.object shape).inquiries mode payload) replies)
    (hkey : key ∉ (payload.asObj?.getD []).map Prod.fst) :
    key ∈ (sorted shape (payload.asObj?.getD []) replies).keys place ↔
      place = .declared ∧ key ∉ shape.excludedFrom mode.entity ∧
        ∃ node found, (key, node) ∈ shape.properties ∧ Yields convert node none found := by
  have hmissing : Entries.find? key (payload.asObj?.getD []) = none := by
    rw [← Option.not_isSome_iff_eq_none]
    exact fun h => hkey (Entries.contains_iff.1 h)
  constructor
  · intro hmem
    by_cases hplace : place = .declared
    · subst hplace
      obtain ⟨⟨_, found⟩, hentry, rfl⟩ := List.mem_map.1 hmem
      obtain ⟨node, hnode, hkept, hyields⟩ := (mem_declared_iff nodes heard h.told).1 hentry
      rw [h.skipping] at hkept
      rw [hmissing] at hyields
      refine ⟨rfl, fun hexcluded => ?_, node, found, hnode, hyields⟩
      rw [List.contains_iff_mem.2 hexcluded] at hkept
      cases hkept
    · rw [h.keys heard hplace] at hmem
      exact absurd (mem_keysAt.1 hmem).1 hkey
  · rintro ⟨rfl, hkept, node, found, hnode, hyields⟩
    refine List.mem_map.2 ⟨(key, found), (mem_declared_iff nodes heard h.told).2 ?_, rfl⟩
    rw [hmissing, h.skipping]
    exact ⟨node, hnode,
      Bool.eq_false_iff.2 fun hexcluded => hkept (List.contains_iff_mem.1 hexcluded), hyields⟩

/-- If no key is given twice, none is there twice. -/
theorem Sorts.nodup (h : Sorts mode shape payload replies value)
    (heard : Heard answers false ((Shape.object shape).inquiries mode payload) replies)
    (hpayload : ((payload.asObj?.getD []).map Prod.fst).Nodup)
    (hproperties : (shape.properties.map Prod.fst).Nodup) :
    ((sorted shape (payload.asObj?.getD []) replies).entries.map Prod.fst).Nodup := by
  refine (sorted_apart heard).nodup_entries fun place => ?_
  by_cases hplace : place = .declared
  · subst hplace
    exact declared_nodup hproperties heard
  · rw [h.keys heard hplace]
    exact hpayload.filter _

end Conversion

end SchemaGraph

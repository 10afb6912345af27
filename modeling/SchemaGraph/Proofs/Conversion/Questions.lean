import SchemaGraph.Proofs.Conversion.Inquiries

set_option autoImplicit false

/-! # What nodes ask

A node that judges values asks about the items of a list, about the values of a map, about the
keys of an object or, of its subtypes, about the payload itself (`Shape.inquiries`). A key of an
object is asked about for the bucket where it goes (`ObjectShape.place`), if it is not kept as it
is or refused. Every question calls a child (`Shape.calls_of_mem`).
-/

namespace SchemaGraph

variable {ι : Type}

/-! ## Where keys go -/

namespace ObjectShape

/-- The bucket for a key of the payload: a declared key is declared whatever patterns match it. -/
def place (shape : ObjectShape ι) (key : String) : Buckets.Place :=
  if Entries.contains key shape.properties then .declared
  else if shape.patterns.any fun (pattern, _) => pattern.matchesFromStart key then .pattern
  else .additional

/-- The properties an entity must not have. -/
def excludedFrom (shape : ObjectShape ι) (entity : Entity) : List String :=
  ((Conversion.excluded shape entity).map Prod.fst).getD []

end ObjectShape

namespace Conversion

/-- The nodes keys go to. -/
def Destination.nodes : Destination ι → List ι
  | .pattern node => [node]
  | .additional node => [node]
  | .verbatim => []
  | .refused => []

/-- The bucket keys go to. -/
def Destination.place : Destination ι → Buckets.Place
  | .pattern _ => .pattern
  | _ => .additional

/-- The keys of a payload that go to one bucket, in their order. -/
def keysAt (shape : ObjectShape ι) (place : Buckets.Place) (payload : List (String × Json)) :
    List String :=
  (payload.map Prod.fst).filter fun key => shape.place key = place

/-- The keys that are neither declared nor matched, where those are denied. -/
def refusedKeys (shape : ObjectShape ι) (payload : List (String × Json)) : List String :=
  match shape.additional with
  | .deny => keysAt shape .additional payload
  | _ => []

/-- The entries that are neither declared nor matched, where those are kept as they are. -/
def verbatim (shape : ObjectShape ι) (payload : List (String × Json)) : List (String × Value) :=
  match shape.additional with
  | .allow =>
    (payload.filter fun entry => shape.place entry.1 = .additional).map
      fun entry => (entry.1, Value.ofJson entry.2)
  | _ => []

/-- A property that does not convert: it is excluded, or required and missing. -/
def skips (shape : ObjectShape ι) (mode : Mode) (payload : List (String × Json))
    (name : String) : Bool :=
  let isExcluded (name : String) : Bool :=
    (excluded shape mode.entity).any fun (names, _) => names.contains name
  (shape.required.filter fun name =>
    !isExcluded name && !Entries.contains name payload).contains name || isExcluded name

/-- One error that lists names, if there are any. -/
def summary (common : Common) (path : Path) (key : MessageKey) (names : List String) :
    List LocatedError :=
  if names.isEmpty then [] else [common.error path key [commaDelimited names]]

/-- The excluded properties that are there, in one error. -/
def forbidden (mode : Mode) (common : Common) (shape : ObjectShape ι)
    (payload : List (String × Json)) (path : Path) : List LocatedError :=
  match excluded shape mode.entity with
  | none => []
  | some (names, key) =>
    summary common path key (names.filter fun name => Entries.contains name payload)

/-- The required properties that are missing, unless they are excluded anyway. -/
def missing (mode : Mode) (shape : ObjectShape ι) (payload : List (String × Json)) : List String :=
  shape.required.filter fun name =>
    !(shape.excludedFrom mode.entity).contains name && !Entries.contains name payload

theorem summary_eq_nil_iff {common : Common} {path : Path} {key : MessageKey}
    {names : List String} : summary common path key names = [] ↔ names = [] := by
  cases names with
  | nil => exact iff_of_true rfl rfl
  | cons first rest => exact iff_of_false (List.cons_ne_nil _ _) (List.cons_ne_nil _ _)

/-- The node for a payload under the text of its discriminating property. -/
def selected (property : String) (mapping : List (String × ι)) (payload : Json) : Option ι :=
  ((payload.get? property).bind Json.asStr?).bind fun name => Entries.find? name mapping

end Conversion

section

open Conversion

variable {shape : ObjectShape ι} {payload : List (String × Json)} {key : String} {item : Json}

namespace ObjectShape

theorem place_of_declared (h : Entries.contains key shape.properties = true) :
    shape.place key = .declared :=
  if_pos h

theorem place_of_destination (h : ¬Entries.contains key shape.properties = true) :
    shape.place key = (destination shape key).place := by
  unfold place destination
  rw [if_neg h]
  cases hfind : shape.patterns.find? fun (pattern, _) => pattern.matchesFromStart key with
  | some found =>
      have hany : (shape.patterns.any fun (pattern, _) => pattern.matchesFromStart key) = true :=
        List.any_eq_true.2 ⟨found, List.mem_of_find?_eq_some hfind, by
          have hmatches := List.find?_some hfind
          exact hmatches⟩
      rw [if_pos hany]
      rfl
  | none =>
      have hany :
          ¬(shape.patterns.any fun (pattern, _) => pattern.matchesFromStart key) = true := by
        intro hany
        obtain ⟨found, hmem, hmatches⟩ := List.any_eq_true.1 hany
        exact List.find?_eq_none.1 hfind found hmem hmatches
      rw [if_neg hany]
      cases shape.additional <;> rfl

/-- Only declared keys go to the declared bucket. -/
theorem declared_of_place (h : shape.place key = .declared) :
    Entries.contains key shape.properties = true := by
  by_contra hundeclared
  rw [place_of_destination hundeclared] at h
  cases hdestination : destination shape key <;> rw [hdestination] at h <;> cases h

theorem excludedFrom_eq (entity : Entity) :
    ((excluded shape entity).any fun (names, _) => names.contains key) =
      (shape.excludedFrom entity).contains key := by
  unfold excludedFrom
  cases excluded shape entity <;> rfl

end ObjectShape

namespace Conversion

/-- A property does not convert if it is required and missing, or excluded. -/
theorem skips_eq (mode : Mode) : skips shape mode payload key =
    ((missing mode shape payload).contains key ||
      (shape.excludedFrom mode.entity).contains key) := by
  unfold skips missing
  simp only [ObjectShape.excludedFrom_eq]

/-- No property is there that is excluded. -/
theorem forbidden_eq_nil {mode : Mode} {common : Common} {path : Path} :
    forbidden mode common shape payload path = [] ↔
      ∀ name ∈ shape.excludedFrom mode.entity, name ∉ payload.map Prod.fst := by
  unfold forbidden ObjectShape.excludedFrom
  cases excluded shape mode.entity with
  | none => exact iff_of_true rfl fun name h => nomatch h
  | some found =>
      rw [summary_eq_nil_iff, List.filter_eq_nil_iff]
      exact forall₂_congr fun name _ => not_congr Entries.contains_iff

theorem mem_keysAt {place : Buckets.Place} :
    key ∈ keysAt shape place payload ↔ key ∈ payload.map Prod.fst ∧ shape.place key = place := by
  unfold keysAt
  rw [List.mem_filter, decide_eq_true_iff]

theorem keysAt_cons {place : Buckets.Place} :
    keysAt shape place ((key, item) :: payload) =
      if shape.place key = place then key :: keysAt shape place payload
      else keysAt shape place payload := by
  unfold keysAt
  rw [List.map_cons, List.filter_cons]
  simp only [decide_eq_true_eq]

/-- Keys go to patterns and to the additional schema. -/
theorem nodes_destination {node : ι}
    (h : node ∈ (destination shape key).nodes) :
    node ∈ shape.patterns.map Prod.snd ∨ node ∈ shape.additional.children := by
  unfold destination at h
  split at h
  · rename_i found hfind
    obtain rfl : node = _ := List.mem_singleton.1 h
    exact .inl (List.mem_map.2 ⟨_, List.mem_of_find?_eq_some hfind, rfl⟩)
  · right
    revert h
    cases shape.additional with
    | schema node => exact id
    | _ => exact fun h => h

/-- A declared key is not refused, whatever the patterns and the policy say. -/
theorem refusedKeys_of_declared (h : Entries.contains key shape.properties = true) :
    refusedKeys shape ((key, item) :: payload) = refusedKeys shape payload := by
  unfold refusedKeys
  rw [keysAt_cons, ObjectShape.place_of_declared h]
  rfl

/-- Another key is refused where it goes nowhere. -/
theorem refusedKeys_of_destination (h : ¬Entries.contains key shape.properties = true) :
    refusedKeys shape ((key, item) :: payload) = match destination shape key with
      | .refused => key :: refusedKeys shape payload
      | _ => refusedKeys shape payload := by
  unfold refusedKeys
  rw [keysAt_cons, ObjectShape.place_of_destination h]
  unfold destination
  cases shape.patterns.find? fun (pattern, _) => pattern.matchesFromStart key <;>
    cases shape.additional <;> rfl

theorem verbatim_of_declared (h : Entries.contains key shape.properties = true) :
    verbatim shape ((key, item) :: payload) = verbatim shape payload := by
  unfold verbatim
  rw [List.filter_cons]
  dsimp only
  rw [ObjectShape.place_of_declared h]
  rfl

theorem verbatim_of_destination (h : ¬Entries.contains key shape.properties = true) :
    verbatim shape ((key, item) :: payload) = match destination shape key with
      | .verbatim => (key, Value.ofJson item) :: verbatim shape payload
      | _ => verbatim shape payload := by
  unfold verbatim
  rw [List.filter_cons]
  dsimp only
  rw [ObjectShape.place_of_destination h]
  unfold destination
  cases shape.patterns.find? fun (pattern, _) => pattern.matchesFromStart key <;>
    cases shape.additional <;> rfl

/-- What is kept as it is comes from the payload. -/
theorem mem_verbatim {value : Value} (h : (key, value) ∈ verbatim shape payload) :
    ∃ item, (key, item) ∈ payload ∧ shape.place key = .additional ∧ value = Value.ofJson item := by
  unfold verbatim at h
  split at h
  · obtain ⟨⟨_, item⟩, hentry, heq⟩ := List.mem_map.1 h
    cases heq
    obtain ⟨hmem, hplace⟩ := List.mem_filter.1 hentry
    exact ⟨item, hmem, of_decide_eq_true hplace, rfl⟩
  · cases h

/-- A key that goes nowhere is kept with its value where all are allowed. -/
theorem mem_verbatim_of_destination (h : ¬Entries.contains key shape.properties = true)
    (hdestination : destination shape key = .verbatim) (hentry : (key, item) ∈ payload) :
    (key, Value.ofJson item) ∈ verbatim shape payload := by
  have hplace := ObjectShape.place_of_destination h
  have hallow : shape.additional = .allow := by
    unfold destination at hdestination
    split at hdestination
    · cases hdestination
    · split at hdestination <;> first | assumption | cases hdestination
  rw [hdestination] at hplace
  unfold verbatim
  rw [hallow]
  exact List.mem_map.2
    ⟨(key, item), List.mem_filter.2 ⟨hentry, decide_eq_true hplace⟩, rfl⟩

/-- It is refused where none is. -/
theorem mem_refusedKeys_of_destination (h : ¬Entries.contains key shape.properties = true)
    (hdestination : destination shape key = .refused) (hkey : key ∈ payload.map Prod.fst) :
    key ∈ refusedKeys shape payload := by
  have hplace := ObjectShape.place_of_destination h
  have hdeny : shape.additional = .deny := by
    unfold destination at hdestination
    split at hdestination
    · cases hdestination
    · split at hdestination <;> first | assumption | cases hdestination
  rw [hdestination] at hplace
  unfold refusedKeys
  rw [hdeny]
  exact mem_keysAt.2 ⟨hkey, hplace⟩

/-- Where keys go to a schema, none is kept as it is. -/
theorem verbatim_eq_nil {node : ι} (h : destination shape key = .additional node)
    (payload : List (String × Json)) : verbatim shape payload = [] := by
  unfold verbatim
  unfold destination at h
  split at h
  · cases h
  · cases hadditional : shape.additional with
    | allow =>
        rw [hadditional] at h
        cases h
    | _ => rfl

end Conversion

end

/-! ## What is asked -/

namespace Slot

/-- The key of a property that goes to a bucket. -/
def keyAt? (place : Buckets.Place) : Slot → Option String
  | property place' key => if place' = place then some key else none
  | _ => none

/-- The question is about the value itself. -/
def isHanded : Slot → Bool
  | subtype _ | whole => true
  | _ => false

end Slot

namespace Conversion

/-- About the items of a list, from an index on. -/
def itemInquiries (node : ι) (index : Nat) (payload : List Json) : List (Inquiry ι) :=
  (payload.zipIdx index).map fun (item, index) => ⟨.item index, node, some item⟩

/-- About the values of a map. -/
def entryInquiries (node : ι) (payload : List (String × Json)) : List (Inquiry ι) :=
  payload.map fun (key, item) => ⟨.property .additional key, node, some item⟩

/-- About the keys that are not declared. -/
def undeclaredInquiries (shape : ObjectShape ι) (payload : List (String × Json)) :
    List (Inquiry ι) :=
  payload.flatMap fun (key, item) =>
    if Entries.contains key shape.properties then []
    else (destination shape key).nodes.map fun node =>
      ⟨.property (destination shape key).place key, node, some item⟩

/-- About the declared properties that are not skipped, also about absent ones. -/
def declaredInquiries (skip : String → Bool) (payload : List (String × Json))
    (properties : List (String × ι)) : List (Inquiry ι) :=
  (properties.filter fun (name, _) => !skip name).map fun (name, node) =>
    ⟨.property .declared name, node, Entries.find? name payload⟩

theorem declaredInquiries_cons {skip : String → Bool} {payload : List (String × Json)}
    {name : String} {node : ι} {rest : List (String × ι)} :
    declaredInquiries skip payload ((name, node) :: rest) =
      if skip name then declaredInquiries skip payload rest
      else ⟨.property .declared name, node, Entries.find? name payload⟩ ::
        declaredInquiries skip payload rest := by
  unfold declaredInquiries
  rw [List.filter_cons]
  cases hskip : skip name <;> simp [hskip]

theorem mem_undeclaredInquiries {shape : ObjectShape ι} {payload : List (String × Json)}
    {inquiry : Inquiry ι} :
    inquiry ∈ undeclaredInquiries shape payload ↔
      ∃ key item node, (key, item) ∈ payload ∧ ¬Entries.contains key shape.properties = true ∧
        node ∈ (destination shape key).nodes ∧
        inquiry = ⟨.property (destination shape key).place key, node, some item⟩ := by
  constructor
  · intro h
    obtain ⟨⟨key, item⟩, hentry, hinquiry⟩ := List.mem_flatMap.1 h
    dsimp only at hinquiry
    split at hinquiry
    · cases hinquiry
    · obtain ⟨node, hnode, rfl⟩ := List.mem_map.1 hinquiry
      exact ⟨key, item, node, hentry, ‹_›, hnode, rfl⟩
  · rintro ⟨key, item, node, hentry, hundeclared, hnode, rfl⟩
    refine List.mem_flatMap.2 ⟨(key, item), hentry, ?_⟩
    dsimp only
    rw [if_neg hundeclared]
    exact List.mem_map_of_mem hnode

theorem mem_declaredInquiries {skip : String → Bool} {payload : List (String × Json)}
    {properties : List (String × ι)} {inquiry : Inquiry ι} :
    inquiry ∈ declaredInquiries skip payload properties ↔
      ∃ name node, (name, node) ∈ properties ∧ skip name = false ∧
        inquiry = ⟨.property .declared name, node, Entries.find? name payload⟩ := by
  constructor
  · intro h
    obtain ⟨⟨name, node⟩, hmem, rfl⟩ := List.mem_map.1 h
    obtain ⟨hproperty, hkept⟩ := List.mem_filter.1 hmem
    exact ⟨name, node, hproperty, by simpa using hkept, rfl⟩
  · rintro ⟨name, node, hproperty, hkept, rfl⟩
    have hstays : (!skip name) = true := by
      rw [hkept]
      rfl
    exact List.mem_map.2 ⟨(name, node), List.mem_filter.2 ⟨hproperty, hstays⟩, rfl⟩

/-- Only what is asked about declared properties may come to no value. -/
theorem mayLack_undeclared {shape : ObjectShape ι} {payload : List (String × Json)}
    {inquiry : Inquiry ι} (h : inquiry ∈ undeclaredInquiries shape payload) :
    inquiry.slot.mayLack = false := by
  obtain ⟨key, item, node, -, -, hnode, rfl⟩ := mem_undeclaredInquiries.1 h
  cases hdestination : destination shape key <;> rfl

theorem mayLack_declared {skip : String → Bool} {payload : List (String × Json)}
    {properties : List (String × ι)} {inquiry : Inquiry ι}
    (h : inquiry ∈ declaredInquiries skip payload properties) : inquiry.slot.mayLack = true := by
  obtain ⟨name, node, -, -, rfl⟩ := mem_declaredInquiries.1 h
  rfl

section

variable {shape : ObjectShape ι} {skip : String → Bool} {payload : List (String × Json)}
  {properties : List (String × ι)}

theorem filter_undeclared :
    (undeclaredInquiries shape payload ++ declaredInquiries skip payload properties).filter
      (fun inquiry => !inquiry.slot.mayLack) = undeclaredInquiries shape payload := by
  rw [List.filter_append, List.filter_eq_self.2, List.filter_eq_nil_iff.2, List.append_nil]
  · exact fun inquiry hinquiry => by simp [mayLack_declared hinquiry]
  · exact fun inquiry hinquiry => by simp [mayLack_undeclared hinquiry]

theorem filter_declared :
    (undeclaredInquiries shape payload ++ declaredInquiries skip payload properties).filter
      (fun inquiry => inquiry.slot.mayLack) = declaredInquiries skip payload properties := by
  rw [List.filter_append, List.filter_eq_nil_iff.2, List.filter_eq_self.2, List.nil_append]
  · exact fun inquiry hinquiry => mayLack_declared hinquiry
  · exact fun inquiry hinquiry => by simp [mayLack_undeclared hinquiry]

end

/-- About the payload itself, to subtypes from an index on. -/
def subtypeInquiries (payload : Json) (index : Nat) (subtypes : List ι) : List (Inquiry ι) :=
  (subtypes.zipIdx index).map fun (node, index) => ⟨.subtype index, node, some payload⟩

end Conversion

namespace Shape

open Conversion

/-- What is asked about a payload of the right type. -/
def inquiries (mode : Mode) (payload : Json) : Shape ι → List (Inquiry ι)
  | array node .. => itemInquiries node 0 (payload.asArr?.getD [])
  | map node _ => entryInquiries node (payload.asObj?.getD [])
  | object shape =>
    undeclaredInquiries shape (payload.asObj?.getD []) ++
      declaredInquiries (skips shape mode (payload.asObj?.getD [])) (payload.asObj?.getD [])
        shape.properties
  | discriminated property mapping =>
    (selected property mapping payload).toList.map fun node => ⟨.whole, node, some payload⟩
  | allOf subtypes | anyOf subtypes | oneOf subtypes | not subtypes =>
    subtypeInquiries payload 0 subtypes
  | _ => []

/-- The children that convert the very value the node does. -/
def handed : Shape ι → List ι
  | discriminated _ mapping => mapping.map Prod.snd
  | allOf subtypes => subtypes
  | anyOf subtypes => subtypes
  | oneOf subtypes => subtypes
  | not subtypes => subtypes
  | _ => []

/-- The first value decides. -/
def isEager : Shape ι → Bool
  | anyOf _ | not _ => true
  | _ => false

/-- The nodes that are tried on the payload itself. -/
def subtypes : Shape ι → List ι
  | allOf subtypes => subtypes
  | anyOf subtypes => subtypes
  | oneOf subtypes => subtypes
  | not subtypes => subtypes
  | _ => []

/-- A call that is made for a payload at a location: by which node, on what, and where. -/
inductive Calls (payload : Json) (path : Path) : Shape ι → ι → Option Json → Path → Prop where
  | item {node : ι} {size : CountBounds} {unique : Bool} {distinctBy : Option (List String)}
      {index : Nat} {item : Json} (h : (payload.asArr?.getD [])[index]? = some item) :
      Calls payload path (.array node size unique distinctBy) node (some item) (path.item index)
  | entry {node : ι} {size : CountBounds} {key : String} {item : Json}
      (h : (key, item) ∈ payload.asObj?.getD []) :
      Calls payload path (.map node size) node (some item) (path.child key)
  | undeclared {shape : ObjectShape ι} {node : ι} {key : String} {item : Json}
      (h : (key, item) ∈ payload.asObj?.getD [])
      (hnode : node ∈ (destination shape key).nodes) :
      Calls payload path (.object shape) node (some item) (path.child key)
  | declared {shape : ObjectShape ι} {node : ι} {name : String}
      (h : (name, node) ∈ shape.properties) :
      Calls payload path (.object shape) node (Entries.find? name (payload.asObj?.getD []))
        (path.child name)
  | selected {property name : String} {mapping : List (String × ι)} {node : ι}
      (h : (name, node) ∈ mapping) :
      Calls payload path (.discriminated property mapping) node (some payload) path
  | subtype {shape : Shape ι} {node : ι} {index : Nat} (h : shape.subtypes[index]? = some node) :
      Calls payload path shape node (some payload) (path.item index)

/-- A node calls its children. -/
theorem Calls.mem_children {shape : Shape ι} {payload : Json} {path location : Path} {node : ι}
    {given : Option Json} (h : shape.Calls payload path node given location) :
    node ∈ shape.children := by
  cases h with
  | item => exact List.mem_cons_self
  | entry => exact List.mem_cons_self
  | undeclared _ hnode =>
      rcases nodes_destination hnode with hpattern | hadditional
      · exact List.mem_append_left _ (List.mem_append_right _ hpattern)
      · exact List.mem_append_right _ hadditional
  | declared hname =>
      exact List.mem_append_left _ (List.mem_append_left _ (List.mem_map.2 ⟨_, hname, rfl⟩))
  | selected hname => exact List.mem_map.2 ⟨_, hname, rfl⟩
  | subtype hsubtype =>
      cases shape with
      | allOf subtypes | anyOf subtypes | oneOf subtypes | not subtypes =>
          exact List.mem_of_getElem? hsubtype
      | _ => cases hsubtype

/-- What a payload is coerced to has no parts. -/
theorem not_calls_of_coercion {shape : Shape ι} {payload cast : Json} {key : MessageKey}
    {path location : Path} {node : ι} {given : Option Json}
    (h : shape.coercion? payload = some (key, some cast)) :
    ¬shape.Calls cast path node given location := by
  intro hcall
  cases hcall with
  | subtype hsubtype =>
      cases shape with
      | allOf subtypes | anyOf subtypes | oneOf subtypes | not subtypes => cases h
      | _ => cases hsubtype
  | _ => cases h

/-- A question calls a node. -/
theorem calls_of_mem {shape : Shape ι} {mode : Mode} {payload : Json} {inquiry : Inquiry ι}
    (h : inquiry ∈ shape.inquiries mode payload) (path : Path) :
    shape.Calls payload path inquiry.node inquiry.input (inquiry.slot.location path) := by
  have hsubtype : ∀ subtypes : List ι, shape.subtypes = subtypes →
      inquiry ∈ subtypeInquiries payload 0 subtypes →
        shape.Calls payload path inquiry.node inquiry.input (inquiry.slot.location path) := by
    intro subtypes hsubtypes hinquiry
    obtain ⟨⟨node, index⟩, hnode, rfl⟩ := List.mem_map.1 hinquiry
    refine .subtype ?_
    rw [hsubtypes]
    exact List.mk_mem_zipIdx_iff_getElem?.1 hnode
  cases shape with
  | array node size unique distinctBy =>
      obtain ⟨⟨item, index⟩, hitem, rfl⟩ := List.mem_map.1 h
      exact .item (List.mk_mem_zipIdx_iff_getElem?.1 hitem)
  | map node size =>
      obtain ⟨⟨key, item⟩, hitem, rfl⟩ := List.mem_map.1 h
      exact .entry hitem
  | object shape =>
      rcases List.mem_append.1 h with h | h
      · obtain ⟨key, item, node, hitem, -, hnode, rfl⟩ := mem_undeclaredInquiries.1 h
        exact .undeclared hitem hnode
      · obtain ⟨name, node, hname, -, rfl⟩ := mem_declaredInquiries.1 h
        exact .declared hname
  | discriminated property mapping =>
      obtain ⟨node, hnode, rfl⟩ := List.mem_map.1 h
      obtain ⟨name, -, hfind⟩ := Option.bind_eq_some_iff.1 (Option.mem_toList.1 hnode)
      exact .selected (Entries.mem_of_find? hfind)
  | allOf subtypes | anyOf subtypes | oneOf subtypes | not subtypes => exact hsubtype _ rfl h
  | _ => cases h

/-- Nodes are asked about the value itself where it is handed on. -/
theorem mem_handed_of_mem {shape : Shape ι} {mode : Mode} {payload : Json} {inquiry : Inquiry ι}
    (h : inquiry ∈ shape.inquiries mode payload) (hslot : inquiry.slot.isHanded = true) :
    inquiry.node ∈ shape.handed := by
  have hcalls := calls_of_mem h .root
  cases shape with
  | array node size unique distinctBy =>
      obtain ⟨⟨item, index⟩, hitem, rfl⟩ := List.mem_map.1 h
      cases hslot
  | map node size =>
      obtain ⟨⟨key, item⟩, hitem, rfl⟩ := List.mem_map.1 h
      cases hslot
  | object shape =>
      rcases List.mem_append.1 h with h | h
      · obtain ⟨key, item, node, -, -, -, rfl⟩ := mem_undeclaredInquiries.1 h
        cases hslot
      · obtain ⟨name, node, -, -, rfl⟩ := mem_declaredInquiries.1 h
        cases hslot
  | discriminated | allOf | anyOf | oneOf | not => exact hcalls.mem_children
  | _ => cases h

/-- They are asked about the payload itself. -/
theorem input_of_handed {shape : Shape ι} {mode : Mode} {payload : Json} {inquiry : Inquiry ι}
    (h : inquiry ∈ shape.inquiries mode payload) (hslot : inquiry.slot.isHanded = true) :
    inquiry.input = some payload := by
  have hhanded := mem_handed_of_mem h hslot
  cases shape with
  | discriminated | allOf | anyOf | oneOf | not =>
      obtain ⟨_, -, rfl⟩ := List.mem_map.1 h
      rfl
  | _ => cases hhanded

/-- What is asked about a key is asked about an entry of the payload, if it is there. -/
theorem mem_of_property {shape : Shape ι} {mode : Mode} {payload : Json} {inquiry : Inquiry ι}
    (h : inquiry ∈ shape.inquiries mode payload) {place : Buckets.Place} {key : String}
    (hslot : inquiry.slot = .property place key) {item : Json}
    (hinput : inquiry.input = some item) : (key, item) ∈ payload.asObj?.getD [] := by
  cases shape with
  | map node size =>
      obtain ⟨⟨_, _⟩, hentry, rfl⟩ := List.mem_map.1 h
      cases hslot
      cases hinput
      exact hentry
  | object shape =>
      rcases List.mem_append.1 h with h | h
      · obtain ⟨_, _, _, hentry, -, -, rfl⟩ := mem_undeclaredInquiries.1 h
        cases hslot
        cases hinput
        exact hentry
      · obtain ⟨_, _, -, -, rfl⟩ := mem_declaredInquiries.1 h
        cases hslot
        exact Entries.mem_of_find? hinput
  | array | discriminated | allOf | anyOf | oneOf | not =>
      obtain ⟨_, -, rfl⟩ := List.mem_map.1 h
      cases hslot
  | _ => cases h

/-- What may not be missing is there. -/
theorem exists_input {shape : Shape ι} {mode : Mode} {payload : Json} {inquiry : Inquiry ι}
    (h : inquiry ∈ shape.inquiries mode payload) (hslot : inquiry.slot.mayLack = false) :
    ∃ item, inquiry.input = some item := by
  have hcalls := calls_of_mem h .root
  cases shape with
  | object shape =>
      rcases List.mem_append.1 h with h | h
      · obtain ⟨key, item, node, -, -, -, rfl⟩ := mem_undeclaredInquiries.1 h
        exact ⟨item, rfl⟩
      · rw [mayLack_declared h] at hslot
        cases hslot
  | _ =>
      generalize inquiry.node = node at hcalls
      generalize inquiry.input = input at hcalls ⊢
      generalize inquiry.slot.location .root = location at hcalls
      cases hcalls <;> exact ⟨_, rfl⟩

end Shape

end SchemaGraph

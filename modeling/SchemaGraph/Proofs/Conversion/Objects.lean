import SchemaGraph.Proofs.Conversion.Closure
import SchemaGraph.Proofs.Conversion.Keys
import SchemaGraph.Proofs.Objects

set_option autoImplicit false

/-! # Objects keep their keys

Where no node follows references, a converted object has every key of its payload in one bucket,
the one its shape says, and besides them only declared properties that come to a value although
they are absent. In every graph, no object inside a converted value has a key in two buckets
(`Graph.objects_keep_keys`): the registry remembers such values only.
-/

namespace SchemaGraph

/-- Every value that is remembered has its buckets apart. -/
def Registry.IsApart (registry : Registry) : Prop :=
  ∀ path value, registry.find? path = some (.done value) → value.IsApart

theorem Registry.IsApart.set {registry : Registry} (h : registry.IsApart) (path : Path)
    {progress : Progress} (hprogress : ∀ value, progress = .done value → value.IsApart) :
    (registry.set path progress).IsApart := by
  intro other value hfind
  rw [find?_set] at hfind
  split at hfind
  · exact hprogress value (Option.some.inj hfind)
  · exact h other value hfind

theorem Registry.IsApart.remove {registry : Registry} (h : registry.IsApart) (path : Path) :
    (registry.remove path).IsApart := by
  intro other value hfind
  rw [find?_remove] at hfind
  split at hfind
  · cases hfind
  · exact h other value hfind

theorem Registry.IsApart.start {registry : Registry} (h : registry.IsApart) (path : Path) :
    (registry.start path).IsApart :=
  h.set path (by rintro _ ⟨⟩)

theorem Registry.IsApart.poison {registry : Registry} (h : registry.IsApart) (path : Path) :
    (registry.poison path).IsApart :=
  h.set path (by rintro _ ⟨⟩)

theorem Registry.IsApart.finish {registry : Registry} (h : registry.IsApart) (path : Path)
    {value : Value} (hvalue : value.IsApart) : (registry.finish path value).IsApart := by
  refine h.set path ?_
  rintro _ ⟨⟩
  exact hvalue

namespace Conversion

variable {ι : Type} {convert : Converting ι} {mode : Mode} {common : Common} {shape : Shape ι}
  {payload : Json} {path : Path} {replies : List Reply} {value : Value}

/-! ## Parts -/

/-- No object in a value that comes out has a key in two buckets. -/
def Apart (result : Except Failure Value) : Prop := ∀ value, result = .ok value → value.IsApart

theorem Apart.error (failure : Failure) : Apart (.error failure) := fun _ h => nomatch h

/-- Where the values remembered have their buckets apart, they still do after a run, and so has
what comes out. -/
abbrev BringsApart (part : Conversion Value) : Prop :=
  Brings (fun s => s.registry.IsApart) Apart part

/-- Whatever a node is given, no object in its value has a key in two buckets. -/
def KeepsApart (convert : Converting ι) : Prop :=
  ∀ node input path, BringsApart (convert node input path)

/-! ## Nodes that judge values -/

/-- What a shape makes of values apart is apart: an object node sorts the keys, and merging settles
the buckets. -/
theorem isApart_of_ruling
    (heard : Heard (fun _ => Apart) shape.isEager (shape.inquiries mode payload) replies)
    (ruled : shape.ruling mode common payload path replies = .ok value) : value.IsApart := by
  have hreplies : ∀ reply ∈ replies, ∀ value, reply.value? = some value → value.IsApart := by
    intro reply hreply value hvalue
    obtain ⟨inquiry, -, -, hanswer⟩ := heard.value_of_mem hreply hvalue
    exact hanswer value rfl
  have hheld : ∀ place, ∀ entry ∈ heldAt place replies, entry.2.IsApart := by
    rintro place ⟨key, value⟩ hentry
    obtain ⟨reply, hreply, -, hvalue⟩ := mem_heldAt.1 hentry
    exact hreplies reply hreply value hvalue
  cases made_of_ruling ruled with
  | same => exact Value.isApart_ofJson payload
  | list =>
      refine Value.isApart_array.2 fun value hvalue => ?_
      obtain ⟨reply, hreply, hgiven⟩ := List.mem_filterMap.1 hvalue
      exact hreplies reply hreply value hgiven
  | map => exact Value.isApart_map.2 (hheld .additional)
  | object =>
      refine Value.isApart_object.2 ⟨sorted_apart heard, fun entry hentry => ?_⟩
      rcases Buckets.mem_entries.1 hentry with hentry | hentry | hentry
      · exact hheld .declared entry hentry
      · exact hheld .pattern entry hentry
      · rcases List.mem_append.1 hentry with hentry | hentry
        · obtain ⟨item, -, -, hvalue⟩ := mem_verbatim hentry
          rw [hvalue]
          exact Value.isApart_ofJson item
        · exact hheld .additional entry hentry
  | merged =>
      refine Value.isApart_merge fun value hvalue => ?_
      obtain ⟨reply, hreply, -, hgiven⟩ := reply_of_accepted hvalue
      exact hreplies reply hreply value hgiven
  | passed hvalue =>
      obtain ⟨reply, hreply, -, hgiven⟩ := hvalue
      exact hreplies reply hreply value hgiven

theorem typed_apart (h : KeepsApart convert) (self : ι) (input : Option Json) (path : Path) :
    BringsApart (step convert mode self (.typed common shape) input path) := by
  rw [step_typed]
  cases hplan : typedPlan mode common shape input path with
  | none => exact .fail (.error _)
  | some plan =>
      have hrun : Brings (fun s => s.registry.IsApart)
          (Comes (fun _ => Apart) plan.isEager plan.inquiries plan.ruling)
          (plan.run convert path) :=
        .run fun inquiry _ => h inquiry.node inquiry.input _
      refine hrun.mono fun result hcomes value hresult => ?_
      obtain ⟨replies, heard, hruling⟩ := hcomes.ok hresult
      obtain ⟨payload, -, hjudgement⟩ := judgement_of_ruling hplan heard hruling
      cases hjudgement with
      | null => exact Value.isApart_of_none fun _ h => nomatch h
      | made _ _ _ heard ruled _ finished =>
          rcases finished_ok finished with rfl | ⟨format, text, hfinish⟩
          · exact isApart_of_ruling heard ruled
          · exact Value.isApart_finish hfinish

/-! ## References -/

theorem BringsApart.withOwnChain {m : Conversion Value} (h : BringsApart m) :
    BringsApart (Conversion.withOwnChain m) := fun s hs => h { s with visited := [] } hs

theorem BringsApart.following {m : Conversion Value} (path : Path) (h : BringsApart m) :
    BringsApart (Conversion.following path m) :=
  fun s hs => h { s with visited := path :: s.visited } hs

theorem BringsApart.inScope {m : Conversion Value} (url : String) (h : BringsApart m) :
    BringsApart (Conversion.inScope url m) :=
  fun s hs => h { s with resolver := s.resolver.map fun resolver => resolver.pushScope url } hs

/-- A location that was entered is closed with what its conversion came to. -/
theorem closeEntered_apart {run : Except Failure Value × ConversionState}
    (hstate : run.2.registry.IsApart) (hvalue : Apart run.1)
    (path : Path) : (closeEntered path run).2.registry.IsApart ∧
      Apart (closeEntered path run).1 := by
  rcases run with ⟨(_ | _ | _ | _ | _) | value, t⟩
  case error.errors => exact ⟨hstate.poison path, by rintro _ ⟨⟩⟩
  case ok => exact ⟨hstate.finish path (hvalue value rfl), hvalue⟩
  all_goals exact ⟨hstate.remove path, by rintro _ ⟨⟩⟩

/-- So is a location that a reference led to. -/
theorem closeReached_apart {run : Except Failure Value × ConversionState}
    (hstate : run.2.registry.IsApart) (hvalue : Apart run.1)
    (messages : Messages) (location path : Path) :
    (closeReached messages location path run).2.registry.IsApart ∧
      Apart (closeReached messages location path run).1 := by
  rcases run with ⟨(_ | _ | _ | _ | _) | value, t⟩
  case error.errors => exact ⟨hstate.poison location, by rintro _ ⟨⟩⟩
  case error.recursive => exact ⟨hstate.poison location, by rintro _ ⟨⟩⟩
  case ok => exact ⟨hstate.finish location (hvalue value rfl), hvalue⟩
  all_goals exact ⟨hstate.remove location, by rintro _ ⟨⟩⟩

theorem enter_apart (h : KeepsApart convert) (target : ι) (input : Option Json) (path : Path) :
    BringsApart (enter convert target input path) := by
  intro s hs
  obtain ⟨hstate, hvalue⟩ := (h target input path).withOwnChain
    { s with registry := s.registry.start path } (hs.start path)
  have hopened := closeEntered_apart hstate hvalue path
  rw [run_enter]
  rcases hfind : s.registry.find? path with _ | _ | _ | value
  · exact hopened
  · refine ⟨hs, ?_⟩
    rintro _ ⟨⟩
    exact Value.isApart_of_none (by rintro _ ⟨⟩)
  · exact hopened
  · refine ⟨hs, ?_⟩
    rintro _ ⟨⟩
    exact hs path value hfind

theorem deeper_apart (h : KeepsApart convert) (self target : ι) (value : Json) (path : Path) :
    BringsApart (deeper convert self target value path) := by
  unfold deeper
  split
  · exact h _ _ _
  · exact (h _ _ _).withOwnChain

theorem arrive_apart (h : KeepsApart convert) (self : ι) (messages : Messages) (target : ι)
    (value : Json) (location path : Path) :
    BringsApart (arrive convert self messages target value location path) := by
  intro s hs
  obtain ⟨hstate, hvalue⟩ := (deeper_apart h self target value location).following location
    { s with registry := s.registry.start location } (hs.start location)
  rw [run_arrive]
  split
  · exact ⟨hs, by rintro _ ⟨⟩⟩
  rcases hfind : s.registry.find? location with _ | _ | _ | found
  · exact closeReached_apart hstate hvalue messages location path
  · refine ⟨hs, ?_⟩
    rintro _ ⟨⟩
    exact Value.isApart_of_none (by rintro _ ⟨⟩)
  · exact ⟨hs, by rintro _ ⟨⟩⟩
  · refine ⟨hs, ?_⟩
    rintro _ ⟨⟩
    exact hs location found hfind

theorem reference_apart (h : KeepsApart convert) (self : ι) (messages : Messages) (target : ι)
    (input : Option Json) (path : Path) :
    BringsApart (reference convert self messages target input path) := by
  unfold reference
  split
  · rename_i found _
    unfold follow
    cases found with
    | str text =>
        have hresolved : Brings (fun s => s.registry.IsApart) (fun _ => True) (resolve? text) := by
          intro s hs
          unfold resolve?
          split <;> exact ⟨hs, trivial⟩
        refine hresolved.bind (fun answer _ => ?_) fun failure _ => .error failure
        cases answer with
        | none => exact .fail (.error _)
        | some answer => exact (arrive_apart h self messages target _ _ path).inScope _
    | _ => exact .fail (.error _)
  · exact enter_apart h target input path

theorem step_apart (h : KeepsApart convert) (self : ι) (node : Node ι) (input : Option Json)
    (path : Path) : BringsApart (step convert mode self node input path) := by
  cases node with
  | forward target => exact h target input path
  | reference messages target => exact reference_apart h self messages target input path
  | typed common shape => exact typed_apart h self input path

end Conversion

/-- An object with these buckets stands somewhere in the value or in the value of a link. -/
def Converted.Holds (converted : Converted) (buckets : Buckets Value) : Prop :=
  converted.value.Holds buckets ∨ ∃ link ∈ converted.links, link.2.Holds buckets

/-! ## Graphs -/

namespace Graph

open Conversion

theorem convertWithin_apart (graph : Graph) (mode : Mode) (fuel : Nat) :
    KeepsApart (graph.convertWithin mode fuel) := by
  induction fuel with
  | zero => exact fun _ _ _ => .fail (.error _)
  | succ fuel ih =>
      intro id input path
      unfold convertWithin
      cases graph.get? id with
      | none => exact .fail (.error _)
      | some node => exact step_apart ih id node input path

/-- Where nothing takes the place of what is absent, neither a value comes of it nor errors. -/
theorem absent_ends {graph : Graph} (hdirect : graph.IsDirect) {mode : Mode}
    (hlacks : ∀ id common shape, graph.get? id = some (.typed common shape) →
      present? mode common none = none) (fuel : Nat) (id : NodeId) (path : Path)
    (s : ConversionState) :
    ∃ failure, (graph.convertWithin mode fuel id none path s).1 = .error failure ∧
      ∀ errors, failure ≠ .errors errors := by
  induction fuel generalizing id with
  | zero => exact ⟨.outOfFuel, rfl, fun errors h => by cases h⟩
  | succ fuel ih =>
      unfold convertWithin
      cases hget : graph.get? id with
      | none => exact ⟨.noNode, rfl, fun errors h => by cases h⟩
      | some node =>
          cases node with
          | forward target => exact ih target
          | reference messages target => cases hdirect id _ hget
          | typed common shape =>
              refine ⟨.undefined, ?_, fun errors h => by cases h⟩
              dsimp only
              rw [step_typed, typedPlan_eq_none.2 (hlacks id common shape hget)]
              rfl

/-- In a response nothing comes of what is absent. -/
theorem absent_lacks {graph : Graph} (hdirect : graph.IsDirect) {mode : Mode}
    (hmode : mode.entity = .response) (fuel : Nat) (id : NodeId) (path : Path)
    (s : ConversionState) (value : Value) :
    (graph.convertWithin mode fuel id none path s).1 ≠ .ok value := by
  obtain ⟨failure, hfailure, -⟩ :=
    absent_ends hdirect (fun _ common _ _ => present?_response hmode common none) fuel id path s
  rw [hfailure]
  rintro ⟨⟩

/-- Where no node follows references, each key of a payload that an object node converts is in the
bucket its shape says, and in no other. Every other key is a declared property that is not
excluded and comes to a value although it is absent, which happens in no response. No key is
there twice unless it was given twice. In every graph, no object inside a result has a key in two
buckets. -/
theorem objects_keep_keys (graph : Graph) (mode : Mode) (fuel : Nat) :
    (graph.IsDirect → ∀ {id common shape input payload path s value},
      graph.get? id = some (.typed common (.object shape)) →
      present? mode common input = some (.obj payload) →
      (graph.convertWithin mode (fuel + 1) id input path s).1 = .ok value →
      ∃ buckets, value = .object buckets ∧
        (∀ key ∈ payload.map Prod.fst, ∀ place,
          key ∈ buckets.keys place ↔ place = shape.place key) ∧
        (∀ key ∉ payload.map Prod.fst, ∀ place, key ∈ buckets.keys place ↔
          place = .declared ∧ mode.entity ≠ .response ∧ key ∉ shape.excludedFrom mode.entity ∧
            ∃ node found, (key, node) ∈ shape.properties ∧
              ∀ path s, (graph.convertWithin mode fuel node none path s).1 = .ok found) ∧
        ((payload.map Prod.fst).Nodup → (shape.properties.map Prod.fst).Nodup →
          (buckets.entries.map Prod.fst).Nodup)) ∧
    ∀ {entry input path resolver result},
      (graph.convertAt fuel entry input path mode resolver).1 = .converted result →
      ∀ buckets, result.Holds buckets → buckets.IsApart := by
  constructor
  · intro hdirect id common shape input payload path s value hget hpresent hvalue
    unfold convertWithin at hvalue
    rw [hget] at hvalue
    obtain ⟨given, replies, hgiven, hjudgement⟩ := typed_ok hvalue
    cases hpresent.symm.trans hgiven
    -- an object is neither `null` nor coerced
    rcases hjudgement with ⟨⟨⟩⟩ | ⟨-, coerced, -, heard, ruled, -, finished⟩
    cases finished
    obtain rfl | ⟨-, key, hcoercion⟩ := coercedTo_ok coerced
    swap
    · cases hcoercion
    have nodes := fun place => convertWithin_moves hdirect mode place fuel
    have hsorts := object_ok ruled
    refine ⟨_, hsorts.value, fun key hkey place => hsorts.mem_keys_iff nodes heard hkey,
      fun key hkey place => ?_, hsorts.nodup heard⟩
    rw [hsorts.mem_keys_iff_of_absent nodes heard hkey]
    refine and_congr_right fun _ => ⟨fun h => ⟨fun hmode => ?_, h⟩, And.right⟩
    obtain ⟨-, node, found, -, hyields⟩ := h
    exact absent_lacks hdirect hmode fuel node .root (.start none) found (hyields _ _)
  · intro entry input path resolver result h buckets hholds
    obtain ⟨-, t, hrun, hlinks⟩ := run_of_converted h
    have hempty : Registry.empty.IsApart := by rintro _ _ ⟨⟩
    obtain ⟨hstate, hvalue⟩ := graph.convertWithin_apart mode fuel entry input path
      (.start resolver) hempty
    rw [hrun] at hstate hvalue
    rcases hholds with hholds | ⟨⟨location, found⟩, hlink, hholds⟩
    · exact hvalue _ rfl buckets hholds
    · rw [hlinks] at hlink
      exact hstate location found (Registry.mem_links hlink).2 buckets hholds

/-- Texts, one of them with a default; and objects with both, with more of them under keys that
start with `x`, and with integers under all other keys. -/
def sorting : Graph where
  nodes := [.typed (.plain .builtIn) (.string .free),
    .typed { Common.plain .builtIn with default := some (.str "d") } (.string .free),
    .typed (.plain .builtIn) (.integer .free),
    .typed (.plain .builtIn) (.object {
      properties := [("x", 0), ("y", 1)], required := ["x"]
      patterns := [(.one (.single 'x'), 0)], additional := .schema 2
      readOnly := [], writeOnly := [], size := .free })]
  closed := by decide

/-- A declared key that a pattern matches, a key for the pattern, another one, and a property that
is absent and has a default. -/
theorem objects_keep_keys_sorting :
    let mode := (Options.ofEntity .request).mode
    let payload := [("z", .num (.integer 1 (by decide))), ("xs", .str "b"), ("x", .str "a")]
    ∃ result buckets,
      (sorting.convertAt 2 3 (some (.obj payload)) .root mode none).1 = .converted result ∧
        result.value = .object buckets ∧ "x" ∈ buckets.keys .declared ∧
        "xs" ∈ buckets.keys .pattern ∧ "z" ∈ buckets.keys .additional ∧
        "y" ∈ buckets.keys .declared ∧ (buckets.entries.map Prod.fst).Nodup ∧ buckets.IsApart := by
  intro mode payload
  have hconverted : (sorting.convertAt 2 3 (some (.obj payload)) .root mode none).1.isConverted =
      true := by decide +kernel
  obtain ⟨result, hresult⟩ := Outcome.exists_of_isConverted hconverted
  obtain ⟨-, t, hrun, -⟩ := run_of_converted hresult
  have hdirect : sorting.IsDirect := by
    have hall : sorting.nodes.all (fun node => !node.refers) = true := rfl
    intro id node hnode
    simpa using List.all_eq_true.1 hall node (List.mem_of_getElem? hnode)
  obtain ⟨buckets, hvalue, hpayload, hothers, hnodup⟩ :=
    (objects_keep_keys sorting mode 1).1 hdirect rfl rfl (congrArg Prod.fst hrun)
  have hx : "x" ∈ buckets.keys .declared := (hpayload "x" (by decide) _).2 rfl
  have hxs : "xs" ∈ buckets.keys .pattern := (hpayload "xs" (by decide) _).2 (by decide +kernel)
  have hz : "z" ∈ buckets.keys .additional := (hpayload "z" (by decide) _).2 (by decide +kernel)
  have hy : "y" ∈ buckets.keys .declared :=
    (hothers "y" (by decide) _).2 ⟨rfl, (fun h => nomatch h), (fun h => nomatch h), 1, .string "d",
      by decide, fun _ _ => rfl⟩
  have hholds : result.Holds buckets := .inl (hvalue ▸ .here buckets)
  have hapart := (objects_keep_keys sorting mode 2).2 hresult buckets hholds
  exact ⟨result, buckets, hresult, hvalue, hx, hxs, hz, hy, hnodup (by decide) (by decide), hapart⟩

end Graph

end SchemaGraph

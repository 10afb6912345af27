import Mathlib.Data.List.Flatten
import SchemaGraph.Proofs.Compiler.Locations
import SchemaGraph.Proofs.Compiler.Origin
import SchemaGraph.Proofs.Conversion.Reports
import SchemaGraph.Proofs.Templates

set_option autoImplicit false

/-! # Errors of a check

A check reports an error only once, as long as none of the locations that references reach is inside
of another one (`Compiler.check_reports_once`). Where one is, its errors are found in place and by
the reference: a location that failed by a reference is tried again when the check comes to it.
-/

namespace SchemaGraph

/-! ## Rules -/

namespace Rule

/-- What a rule reports of a schema whose type is known. -/
def keys : Rule → List MessageKey
  | type => []
  | format => [.formatOnNonPrimitive]
  | items => [.itemsRequired]
  | discriminator => [.improperDiscriminator]
  | minimum => [.invalidTypeForMinimum]
  | maximum => [.invalidTypeForMaximum, .maximumBelowMinimum]
  | exclusiveMinimum => [.exclusiveMinimumWithoutMinimum]
  | exclusiveMaximum => [.exclusiveMaximumWithoutMaximum]
  | multipleOf => [.invalidTypeForMultipleOf, .nonPositiveMultipleOf]
  | minLength => [.invalidTypeForMinLength]
  | maxLength => [.invalidTypeForMaxLength, .maxLengthBelowMinLength]
  | minItems => [.invalidTypeForMinItems]
  | maxItems => [.invalidTypeForMaxItems, .maxItemsBelowMinItems]
  | uniqueItems => [.invalidTypeForUniqueItems]
  | properties => [.invalidTypeForProperties]
  | additionalProperties => [.invalidTypeForAdditionalProperties]
  | required => [.invalidTypeForRequired]
  | minProperties => [.invalidTypeForMinProperties]
  | maxProperties => [.invalidTypeForMaxProperties, .maxPropertiesBelowMinProperties]
  | readOnlyWriteOnly => [.readOnlyAndWriteOnly]
  | patternProperties => [.regexFormat]

/-- All that the rules report of schemas whose type is known. -/
def allKeys : List MessageKey := all.flatMap keys

end Rule

namespace Messages

/-- No two rules report the same text. -/
def TellRulesApart (messages : Messages) : Prop := (Rule.allKeys.map messages.get).Nodup

instance (messages : Messages) : Decidable messages.TellRulesApart :=
  inferInstanceAs (Decidable (List.Nodup _))

end Messages

namespace Rule

variable {entries : List (String × Json)} {kind : Option SchemaKind}

/-- A rule that is broken reports one of its own keys. -/
theorem mem_keys_of_breach {rule : Rule} {key : MessageKey}
    (h : rule.breach? entries kind = some key) : key ∈ rule.keys := by
  cases rule <;> simp only [breach?, upperBound] at h <;> (repeat' split at h) <;> cases h <;> decide

theorem breach_sublist (rule : Rule) : (rule.breach? entries kind).toList.Sublist rule.keys := by
  cases hbreach : rule.breach? entries kind with
  | none => exact List.nil_sublist _
  | some key => exact List.singleton_sublist.2 (mem_keys_of_breach hbreach)

/-- The rules do not report the same twice. -/
theorem violations_nodup {messages : Messages} (hmessages : messages.TellRulesApart)
    (entries : List (String × Json)) : (violations messages entries).Nodup := by
  unfold violations check
  cases SchemaKind.ofSchema entries messages with
  | error violation =>
      have hone : (all.filterMap fun rule => if rule == type then some violation else none) =
          [violation] := rfl
      rw [hone]
      exact List.nodup_singleton _
  | ok kind =>
      have hbreaches : (all.filterMap fun rule => rule.breach? entries kind).Sublist allKeys := by
        rw [List.filterMap_eq_flatMap_toList]
        exact List.Sublist.flatMap_right all fun rule _ => breach_sublist rule
      have hsublist := hbreaches.map fun key => Violation.ofKey messages key []
      rw [List.map_filterMap] at hsublist
      have hdistinct : (allKeys.map fun key => Violation.ofKey messages key []).Nodup := by
        refine .of_map Violation.message ?_
        rw [List.map_map]
        have hget : Violation.message ∘ (fun key => Violation.ofKey messages key []) =
            messages.get := funext messages.format_nil
        rw [hget]
        exact hmessages
      exact hdistinct.sublist hsublist

end Rule

/-! ## Nodes of the model -/

namespace Conversion

variable {ι : Type} {common : Common} {shape : Shape ι}

/-- The bounds of the shape are such that a value breaks one of a sort at most. -/
def boundsOnce : Shape ι → Bool
  | .number bounds | .integer bounds => bounds.maximum.isNone && bounds.multipleOf.isNone
  | _ => true

/-- Different kinds of what the checks of a node without rules find. -/
theorem marked_enum (common : Common) (payload : Json) (path : Path) :
    Marked path (· = .enumMismatch)
      ((common.enumViolations payload).map fun violation => violation.located path) := by
  unfold Common.enumViolations
  split
  · exact .nil
  · split
    · exact .nil
    · exact .single rfl rfl

theorem marked_option {kind : ErrorKind} {violation? : Option Violation} (path : Path)
    (hkind : ∀ violation, violation? = some violation → violation.kind = kind) :
    Marked path (· = kind)
      (violation?.toList.map fun violation => violation.located path) := by
  cases violation? with
  | none => exact .nil
  | some violation => exact .single rfl (hkind violation rfl)

theorem marked_breach (bounds : CountBounds) (messages : Messages) (count : Nat)
    {tooFew tooMany : MessageKey} (hfew : tooFew.kind = .boundsViolation)
    (hmany : tooMany.kind = .boundsViolation) (args : Nat → List String) (path : Path) :
    Marked path (· = .boundsViolation)
      (((bounds.breach? count tooFew tooMany).map fun (key, bound) =>
        Violation.ofKey messages key (args bound)).toList.map
          fun violation => violation.located path) := by
  refine marked_option path fun violation hviolation => ?_
  obtain ⟨⟨key, bound⟩, hbreach, rfl⟩ := Option.map_eq_some_iff.1 hviolation
  show key.kind = .boundsViolation
  unfold CountBounds.breach? at hbreach
  split at hbreach
  · cases hbreach
    exact hfew
  · obtain ⟨most, -, hkey⟩ := Option.map_eq_some_iff.1 hbreach
    cases hkey
    exact hmany

theorem marked_text (bounds : TextBounds) (messages : Messages) (text : String) (path : Path) :
    Marked path (fun kind => kind = .boundsViolation ∨ kind = .patternMismatch)
      ((bounds.violations messages text).map fun violation => violation.located path) := by
  unfold TextBounds.violations
  rw [List.map_append]
  refine (marked_breach _ _ _ rfl rfl (fun bound => [toString bound]) path).append ?_ ?_
  · rintro _ rfl
    decide
  · split
    · split
      · exact .nil
      · exact .single rfl rfl
    · exact .nil

theorem kind_of_breachOfMinimum {bounds : NumericBounds} {number bound : Double}
    {key : MessageKey} (h : bounds.breachOfMinimum? number = some (key, bound)) :
    key.kind = .numericBoundsViolation := by
  unfold NumericBounds.breachOfMinimum? at h
  split at h
  · cases h
  · split at h <;> split at h <;> cases h <;> rfl

theorem marked_number {bounds : NumericBounds} (hmost : bounds.maximum = none)
    (hdivisor : bounds.multipleOf = none) (messages : Messages) (value : Value) (path : Path) :
    Marked path (· = .numericBoundsViolation)
      ((bounds.violations messages value).map fun violation => violation.located path) := by
  unfold NumericBounds.violations
  split
  · exact .nil
  · rename_i number _
    have hmaximum : bounds.breachOfMaximum? number = none := by
      unfold NumericBounds.breachOfMaximum?
      rw [hmost]
    have hdivision : bounds.breachOfDivision? value number = none := by
      unfold NumericBounds.breachOfDivision?
      rw [hdivisor]
    rw [hmaximum, hdivision]
    cases hminimum : bounds.breachOfMinimum? number with
    | none => exact .nil
    | some breach =>
        obtain ⟨key, bound⟩ := breach
        exact .single rfl (kind_of_breachOfMinimum hminimum)

theorem kind_of_breachOfUniqueness {distinctBy : Option (List String)} {items : List Value}
    {key : MessageKey} (h : Shape.breachOfUniqueness? distinctBy items = some key) :
    key.kind = .uniquenessViolation := by
  unfold Shape.breachOfUniqueness? at h
  split at h
  · split at h <;> cases h
    rfl
  · split at h
    · cases h
      rfl
    · dsimp only at h
      split at h <;> cases h
      rfl

theorem marked_unique (unique : Bool) (distinctBy : Option (List String)) (items : List Value)
    (messages : Messages) (path : Path) :
    Marked path (· = .uniquenessViolation)
      ((if unique then ((Shape.breachOfUniqueness? distinctBy items).map fun key =>
        Violation.ofKey messages key []).toList else []).map
          fun violation => violation.located path) := by
  split
  · refine marked_option path fun violation hviolation => ?_
    obtain ⟨key, hkey, rfl⟩ := Option.map_eq_some_iff.1 hviolation
    exact kind_of_breachOfUniqueness hkey
  · exact .nil

/-- Different kinds of what the bounds of a shape find, and none is that of an enumeration. -/
theorem marked_bounds (h : boundsOnce shape = true) (messages : Messages) (result : Value)
    (payload : Json) (path : Path) :
    Marked path (· ≠ .enumMismatch) ((shape.violations messages result payload).map
      fun violation => violation.located path) := by
  have hcount : ∀ {size : CountBounds} {count : Nat} {tooFew tooMany : MessageKey},
      tooFew.kind = .boundsViolation → tooMany.kind = .boundsViolation →
      Marked path (· ≠ .enumMismatch)
        ((size.countViolations messages count tooFew tooMany).map
          fun violation => violation.located path) := by
    intro size count tooFew tooMany hfew hmany
    refine (marked_breach size messages count hfew hmany
      (fun bound => [toString bound, toString count]) path).mono ?_
    rintro _ rfl
    decide
  have htext : ∀ bounds : TextBounds, Marked path (· ≠ .enumMismatch)
      (((Shape.string bounds : Shape ι).violations messages result payload).map
        fun violation => violation.located path) := by
    intro bounds
    unfold Shape.violations
    dsimp only
    split
    · refine (marked_text bounds messages _ path).mono ?_
      rintro _ (rfl | rfl) <;> decide
    · exact .nil
  have hnumber : ∀ bounds : NumericBounds,
      (bounds.maximum.isNone && bounds.multipleOf.isNone) = true →
      Marked path (· ≠ .enumMismatch)
        ((bounds.violations messages result).map fun violation => violation.located path) := by
    intro bounds hbounds
    obtain ⟨hmost, hdivisor⟩ := Bool.and_eq_true_iff.1 hbounds
    refine (marked_number (Option.isNone_iff_eq_none.1 hmost)
      (Option.isNone_iff_eq_none.1 hdivisor) messages result path).mono ?_
    rintro _ rfl
    decide
  cases shape with
  | string bounds => exact htext bounds
  | text format bounds => exact htext bounds
  | number bounds => exact hnumber bounds h
  | integer bounds => exact hnumber bounds h
  | array node size unique distinctBy =>
      unfold Shape.violations
      dsimp only
      split
      · exact .nil
      · rename_i items _
        rw [List.map_append]
        have hfew : MessageKey.minItems.kind = .boundsViolation := rfl
        have hmany : MessageKey.maxItems.kind = .boundsViolation := rfl
        refine ((marked_breach size messages items.length hfew hmany
          (fun bound => [toString bound, toString items.length]) path).append ?_
            (marked_unique unique distinctBy items messages path)).mono ?_
        · rintro _ rfl
          decide
        · rintro _ (rfl | rfl) <;> decide
  | map node size =>
      unfold Shape.violations
      dsimp only
      split
      · exact hcount rfl rfl
      · exact .nil
  | object shape =>
      unfold Shape.violations
      dsimp only
      split
      · exact hcount rfl rfl
      · exact .nil
  | _ => exact .nil

/-- A node without rules does not report the same twice by itself. -/
theorem distinct_of_plain (hnames : shape.declares.Nodup) (hrequired : shape.requires.length ≤ 1)
    (hchecks : common.checks = []) (hbounds : boundsOnce shape = true) :
    Distinct common shape where
  names := hnames
  required := by
    cases hnames : shape.requires with
    | nil => exact List.nodup_nil
    | cons name rest =>
        cases rest with
        | nil => exact List.nodup_singleton _
        | cons second rest =>
            rw [hnames] at hrequired
            exact absurd hrequired (by simp)
  checks value payload := by
    unfold violations
    rw [hchecks, List.filterMap_nil, List.append_nil]
    have hmarked := (marked_enum common payload Path.root).append
      (fun kind heq hne => hne heq) (marked_bounds hbounds common.messages value payload Path.root)
    rw [← List.map_append] at hmarked
    exact hmarked.nodup.of_map

end Conversion

namespace Model

open Conversion

/-- Whatever the texts are, the node does not report the same twice by itself. -/
def isPlain : Node → Bool
  | .typed common shape =>
    decide shape.declares.Nodup && decide (shape.requires.length ≤ 1) && common.checks.isEmpty &&
      boundsOnce shape
  | _ => true

/-- The checks of a schema are the rules. -/
theorem filterMap_rules (messages : Messages) (value : Value) (payload : Json) :
    ((Rule.all.map fun rule => Check.rule rule messages).filterMap fun check =>
        check.violation? value payload) =
      (payload.asObj?.map (Rule.violations messages)).getD [] := by
  rw [List.filterMap_map]
  unfold Rule.violations
  cases hentries : payload.asObj? with
  | some entries =>
      show List.filterMap _ _ = List.filterMap _ _
      refine List.filterMap_congr fun rule _ => ?_
      show payload.asObj?.bind _ = _
      rw [hentries]
      rfl
  | none =>
      refine List.filterMap_eq_nil_iff.2 fun rule _ => ?_
      show payload.asObj?.bind _ = _
      rw [hentries]
      rfl

/-- No node of the model reports the same twice by itself, if no two rules do. -/
theorem distinct_of_get? {messages : Messages} (hmessages : messages.TellRulesApart) {id : NodeId}
    {common : Common} {shape : Shape}
    (h : (graph messages).get? id = some (.typed common shape)) : Distinct common shape := by
  cases id with
  | zero =>
      obtain ⟨hcommon, hshape⟩ := Node.typed.inj (Option.some.inj h)
      subst hcommon hshape
      refine ⟨by decide +kernel, List.nodup_nil, fun value payload => ?_⟩
      have hfree : ∀ properties required patterns,
          (closedObject properties required patterns).violations messages value payload = [] := by
        intro properties required patterns
        unfold closedObject Shape.violations
        dsimp only
        split <;> rfl
      show ([] ++ (closedObject _ _ _).violations messages value payload ++ List.filterMap _ _).Nodup
      rw [hfree, filterMap_rules]
      cases payload.asObj? with
      | some entries => exact Rule.violations_nodup hmessages entries
      | none => exact List.nodup_nil
  | succ id =>
      have hall : ((nodes messages).tail.all isPlain) = true := rfl
      have hmem : Node.typed common shape ∈ (nodes messages).tail := List.mem_of_getElem? h
      have hplain := List.all_eq_true.1 hall _ hmem
      simp only [isPlain, Bool.and_eq_true, decide_eq_true_eq, List.isEmpty_iff] at hplain
      exact distinct_of_plain hplain.1.1.1 hplain.1.1.2 hplain.1.2 hplain.2

end Model

/-! ## Locations apart -/

namespace Resolver

variable {origin : Resolver} {first next landing : Landing} {text : String}

/-- References go on from where one leads. -/
theorem Reaches.onward (h : origin.Reaches next landing) (hfirst : origin.Reaches first next) :
    origin.Reaches first landing := by
  induction h with
  | here => exact hfirst
  | next _ hrefers hlands ih => exact ih.next hrefers hlands

/-- None of the locations that references reach is inside of another one. What is a reference itself
is not reached again. -/
structure IsApart (origin : Resolver) (first : Landing) : Prop where
  apart : ∀ {landing other : Landing}, origin.Reaches first landing → origin.Reaches first other →
    other.path.Within landing.path → other.path = landing.path
  again : ∀ {text : String} {next landing : Landing}, first.value.get? "$ref" = some (.str text) →
    origin.Lands first.scope text next → origin.Reaches next landing → landing.path ≠ first.path

theorem IsApart.separate (h : origin.IsApart first) (hreached : origin.Reaches first next) :
    Path.Separate (origin.Opens next) := by
  rintro _ _ ⟨landing, hlanding, rfl⟩ ⟨other, hother, rfl⟩ hwithin
  exact h.apart (hlanding.onward hreached) (hother.onward hreached) hwithin

end Resolver

/-! ## The entry of the model -/

namespace Model

open Conversion

variable {origin : Resolver} {first : Landing} {base : String} {entered : List String}

theorem ready_start {place : Path → Prop} {known : Resolver → Prop} {home : Path} {r : Resolver}
    (separate : Path.Separate place) (housed : place home) (hr : known r) :
    Ready place known home ⟨Registry.empty.start home, [], some r⟩ := by
  refine ⟨separate, housed, Registry.find?_start_self _ _, ?_⟩
  rintro _ ⟨⟩
  exact hr

/-- From a landing on, the model reports different errors, inside of its location or of another one
that references reach. -/
theorem reports_landing {messages : Messages} (hmessages : messages.TellRulesApart) (mode : Mode)
    (hregular : origin.IsRegular) (hfirst : origin.valueAt first.url = .ok first.value)
    (hscope : first.scope = entered.headD base) (fuel : Nat) {id : NodeId}
    (hid : isFork id = false) :
    Reports (origin.Opens first) (origin.StandsIn base entered) first.path
      (·.Within first.path) silent
      ((graph messages).convertWithin mode fuel id (some first.value) first.path) := by
  refine Graph.convertWithin_reports (confines_converts messages mode hregular hfirst)
    (fun id common shape => distinct_of_get? hmessages) ?_ fuel
    (converts_landing .here hscope hid) (.refl _)
  intro entered id input path common shape payload hnode h hpresent
  obtain rfl := present_of_get? hnode hpresent
  have hpayload := h.isRegular hregular hfirst
  cases payload with
  | obj entries =>
      have hkeys : (entries.map Prod.fst).Pairwise (· < ·) :=
        of_decide_eq_true (Json.test_of_all hpayload)
      exact hkeys.imp String.ne_of_lt
  | _ => exact List.nodup_nil

/-- A reference that is checked reports itself, and what it leads to. -/
theorem follow_reports_once {messages : Messages} (hmessages : messages.TellRulesApart)
    (mode : Mode) (hregular : origin.IsRegular) (hapart : origin.IsApart first) {r : Resolver}
    (hr : origin.StandsIn base (first.scope :: entered) r) {text : String}
    (hrefers : first.value.get? "$ref" = some (.str text)) (fuel : Nat) :
    (reported silent (Conversion.follow ((graph messages).convertWithin mode fuel) entry messages
      schemaAgain (.str text) first.path (.start (some r))).1).Nodup := by
  unfold Conversion.follow
  dsimp only
  rw [run_bind]
  rw [run_resolve?_of_some (s := .start (some r)) rfl]
  cases hanswer : (r.resolve text).1 with
  | error failure => exact List.nodup_singleton _
  | ok found =>
      obtain ⟨url, value⟩ := found
      let next : Landing := ⟨url, Uri.join first.scope url, value⟩
      have hlands : origin.Lands first.scope text next := hr.lands hanswer
      have hreached : origin.Reaches first next :=
        .next .here ⟨first.value, Json.mem_inside_self _, hrefers⟩ hlands
      show (reported silent (arrive _ entry messages schemaAgain value next.path first.path
        (.start (some ((r.resolve text).2.pushScope url)))).1).Nodup
      rw [run_arrive_open (s := .start _) _ _ _ _ _ _ Bool.false_ne_true rfl]
      have hready := ready_start (hapart.separate hreached) ⟨next, .here, rfl⟩
        ((hr.resolve text).enter url)
      have hforks : isFork entry = false ∧ isFork schemaAgain = false := ⟨rfl, rfl⟩
      have hrun := (Reports.deeper
        (reports_landing hmessages mode hregular hlands.value rfl fuel hforks.1)
        (reports_landing hmessages mode hregular hlands.value rfl fuel hforks.2)).following
          next.path _ hready
      show (reported silent (closeReached messages next.path first.path (Conversion.following _ _
        ⟨Registry.empty.start next.path, [], some ((r.resolve text).2.pushScope url)⟩)).1).Nodup
      generalize Conversion.following _ _ _ = run at hrun ⊢
      rcases run with ⟨(errors | _ | _ | _ | _) | _, t⟩
      case error.errors =>
        refine List.nodup_cons.2 ⟨fun hmem => ?_, hrun.told.nodup⟩
        -- an error of what the reference leads to is not at the reference
        obtain ⟨landing, hlanding, hwithin⟩ : ∃ landing, origin.Reaches next landing ∧
            first.path.Within landing.path := by
          rcases hrun.told.located _ hmem with hwithin | ⟨_, ⟨landing, hlanding, rfl⟩, -, -, hwithin⟩
          · exact ⟨next, .here, hwithin⟩
          · exact ⟨landing, hlanding, hwithin⟩
        have hsame := hapart.apart (hlanding.onward hreached) .here hwithin
        exact hapart.again hrefers hlands hlanding hsame.symm
      case error.recursive => exact List.nodup_singleton _
      all_goals exact List.nodup_nil

/-- Where the locations that references reach are apart, the entry reports different errors. -/
theorem entry_reports_once {messages : Messages} (hmessages : messages.TellRulesApart) (mode : Mode)
    (hregular : origin.IsRegular) (hfirst : origin.valueAt first.url = .ok first.value)
    (hapart : origin.IsApart first) {r : Resolver}
    (hr : origin.StandsIn base (first.scope :: entered) r) (fuel : Nat) :
    (reported silent ((graph messages).convertWithin mode fuel entry (some first.value) first.path
      (.start (some r))).1).Nodup := by
  cases fuel with
  | zero => exact List.nodup_nil
  | succ fuel =>
      have hentry : (graph messages).convertWithin mode (fuel + 1) entry (some first.value)
          first.path = Conversion.reference ((graph messages).convertWithin mode fuel) entry
            messages schemaAgain (some first.value) first.path := rfl
      rw [hentry]
      unfold Conversion.reference
      cases hinput : (some first.value).bind referenceOf? with
      | none =>
          dsimp only
          rw [run_enter_open _ _ _ (.inl rfl)]
          have hready := ready_start (hapart.separate .here) ⟨first, .here, rfl⟩ hr
          have hfork : isFork schemaAgain = false := rfl
          have hrun := (reports_landing hmessages mode hregular hfirst rfl fuel hfork).withOwnChain
            _ hready
          show (reported silent (closeEntered first.path (Conversion.withOwnChain _
            ⟨Registry.empty.start first.path, [], some r⟩)).1).Nodup
          generalize Conversion.withOwnChain _ _ = run at hrun ⊢
          obtain ⟨change, hclosed, -⟩ := closeEntered_eq first.path run
          rw [hclosed]
          exact hrun.told.nodup
      | some found =>
          cases found with
          | str text => exact follow_reports_once hmessages mode hregular hapart hr hinput fuel
          | _ => exact List.nodup_singleton _

end Model

/-! ## Checks -/

namespace Compiler

open Compiling Conversion

/-- An error that is told of a run is one that the run reports, or the only one. -/
theorem nodup_of_told {path : Path} {result : Except Failure Value} {errors : SchemaErrors}
    (hnodup : (reported silent result).Nodup) (h : told path result = .error (.errors errors)) :
    errors.toList.Nodup := by
  rcases result with (_ | _ | _ | _ | _) | _ <;> cases h
  · exact hnodup
  · exact List.nodup_singleton _

/-- Whatever was called before, a check reports no error twice, if none of the locations that
references reach from the schema is inside of another one, a reference that is checked is not reached
again, and no two rules are worded alike. -/
theorem check_reports_once (retrievers : List (String × Retriever)) (document : Json)
    (config : Config) (earlier : List Call) (hmessages : config.messages.TellRulesApart)
    (hregular : (ofDocument retrievers document config).resolver.IsRegular) (reference : String)
    (hapart : ∀ first, (ofDocument retrievers document config).resolver.Lands
      ((ofDocument retrievers document config).calls earlier).1.resolver.scope reference first →
      (ofDocument retrievers document config).resolver.IsApart first)
    (fuel : Nat) {errors : SchemaErrors}
    (h : (((ofDocument retrievers document config).calls earlier).1.check fuel reference).1 =
      .error (.errors errors)) : errors.toList.Nodup := by
  have hremembers : (ofDocument retrievers document config).resolver.Remembers
      ((ofDocument retrievers document config).calls earlier).1.resolver :=
    calls_remember retrievers document config earlier
  have hmade : StaysMade (ofDocument retrievers document config)
    ((ofDocument retrievers document config).calls earlier).1 := calls_made earlier
  have hconfig := hmade.preserves.config
  generalize ((ofDocument retrievers document config).calls earlier).1 = c
    at hapart h hremembers hmade hconfig
  change (Compiling.check fuel reference c).1 = .error (.errors errors) at h
  have hrun := run_pointer_eq reference c
  cases hanswer : (c.resolver.resolve reference).1 with
  | error failure =>
      rw [hanswer] at hrun
      unfold Compiling.check at h
      rw [run_bind, hrun] at h
      cases h
      exact List.nodup_singleton _
  | ok found =>
      obtain ⟨url, written⟩ := found
      rw [hanswer] at hrun
      have hpointer : Compiling.pointer reference c = (.ok (url, written),
        { c with resolver := (c.resolver.resolve reference).2 }) := hrun
      obtain ⟨hurl, hvalue⟩ := hremembers.resolve_eq_ok.1 hanswer
      obtain ⟨-, hstands⟩ := pointer_lands hremembers hpointer
      let first : Landing := ⟨url, Uri.join c.resolver.scope url, written⟩
      have hfirst : (ofDocument retrievers document config).resolver.IsApart first :=
        hapart first ⟨hurl.symm, rfl, hvalue⟩
      have hrules : c.messages.TellRulesApart := by
        unfold Compiler.messages
        rw [hconfig]
        exact hmessages
      rw [check_told hpointer fuel] at h
      have hstart : (ofDocument retrievers document config).resolver.valueAt first.url =
        .ok first.value := hvalue
      exact nodup_of_told (Model.entry_reports_once hrules _ hregular hstart hfirst hstands fuel) h

/-- A schema two of whose properties are the same as another schema. -/
def repeatedSchema : Json :=
  .obj [("properties", .obj [("a", .obj [("$ref", .str "#/T")]), ("b", .obj [("$ref", .str "#/T")])])]

/-- A schema of which a keyword has a value of the wrong type. -/
def wrongSchema : Json := .obj [("nullable", .str "text")]

def repeatedDocument : Json := .obj [("S", repeatedSchema), ("T", wrongSchema)]

/-- From the schema references reach the wrong one, and nothing else. -/
theorem repeated_isApart {first : Landing} (hfirst : (ofDocument [] repeatedDocument
      .default).resolver.Lands "" "#/S" first) :
    (ofDocument [] repeatedDocument .default).resolver.IsApart first := by
  have hlocal : Uri.isLocal "#/S" = true ∧ Uri.isLocal "#/T" = true := by decide +kernel
  have hsegments : Uri.pointerSegments (Uri.defrag "#/S").2 = ["S"] ∧
      Uri.pointerSegments (Uri.defrag "#/T").2 = ["T"] := by decide +kernel
  have hpaths : Path.ofUri "#/S" = ⟨"", ["S"]⟩ ∧ Path.ofUri "#/T" = ⟨"", ["T"]⟩ := by
    decide +kernel
  -- all references are the same
  have hrefers : ∀ {schema text}, schema ∈ repeatedDocument.inside → schema.Refers text →
      text = "#/T" := by
    rintro schema text hschema ⟨part, hpart, href⟩
    have hall : (repeatedDocument.all fun part =>
        ((part.get? "$ref").bind Json.asStr?).all (· == "#/T")) = true := by decide +kernel
    have hhere := Json.test_of_mem_inside hall (Json.mem_inside_trans hpart hschema)
    rw [href] at hhere
    exact eq_of_beq hhere
  obtain ⟨schema, hwalk, rfl⟩ := hfirst.eq_local (.inl rfl) hlocal.1 rfl
  rw [hsegments.1] at hwalk
  cases hwalk
  have hwalks : repeatedDocument.walk? ["S"] = some repeatedSchema ∧
      repeatedDocument.walk? ["T"] = some wrongSchema := ⟨rfl, rfl⟩
  have hreaches : ∀ {landing}, (ofDocument [] repeatedDocument .default).resolver.Reaches
      ⟨"#/S", "#/S", repeatedSchema⟩ landing →
      landing = ⟨"#/S", "#/S", repeatedSchema⟩ ∨ landing = ⟨"#/T", "#/T", wrongSchema⟩ := by
    intro landing h
    induction h with
    | here => exact .inl rfl
    | @next last landing text _ hrefers' hlands ih =>
        have hlast : last.value ∈ repeatedDocument.inside ∧ Uri.isLocal last.scope = true := by
          rcases ih with rfl | rfl
          · exact ⟨Json.mem_inside_of_walk hwalks.1, hlocal.1⟩
          · exact ⟨Json.mem_inside_of_walk hwalks.2, hlocal.2⟩
        obtain rfl := hrefers hlast.1 hrefers'
        obtain ⟨schema, hwalk, rfl⟩ := hlands.eq_local
          (.inr (Uri.isFragment_of_isLocal hlast.2)) hlocal.2 rfl
        rw [hsegments.2] at hwalk
        cases hwalk
        exact .inr rfl
  have hunder : ¬(Path.mk "" ["S"]).Within ⟨"", ["T"]⟩ ∧
      ¬(Path.mk "" ["T"]).Within ⟨"", ["S"]⟩ :=
    ⟨fun h => absurd h.2 (by decide), fun h => absurd h.2 (by decide)⟩
  refine ⟨fun hlanding hother hwithin => ?_, by rintro _ _ _ ⟨⟩⟩
  unfold Landing.path at hwithin ⊢
  obtain rfl | rfl := hreaches hlanding <;> obtain rfl | rfl := hreaches hother <;>
    simp only [hpaths.1, hpaths.2] at hwithin ⊢
  · exact absurd hwithin hunder.2
  · exact absurd hwithin hunder.1

/-- The wrong schema is reported once, and so is each of the references to it. -/
theorem check_reports_once_repeated :
    ∃ errors, ((ofDocument [] repeatedDocument .default).check 20 "#/S").1 =
      .error (.errors errors) ∧ errors.length = 3 ∧ errors.toList.Nodup := by
  have hcheck : ((ofDocument [] repeatedDocument .default).check 20 "#/S").1 =
      .error (.errors ⟨LocatedError.ofKey .builtIn ⟨"", ["S", "properties", "a"]⟩ .badReference [],
        [LocatedError.ofKey .builtIn ⟨"", ["T", "nullable"]⟩ .booleanType [],
        LocatedError.ofKey .builtIn ⟨"", ["S", "properties", "b"]⟩ .badReference []]⟩) := by
    decide +kernel
  exact ⟨_, hcheck, rfl, check_reports_once [] repeatedDocument .default [] (by decide +kernel)
    (isRegular_ofDocument .default (by decide +kernel)) "#/S" (fun _ => repeated_isApart) 20 hcheck⟩

/-- A schema one of whose properties is the same as another one, which is wrong. -/
def crossedSchema : Json :=
  .obj [("properties", .obj [("a", .obj [("$ref", .str "#/S/properties/b")]), ("b", wrongSchema)])]

/-- The wrong schema is reported where the reference leads to it, and again in its place. -/
theorem check_reports_twice :
    let wrong := LocatedError.ofKey .builtIn ⟨"", ["S", "properties", "b", "nullable"]⟩
      .booleanType []
    ((ofDocument [] (.obj [("S", crossedSchema)]) .default).check 20 "#/S").1 =
        .error (.errors ⟨LocatedError.ofKey .builtIn ⟨"", ["S", "properties", "a"]⟩ .badReference [],
          [wrong, wrong]⟩) := by
  decide +kernel

end Compiler

end SchemaGraph

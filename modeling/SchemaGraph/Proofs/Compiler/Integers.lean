import SchemaGraph.Proofs.Bounds
import SchemaGraph.Proofs.Compiler.Combinators
import SchemaGraph.Proofs.Compiler.Reports
import SchemaGraph.Proofs.Merging

set_option autoImplicit false

/-! # Integers between bounds

A schema of integers whose bounds are integers compiles to a node with the doubles next to them.
It reports a broken bound for exactly those integers that are not admitted after rounding
(`IntegerBounds.AdmitsNearest`); whatever else the node checks is reported as another kind of
error.
-/

namespace SchemaGraph

/-- A conversion reports an error of a kind. -/
def Outcome.reports (kind : ErrorKind) : Outcome → Bool
  | failed errors => errors.containsKind kind
  | _ => false

/-- The check is about a format. -/
def Check.isFormat : Check → Bool
  | format .. => true
  | rule .. => false

/-- The node is for integers within bounds; apart from these it checks an enumeration and formats
at most. -/
def Node.JudgesIntegers {ι : Type} (bounds : NumericBounds) (node : Node ι) : Prop :=
  ∃ common, node = .typed common (.integer bounds) ∧ ∀ check ∈ common.checks, check.isFormat = true

/-! ## What a node reports -/

theorem Check.kind_of_format {check : Check} (h : check.isFormat = true) {result : Value}
    {payload : Json} {violation : Violation}
    (hviolation : check.violation? result payload = some violation) :
    violation.kind = .formatViolation := by
  cases check with
  | rule => cases h
  | format restriction messages =>
      unfold violation? at hviolation
      dsimp only at hviolation
      split at hviolation
      · cases hviolation
      · cases hviolation
        cases restriction <;> rfl

namespace Conversion

section Bounds

variable {bounds : NumericBounds} {number bound : Double} {key : MessageKey}

theorem kind_of_breachOfMaximum (h : bounds.breachOfMaximum? number = some (key, bound)) :
    key.kind = .numericBoundsViolation := by
  unfold NumericBounds.breachOfMaximum? at h
  split at h
  · cases h
  · split at h <;> split at h <;> cases h <;> rfl

theorem kind_of_breachOfDivision {value : Value}
    (h : bounds.breachOfDivision? value number = some (key, bound)) :
    key.kind = .numericBoundsViolation := by
  unfold NumericBounds.breachOfDivision? at h
  split at h
  · cases h
  · split at h <;> cases h
    rfl

/-- Every broken bound is reported as such. -/
theorem kind_of_bounds {messages : Messages} {value : Value} {violation : Violation}
    (h : violation ∈ bounds.violations messages value) :
    violation.kind = .numericBoundsViolation := by
  unfold NumericBounds.violations at h
  split at h
  · cases h
  · rename_i number _
    obtain ⟨⟨key, bound⟩, hbreach, rfl⟩ := List.mem_map.1 h
    obtain ⟨found, hfound, hkey⟩ := List.mem_filterMap.1 hbreach
    have hkey : found = some (key, bound) := hkey
    show key.kind = .numericBoundsViolation
    simp only [List.mem_cons, List.not_mem_nil, or_false] at hfound
    rcases hfound with rfl | rfl | rfl
    · exact kind_of_breachOfMinimum hkey
    · exact kind_of_breachOfMaximum hkey
    · exact kind_of_breachOfDivision hkey

end Bounds

section Integers

variable {ι : Type} {common : Common} {n : Int}

/-- Of what the checks find wrong, the broken bounds are those of their kind. -/
theorem exists_broken_bound (hchecks : ∀ check ∈ common.checks, check.isFormat = true)
    (bounds : NumericBounds) (value : Value) (payload : Json) :
    (∃ violation ∈ violations common (.integer bounds : Shape ι) value payload,
      violation.kind = .numericBoundsViolation) ↔ bounds.violations common.messages value ≠ [] := by
  constructor
  · rintro ⟨violation, hmem, hkind⟩
    unfold violations at hmem
    rcases List.mem_append.1 hmem with hmem | hmem
    · rcases List.mem_append.1 hmem with hmem | hmem
      · have henum : violation.kind = .enumMismatch :=
          ((marked_enum common payload .root).located _ (List.mem_map_of_mem hmem)).2
        rw [henum] at hkind
        cases hkind
      · exact List.ne_nil_of_mem hmem
    · obtain ⟨check, hcheck, hviolation⟩ := List.mem_filterMap.1 hmem
      rw [Check.kind_of_format (hchecks check hcheck) hviolation] at hkind
      cases hkind
  · intro hbroken
    obtain ⟨violation, hmem⟩ := List.exists_mem_of_ne_nil _ hbroken
    refine ⟨violation, ?_, kind_of_bounds hmem⟩
    exact List.mem_append_left _ (List.mem_append_right _ hmem)

/-- An integer is taken as it is, and what the checks find wrong with it is reported. -/
theorem checked_integer (convert : Converting ι) (mode : Mode) (bounds : NumericBounds)
    (hn : FitsSigned n) (path : Path) :
    checked convert mode common (.integer bounds) (.ofInt n) path =
      failOn ((violations common (.integer bounds : Shape ι) (.integer n hn) (.ofInt n)).map
        fun violation => violation.located path) >>= fun _ => pure (.integer n hn) := by
  have hpayload : Json.ofInt n = .num (.integer n hn.word) :=
    congrArg Json.num (dif_pos hn.word)
  have hvalue : Value.ofJson (.num (.integer n hn.word)) = .integer n hn := dif_pos hn
  have hcoerced : coerced mode common (.integer bounds : Shape ι) (.num (.integer n hn.word))
      path = pure (.num (.integer n hn.word)) := ite_self _
  have hresult : result convert mode common (.integer bounds) (.num (.integer n hn.word)) path =
      pure (.integer n hn) := by
    unfold result
    dsimp only
    rw [hvalue]
  rw [hpayload]
  unfold checked
  rw [hcoerced, pure_bind]
  show (result convert mode common (.integer bounds) (.num (.integer n hn.word)) path >>= _) = _
  rw [hresult, pure_bind]

/-- A payload that is not `null` is checked. -/
theorem step_of_payload (convert : Converting ι) (mode : Mode) (self : ι) (bounds : NumericBounds)
    {payload : Json} (hnull : payload.isNull = false) (path : Path) :
    step convert mode self (.typed common (.integer bounds)) (some payload) path =
      checked convert mode common (.integer bounds) payload path := by
  show judged convert mode common (.integer bounds) (some payload) path = _
  unfold judged present?
  dsimp only
  rw [hnull, if_neg Bool.false_ne_true]

end Integers

end Conversion

/-- A node for integers reports a broken bound exactly if there is one. -/
theorem Graph.reports_integer {graph : Graph} {id : NodeId} {node : Node} {bounds : NumericBounds}
    (hnode : graph.get? id = some node) (hjudges : node.JudgesIntegers bounds) {n : Int}
    (hn : FitsSigned n) (fuel : Nat) (path : Path) (mode : Mode) (resolver : Option Resolver) :
    ∃ messages, (graph.convertAt (fuel + 1) id (some (.ofInt n)) path mode resolver).1.reports
      .numericBoundsViolation = true ↔ bounds.violations messages (.integer n hn) ≠ [] := by
  obtain ⟨common, rfl, hchecks⟩ := hjudges
  refine ⟨common.messages, ?_⟩
  have hbroken := Conversion.exists_broken_bound (ι := NodeId) hchecks bounds (.integer n hn)
    (.ofInt n)
  rw [← hbroken]
  unfold convertAt
  rw [convertWithin_succ hnode, Conversion.step_of_payload _ _ _ _ rfl,
    Conversion.checked_integer _ _ _ hn]
  generalize Conversion.violations common _ _ _ = found
  cases found with
  | nil =>
      show false = true ↔ _
      simp
  | cons first rest =>
      show (SchemaErrors.kinds ⟨_, _⟩).contains .numericBoundsViolation = true ↔ _
      rw [List.contains_iff_mem]
      show ErrorKind.numericBoundsViolation ∈
        ((first :: rest).map fun violation => violation.located path).map LocatedError.kind ↔ _
      rw [List.map_map, List.mem_map]
      rfl

/-! ## What a schema becomes -/

theorem Number.toDouble_ofInt (n : Int) : (Number.ofInt n).toDouble = Double.ofInt n := by
  unfold ofInt
  split <;> simp only [toDouble]

theorem Reading.bind_of_read {α β : Type} (a : α) (next : α → Reading β) :
    ((⟨a, []⟩ : Reading α) >>= next) = next a := rfl

namespace Keywords

variable {keywords : Keywords} {name : String}

/-- A keyword that is read as it was written. -/
theorem optional_of_written {α β : Type} {written : Option α} {write : α → Json}
    {read : Json → Option β} {value : α → β}
    (hraw : keywords.raw? name = written.map write)
    (hread : ∀ a ∈ written, read (write a) = some (value a)) :
    keywords.optional name read = ⟨written.map value, []⟩ := by
  unfold optional
  rw [hraw]
  cases written with
  | none => rfl
  | some a =>
      rw [Option.map_some, Option.map_some]
      dsimp only
      rw [hread a rfl]

theorem optional_of_absent {β : Type} (read : Json → Option β) (hraw : keywords.raw? name = none) :
    keywords.optional name read = ⟨none, []⟩ := by
  unfold optional
  rw [hraw]

theorem flag_of_written {written : Option Bool} (hraw : keywords.raw? name = written.map .bool) :
    keywords.flag name = ⟨written.getD false, []⟩ := by
  have hoptional : keywords.optional name Json.asBool? = ⟨written.map id, []⟩ :=
    optional_of_written hraw fun _ _ => rfl
  unfold flag
  rw [hoptional, Option.map_id]
  rfl

/-- An integer is read as the double next to it. -/
theorem number_of_written {written : Option Int} (hraw : keywords.raw? name = written.map .ofInt) :
    keywords.number name = ⟨written.map Double.ofInt, []⟩ := by
  refine optional_of_written hraw fun n _ => ?_
  show some (Number.ofInt n).toDouble = some (Double.ofInt n)
  rw [Number.toDouble_ofInt]

theorem positive_of_written {written : Option Int} (hraw : keywords.raw? name = written.map .ofInt)
    (hpositive : ∀ n ∈ written, FitsSigned n ∧ 0 < n) :
    keywords.positive name = ⟨written.map Double.ofInt, []⟩ := by
  unfold positive
  rw [number_of_written hraw, Reading.bind_of_read]
  cases written with
  | none => rfl
  | some n =>
      obtain ⟨hfits, hpos⟩ := hpositive n rfl
      rw [Option.map_some]
      dsimp only
      rw [Double.not_atMost_zero hfits.word hpos, if_neg Bool.false_ne_true]
      rfl

end Keywords

namespace IntegerBounds

variable {bounds : IntegerBounds} {entries : List (String × Json)}

/-- A schema of integers has these bounds. -/
structure WrittenIn (bounds : IntegerBounds) (entries : List (String × Json)) : Prop where
  type : Entries.find? "type" entries = some (.str "integer")
  minimum : Entries.find? "minimum" entries = bounds.minimum.map .ofInt
  maximum : Entries.find? "maximum" entries = bounds.maximum.map .ofInt
  exclusiveMinimum : Entries.find? "exclusiveMinimum" entries = bounds.exclusiveMinimum.map .bool
  exclusiveMaximum : Entries.find? "exclusiveMaximum" entries = bounds.exclusiveMaximum.map .bool
  multipleOf : Entries.find? "multipleOf" entries = bounds.multipleOf.map .ofInt

theorem WrittenIn.numericBounds (h : bounds.WrittenIn entries) (hfits : bounds.Fits) (path : Path)
    (messages : Messages) :
    (⟨entries, path, messages⟩ : Keywords).numericBounds = ⟨bounds.doubles, []⟩ := by
  generalize hkeywords : (⟨entries, path, messages⟩ : Keywords) = keywords
  have hraw : ∀ name, keywords.raw? name = Entries.find? name entries := by
    intro name
    rw [← hkeywords]
    rfl
  have hleast := Keywords.number_of_written ((hraw "minimum").trans h.minimum)
  have hmost := Keywords.number_of_written ((hraw "maximum").trans h.maximum)
  have habove := Keywords.flag_of_written ((hraw "exclusiveMinimum").trans h.exclusiveMinimum)
  have hbelow := Keywords.flag_of_written ((hraw "exclusiveMaximum").trans h.exclusiveMaximum)
  have hdivisor := Keywords.positive_of_written ((hraw "multipleOf").trans h.multipleOf)
    hfits.multipleOf
  unfold Keywords.numericBounds
  rw [hleast, hmost, habove, hbelow, hdivisor]
  rfl

theorem WrittenIn.ofSchema (h : bounds.WrittenIn entries) (messages : Messages) :
    SchemaKind.ofSchema entries messages = .ok (some .integer) := by
  unfold SchemaKind.ofSchema
  rw [h.type]
  rfl

end IntegerBounds

namespace Compiling

variable {ι : Type} {compile : CompilingValue ι} {c d : Compiler} {bounds : IntegerBounds}
  {entries : List (String × Json)} {path : Path} {flag : Bool} {fuel : Nat}

theorem applyFormat_integer {keywords : Keywords} {common : Common} {assembly : Assembly ι}
    {bounds : NumericBounds} (hplain : common.checks = [])
    (h : applyFormat keywords .integer common (.integer bounds) c = (.ok assembly, d))
    {node : Node ι} (hnode : assembly.node = some node) : node.JudgesIntegers bounds := by
  have hunchecked : (Node.typed common (.integer bounds : Shape ι)).JudgesIntegers bounds := by
    refine ⟨common, rfl, ?_⟩
    rw [hplain]
    exact List.forall_mem_nil _
  rcases applyFormat_becomes h hnode with rfl | ⟨name, format, -, -, rfl⟩
  · exact hunchecked
  · cases format with
    | plain => exact hunchecked
    | parse written => exact hunchecked
    | check restriction =>
        refine ⟨_, rfl, fun check hcheck => ?_⟩
        change check ∈ common.checks ++ [_] at hcheck
        rw [hplain, List.nil_append, List.mem_singleton] at hcheck
        rw [hcheck]
        rfl

/-- A schema of integers with integer bounds becomes a node with the doubles next to them. -/
theorem node_judges_integers (hwritten : bounds.WrittenIn entries) (hfits : bounds.Fits)
    {node : Node ι} (h : Compiling.node compile fuel entries path flag c = (.ok node, d)) :
    node.JudgesIntegers bounds.doubles := by
  obtain ⟨kind, assembly, hkind, hassemble, hnode⟩ := node_assembles h
  rw [hwritten.ofSchema] at hkind
  cases hkind
  unfold assemble at hassemble
  dsimp only at hassemble
  rw [hwritten.numericBounds hfits] at hassemble
  obtain ⟨found, u, hformat, hassemble⟩ := bind_ok hassemble
  cases hassemble
  exact applyFormat_integer rfl hformat hnode

/-- The keywords of a schema of integers that has nothing but bounds. -/
def integerKeywords : List String :=
  ["type", "minimum", "maximum", "exclusiveMinimum", "exclusiveMaximum", "multipleOf"]

theorem find?_of_alone {name : String} (halone : ∀ entry ∈ entries, entry.1 ∈ integerKeywords)
    (hname : name ∉ integerKeywords) : Entries.find? name entries = none := by
  refine Entries.find?_eq_none.2 fun hmem => hname ?_
  obtain ⟨entry, hentry, rfl⟩ := List.mem_map.1 hmem
  exact halone entry hentry

/-- A schema that has nothing but bounds becomes a node. -/
theorem run_node_integer (hwritten : bounds.WrittenIn entries) (hfits : bounds.Fits)
    (halone : ∀ entry ∈ entries, entry.1 ∈ integerKeywords) (c : Compiler) :
    Compiling.node compile fuel entries path flag c =
      (.ok (.typed (.plain c.messages) (.integer bounds.doubles)), c) := by
  generalize hkeywords : (⟨entries, path, c.messages⟩ : Keywords) = keywords
  have hraw : ∀ name ∉ integerKeywords, keywords.raw? name = none := by
    rw [← hkeywords]
    exact fun _ => find?_of_alone halone
  have hflag : ∀ name ∉ integerKeywords, keywords.flag name = ⟨false, []⟩ := by
    intro name hname
    unfold Keywords.flag
    rw [Keywords.optional_of_absent _ (hraw name hname)]
    rfl
  have hcommon : keywords.common = ⟨.plain keywords.messages, []⟩ := by
    unfold Keywords.common Keywords.array
    rw [hflag "nullable" (by decide), Keywords.optional_of_absent _ (hraw "enum" (by decide)),
      hraw "default" (by decide)]
    rfl
  have hbounds : keywords.numericBounds = ⟨bounds.doubles, []⟩ := by
    rw [← hkeywords]
    exact hwritten.numericBounds hfits path c.messages
  have hformat : keywords.string "format" = ⟨none, []⟩ :=
    Keywords.optional_of_absent _ (hraw "format" (by decide))
  have hassemble : assemble compile fuel keywords (.plain c.messages) (some .integer) flag c =
      (.ok (.ofNode (.typed (.plain c.messages) (.integer bounds.doubles))), c) := by
    unfold assemble primitive applyFormat
    dsimp only
    rw [hbounds, hformat]
    rfl
  have hmessages : keywords.messages = c.messages := by rw [← hkeywords]
  unfold Compiling.node
  rw [run_bind_of_ok (run_get c), hwritten.ofSchema]
  dsimp only
  rw [hkeywords, hcommon, hmessages, hflag "deprecated" (by decide), run_bind_of_ok hassemble]
  rfl

end Compiling

/-! ## Compiled schemas -/

namespace Graph

variable {graph : Graph} {id : NodeId} {bounds : IntegerBounds}

/-- Every conversion of an integer by a node reports a broken bound, unless the integer is
admitted; then none does. -/
def RefusesUnless (graph : Graph) (id : NodeId) (n : Int) (admitted : Prop) : Prop :=
  ∀ fuel path mode resolver,
    (graph.convertAt (fuel + 1) id (some (.ofInt n)) path mode resolver).1.reports
      .numericBoundsViolation = true ↔ ¬admitted

/-- A node holds the integers of a signed word to bounds: to the doubles next to them, and so to
the bounds themselves where these share no double with another integer, which those below `2^53`
never do. The divisor of a remainder is positive, so that no remainder overflows. -/
structure HoldsTo (graph : Graph) (id : NodeId) (bounds : IntegerBounds) : Prop where
  nearest : ∀ n, FitsSigned n → graph.RefusesUnless id n (bounds.AdmitsNearest n)
  exact : ∀ n, FitsSigned n → bounds.TellsApart n → graph.RefusesUnless id n (bounds.Admits n)
  short : bounds.IsShort → ∀ n, FitsSigned n → graph.RefusesUnless id n (bounds.Admits n)
  remainder : ∀ divisor ∈ bounds.multipleOf, ∀ used,
    NumericBounds.integerDivisor? (Double.ofInt divisor) = some used → FitsSigned used ∧ 0 < used

theorem holdsTo_of_judges {node : Node} (hnode : graph.get? id = some node)
    (hjudges : node.JudgesIntegers bounds.doubles) (hfits : bounds.Fits) :
    graph.HoldsTo id bounds := by
  have hnearest : ∀ n, FitsSigned n → graph.RefusesUnless id n (bounds.AdmitsNearest n) := by
    intro n hn fuel path mode resolver
    obtain ⟨messages, hreports⟩ := reports_integer hnode hjudges hn fuel path mode resolver
    rw [hreports, ne_eq, IntegerBounds.violations_eq_nil hfits hn]
  have hexact : ∀ n, FitsSigned n → bounds.TellsApart n →
      graph.RefusesUnless id n (bounds.Admits n) := by
    intro n hn happart fuel path mode resolver
    rw [hnearest n hn fuel path mode resolver, happart.admits_iff hfits]
  refine ⟨hnearest, hexact, fun hshort n hn => hexact n hn (hshort.tellsApart n), ?_⟩
  intro divisor hmem used hused
  obtain ⟨hdivisor, hpos⟩ := hfits.multipleOf divisor hmem
  exact IntegerBounds.signed_of_integerDivisor hdivisor hpos hused

end Graph

namespace Compiler

open Compiling

/-- A schema of integers that has nothing but bounds compiles at a new location, if the check finds
nothing. Every schema of integers, whatever else it has, holds integers to the doubles next to its
bounds, whatever was called before and is called later. -/
theorem integer_bounds_hold_nearest (resolver : Resolver) (config : Config)
    (earlier later : List Call) (fuel : Nat) (pointer : String) :
    let c := ((withResolver resolver config).calls earlier).1
    (∀ url entries (bounds : IntegerBounds),
      (checkIfAsked (fuel + 1) pointer c).1 = .ok () →
      (Compiling.pointer pointer (checkIfAsked (fuel + 1) pointer c).2).1 =
        .ok (url, .obj entries) →
      c.memory.find? ⟨Path.ofUri url, c.config.allowPolymorphism⟩ = none →
      bounds.Fits → bounds.WrittenIn entries →
      (∀ entry ∈ entries, entry.1 ∈ integerKeywords) →
        ∃ id, (c.compile (fuel + 1) pointer).1 = .ok id) ∧
    ∀ id d, c.compile fuel pointer = (.ok id, d) →
      let e := (d.calls later).1
      ∃ graph node entries key,
        e.graph id = .ok graph ∧ graph.get? id = some node ∧ MadeFrom e entries key node ∧
        (∀ bounds : IntegerBounds, bounds.Fits → bounds.WrittenIn entries →
          graph.HoldsTo id bounds) ∧
        ∀ url read, (Compiling.pointer pointer (checkIfAsked fuel pointer c).2).1 =
            .ok (url, .obj read) → Entries.find? "$ref" read = none →
          c.memory.find? ⟨Path.ofUri url, c.config.allowPolymorphism⟩ = none → entries = read := by
  intro c
  constructor
  · intro url entries bounds hchecked hread hnew hfits hwritten halone
    have hplain : Entries.find? "$ref" entries = none := find?_of_alone halone (by decide)
    refine compile_new hchecked hread hplain hnew fun flag start => ?_
    rw [run_node_integer hwritten hfits halone start]
    exact ⟨_, rfl⟩
  · intro id d hcompile e
    obtain ⟨graph, node, entries, key, hgraph, hnode, hfrom, hread⟩ :=
      entry_of_compile resolver config earlier later hcompile
    refine ⟨graph, node, entries, key, hgraph, hnode, hfrom, fun bounds hfits hwritten => ?_, hread⟩
    obtain ⟨depth, nested, u, u', hrun, -⟩ := hfrom.run
    exact Graph.holdsTo_of_judges hnode (node_judges_integers hwritten hfits hrun) hfits

/-- Bounds of which the maximum shares its double with the integer above it. -/
def longBounds : IntegerBounds := ⟨some 0, some 9007199254740992, some true, none, some 3⟩

/-- A schema of integers with these bounds. -/
def longSchema : List (String × Json) :=
  [("exclusiveMinimum", .bool true), ("maximum", .ofInt 9007199254740992), ("minimum", .ofInt 0),
    ("multipleOf", .ofInt 3), ("type", .str "integer")]

theorem longBounds_fits : longBounds.Fits where
  minimum := by decide
  maximum := by decide
  multipleOf := by decide

theorem longBounds_writtenIn : longBounds.WrittenIn longSchema := by
  constructor <;> rfl

theorem integer_bounds_hold_nearest_long :
    let document : Json := .obj [("S", .obj longSchema)]
    let c := withResolver (.ofConfig [] document .default) .default
    ∃ id d graph, c.compile 40 "#/S" = (.ok id, d) ∧ d.graph id = .ok graph ∧
      graph.HoldsTo id longBounds := by
  intro document c
  have hchecked : (checkIfAsked 40 "#/S" c).1 = .ok () := by decide +kernel
  have hpath : Path.ofUri "#/S" = ⟨"", ["S"]⟩ := by decide +kernel
  have hread : (Compiling.pointer "#/S" (checkIfAsked 40 "#/S" c).2).1 =
      .ok ("#/S", .obj longSchema) := by
    refine pointer_within (Resolver.serves_ofConfig [] document rfl) (.inl rfl) (by decide +kernel)
      ?_ 40
    rw [hpath]
    rfl
  have halone : ∀ entry ∈ longSchema, entry.1 ∈ integerKeywords := by decide
  obtain ⟨hcompiles, -⟩ :=
    integer_bounds_hold_nearest (.ofConfig [] document .default) .default [] [] 39 "#/S"
  obtain ⟨id, hid⟩ := hcompiles "#/S" longSchema longBounds hchecked hread rfl longBounds_fits
    longBounds_writtenIn halone
  obtain ⟨d, hcompile⟩ := exists_of_fst hid
  obtain ⟨-, hholds⟩ :=
    integer_bounds_hold_nearest (.ofConfig [] document .default) .default [] [] 40 "#/S"
  obtain ⟨graph, node, entries, key, hgraph, -, -, hbounds, hentries⟩ := hholds id d hcompile
  have hwritten : longBounds.WrittenIn entries := by
    rw [hentries "#/S" longSchema hread rfl rfl]
    exact longBounds_writtenIn
  exact ⟨id, d, graph, hcompile, hgraph, hbounds longBounds longBounds_fits hwritten⟩

/-- The integer next to a maximum is accepted if both share a double. -/
theorem integer_above_maximum_passes :
    let bounds : IntegerBounds := ⟨none, some 9007199254740992, none, none, none⟩
    let schema : List (String × Json) :=
      [("maximum", .ofInt 9007199254740992), ("type", .str "integer")]
    let c := withResolver (.ofConfig [] (.obj [("S", .obj schema)]) .default) .default
    let d := (c.compile 40 "#/S").2
    bounds.Fits ∧ bounds.WrittenIn schema ∧ FitsSigned 9007199254740993 ∧
      ¬bounds.Admits 9007199254740993 ∧ (c.compile 40 "#/S").1 = .ok 0 ∧
      ∃ graph, d.graph 0 = .ok graph ∧
        (graph.convertAt 1 0 (some (.ofInt 9007199254740993)) .root ⟨.request, true⟩ none).1.reports
          .numericBoundsViolation = false := by
  intro bounds schema c d
  have hfits : bounds.Fits := by constructor <;> decide
  have hwritten : bounds.WrittenIn schema := by constructor <;> rfl
  have hpasses : (d.graph 0).toOption.any (fun graph =>
      !(graph.convertAt 1 0 (some (.ofInt 9007199254740993)) .root ⟨.request, true⟩ none).1.reports
        .numericBoundsViolation) = true := by
    decide +kernel
  obtain ⟨graph, hgraph, hpasses⟩ := exists_of_any hpasses
  refine ⟨hfits, hwritten, by decide, fun hadmits => ?_, by decide +kernel, graph, hgraph, ?_⟩
  · exact absurd (hadmits.maximum _ rfl) (by decide)
  · exact Bool.not_eq_true' _ ▸ hpasses

end Compiler

end SchemaGraph

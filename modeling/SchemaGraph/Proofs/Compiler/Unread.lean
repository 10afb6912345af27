import SchemaGraph.Proofs.Compiler.Made

set_option autoImplicit false

/-! # Combinators that do not count

A reference compiles as its target does, a schema with a type by the keywords of its type, and
any other schema by the first combinator it uses. No other combinator is read: the schema
compiles as it would without it, and nothing is reported.
-/

namespace SchemaGraph

theorem Entries.find?_remove_self {α : Type} (key : String) :
    ∀ entries : List (String × α), find? key (remove key entries) = none
  | [] => rfl
  | (k, v) :: rest => by
      have ih := find?_remove_self key rest
      unfold remove at ih ⊢
      by_cases hk : k = key
      · rw [List.filter_cons_of_neg (by simpa using hk)]
        exact ih
      · rw [List.filter_cons_of_pos (by simpa using hk)]
        unfold find?
        rw [if_neg (by simpa using hk)]
        exact ih

theorem Entries.find?_remove_of_ne {α : Type} {key other : String} (h : other ≠ key) :
    ∀ entries : List (String × α), find? other (remove key entries) = find? other entries
  | [] => rfl
  | (k, v) :: rest => by
      have ih := find?_remove_of_ne h rest
      unfold remove at ih ⊢
      by_cases hk : k = key
      · subst hk
        rw [List.filter_cons_of_neg (by simp), ih]
        exact (if_neg (by simpa using fun heq => h heq.symm)).symm
      · rw [List.filter_cons_of_pos (by simpa using hk)]
        unfold find?
        rw [ih]

/-! ## Reading other keywords -/

namespace Keywords

variable {α : Type} {keywords : Keywords} {name other : String}

/-- The keywords but one. -/
def without (keywords : Keywords) (name : String) : Keywords :=
  { keywords with schema := Entries.remove name keywords.schema }

theorem raw_without (h : other ≠ name) : (keywords.without name).raw? other = keywords.raw? other :=
  Entries.find?_remove_of_ne h keywords.schema

theorem raw_without_self : (keywords.without name).raw? name = none :=
  Entries.find?_remove_self name keywords.schema

theorem optional_without (h : other ≠ name) (read : Json → Option α) :
    (keywords.without name).optional other read = keywords.optional other read := by
  unfold optional
  rw [raw_without h]
  rfl

theorem flag_without (h : other ≠ name) :
    (keywords.without name).flag other = keywords.flag other := by
  unfold flag
  rw [optional_without h]

theorem number_without (h : other ≠ name) :
    (keywords.without name).number other = keywords.number other := optional_without h _

theorem positive_without (h : other ≠ name) :
    (keywords.without name).positive other = keywords.positive other := by
  unfold positive
  rw [number_without h]
  rfl

theorem count_without (h : other ≠ name) :
    (keywords.without name).count other = keywords.count other := optional_without h _

theorem string_without (h : other ≠ name) :
    (keywords.without name).string other = keywords.string other := optional_without h _

theorem array_without (h : other ≠ name) :
    (keywords.without name).array other = keywords.array other := optional_without h _

theorem mapping_without (h : other ≠ name) :
    (keywords.without name).mapping other = keywords.mapping other := optional_without h _

theorem names_without (h : other ≠ name) :
    (keywords.without name).names other = keywords.names other := by
  unfold names
  rw [array_without h]
  rfl

theorem pattern_without (h : other ≠ name) :
    (keywords.without name).pattern other = keywords.pattern other := by
  unfold pattern
  rw [string_without h]
  rfl

variable (combinator : Combinator)

theorem common_without : (keywords.without combinator.keyword).common = keywords.common := by
  unfold common
  cases combinator <;>
    rw [flag_without (by decide), array_without (by decide), raw_without (by decide)] <;> rfl

theorem textBounds_without :
    (keywords.without combinator.keyword).textBounds = keywords.textBounds := by
  unfold textBounds
  cases combinator <;>
    rw [count_without (by decide), count_without (by decide), pattern_without (by decide)]

theorem numericBounds_without :
    (keywords.without combinator.keyword).numericBounds = keywords.numericBounds := by
  unfold numericBounds
  cases combinator <;>
    rw [number_without (by decide), number_without (by decide), flag_without (by decide),
      flag_without (by decide), positive_without (by decide)]

theorem arrayShape_without {ι : Type} (items : ι) :
    (keywords.without combinator.keyword).arrayShape items = keywords.arrayShape items := by
  unfold arrayShape
  cases combinator <;>
    rw [count_without (by decide), count_without (by decide), flag_without (by decide),
      names_without (by decide)]

end Keywords

/-! ## Assembly without a combinator -/

namespace Compiling

variable {ι : Type} {compile : CompilingValue ι} {keywords : Keywords} (combinator : Combinator)

theorem primitive_without (kind : SchemaKind) (common : Common) (shape : Reading (Shape ι)) :
    primitive (keywords.without combinator.keyword) kind common shape =
      primitive keywords kind common shape := by
  unfold primitive applyFormat
  cases combinator <;> rw [Keywords.string_without (by decide)] <;> rfl

theorem array_without (common : Common) :
    array compile (keywords.without combinator.keyword) common = array compile keywords common := by
  unfold array
  simp only [Keywords.arrayShape_without]
  cases combinator <;> rw [Keywords.raw_without (by decide)] <;> rfl

theorem object_without (fuel : Nat) (common : Common) :
    object compile fuel (keywords.without combinator.keyword) common =
      object compile fuel keywords common := by
  have hadditional : additional compile (keywords.without combinator.keyword) =
      additional compile keywords := by
    unfold additional
    cases combinator <;> rw [Keywords.raw_without (by decide)] <;> rfl
  unfold object
  rw [hadditional]
  cases combinator <;>
    rw [Keywords.mapping_without (by decide), Keywords.names_without (by decide),
      Keywords.mapping_without (by decide), Keywords.count_without (by decide),
      Keywords.count_without (by decide)] <;> rfl

/-! ## Combinators that do not count -/

theorem listOf_without {name other : String} (h : other ≠ name) :
    listOf? (keywords.without name) other = listOf? keywords other := by
  unfold listOf?
  rw [Keywords.raw_without h]

/-- A list that is not there is not there without another keyword either. -/
theorem listOf_without_none {other : String} (h : listOf? keywords other = none) (name : String) :
    listOf? (keywords.without name) other = none := by
  by_cases heq : other = name
  · subst heq
    unfold listOf?
    rw [Keywords.raw_without_self]
    rfl
  · rw [listOf_without heq, h]

theorem negation_without {name : String} (common : Common)
    (h : name = "not" → keywords.raw? "not" = none) :
    negation compile (keywords.without name) common = negation compile keywords common := by
  have hraw : (keywords.without name).raw? "not" = keywords.raw? "not" := by
    by_cases heq : name = "not"
    · rw [h heq, heq, Keywords.raw_without_self]
    · exact Keywords.raw_without fun hsame => heq hsame.symm
  unfold negation
  rw [hraw]
  rfl

theorem Combinator.keyword_ne {a b : Combinator} (h : a ≠ b) : a.keyword ≠ b.keyword := by
  cases a <;> cases b <;> first | exact absurd rfl h | decide

theorem governing_without {combinator : Combinator}
    (h : Combinator.first? keywords ≠ some combinator) (common : Common) :
    governing compile (keywords.without combinator.keyword) common =
      governing compile keywords common := by
  have hlist : ∀ {other : Combinator} {schemas : List Json}, other ≠ combinator →
      listOf? keywords other.keyword = some schemas →
      listOf? (keywords.without combinator.keyword) other.keyword = some schemas :=
    fun hne hlist => (listOf_without (Combinator.keyword_ne hne)).trans hlist
  rw [Combinator.first?_eq] at h
  unfold governing
  cases hallOf : listOf? keywords "allOf" with
  | some schemas =>
      rw [hallOf] at h
      rw [show listOf? (keywords.without _) "allOf" = some schemas from
        hlist (fun heq => h (heq ▸ rfl)) hallOf]
      rfl
  | none =>
      rw [hallOf] at h
      rw [listOf_without_none hallOf]
      cases hanyOf : listOf? keywords "anyOf" with
      | some schemas =>
          rw [hanyOf] at h
          rw [show listOf? (keywords.without _) "anyOf" = some schemas from
            hlist (fun heq => h (heq ▸ rfl)) hanyOf]
          rfl
      | none =>
          rw [hanyOf] at h
          rw [listOf_without_none hanyOf]
          cases honeOf : listOf? keywords "oneOf" with
          | some schemas =>
              rw [honeOf] at h
              rw [show listOf? (keywords.without _) "oneOf" = some schemas from
                hlist (fun heq => h (heq ▸ rfl)) honeOf]
              rfl
          | none =>
              rw [honeOf] at h
              rw [listOf_without_none honeOf]
              refine negation_without common fun hkeyword => ?_
              cases hnot : keywords.raw? "not" with
              | none => rfl
              | some written =>
                  rw [hnot] at h
                  have hsame : combinator = .not := by
                    by_contra hne
                    exact Combinator.keyword_ne hne hkeyword
                  exact absurd (congrArg some hsame.symm) h

end Compiling

/-! ## Schemas -/

/-- A schema has a type, declared or implied. -/
def Keywords.isTyped (keywords : Keywords) : Bool :=
  keywords.contains "type" || !(SchemaKind.implied keywords.schema).isEmpty

/-- The combinator by which a schema without a discriminator compiles: the first it uses, if it
is no reference and has no type. -/
def Combinator.governing? (keywords : Keywords) : Option Combinator :=
  if keywords.contains "$ref" || keywords.isTyped then none else first? keywords

theorem Combinator.governing?_eq_some {keywords : Keywords} {combinator : Combinator} :
    governing? keywords = some combinator ↔ keywords.contains "$ref" = false ∧
      keywords.isTyped = false ∧ first? keywords = some combinator := by
  unfold governing?
  cases keywords.contains "$ref" <;> cases keywords.isTyped <;> simp

/-- A combinator that does not count is not the first, unless there is a type. -/
theorem Combinator.first?_of_governing {keywords : Keywords} {combinator : Combinator}
    (h : governing? keywords ≠ some combinator) (href : keywords.contains "$ref" = false)
    (htype : keywords.isTyped = false) : first? keywords ≠ some combinator := by
  exact fun hfirst => h (governing?_eq_some.2 ⟨href, htype, hfirst⟩)

theorem SchemaKind.ofSchema_of_untyped {keywords : Keywords} (h : keywords.isTyped = false) :
    ofSchema keywords.schema keywords.messages = .ok none := by
  obtain ⟨htype, himplied⟩ := Bool.or_eq_false_iff.1 h
  have htype : Entries.find? "type" keywords.schema = none :=
    Option.isNone_iff_eq_none.1 (Option.isSome_eq_false_iff.1 htype)
  have himplied : implied keywords.schema = [] := by simpa using himplied
  unfold ofSchema
  rw [htype, himplied]

theorem SchemaKind.untyped_of_ofSchema {keywords : Keywords}
    (h : ofSchema keywords.schema keywords.messages = .ok none) : keywords.isTyped = false := by
  unfold ofSchema at h
  unfold Keywords.isTyped Keywords.contains Entries.contains
  cases htype : Entries.find? "type" keywords.schema with
  | some declared =>
      rw [htype] at h
      dsimp only at h
      split at h <;> cases h
  | none =>
      rw [htype] at h
      dsimp only at h
      split at h
      · rename_i himplied
        rw [himplied]
        rfl
      · cases h
      · cases h

theorem SchemaKind.implied_without (combinator : Combinator) (schema : List (String × Json)) :
    implied (Entries.remove combinator.keyword schema) = implied schema := by
  have hnames : ∀ row ∈ impliedBy, ∀ name ∈ row.2, name ≠ combinator.keyword := by
    cases combinator <;> decide
  have hcontains : ∀ row ∈ impliedBy,
      (row.2.any fun name => Entries.contains name (Entries.remove combinator.keyword schema)) =
        row.2.any fun name => Entries.contains name schema := by
    intro row hrow
    rw [Bool.eq_iff_iff, List.any_eq_true, List.any_eq_true]
    refine exists_congr fun name => and_congr_right fun hname => ?_
    unfold Entries.contains
    rw [Entries.find?_remove_of_ne (hnames row hrow name hname)]
  unfold implied
  rw [List.filter_congr hcontains]

theorem SchemaKind.ofSchema_without (combinator : Combinator) (schema : List (String × Json))
    (messages : Messages) :
    ofSchema (Entries.remove combinator.keyword schema) messages = ofSchema schema messages := by
  have htype : "type" ≠ combinator.keyword := by cases combinator <;> decide
  unfold ofSchema
  rw [Entries.find?_remove_of_ne htype, implied_without]

namespace Compiling

variable {ι : Type} {compile : CompilingValue ι} {keywords : Keywords} {combinator : Combinator}

theorem mapping_of_absent {name : String} (h : keywords.raw? name = none) :
    keywords.mapping name = ⟨none, []⟩ := by
  unfold Keywords.mapping Keywords.optional
  rw [h]

/-- Without a discriminator there is nothing that extends an object. -/
theorem structured_without (fuel : Nat) (common : Common) (extensions : List (String × Json)) :
    structured compile fuel (keywords.without combinator.keyword) common none extensions =
      structured compile fuel keywords common none extensions :=
  object_without combinator fuel common

theorem untyped_without (h : Combinator.first? keywords ≠ some combinator)
    (hplain : keywords.raw? "discriminator" = none) (common : Common) :
    untyped compile (keywords.without combinator.keyword) common =
      untyped compile keywords common := by
  have hne : "discriminator" ≠ combinator.keyword := by cases combinator <;> decide
  have hunion : ∀ keywords : Keywords, union compile keywords common none =
      governing compile keywords common := fun _ => rfl
  unfold untyped
  rw [Keywords.mapping_without hne, mapping_of_absent hplain]
  dsimp only
  rw [hunion, hunion, governing_without h]

theorem assemble_without {kind : Option SchemaKind}
    (h : kind = none → Combinator.first? keywords ≠ some combinator)
    (hplain : keywords.raw? "discriminator" = none) (fuel : Nat) (common : Common) (flag : Bool) :
    assemble compile fuel (keywords.without combinator.keyword) common kind flag =
      assemble compile fuel keywords common kind flag := by
  have hne : "discriminator" ≠ combinator.keyword := by cases combinator <;> decide
  unfold assemble
  cases kind with
  | none => exact untyped_without (h rfl) hplain common
  | some kind =>
      cases kind with
      | object =>
          dsimp only
          rw [Keywords.mapping_without hne, mapping_of_absent hplain]
          simp only [structured_without]
          rfl
      | array => exact array_without combinator common
      | boolean => exact primitive_without combinator _ common _
      | string =>
          rw [Keywords.textBounds_without]
          exact primitive_without combinator _ common _
      | _ =>
          rw [Keywords.numericBounds_without]
          exact primitive_without combinator _ common _

theorem node_without {entries : List (String × Json)} {path : Path} {messages : Messages}
    (h : Combinator.governing? ⟨entries, path, messages⟩ ≠ some combinator)
    (hplain : Entries.find? "discriminator" entries = none)
    (href : Entries.find? "$ref" entries = none) (fuel : Nat) (flag : Bool) :
    Compiling.node compile fuel (Entries.remove combinator.keyword entries) path flag =
      Compiling.node compile fuel entries path flag := by
  funext c
  have hdeprecated : "deprecated" ≠ combinator.keyword := by cases combinator <;> decide
  unfold Compiling.node
  rw [run_bind_of_ok (run_get c), run_bind_of_ok (run_get c)]
  dsimp only
  rw [SchemaKind.ofSchema_without]
  cases hkind : SchemaKind.ofSchema entries c.messages with
  | error violation => rfl
  | ok kind =>
      have hcontains : (⟨entries, path, messages⟩ : Keywords).contains "$ref" = false := by
        unfold Keywords.contains Entries.contains
        rw [href]
        rfl
      have hfirst : kind = none →
          Combinator.first? ⟨entries, path, c.messages⟩ ≠ some combinator := by
        rintro rfl
        exact Combinator.first?_of_governing h hcontains (SchemaKind.untyped_of_ofSchema hkind)
      have hsame : (⟨Entries.remove combinator.keyword entries, path, c.messages⟩ : Keywords) =
          (⟨entries, path, c.messages⟩ : Keywords).without combinator.keyword := rfl
      dsimp only
      rw [hsame, Keywords.flag_without hdeprecated, Keywords.common_without,
        assemble_without hfirst hplain fuel _ flag]

/-- A combinator that does not count is dropped: the schema compiles as it would without it, in
the same way and with the same errors. -/
theorem value_without {entries : List (String × Json)} {path : Path} {messages : Messages}
    (h : Combinator.governing? ⟨entries, path, messages⟩ ≠ some combinator)
    (hplain : Entries.find? "discriminator" entries = none) (fuel : Nat) :
    value fuel (.obj (Entries.remove combinator.keyword entries)) path =
      value fuel (.obj entries) path := by
  funext referencing flag
  have hne : "$ref" ≠ combinator.keyword := by cases combinator <;> decide
  cases fuel with
  | zero => rfl
  | succ fuel =>
      unfold value
      dsimp only
      rw [Entries.find?_remove_of_ne hne]
      cases href : Entries.find? "$ref" entries with
      | some reference => rfl
      | none =>
          unfold schema
          dsimp only
          rw [node_without h hplain href]

end Compiling

end SchemaGraph

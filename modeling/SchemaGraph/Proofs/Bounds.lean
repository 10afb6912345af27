import SchemaGraph.Node.Bounds
import SchemaGraph.Proofs.Doubles

set_option autoImplicit false

/-! # Bounds that are integers

A bound is kept as the double next to it and compared with the double next to the payload.
`IntegerBounds.AdmitsNearest` says what integers pass that way; `IntegerBounds.Admits` says what
integers the bounds allow. Both are the same where no bound shares its double with another
integer (`IntegerBounds.TellsApart`), in particular if all bounds are below `2^53`.
-/

namespace SchemaGraph

open Double (nearest nearest_mono nearest_eq_self)

theorem FitsSigned.word {n : Int} (h : FitsSigned n) : FitsWord n :=
  ⟨h.1, Int.lt_trans h.2 (by decide)⟩

/-- One integer is not above the other; below it if the order is strict. -/
def InOrder (strict : Bool) (a b : Int) : Prop := if strict then a < b else a ≤ b

namespace InOrder

variable {strict : Bool} {a b : Int}

instance : Decidable (InOrder strict a b) := by
  unfold InOrder
  infer_instance

/-- Rounding keeps the order of integers that do not share a double. -/
theorem nearest_iff (h : nearest a = nearest b → a = b) :
    InOrder strict (nearest a) (nearest b) ↔ InOrder strict a b := by
  have hle : nearest a ≤ nearest b ↔ a ≤ b := by
    constructor
    · intro hrounded
      by_contra hgreater
      have hback := nearest_mono (Int.le_of_lt (Int.not_le.1 hgreater))
      exact hgreater (Int.le_of_eq (h (Int.le_antisymm hrounded hback)))
    · exact nearest_mono
  have hlt : nearest a < nearest b ↔ a < b := by
    constructor
    · intro hrounded
      by_contra hgreater
      exact Int.not_le.2 hrounded (nearest_mono (Int.not_lt.1 hgreater))
    · intro hless
      refine Int.lt_iff_le_and_ne.2 ⟨nearest_mono (Int.le_of_lt hless), fun hsame => ?_⟩
      exact Int.ne_of_lt hless (h hsame)
  cases strict with
  | true => exact hlt
  | false => exact hle

end InOrder

/-- Bounds of a schema that are integers. A flag that is not there does not count. -/
structure IntegerBounds where
  minimum : Option Int
  maximum : Option Int
  exclusiveMinimum : Option Bool
  exclusiveMaximum : Option Bool
  multipleOf : Option Int
  deriving DecidableEq, Repr

namespace IntegerBounds

variable {bounds : IntegerBounds} {n : Int}

/-- The minimum itself is not allowed. -/
def aboveMinimum (bounds : IntegerBounds) : Bool := bounds.exclusiveMinimum.getD false

/-- The maximum itself is not allowed. -/
def belowMaximum (bounds : IntegerBounds) : Bool := bounds.exclusiveMaximum.getD false

/-- All bounds are integers of a signed word, and the divisor is positive. -/
structure Fits (bounds : IntegerBounds) : Prop where
  minimum : ∀ least ∈ bounds.minimum, FitsSigned least
  maximum : ∀ most ∈ bounds.maximum, FitsSigned most
  multipleOf : ∀ divisor ∈ bounds.multipleOf, FitsSigned divisor ∧ 0 < divisor

/-- An integer is within the bounds and a multiple of the divisor. -/
structure Admits (bounds : IntegerBounds) (n : Int) : Prop where
  minimum : ∀ least ∈ bounds.minimum, InOrder bounds.aboveMinimum least n
  maximum : ∀ most ∈ bounds.maximum, InOrder bounds.belowMaximum n most
  multipleOf : ∀ divisor ∈ bounds.multipleOf, divisor ∣ n

/-- The double next to an integer is within the doubles next to the bounds, and the double next to
the divisor divides the integer, or its double if no signed word holds the divisor's. -/
structure AdmitsNearest (bounds : IntegerBounds) (n : Int) : Prop where
  minimum : ∀ least ∈ bounds.minimum, InOrder bounds.aboveMinimum (nearest least) (nearest n)
  maximum : ∀ most ∈ bounds.maximum, InOrder bounds.belowMaximum (nearest n) (nearest most)
  multipleOf : ∀ divisor ∈ bounds.multipleOf,
    nearest divisor ∣ if nearest divisor < 2 ^ 63 then n else nearest n

/-- No bound but the integer itself shares its double, and the divisor is a double. -/
structure TellsApart (bounds : IntegerBounds) (n : Int) : Prop where
  minimum : ∀ least ∈ bounds.minimum, nearest least = nearest n → least = n
  maximum : ∀ most ∈ bounds.maximum, nearest n = nearest most → n = most
  multipleOf : ∀ divisor ∈ bounds.multipleOf, nearest divisor = divisor

/-- The bounds are below `2^53`, and the divisor is not above it. -/
structure IsShort (bounds : IntegerBounds) : Prop where
  minimum : ∀ least ∈ bounds.minimum, least.natAbs < 2 ^ 53
  maximum : ∀ most ∈ bounds.maximum, most.natAbs < 2 ^ 53
  multipleOf : ∀ divisor ∈ bounds.multipleOf, divisor.natAbs ≤ 2 ^ 53

/-! ## When rounding does not matter -/

/-- Where bounds and integer are told apart, rounding does not change what is admitted. -/
theorem TellsApart.admits_iff (h : bounds.TellsApart n) (hfits : bounds.Fits) :
    bounds.AdmitsNearest n ↔ bounds.Admits n := by
  have hleast : ∀ least ∈ bounds.minimum, InOrder bounds.aboveMinimum (nearest least) (nearest n) ↔
      InOrder bounds.aboveMinimum least n :=
    fun least hmem => InOrder.nearest_iff (h.minimum least hmem)
  have hmost : ∀ most ∈ bounds.maximum, InOrder bounds.belowMaximum (nearest n) (nearest most) ↔
      InOrder bounds.belowMaximum n most :=
    fun most hmem => InOrder.nearest_iff (h.maximum most hmem)
  have hdivisor : ∀ divisor ∈ bounds.multipleOf,
      (nearest divisor ∣ if nearest divisor < 2 ^ 63 then n else nearest n) ↔ divisor ∣ n := by
    intro divisor hmem
    have hsmall : divisor < 2 ^ 63 := (hfits.multipleOf divisor hmem).1.2
    rw [h.multipleOf divisor hmem, if_pos hsmall]
  constructor
  · intro hadmits
    exact ⟨fun least hmem => (hleast least hmem).1 (hadmits.minimum least hmem),
      fun most hmem => (hmost most hmem).1 (hadmits.maximum most hmem),
      fun divisor hmem => (hdivisor divisor hmem).1 (hadmits.multipleOf divisor hmem)⟩
  · intro hadmits
    exact ⟨fun least hmem => (hleast least hmem).2 (hadmits.minimum least hmem),
      fun most hmem => (hmost most hmem).2 (hadmits.maximum most hmem),
      fun divisor hmem => (hdivisor divisor hmem).2 (hadmits.multipleOf divisor hmem)⟩

/-- Below `2^53` no two integers share a double. -/
theorem eq_of_nearest {a : Int} (ha : a.natAbs < 2 ^ 53) (h : nearest a = nearest n) : a = n := by
  rw [nearest_eq_self (Nat.le_of_lt ha)] at h
  by_cases hn : n.natAbs ≤ 2 ^ 53
  · rw [h, nearest_eq_self hn]
  · -- what is not below the power is not rounded to below it
    have hfar : 2 ^ 53 ≤ (nearest n).natAbs := by
      rw [Double.natAbs_nearest, ← Double.nearestNat_two_pow 53]
      exact Double.nearestNat_mono (Nat.le_of_not_le hn)
    omega

/-- Short bounds are told apart from every integer. -/
theorem IsShort.tellsApart (h : bounds.IsShort) (n : Int) : bounds.TellsApart n where
  minimum least hmem := eq_of_nearest (h.minimum least hmem)
  maximum most hmem := fun hsame => (eq_of_nearest (h.maximum most hmem) hsame.symm).symm
  multipleOf divisor hmem := nearest_eq_self (h.multipleOf divisor hmem)

/-! ## The bounds of a node -/

/-- The bounds as the node has them. -/
def doubles (bounds : IntegerBounds) : NumericBounds where
  minimum := bounds.minimum.map Double.ofInt
  maximum := bounds.maximum.map Double.ofInt
  exclusiveMinimum := bounds.aboveMinimum
  exclusiveMaximum := bounds.belowMaximum
  multipleOf := bounds.multipleOf.map Double.ofInt

theorem if_some_eq_none {α : Type} {test : Bool} {a : α} :
    (if test then some a else none) = none ↔ ¬test = true := by
  cases test <;> simp

theorem breachOfMinimum_eq_none (h : bounds.Fits) (hn : FitsSigned n) :
    bounds.doubles.breachOfMinimum? (Double.ofInt n) = none ↔
      ∀ least ∈ bounds.minimum, InOrder bounds.aboveMinimum (nearest least) (nearest n) := by
  unfold NumericBounds.breachOfMinimum? doubles
  dsimp only
  cases hminimum : bounds.minimum with
  | none => exact iff_of_true rfl fun _ hmem => nomatch hmem
  | some least =>
      have hleast : FitsWord least := (h.minimum least hminimum).word
      rw [Option.map_some]
      dsimp only
      simp only [Option.mem_some_iff, forall_eq']
      cases bounds.aboveMinimum with
      | true =>
          rw [if_pos rfl, if_some_eq_none, Double.atMost_ofInt hn.word hleast]
          exact Int.not_le
      | false =>
          rw [if_neg Bool.false_ne_true, if_some_eq_none, Double.below_ofInt hn.word hleast]
          exact Int.not_lt

theorem breachOfMaximum_eq_none (h : bounds.Fits) (hn : FitsSigned n) :
    bounds.doubles.breachOfMaximum? (Double.ofInt n) = none ↔
      ∀ most ∈ bounds.maximum, InOrder bounds.belowMaximum (nearest n) (nearest most) := by
  unfold NumericBounds.breachOfMaximum? doubles
  dsimp only
  cases hmaximum : bounds.maximum with
  | none => exact iff_of_true rfl fun _ hmem => nomatch hmem
  | some most =>
      have hmost : FitsWord most := (h.maximum most hmaximum).word
      rw [Option.map_some]
      dsimp only
      simp only [Option.mem_some_iff, forall_eq']
      cases bounds.belowMaximum with
      | true =>
          rw [if_pos rfl, if_some_eq_none, Double.atMost_ofInt hmost hn.word]
          exact Int.not_le
      | false =>
          rw [if_neg Bool.false_ne_true, if_some_eq_none, Double.below_ofInt hmost hn.word]
          exact Int.not_lt

/-- The divisor that a remainder is taken by is the double next to it, as long as a signed word
holds that. -/
theorem integerDivisor?_ofInt {divisor : Int} (h : FitsSigned divisor) (hpos : 0 < divisor) :
    NumericBounds.integerDivisor? (Double.ofInt divisor) =
      if nearest divisor < 2 ^ 63 then some (nearest divisor) else none := by
  have hfits : (Double.ofInt divisor).fitsWord = true ↔ nearest divisor < 2 ^ 63 := by
    rw [Double.fitsWord_ofInt h.word]
    have := Double.nearest_pos hpos
    omega
  unfold NumericBounds.integerDivisor?
  rw [Double.isWhole_ofInt h.word, Bool.true_and, Double.truncate?_ofInt h.word]
  simp only [hfits]

/-- So no remainder overflows: only that of the least word by `-1` would. -/
theorem signed_of_integerDivisor {divisor used : Int} (h : FitsSigned divisor) (hpos : 0 < divisor)
    (hused : NumericBounds.integerDivisor? (Double.ofInt divisor) = some used) :
    FitsSigned used ∧ 0 < used := by
  rw [integerDivisor?_ofInt h hpos] at hused
  split at hused
  · rename_i hsmall
    cases hused
    have := Double.nearest_pos hpos
    exact ⟨⟨by omega, hsmall⟩, this⟩
  · cases hused

theorem failsDivision_ofInt {divisor : Int} (hn : FitsSigned n) (h : FitsSigned divisor)
    (hpos : 0 < divisor) :
    ¬NumericBounds.failsDivision (.integer n hn) (Double.ofInt n) (Double.ofInt divisor) = true ↔
      nearest divisor ∣ if nearest divisor < 2 ^ 63 then n else nearest n := by
  unfold NumericBounds.failsDivision
  rw [Double.not_sameNumber_zero h.word hpos, if_neg Bool.false_ne_true,
    show (Value.integer n hn).asInteger? = some n from rfl, integerDivisor?_ofInt h hpos]
  by_cases hsmall : nearest divisor < 2 ^ 63
  · rw [if_pos hsmall, if_pos hsmall, Int.dvd_iff_emod_eq_zero]
    dsimp only
    rw [bne_iff_ne, ne_eq, not_not]
  · have htop : nearest divisor = 2 ^ 63 := by
      have := Double.natAbs_nearest_le h
      omega
    rw [if_neg hsmall, if_neg hsmall]
    dsimp only
    rw [Bool.not_eq_true', Bool.not_eq_false, htop]
    exact Double.isWhole_divide hn.word h.word htop

theorem breachOfDivision_eq_none (h : bounds.Fits) (hn : FitsSigned n) :
    bounds.doubles.breachOfDivision? (.integer n hn) (Double.ofInt n) = none ↔
      ∀ divisor ∈ bounds.multipleOf,
        nearest divisor ∣ if nearest divisor < 2 ^ 63 then n else nearest n := by
  unfold NumericBounds.breachOfDivision? doubles
  dsimp only
  cases hdivisor : bounds.multipleOf with
  | none => exact iff_of_true rfl fun _ hmem => nomatch hmem
  | some divisor =>
      obtain ⟨hfits, hpos⟩ := h.multipleOf divisor hdivisor
      rw [Option.map_some]
      dsimp only
      simp only [Option.mem_some_iff, forall_eq']
      rw [if_some_eq_none, failsDivision_ofInt hn hfits hpos]

/-- An integer breaks no bound exactly if it is admitted after rounding. -/
theorem violations_eq_nil (h : bounds.Fits) (hn : FitsSigned n) (messages : Messages) :
    bounds.doubles.violations messages (.integer n hn) = [] ↔ bounds.AdmitsNearest n := by
  have hnone : bounds.doubles.violations messages (.integer n hn) = [] ↔
      bounds.doubles.breachOfMinimum? (Double.ofInt n) = none ∧
      bounds.doubles.breachOfMaximum? (Double.ofInt n) = none ∧
      bounds.doubles.breachOfDivision? (.integer n hn) (Double.ofInt n) = none := by
    show List.map _ (List.filterMap id [_, _, _]) = [] ↔ _
    rw [List.map_eq_nil_iff, List.filterMap_eq_nil_iff]
    simp only [List.forall_mem_cons, id_eq, List.not_mem_nil, false_implies, implies_true,
      and_true]
  rw [hnone, breachOfMinimum_eq_none h hn, breachOfMaximum_eq_none h hn,
    breachOfDivision_eq_none h hn]
  exact ⟨fun ⟨hleast, hmost, hdivisor⟩ => ⟨hleast, hmost, hdivisor⟩,
    fun hadmits => ⟨hadmits.minimum, hadmits.maximum, hadmits.multipleOf⟩⟩

end IntegerBounds

end SchemaGraph

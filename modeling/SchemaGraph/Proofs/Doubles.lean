import Mathlib.Tactic.Ring
import SchemaGraph.Double.Rounding
import SchemaGraph.Text.Numeral

set_option autoImplicit false

/-! # The double next to an integer

A double has room for 53 binary digits, so the double next to an integer is the integer itself
only if its digits from the 54th on are zeros. `Double.nearest` is the whole number that
`Double.ofInt` comes to (`units_ofInt`): rounding keeps the order of integers (`nearest_mono`) but
not their difference, and it is exact up to `2^53` (`nearest_eq_self`).
-/

namespace SchemaGraph

/-! ## Rounding to a multiple -/

theorem roundHalfEven_cases (num den : Nat) :
    roundHalfEven num den = num / den ∨ roundHalfEven num den = num / den + 1 := by
  unfold roundHalfEven
  dsimp only
  split_ifs <;> simp

theorem le_roundHalfEven (num den : Nat) : num / den ≤ roundHalfEven num den := by
  rcases roundHalfEven_cases num den with h | h <;> omega

theorem roundHalfEven_le (num den : Nat) : roundHalfEven num den ≤ num / den + 1 := by
  rcases roundHalfEven_cases num den with h | h <;> omega

/-- A multiple is rounded to itself. -/
theorem roundHalfEven_mul (num : Nat) {den : Nat} (h : 0 < den) :
    roundHalfEven (num * den) den = num := by
  unfold roundHalfEven
  dsimp only
  rw [Nat.mul_mod_left, Nat.mul_div_cancel num h, if_pos (by omega)]

/-- Only the quotient counts. -/
theorem roundHalfEven_scale (num den : Nat) {factor : Nat} (h : 0 < factor) :
    roundHalfEven (num * factor) (den * factor) = roundHalfEven num den := by
  have hdouble : 2 * (num % den * factor) = 2 * (num % den) * factor := (Nat.mul_assoc ..).symm
  unfold roundHalfEven
  dsimp only
  rw [Nat.mul_div_mul_right _ _ h, Nat.mul_mod_mul_right, hdouble]
  simp only [Nat.mul_lt_mul_right h]

theorem roundHalfEven_mono {num num' : Nat} (h : num ≤ num') (den : Nat) :
    roundHalfEven num den ≤ roundHalfEven num' den := by
  rcases Nat.lt_or_eq_of_le (Nat.div_le_div_right (c := den) h) with hlt | heq
  · -- the whole parts differ, and rounding up does not reach beyond the next one
    exact Nat.le_trans (roundHalfEven_le num den)
      (Nat.le_trans hlt (le_roundHalfEven num' den))
  · have hrest : num % den ≤ num' % den := by
      have hnum := Nat.div_add_mod num den
      have hnum' := Nat.div_add_mod num' den
      rw [heq] at hnum
      omega
    unfold roundHalfEven
    dsimp only
    rw [heq]
    split_ifs <;> omega

theorem log2_mul_two_pow {n : Nat} (h : n ≠ 0) (k : Nat) : (n * 2 ^ k).log2 = n.log2 + k := by
  induction k with
  | zero => rw [Nat.pow_zero, Nat.mul_one, Nat.add_zero]
  | succ k ih =>
      have hk : n * 2 ^ k ≠ 0 := Nat.mul_ne_zero h (Nat.two_pow_pos k).ne'
      rw [Nat.pow_succ', Nat.mul_left_comm, Nat.log2_two_mul hk, ih, Nat.add_assoc]

namespace Double

/-! ## The nearest whole number of 53 digits -/

/-- The distance of neighbouring doubles from a natural number on, if it is at least one. -/
def gap (n : Nat) : Nat := 2 ^ (n.log2 - 52)

/-- The whole double nearest to a natural number, a half going to the even one. -/
def nearestNat (n : Nat) : Nat := roundHalfEven n (gap n) * gap n

/-- The whole double nearest to an integer. -/
def nearest (n : Int) : Int := if n < 0 then -nearestNat n.natAbs else nearestNat n.natAbs

theorem gap_pos (n : Nat) : 0 < gap n := Nat.two_pow_pos _

/-- A number that ends in zeros is a double. -/
theorem nearestNat_of_dvd {n : Nat} (h : gap n ∣ n) : nearestNat n = n := by
  obtain ⟨m, hm⟩ := h
  unfold nearestNat
  generalize gap n = step at hm ⊢
  subst hm
  rcases Nat.eq_zero_or_pos step with rfl | hstep
  · rw [Nat.zero_mul, Nat.mul_zero]
  · rw [Nat.mul_comm step m, roundHalfEven_mul m hstep]

theorem nearestNat_two_pow (k : Nat) : nearestNat (2 ^ k) = 2 ^ k := by
  refine nearestNat_of_dvd ?_
  unfold gap
  rw [Nat.log2_two_pow]
  exact Nat.pow_dvd_pow 2 (Nat.sub_le k 52)

theorem nearestNat_eq_self {n : Nat} (h : n ≤ 2 ^ 53) : nearestNat n = n := by
  rcases Nat.lt_or_eq_of_le h with hlt | rfl
  · refine nearestNat_of_dvd ?_
    have hlog : n.log2 ≤ 52 := by
      rcases Nat.eq_zero_or_pos n with rfl | hpos
      · exact Nat.zero_le 52
      · exact Nat.le_of_lt_succ ((Nat.log2_lt hpos.ne').2 hlt)
    unfold gap
    rw [Nat.sub_eq_zero_of_le hlog]
    exact Nat.one_dvd n
  · exact nearestNat_two_pow 53

/-- Between two powers of two, the gap divides both. -/
theorem gap_dvd_two_pow {n k : Nat} (h : n.log2 ≤ k) : gap n ∣ 2 ^ k :=
  Nat.pow_dvd_pow 2 (Nat.le_trans (Nat.sub_le _ 52) h)

theorem roundHalfEven_gap_mul {n m : Nat} (h : gap n ∣ m) :
    roundHalfEven m (gap n) * gap n = m := by
  obtain ⟨k, rfl⟩ := h
  rw [Nat.mul_comm (gap n) k, roundHalfEven_mul k (gap_pos n)]

/-- Rounding does not leave the powers of two around a number. -/
theorem le_nearestNat {n : Nat} (h : n ≠ 0) : 2 ^ n.log2 ≤ nearestNat n := by
  have hround := roundHalfEven_mono (Nat.log2_self_le h) (gap n)
  have hpow := roundHalfEven_gap_mul (gap_dvd_two_pow (Nat.le_refl n.log2))
  exact hpow ▸ Nat.mul_le_mul_right (gap n) hround

theorem nearestNat_le (n : Nat) : nearestNat n ≤ 2 ^ (n.log2 + 1) := by
  have hround := roundHalfEven_mono (Nat.le_of_lt (Nat.lt_log2_self (n := n))) (gap n)
  have hpow := roundHalfEven_gap_mul (gap_dvd_two_pow (Nat.le_succ n.log2))
  exact hpow ▸ Nat.mul_le_mul_right (gap n) hround

theorem nearestNat_mono {a b : Nat} (h : a ≤ b) : nearestNat a ≤ nearestNat b := by
  rcases Nat.eq_zero_or_pos a with rfl | hpos
  · exact Nat.zero_le _
  have ha : a ≠ 0 := hpos.ne'
  have hb : b ≠ 0 := (Nat.lt_of_lt_of_le hpos h).ne'
  have hlog : a.log2 ≤ b.log2 := (Nat.le_log2 hb).2 (Nat.le_trans (Nat.log2_self_le ha) h)
  rcases Nat.lt_or_eq_of_le hlog with hlt | heq
  · calc nearestNat a ≤ 2 ^ (a.log2 + 1) := nearestNat_le a
      _ ≤ 2 ^ b.log2 := Nat.pow_le_pow_right (by decide) hlt
      _ ≤ nearestNat b := le_nearestNat hb
  · have hgap : gap a = gap b := by
      unfold gap
      rw [heq]
    unfold nearestNat
    rw [hgap]
    exact Nat.mul_le_mul_right (gap b) (roundHalfEven_mono h (gap b))

theorem nearestNat_nearestNat (n : Nat) : nearestNat (nearestNat n) = nearestNat n := by
  rcases Nat.eq_zero_or_pos n with rfl | hpos
  · rfl
  rcases Nat.lt_or_eq_of_le (nearestNat_le n) with hlt | heq
  · have hlow := le_nearestNat hpos.ne'
    have hne : nearestNat n ≠ 0 := (Nat.lt_of_lt_of_le (Nat.two_pow_pos _) hlow).ne'
    have hgap : gap (nearestNat n) = gap n := by
      unfold gap
      rw [(Nat.log2_eq_iff hne).2 ⟨hlow, hlt⟩]
    exact nearestNat_of_dvd (hgap ▸ Nat.dvd_mul_left (gap n) _)
  · rw [heq, nearestNat_two_pow]

theorem natAbs_nearest (n : Int) : (nearest n).natAbs = nearestNat n.natAbs := by
  unfold nearest
  split <;> omega

theorem nearest_eq_self {n : Int} (h : n.natAbs ≤ 2 ^ 53) : nearest n = n := by
  unfold nearest
  rw [nearestNat_eq_self h]
  split <;> omega

/-- Rounding keeps the order: what is not above another number is not above it afterwards. -/
theorem nearest_mono {a b : Int} (h : a ≤ b) : nearest a ≤ nearest b := by
  unfold nearest
  split_ifs with ha hb hb
  · have := nearestNat_mono (show b.natAbs ≤ a.natAbs by omega)
    omega
  · omega
  · omega
  · have := nearestNat_mono (show a.natAbs ≤ b.natAbs by omega)
    omega

theorem nearest_pos {n : Int} (h : 0 < n) : 0 < nearest n := by
  have hone : nearest 1 = 1 := nearest_eq_self (by decide)
  have := nearest_mono (show 1 ≤ n from h)
  omega

/-- A signed word is rounded to the ends of the signed words at most. -/
theorem natAbs_nearest_le {n : Int} (h : FitsSigned n) : (nearest n).natAbs ≤ 2 ^ 63 := by
  have hle : n.natAbs ≤ 2 ^ 63 := by
    have := h.1
    have := h.2
    omega
  rw [natAbs_nearest, ← nearestNat_two_pow 63]
  exact nearestNat_mono hle

/-! ## The double of an integer -/

theorem natPow_eq (base exponent : Nat) : Nat.pow base exponent = base ^ exponent := rfl

/-- Rounding with the digits moved up by `k` places, so far that none is below the unit. -/
theorem roundHalfEven_two_pow (n : Nat) {k : Nat} (h : 52 ≤ k) :
    roundHalfEven (n * 2 ^ k) (2 ^ (n.log2 + k - 52)) * 2 ^ (n.log2 + k - 52) =
      nearestNat n * 2 ^ k := by
  rcases Nat.le_total 52 n.log2 with hlong | hshort
  · have hexponent : 2 ^ (n.log2 + k - 52) = gap n * 2 ^ k := by
      unfold gap
      rw [← Nat.pow_add]
      congr 1
      omega
    rw [hexponent, roundHalfEven_scale n (gap n) (Nat.two_pow_pos k), ← Nat.mul_assoc]
    rfl
  · have hexponent : n * 2 ^ k = n * 2 ^ (52 - n.log2) * 2 ^ (n.log2 + k - 52) := by
      rw [Nat.mul_assoc, ← Nat.pow_add]
      congr 2
      omega
    have hgap : gap n = 1 := by
      unfold gap
      rw [Nat.sub_eq_zero_of_le hshort, Nat.pow_zero]
    rw [nearestNat_of_dvd (hgap ▸ Nat.one_dvd n), hexponent,
      roundHalfEven_mul _ (Nat.two_pow_pos _)]

/-- Rounding with any number of units to one. -/
def ofRatioIn (units : Nat) (negative : Bool) (num den : Nat) : Double :=
  let scaled := num * units
  let shift := Nat.log2 (scaled / den) - 52
  let m := roundHalfEven scaled (den * Nat.pow 2 shift)
  let (m, shift) := if m == Nat.pow 2 53 then (Nat.pow 2 52, shift + 1) else (m, shift)
  if 2045 < shift then infinity negative else finite negative m shift

theorem ofRatio_eq : ofRatio = ofRatioIn unitsPerOne := rfl

/-- A quotient by a power of two rounds as its numerator does, as long as it is so large that
neighbouring doubles are more than a unit apart. -/
theorem ofRatioIn_two_pow (negative : Bool) {n k e : Nat} (hn : n.log2 ≤ 1000) (hk : k + 52 ≤ e)
    (he : e ≤ 1074) :
    ∃ m q, ofRatioIn (Nat.pow 2 e) negative n (2 ^ k) = finite negative m q ∧
      m * 2 ^ q * 2 ^ k = nearestNat n * Nat.pow 2 e := by
  unfold ofRatioIn
  simp only [natPow_eq]
  rcases Nat.eq_zero_or_pos n with rfl | hpos
  · rw [Nat.zero_mul, Nat.zero_div, Nat.log2_zero]
    have hzero : roundHalfEven 0 (2 ^ k * 2 ^ (0 - 52)) = 0 := by
      have hmul := roundHalfEven_mul 0 (Nat.mul_pos (Nat.two_pow_pos k) (Nat.two_pow_pos (0 - 52)))
      rwa [Nat.zero_mul] at hmul
    rw [hzero]
    refine ⟨0, 0, rfl, ?_⟩
    rw [nearestNat_eq_self (Nat.zero_le _), Nat.zero_mul, Nat.zero_mul, Nat.zero_mul]
  · have hquotient : n * 2 ^ e / 2 ^ k = n * 2 ^ (e - k) := by
      have hsplit : n * 2 ^ e = n * 2 ^ (e - k) * 2 ^ k := by
        rw [Nat.mul_assoc, ← Nat.pow_add, Nat.sub_add_cancel (by omega)]
      rw [hsplit, Nat.mul_div_cancel _ (Nat.two_pow_pos k)]
    rw [hquotient, log2_mul_two_pow hpos.ne', ← Nat.pow_add]
    obtain ⟨shift, hshift⟩ : ∃ shift, shift = n.log2 + (e - k) - 52 := ⟨_, rfl⟩
    have hplace : k + shift = n.log2 + e - 52 := by omega
    have hvalue := roundHalfEven_two_pow n (show 52 ≤ e by omega)
    rw [← hshift]
    rw [← hplace] at hvalue
    generalize roundHalfEven (n * 2 ^ e) (2 ^ (k + shift)) = m at hvalue ⊢
    rw [Nat.add_comm k, Nat.pow_add, ← Nat.mul_assoc] at hvalue
    by_cases hcarry : (m == 2 ^ 53) = true
    · -- a significand that is rounded up to 54 digits moves one place
      have hsame : 2 ^ 52 * 2 ^ (shift + 1) = m * 2 ^ shift := by
        rw [eq_of_beq hcarry]
        ring
      rw [if_pos hcarry]
      dsimp only
      rw [if_neg (by omega)]
      exact ⟨2 ^ 52, shift + 1, rfl, by rw [hsame, hvalue]⟩
    · rw [if_neg hcarry]
      dsimp only
      rw [if_neg (by omega)]
      exact ⟨m, shift, rfl, hvalue⟩

theorem ofRatio_two_pow (negative : Bool) {n k : Nat} (hn : n.log2 ≤ 1000) (hk : k ≤ 1022) :
    ∃ m q, ofRatio negative n (2 ^ k) = finite negative m q ∧
      m * 2 ^ q * 2 ^ k = nearestNat n * unitsPerOne := by
  rw [ofRatio_eq]
  unfold unitsPerOne
  generalize he : 1074 = e
  exact ofRatioIn_two_pow negative hn (by omega) (Nat.le_of_eq he.symm)

theorem log2_le_of_fitsWord {n : Int} (h : FitsWord n) : n.natAbs.log2 ≤ 1000 := by
  rcases Nat.eq_zero_or_pos n.natAbs with hzero | hpos
  · rw [hzero]
    decide
  · have hlt : n.natAbs < 2 ^ 64 := by
      have := h.1
      have := h.2
      omega
    have := (Nat.log2_lt hpos.ne').2 hlt
    omega

/-- The double of an integer has the sign of the integer, and its size is the rounded one. -/
theorem ofInt_eq {n : Int} (h : FitsWord n) : ∃ m q, ofInt n = finite (n < 0) m q ∧
    m * 2 ^ q = nearestNat n.natAbs * unitsPerOne := by
  obtain ⟨m, q, heq, hvalue⟩ := ofRatio_two_pow (n < 0) (log2_le_of_fitsWord h) (Nat.zero_le 1022)
  exact ⟨m, q, heq, by rwa [Nat.pow_zero, Nat.mul_one] at hvalue⟩

theorem isFinite_ofInt {n : Int} (h : FitsWord n) : (ofInt n).isFinite = true := by
  obtain ⟨m, q, heq, -⟩ := ofInt_eq h
  rw [heq]
  rfl

/-- The double of an integer is the whole number next to it. -/
theorem units_ofInt {n : Int} (h : FitsWord n) :
    (ofInt n).units? = some (nearest n * unitsPerOne) := by
  obtain ⟨m, q, heq, hvalue⟩ := ofInt_eq h
  rw [heq]
  unfold nearest
  by_cases hneg : n < 0
  · rw [decide_eq_true hneg, if_pos hneg]
    show some (-((m * 2 ^ q : Nat) : Int)) = _
    rw [hvalue]
    push_cast
    rw [Int.neg_mul]
  · rw [decide_eq_false hneg, if_neg hneg]
    show some ((m * 2 ^ q : Nat) : Int) = _
    rw [hvalue]
    push_cast
    rfl

/-! ## Comparison -/

section Comparison

variable {a b : Double} {u v : Int}

/-- Finite doubles compare as the numbers of their units. -/
theorem compare?_of_units (ha : a.units? = some u) (hb : b.units? = some v) :
    compare? a b = some (compare u v) := by
  cases a with
  | finite s m q =>
      cases b with
      | finite s' m' q' =>
          show some (compare ((finite s m q).units?.getD 0) ((finite s' m' q').units?.getD 0)) = _
          rw [ha, hb]
          rfl
      | _ => cases hb
  | _ => cases ha

theorem below_of_units (ha : a.units? = some u) (hb : b.units? = some v) :
    a.below b = true ↔ u < v := by
  unfold below
  rw [compare?_of_units ha hb, beq_iff_eq, Option.some.injEq, compare_lt_iff_lt]

theorem sameNumber_of_units (ha : a.units? = some u) (hb : b.units? = some v) :
    a.sameNumber b = true ↔ u = v := by
  unfold sameNumber
  rw [compare?_of_units ha hb, beq_iff_eq, Option.some.injEq, compare_eq_iff_eq]

theorem atMost_of_units (ha : a.units? = some u) (hb : b.units? = some v) :
    a.atMost b = true ↔ u ≤ v := by
  unfold atMost
  rw [Bool.or_eq_true_iff, below_of_units ha hb, sameNumber_of_units ha hb]
  exact Int.le_iff_lt_or_eq.symm

end Comparison

section Integers

variable {a b n : Int}

theorem unitsPerOne_pos : (0 : Int) < unitsPerOne := by
  unfold unitsPerOne
  generalize 1074 = e
  rw [natPow_eq]
  exact Int.natCast_pos.2 (Nat.two_pow_pos e)

theorem below_ofInt (ha : FitsWord a) (hb : FitsWord b) :
    (ofInt a).below (ofInt b) = true ↔ nearest a < nearest b := by
  rw [below_of_units (units_ofInt ha) (units_ofInt hb), Int.mul_lt_mul_right unitsPerOne_pos]

theorem atMost_ofInt (ha : FitsWord a) (hb : FitsWord b) :
    (ofInt a).atMost (ofInt b) = true ↔ nearest a ≤ nearest b := by
  rw [atMost_of_units (units_ofInt ha) (units_ofInt hb), Int.mul_le_mul_right unitsPerOne_pos]

/-- The double of a positive integer is above zero. -/
theorem not_atMost_zero (hn : FitsWord n) (h : 0 < n) : (ofInt n).atMost .zero = false := by
  have hpos := Int.mul_pos (nearest_pos h) unitsPerOne_pos
  have hzero : zero.units? = some 0 := rfl
  rw [Bool.eq_false_iff, ne_eq, atMost_of_units (units_ofInt hn) hzero]
  omega

theorem not_sameNumber_zero (hn : FitsWord n) (h : 0 < n) :
    (ofInt n).sameNumber .zero = false := by
  have hmost := not_atMost_zero hn h
  exact (Bool.or_eq_false_iff.1 hmost).2

/-! ## Whole doubles -/

theorem isWhole_of_units {d : Double} {u : Int} (h : d.units? = some u) :
    d.isWhole = true ↔ (unitsPerOne : Int) ∣ u := by
  unfold isWhole
  rw [h]
  dsimp only
  rw [beq_iff_eq, Int.dvd_iff_emod_eq_zero]

theorem isWhole_ofInt (hn : FitsWord n) : (ofInt n).isWhole = true :=
  (isWhole_of_units (units_ofInt hn)).2 (Int.dvd_mul_left _ _)

theorem truncate?_ofInt (hn : FitsWord n) : (ofInt n).truncate? = some (nearest n) := by
  unfold truncate?
  rw [units_ofInt hn, Option.map_some, Int.mul_tdiv_cancel _ unitsPerOne_pos.ne']

theorem fitsWord_of_units {d : Double} {u : Int} (h : d.units? = some u) :
    d.fitsWord = true ↔ u.natAbs < 2 ^ 63 * unitsPerOne := by
  unfold fitsWord
  rw [h]
  dsimp only
  rw [decide_eq_true_iff, natPow_eq]

theorem fitsWord_ofInt (hn : FitsWord n) :
    (ofInt n).fitsWord = true ↔ (nearest n).natAbs < 2 ^ 63 := by
  rw [fitsWord_of_units (units_ofInt hn), Int.natAbs_mul, Int.natAbs_natCast]
  exact Nat.mul_lt_mul_right (Int.natCast_pos.1 unitsPerOne_pos)

/-! ## Quotients -/

/-- Only the quotient counts. -/
theorem ofRatioIn_scale (units : Nat) (negative : Bool) (num den : Nat) {factor : Nat}
    (h : 0 < factor) :
    ofRatioIn units negative (num * factor) (den * factor) = ofRatioIn units negative num den := by
  unfold ofRatioIn
  dsimp only
  rw [Nat.mul_right_comm num factor units, Nat.mul_div_mul_right _ _ h]
  generalize Nat.log2 (num * units / den) - 52 = shift
  rw [Nat.mul_right_comm den factor, roundHalfEven_scale _ _ h]

theorem ofRatio_scale (negative : Bool) (num den : Nat) {factor : Nat} (h : 0 < factor) :
    ofRatio negative (num * factor) (den * factor) = ofRatio negative num den := by
  rw [ofRatio_eq]
  exact ofRatioIn_scale unitsPerOne negative num den h

theorem divide_finite {s s' : Bool} {m q m' q' : Nat} (h : m' ≠ 0) :
    (finite s m q).divide (finite s' m' q') = ofRatio (s != s') (m * 2 ^ q) (m' * 2 ^ q') := by
  unfold divide
  exact if_neg (by simpa using h)

theorem units_finite (s : Bool) (m q : Nat) : (finite s m q).units? =
    some (if s then -((m * 2 ^ q : Nat) : Int) else ((m * 2 ^ q : Nat) : Int)) := by
  cases s <;> rfl

theorem isWhole_finite (s : Bool) (m q : Nat) :
    (finite s m q).isWhole = true ↔ unitsPerOne ∣ m * 2 ^ q := by
  rw [isWhole_of_units (units_finite s m q)]
  split
  · rw [Int.dvd_neg, Int.natCast_dvd_natCast]
  · rw [Int.natCast_dvd_natCast]

theorem dvd_iff_of_mul_eq {x k y units : Nat} (hk : 0 < k) (hunits : 0 < units)
    (h : x * k = y * units) : units ∣ x ↔ k ∣ y := by
  constructor
  · rintro ⟨z, rfl⟩
    refine ⟨z, Nat.eq_of_mul_eq_mul_right hunits ?_⟩
    rw [← h]
    ring
  · rintro ⟨z, rfl⟩
    refine ⟨z, Nat.eq_of_mul_eq_mul_right hk ?_⟩
    rw [h]
    ring

theorem left_ne_zero_of_mul_eq {x p y units : Nat} (hy : 0 < y) (hunits : 0 < units)
    (h : x * p = y * units) : x ≠ 0 := by
  rintro rfl
  rw [Nat.zero_mul] at h
  exact (Nat.mul_pos hy hunits).ne h

/-- The quotient by the double `2^63` is whole exactly if that divides the rounded number. -/
theorem isWhole_divide (ha : FitsWord a) (hb : FitsWord b) (h : nearest b = 2 ^ 63) :
    ((ofInt a).divide (ofInt b)).isWhole = true ↔ 2 ^ 63 ∣ nearest a := by
  have hunits : 0 < unitsPerOne := Int.natCast_pos.1 unitsPerOne_pos
  obtain ⟨m, q, hm, hvalue⟩ := ofInt_eq ha
  obtain ⟨m', q', hm', hvalue'⟩ := ofInt_eq hb
  have hpower : nearestNat b.natAbs = 2 ^ 63 := by
    rw [← natAbs_nearest, h]
    rfl
  rw [hpower] at hvalue'
  have hpositive : 0 < 2 ^ 63 := by decide
  have hne : m' ≠ 0 := left_ne_zero_of_mul_eq hpositive hunits hvalue'
  have hlog : (nearestNat a.natAbs).log2 ≤ 1000 := by
    rcases Nat.eq_zero_or_pos (nearestNat a.natAbs) with hzero | hpos
    · rw [hzero]
      decide
    · have hle : nearestNat a.natAbs ≤ 2 ^ 64 := by
        rw [← nearestNat_two_pow 64]
        refine nearestNat_mono ?_
        have := ha.1
        have := ha.2
        omega
      have := (Nat.log2_lt (k := 65) hpos.ne').2 (by omega)
      omega
  have hscale := ofRatio_scale (decide (a < 0) != decide (b < 0)) (nearestNat a.natAbs) (2 ^ 63)
    hunits
  rw [hm, hm', divide_finite hne, hvalue, hvalue', hscale]
  obtain ⟨m'', q'', hquotient, hrounded⟩ :=
    ofRatio_two_pow (decide (a < 0) != decide (b < 0)) hlog (show 63 ≤ 1022 by decide)
  rw [nearestNat_nearestNat] at hrounded
  rw [hquotient, isWhole_finite, dvd_iff_of_mul_eq (Nat.two_pow_pos 63) hunits hrounded,
    ← natAbs_nearest]
  exact (Int.natCast_dvd (m := 2 ^ 63)).symm

end Integers

end Double

end SchemaGraph

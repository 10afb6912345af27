import SchemaGraph.Proofs.Bounds
import SchemaGraph.Value.Equality

set_option autoImplicit false

/-! # What numbers amount to

A number is an integer of 64 bits or a double, and the exact amount of either is a whole number of
units. Two integers of signed words are compared exactly, and all other numbers by the doubles next
to them (`Number.same_iff`). So numbers of one amount are always found to be the same
(`Number.Equal.same`), and numbers that are found to be the same have one amount unless they share
a double that is not the amount of both (`Number.TellsApart`).
-/

namespace SchemaGraph

/-- How much a number is: so many units, or more than any number of them. -/
inductive Amount where
  | units (count : Int)
  | infinite (negative : Bool)
  deriving DecidableEq, Repr

namespace Double

variable {a b d : Double}

/-- The amount of a double. NaN is no amount. -/
def amount? : Double → Option Amount
  | nan => none
  | infinity negative => some (.infinite negative)
  | d => d.units?.map .units

/-- The significand has no more than 53 binary digits, as that of every double of 64 bits. -/
def isBinary64 : Double → Bool
  | finite _ m _ => decide (m < 2 ^ 53)
  | _ => true

theorem amount?_of_units {u : Int} (h : d.units? = some u) : d.amount? = some (.units u) := by
  cases d with
  | finite s m q =>
      show (finite s m q).units?.map _ = _
      rw [h]
      rfl
  | _ => cases h

theorem units_of_amount {u : Int} (h : d.amount? = some (.units u)) : d.units? = some u := by
  cases d with
  | finite s m q =>
      obtain ⟨v, hv, hsame⟩ := Option.map_eq_some_iff.1
        (show (finite s m q).units?.map Amount.units = _ from h)
      cases hsame
      exact hv
  | _ => cases h

theorem natAbs_of_units {s : Bool} {m q : Nat} {u : Int} (h : (finite s m q).units? = some u) :
    u.natAbs = m * 2 ^ q := by
  rw [units_finite] at h
  rw [← Option.some.inj h]
  split
  · rw [Int.natAbs_neg, Int.natAbs_natCast]
  · rw [Int.natAbs_natCast]

/-- Doubles compare as their amounts do. -/
theorem sameNumber_iff :
    a.sameNumber b = true ↔ ∃ amount, a.amount? = some amount ∧ b.amount? = some amount := by
  have hunits : ∀ s m q, ∃ u, (finite s m q).units? = some u :=
    fun s m q => ⟨_, units_finite s m q⟩
  cases a with
  | nan => simp [sameNumber, compare?, amount?]
  | infinity s =>
      cases b with
      | nan => simp [sameNumber, compare?, amount?]
      | infinity t => cases s <;> cases t <;> simp [sameNumber, compare?, amount?]
      | finite t n r =>
          obtain ⟨v, hv⟩ := hunits t n r
          rw [amount?_of_units hv]
          cases s <;> simp [sameNumber, compare?, amount?]
  | finite s m q =>
      obtain ⟨u, hu⟩ := hunits s m q
      rw [amount?_of_units hu]
      cases b with
      | nan => simp [sameNumber, compare?, amount?]
      | infinity t => cases t <;> simp [sameNumber, compare?, amount?]
      | finite t n r =>
          obtain ⟨v, hv⟩ := hunits t n r
          rw [sameNumber_of_units hu hv, amount?_of_units hv]
          simp [eq_comm]

/-- An integer that is the amount of a double is the double next to itself. -/
theorem nearestNat_of_units {n m q : Nat} (hm : m < 2 ^ 53) {e : Nat}
    (h : m * 2 ^ q = n * 2 ^ e) : nearestNat n = n := by
  rcases Nat.le_total q e with hle | hle
  · -- the integer is not longer than the significand
    have hshort : m = n * 2 ^ (e - q) := by
      refine Nat.eq_of_mul_eq_mul_right (Nat.two_pow_pos q) ?_
      rw [h, Nat.mul_assoc, ← Nat.pow_add, Nat.sub_add_cancel hle]
    refine nearestNat_eq_self (Nat.le_of_lt (Nat.lt_of_le_of_lt ?_ hm))
    rw [hshort]
    exact Nat.le_mul_of_pos_right n (Nat.two_pow_pos _)
  · -- the integer is the significand with zeros behind it
    have hzeros : n = m * 2 ^ (q - e) := by
      refine Nat.eq_of_mul_eq_mul_right (Nat.two_pow_pos e) ?_
      rw [← h, Nat.mul_assoc, ← Nat.pow_add, Nat.sub_add_cancel hle]
    refine nearestNat_of_dvd ?_
    rcases Nat.eq_zero_or_pos m with rfl | hpos
    · rw [hzeros, Nat.zero_mul]
      exact Nat.dvd_zero _
    · have hlog : m.log2 < 53 := (Nat.log2_lt hpos.ne').2 hm
      have hgap : gap n ∣ 2 ^ (q - e) := by
        unfold gap
        rw [hzeros, log2_mul_two_pow hpos.ne']
        exact Nat.pow_dvd_pow 2 (by omega)
      refine Nat.dvd_trans hgap ?_
      rw [hzeros]
      exact Nat.dvd_mul_left _ m

theorem nearest_of_units {n : Int} (hd : d.isBinary64 = true)
    (h : d.units? = some (n * unitsPerOne)) : nearest n = n := by
  cases d with
  | finite s m q =>
      have hm : m < 2 ^ 53 := of_decide_eq_true hd
      have hsize : m * 2 ^ q = n.natAbs * unitsPerOne := by
        rw [← natAbs_of_units h, Int.natAbs_mul, Int.natAbs_natCast]
      unfold unitsPerOne at hsize
      generalize 1074 = e at hsize
      have habs := nearestNat_of_units hm hsize
      unfold nearest
      rw [habs]
      split <;> omega
  | _ => cases h

end Double

namespace Number

open Double (nearest unitsPerOne)

variable {x y z : Number}

/-- The exact amount of a number. -/
def amount? : Number → Option Amount
  | integer n _ => some (.units (n * unitsPerOne))
  | double d => d.amount?

/-- The amount of the double next to a number. -/
def rounded? (x : Number) : Option Amount := x.toDouble.amount?

/-- Two numbers are the same amount. -/
def Equal (x y : Number) : Prop := ∃ amount, x.amount? = some amount ∧ y.amount? = some amount

/-- The doubles next to two numbers are the same amount. -/
def EqualRounded (x y : Number) : Prop :=
  ∃ amount, x.rounded? = some amount ∧ y.rounded? = some amount

/-- Two numbers are the same amount if they share the double next to them. -/
def TellsApart (x y : Number) : Prop := x.EqualRounded y → x.Equal y

/-- The number is an integer of a signed word. -/
def isSigned (x : Number) : Bool := x.signed?.isSome

/-- The number is no NaN, and its significand, if it is a double, has 53 binary digits at most. -/
def isProper : Number → Bool
  | integer .. => true
  | double d => d != .nan && d.isBinary64

/-- Two integers of signed words are the same amount, or the doubles next to two other numbers
are. -/
def SameNearest (x y : Number) : Prop :=
  if x.isSigned && y.isSigned then x.Equal y else x.EqualRounded y

theorem rounded?_integer {n : Int} (h : FitsWord n) :
    (integer n h).rounded? = some (.units (nearest n * unitsPerOne)) :=
  Double.amount?_of_units (Double.units_ofInt h)

theorem equal_integers {m n : Int} (hm : FitsWord m) (hn : FitsWord n) :
    (integer m hm).Equal (integer n hn) ↔ m = n := by
  constructor
  · rintro ⟨amount, hx, hy⟩
    have hsame := hx.trans hy.symm
    simp only [amount?, Option.some.injEq, Amount.units.injEq] at hsame
    exact Int.eq_of_mul_eq_mul_right Double.unitsPerOne_pos.ne' hsame
  · rintro rfl
    exact ⟨_, rfl, rfl⟩

theorem equal_ofInt {m n : Int} (hm : FitsWord m) (hn : FitsWord n) :
    (integer m hm).Equal (double (Double.ofInt n)) ↔ m = nearest n := by
  have hamount : (double (Double.ofInt n)).amount? = some (.units (nearest n * unitsPerOne)) :=
    Double.amount?_of_units (Double.units_ofInt hn)
  constructor
  · rintro ⟨amount, hx, hy⟩
    have hsame := hx.trans (hy.symm.trans hamount)
    simp only [amount?, Option.some.injEq, Amount.units.injEq] at hsame
    exact Int.eq_of_mul_eq_mul_right Double.unitsPerOne_pos.ne' hsame
  · rintro rfl
    exact ⟨_, rfl, hamount⟩

theorem same_integers {m n : Int} (hm : FitsSigned m) (hn : FitsSigned n) :
    (integer m hm.word).same (integer n hn.word) = (m == n) := by
  have hsigned {k : Int} (hk : FitsSigned k) : (integer k hk.word).signed? = some k := if_pos hk
  unfold Number.same
  rw [hsigned hm, hsigned hn]

theorem same_double (x : Number) (d : Double) :
    x.same (double d) = x.toDouble.sameNumber d := by
  unfold Number.same
  cases x.signed? <;> rfl

/-- What the comparison of two numbers finds. -/
theorem same_iff : x.same y = true ↔ x.SameNearest y := by
  have hrounded : x.toDouble.sameNumber y.toDouble = true ↔ x.EqualRounded y :=
    Double.sameNumber_iff
  unfold Number.same SameNearest isSigned
  cases hx : x.signed? with
  | none => simpa using hrounded
  | some m =>
      cases hy : y.signed? with
      | none => simpa using hrounded
      | some n =>
          cases x with
          | double d => cases hx
          | integer m' hm =>
              cases y with
              | double d => cases hy
              | integer n' hn =>
                  -- both are integers of signed words, which are not rounded
                  obtain ⟨-, hx⟩ := Option.ite_none_right_eq_some.1 hx
                  obtain ⟨-, hy⟩ := Option.ite_none_right_eq_some.1 hy
                  cases hx
                  cases hy
                  simpa using (equal_integers hm hn).symm

/-! ## Laws -/

theorem Equal.symm (h : x.Equal y) : y.Equal x := h.imp fun _ => And.symm

/-- To have a value in common by a function is transitive. -/
theorem trans_of_shared {f : Number → Option Amount}
    (h : ∃ amount, f x = some amount ∧ f y = some amount)
    (h' : ∃ amount, f y = some amount ∧ f z = some amount) :
    ∃ amount, f x = some amount ∧ f z = some amount := by
  obtain ⟨amount, hx, hy⟩ := h
  obtain ⟨other, hy', hz⟩ := h'
  rw [hy] at hy'
  cases hy'
  exact ⟨amount, hx, hz⟩

theorem Equal.trans (h : x.Equal y) (h' : y.Equal z) : x.Equal z := trans_of_shared h h'

theorem EqualRounded.symm (h : x.EqualRounded y) : y.EqualRounded x := h.imp fun _ => And.symm

theorem EqualRounded.trans (h : x.EqualRounded y) (h' : y.EqualRounded z) : x.EqualRounded z :=
  trans_of_shared h h'

/-- A number that is no NaN is an amount. -/
theorem equal_self (h : x.isProper = true) : x.Equal x := by
  cases x with
  | integer n fits => exact ⟨_, rfl, rfl⟩
  | double d =>
      obtain ⟨hnan, -⟩ := Bool.and_eq_true_iff.1 h
      cases d with
      | nan => cases hnan
      | infinity s => exact ⟨_, rfl, rfl⟩
      | finite s m q =>
          have hamount := Double.amount?_of_units (Double.units_finite s m q)
          exact ⟨_, hamount, hamount⟩

/-- The double next to an amount is a matter of the amount. -/
theorem Equal.rounded (hx : x.isProper = true) (hy : y.isProper = true) (h : x.Equal y) :
    x.EqualRounded y := by
  -- an integer that is the amount of a double is not rounded
  have hmixed : ∀ {n : Int} {fits : FitsWord n} {d : Double}, d.isBinary64 = true →
      (integer n fits).Equal (double d) → (integer n fits).EqualRounded (double d) := by
    rintro n fits d hd ⟨amount, hn, hamount⟩
    cases hn
    have hnearest := Double.nearest_of_units hd (Double.units_of_amount hamount)
    exact ⟨_, by rw [rounded?_integer, hnearest], hamount⟩
  cases x with
  | integer m hm =>
      cases y with
      | integer n hn =>
          obtain rfl := (equal_integers hm hn).1 h
          exact ⟨_, rounded?_integer hm, rounded?_integer hm⟩
      | double d => exact hmixed (Bool.and_eq_true_iff.1 hy).2 h
  | double d =>
      cases y with
      | integer n hn => exact (hmixed (Bool.and_eq_true_iff.1 hx).2 h.symm).symm
      | double e => exact h

/-- Numbers that are found to be the same share their doubles. -/
theorem SameNearest.rounded (hx : x.isProper = true) (hy : y.isProper = true)
    (h : x.SameNearest y) : x.EqualRounded y := by
  unfold SameNearest at h
  split at h
  · exact h.rounded hx hy
  · exact h

/-- Numbers of one amount are found to be the same. -/
theorem Equal.same (hx : x.isProper = true) (hy : y.isProper = true) (h : x.Equal y) :
    x.SameNearest y := by
  unfold SameNearest
  split
  · exact h
  · exact h.rounded hx hy

theorem SameNearest.symm (h : x.SameNearest y) : y.SameNearest x := by
  unfold SameNearest at h ⊢
  rw [Bool.and_comm]
  split at h
  · rw [if_pos ‹_›]
    exact h.symm
  · rw [if_neg ‹_›]
    exact h.symm

/-! ## Numbers told apart -/

/-- The magnitude is below `2^53`, if it is one. -/
def IsShort (x : Number) : Prop :=
  ∀ u, x.amount? = some (.units u) → u.natAbs < 2 ^ 53 * unitsPerOne

theorem isShort_integer {n : Int} {fits : FitsWord n} :
    (integer n fits).IsShort ↔ n.natAbs < 2 ^ 53 := by
  have hunits : 0 < unitsPerOne := Int.natCast_pos.1 Double.unitsPerOne_pos
  have hsize : (n * unitsPerOne).natAbs = n.natAbs * unitsPerOne := by
    rw [Int.natAbs_mul, Int.natAbs_natCast]
  constructor
  · intro h
    have hlt := h _ rfl
    rw [hsize] at hlt
    exact Nat.lt_of_mul_lt_mul_right hlt
  · rintro h u hu
    cases hu
    rw [hsize]
    exact Nat.mul_lt_mul_of_pos_right h hunits

/-- An integer that is rounded to below `2^53` is not rounded. -/
theorem nearest_eq_of_lt {n : Int} (h : (nearest n).natAbs < 2 ^ 53) : nearest n = n := by
  refine Double.nearest_eq_self ?_
  -- rounding is monotone and keeps `2^53`, so nothing gets below that from above
  by_contra hlong
  have hfar := Double.nearestNat_mono (Nat.le_of_lt (Nat.not_le.1 hlong))
  rw [Double.nearestNat_two_pow, ← Double.natAbs_nearest] at hfar
  omega

/-- A short number is told apart from every number. -/
theorem IsShort.tellsApart (h : x.IsShort) (y : Number) : x.TellsApart y := by
  rintro ⟨amount, hx, hy⟩
  cases x with
  | integer n fits =>
      have hn : n.natAbs < 2 ^ 53 := isShort_integer.1 h
      rw [rounded?_integer, Double.nearest_eq_self (Nat.le_of_lt hn)] at hx
      cases y with
      | integer m hm =>
          rw [← hx, rounded?_integer] at hy
          simp only [Option.some.injEq, Amount.units.injEq] at hy
          have hsame : nearest m = n :=
            Int.eq_of_mul_eq_mul_right Double.unitsPerOne_pos.ne' hy
          have hm' : nearest m = m := nearest_eq_of_lt (hsame ▸ hn)
          exact (equal_integers fits hm).2 (hsame.symm.trans hm')
      | double d => exact ⟨amount, hx, hy⟩
  | double d =>
      cases y with
      | integer m hm =>
          rw [rounded?_integer] at hy
          cases hy
          have hlt : (nearest m).natAbs < 2 ^ 53 := by
            have hlt := h _ hx
            rw [Int.natAbs_mul, Int.natAbs_natCast] at hlt
            exact Nat.lt_of_mul_lt_mul_right hlt
          rw [nearest_eq_of_lt hlt] at hx
          exact ⟨_, hx, rfl⟩
      | double e => exact ⟨amount, hx, hy⟩

end Number

end SchemaGraph

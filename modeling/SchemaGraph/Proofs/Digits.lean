import SchemaGraph.Calendar.Date
import SchemaGraph.Text.Numeral

set_option autoImplicit false

/-! # Decimal digits

The digits of a number are read as that number, whatever zeros stand in front of them
(`decimalValue_padded`), and a number of few digits is small (`Ascii.decimalValue_lt`). What is read
is what the digits are in decimal notation (`Numeral.readDigits?_iff`).
-/

namespace SchemaGraph

namespace Ascii

variable {c : Char} {digits : List Char}

theorem isDigit_of_mem_toDigits {n : Nat} (h : c ∈ Nat.toDigits 10 n) : isDigit c = true := by
  have hdigit := Nat.isDigit_of_mem_toDigits (by decide) (by decide) h
  unfold Char.isDigit at hdigit
  obtain ⟨hlow, hhigh⟩ := Bool.and_eq_true_iff.1 hdigit
  have hlow : '0' ≤ c := of_decide_eq_true hlow
  have hhigh : c ≤ '9' := of_decide_eq_true hhigh
  exact Bool.and_eq_true_iff.2 ⟨decide_eq_true hlow, decide_eq_true hhigh⟩

theorem decimalValue_eq (digits : List Char) : decimalValue digits = Nat.ofDigitChars 10 digits 0 :=
  Nat.ofDigitChars_eq_foldl.symm

theorem decimalValue_toDigits (n : Nat) : decimalValue (Nat.toDigits 10 n) = n := by
  rw [decimalValue_eq, Nat.ofDigitChars_ten_toDigits]

theorem decimalValue_append (front back : List Char) : decimalValue (front ++ back) =
    Nat.pow 10 back.length * decimalValue front + decimalValue back := by
  rw [decimalValue_eq, decimalValue_eq, decimalValue_eq, Nat.ofDigitChars_append]
  exact Nat.ofDigitChars_eq_ofDigitChars_zero

theorem digitValue_lt (h : isDigit c = true) : digitValue c < 10 := by
  obtain ⟨-, hhigh⟩ := Bool.and_eq_true_iff.1 h
  have hhigh : c.toNat ≤ '9'.toNat := of_decide_eq_true hhigh
  exact Nat.lt_succ_of_le (Nat.sub_le_sub_right hhigh '0'.toNat)

theorem decimalValue_lt (h : ∀ c ∈ digits, isDigit c = true) :
    decimalValue digits < Nat.pow 10 digits.length := by
  induction digits with
  | nil => exact Nat.one_pos
  | cons c rest ih =>
      have hfirst := digitValue_lt (h c List.mem_cons_self)
      have hrest := ih fun c hc => h c (List.mem_cons_of_mem _ hc)
      have hvalue : decimalValue (c :: rest) =
          Nat.pow 10 rest.length * digitValue c + decimalValue rest := by
        rw [← List.singleton_append, decimalValue_append]
        show _ * (10 * 0 + digitValue c) + _ = _
        rw [Nat.mul_zero, Nat.zero_add]
      rw [hvalue]
      calc Nat.pow 10 rest.length * digitValue c + decimalValue rest
          < Nat.pow 10 rest.length * digitValue c + Nat.pow 10 rest.length :=
            Nat.add_lt_add_left hrest _
        _ = Nat.pow 10 rest.length * (digitValue c + 1) := (Nat.mul_succ _ _).symm
        _ ≤ Nat.pow 10 rest.length * 10 := Nat.mul_le_mul_left _ hfirst

end Ascii

/-! ## Written numbers -/

namespace Numeral

/-- Digits that are a number in decimal notation. -/
def AreDigits (digits : List Char) (value : Nat) : Prop :=
  digits ≠ [] ∧ (∀ c ∈ digits, Ascii.isDigit c = true) ∧ value = Nat.ofDigitChars 10 digits 0

theorem readDigits?_iff {digits : List Char} {value : Nat} :
    readDigits? digits = some value ↔ AreDigits digits value := by
  unfold readDigits? AreDigits
  rw [Ascii.decimalValue_eq, Option.ite_none_left_eq_some, Bool.or_eq_true, not_or,
    List.isEmpty_iff, Bool.not_eq_true', Bool.not_eq_false, List.all_eq_true, and_assoc,
    Option.some.injEq, eq_comm (a := value)]

end Numeral

/-! ## Zeros in front -/

section Padding

variable {width n : Nat}

theorem isDigit_of_mem_padded {c : Char} (h : c ∈ padded width n) : Ascii.isDigit c = true := by
  rcases List.mem_append.1 h with h | h
  · rw [List.eq_of_mem_replicate h]
    rfl
  · exact Ascii.isDigit_of_mem_toDigits h

theorem decimalValue_padded (width n : Nat) : Ascii.decimalValue (padded width n) = n := by
  unfold padded
  dsimp only
  rw [Ascii.decimalValue_append, Ascii.decimalValue_toDigits, Ascii.decimalValue_eq,
    Nat.ofDigitChars_replicate_zero, Nat.mul_zero, Nat.mul_zero, Nat.zero_add]

theorem padded_ne_nil (width n : Nat) : padded width n ≠ [] :=
  List.append_ne_nil_of_right_ne_nil _ Nat.toDigits_ne_nil

/-- A number that fits is padded to the width. -/
theorem length_padded (hwidth : 0 < width) (h : n < Nat.pow 10 width) :
    (padded width n).length = width := by
  have hshort : (Nat.toDigits 10 n).length ≤ width :=
    (Nat.length_toDigits_le_iff (by decide) hwidth).2 h
  unfold padded
  dsimp only
  rw [List.length_append, List.length_replicate]
  omega

end Padding

end SchemaGraph

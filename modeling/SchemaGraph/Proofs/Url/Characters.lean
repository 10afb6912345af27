import SchemaGraph.Url.Parse

set_option autoImplicit false

/-! # Escaped texts

Escaping a text leaves no character of its class behind, as the percent sign and the digits of an
escape belong to no class. So a text that was escaped once is not escaped again.
-/

namespace SchemaGraph

/-- That the characters of a text do not have a property is checked one by one. -/
theorem eq_false_of_any {p : Char → Bool} {text : List Char} (h : text.any p = false) :
    ∀ c ∈ text, p c = false :=
  fun c hc => Bool.eq_false_iff.2 (List.any_eq_false.1 h c hc)

namespace Percent

/-- The characters that escapes consist of. -/
def escapes : List Char := "%0123456789ABCDEF".toList

/-- Nothing in the text has to be escaped. -/
def IsEncoded (escaped : Char → Bool) (text : List Char) : Prop := ∀ c ∈ text, escaped c = false

variable {escaped : Char → Bool} {text : List Char}

theorem encode_of_isEncoded (h : IsEncoded escaped text) : encode escaped text = text := by
  induction text with
  | nil => rfl
  | cons c rest ih =>
      have hc : escaped c = false := h c List.mem_cons_self
      have hrest : encode escaped rest = rest := ih fun d hd => h d (List.mem_cons_of_mem c hd)
      show (if escaped c then _ else [c]) ++ encode escaped rest = c :: rest
      rw [hc, hrest]
      rfl

theorem mem_escapeByte {b : UInt8} {c : Char} (h : c ∈ escapeByte b) : c ∈ escapes := by
  have hdigit : ∀ n < 16, Ascii.hexDigitUpper n ∈ escapes := by decide
  have hbyte : b.toNat < 256 := b.toNat_lt
  have hhigh : b.toNat / 16 < 16 := by omega
  have hlow : b.toNat % 16 < 16 := by omega
  simp only [escapeByte, List.mem_cons, List.not_mem_nil, or_false] at h
  rcases h with rfl | rfl | rfl
  · decide
  · exact hdigit _ hhigh
  · exact hdigit _ hlow

/-- What stands in an escaped text stood there before, or belongs to an escape. -/
theorem mem_encode {c : Char} (h : c ∈ encode escaped text) :
    (c ∈ text ∧ escaped c = false) ∨ c ∈ escapes := by
  obtain ⟨d, hd, hc⟩ := List.mem_flatMap.1 h
  cases hescaped : escaped d with
  | true =>
      rw [hescaped, if_pos rfl] at hc
      obtain ⟨b, -, hb⟩ := List.mem_flatMap.1 hc
      exact .inr (mem_escapeByte hb)
  | false =>
      rw [hescaped] at hc
      obtain rfl : c = d := List.mem_singleton.1 hc
      exact .inl ⟨hd, hescaped⟩

theorem isEncoded_encode (hescapes : ∀ c ∈ escapes, escaped c = false) :
    IsEncoded escaped (encode escaped text) := by
  intro c hc
  rcases mem_encode hc with ⟨-, hplain⟩ | hescape
  · exact hplain
  · exact hescapes c hescape

/-- A character that neither stands in a text nor belongs to an escape is not made by escaping. -/
theorem not_mem_encode {c : Char} (hescapes : c ∉ escapes) (h : c ∉ text) :
    c ∉ encode escaped text := by
  intro hc
  rcases mem_encode hc with ⟨hmem, -⟩ | hescape
  · exact h hmem
  · exact hescapes hescape

theorem encode_ne_nil (h : text ≠ []) : encode escaped text ≠ [] := by
  cases text with
  | nil => exact absurd rfl h
  | cons c rest =>
      intro hnil
      have hfirst : (if escaped c then (Utf8.encodeChar c).flatMap escapeByte else [c]) = [] :=
        (List.append_eq_nil_iff.1 hnil).1
      revert hfirst
      unfold Utf8.encodeChar
      dsimp only
      split
      · split
        · exact fun h => by cases h
        · split
          · exact fun h => by cases h
          · split <;> exact fun h => by cases h
      · exact fun h => by cases h

end Percent

namespace Ascii

theorem char_le_iff (c d : Char) : c ≤ d ↔ c.toNat ≤ d.toNat := by
  rw [Char.le_def, UInt32.le_iff_toNat_le]
  rfl

theorem isLetter_range {c : Char} (h : isLetter c = true) : 0x41 ≤ c.toNat ∧ c.toNat ≤ 0x7a := by
  have hlower : 'a'.toNat = 0x61 ∧ 'z'.toNat = 0x7a := by decide
  have hupper : 'A'.toNat = 0x41 ∧ 'Z'.toNat = 0x5a := by decide
  simp only [isLetter, isLower, isUpper, Bool.or_eq_true, Bool.and_eq_true, decide_eq_true_eq,
    char_le_iff] at h
  omega

theorem isDigit_range {c : Char} (h : isDigit c = true) : 0x30 ≤ c.toNat ∧ c.toNat ≤ 0x39 := by
  have hdigits : '0'.toNat = 0x30 ∧ '9'.toNat = 0x39 := by decide
  simp only [isDigit, Bool.and_eq_true, decide_eq_true_eq, char_le_iff] at h
  omega

end Ascii

namespace Url

theorem inFragment_escapes : ∀ c ∈ Percent.escapes, inFragment c = false :=
  eq_false_of_any (by decide)

theorem inPath_escapes : ∀ c ∈ Percent.escapes, inPath c = false :=
  eq_false_of_any (by decide)

theorem inUser_escapes : ∀ c ∈ Percent.escapes, inUser c = false :=
  eq_false_of_any (by decide)

theorem inQuery_escapes (kind : Kind) : ∀ c ∈ Percent.escapes, inQuery kind c = false := by
  cases kind <;> exact eq_false_of_any (by decide)

/-- A letter is not escaped in a path. -/
theorem inPath_letter {c : Char} (h : Ascii.isLetter c = true) : inPath c = false := by
  have hrange := Ascii.isLetter_range h
  have hmarks : ∀ d ∈ [' ', '"', '<', '>', '\x60', '#', '?', '\x7b', '\x7d'],
      Ascii.isLetter d = false := eq_false_of_any (by decide)
  have hcontrol : Host.isControl c = false := by
    unfold Host.isControl
    simp only [Bool.or_eq_false_iff, decide_eq_false_iff_not]
    omega
  have hplain : ∀ d ∈ [' ', '"', '<', '>', '\x60', '#', '?', '\x7b', '\x7d'], c ≠ d := by
    rintro d hd rfl
    rw [hmarks c hd] at h
    cases h
  simp only [List.mem_cons, List.not_mem_nil, or_false, forall_eq_or_imp, forall_eq] at hplain
  simp only [inPath, inFragment, hcontrol, Bool.false_or, List.contains_eq_mem, List.mem_cons,
    List.not_mem_nil, or_false, Bool.or_eq_false_iff, decide_eq_false_iff_not, not_or]
  grind

theorem isControl_escapes : ∀ c ∈ Percent.escapes, Host.isControl c = false :=
  eq_false_of_any (by decide)

end Url

end SchemaGraph

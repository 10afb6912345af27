import Mathlib.Data.List.TakeWhile
import SchemaGraph.Proofs.Text

set_option autoImplicit false

/-! # Escapes and what they stand for

The bytes of a character read as that character, whatever malformed bytes stand before them
(`Utf8.decodeLossy_encodeChar`). So escaping a text leaves what it decodes to, as long as neither
the percent sign nor digits are escaped (`Percent.decode_encode`).
-/

namespace SchemaGraph

/-! ## Bytes of characters -/

namespace Utf8

/-- The byte continues no sequence. -/
def Starts (b : UInt8) : Prop := b.toNat < 0x80 ∨ 0xc2 ≤ b.toNat

theorem Starts.not_tail {b : UInt8} (h : Starts b) : isTail b.toNat = false := by
  unfold Starts at h
  unfold isTail
  simp only [Bool.and_eq_false_iff, decide_eq_false_iff_not]
  omega

theorem Starts.not_second {b : UInt8} (h : Starts b) (first : Nat) :
    secondInRange first b.toNat = false := by
  have htail := h.not_tail
  unfold Starts at h
  unfold secondInRange
  split
  · simp only [Bool.and_eq_false_iff, decide_eq_false_iff_not]
    omega
  · split
    · simp only [Bool.and_eq_false_iff, decide_eq_false_iff_not]
      omega
    · split
      · simp only [Bool.and_eq_false_iff, decide_eq_false_iff_not]
        omega
      · split
        · simp only [Bool.and_eq_false_iff, decide_eq_false_iff_not]
          omega
        · exact htail

/-- A sequence goes no further than to a byte that starts one. -/
theorem continued_append (first : Nat) (bytes : List UInt8) {b : UInt8} (h : Starts b)
    (more : List UInt8) (owed : Nat) :
    continued first (bytes ++ b :: more) owed = continued first bytes owed := by
  have hstop : ∀ (n : Nat) (rest : List UInt8),
      ((rest ++ b :: more).take n).takeWhile (fun t => isTail t.toNat) =
        (rest.take n).takeWhile fun t => isTail t.toNat := by
    intro n rest
    induction rest generalizing n with
    | nil =>
        cases n with
        | zero => rfl
        | succ n =>
            show List.takeWhile _ (b :: more.take n) = []
            rw [List.takeWhile_cons, h.not_tail]
            rfl
    | cons c rest ih =>
        cases n with
        | zero => rfl
        | succ n =>
            show List.takeWhile _ (c :: (rest ++ b :: more).take n) =
              List.takeWhile _ (c :: rest.take n)
            rw [List.takeWhile_cons, List.takeWhile_cons, ih]
  cases bytes with
  | nil =>
      show (if owed == 0 || !secondInRange first b.toNat then 0 else _) = 0
      rw [h.not_second, Bool.not_false, Bool.or_true]
      rfl
  | cons c rest =>
      rw [List.cons_append]
      unfold continued
      dsimp only
      rw [hstop]

theorem continued_le (first : Nat) (bytes : List UInt8) (owed : Nat) :
    continued first bytes owed ≤ bytes.length := by
  cases bytes with
  | nil => exact Nat.le_refl 0
  | cons b rest =>
      unfold continued
      dsimp only
      split
      · exact Nat.zero_le _
      · have htake : ((rest.take (owed - 1)).takeWhile fun t => isTail t.toNat).length ≤
            (rest.take (owed - 1)).length := (List.takeWhile_sublist _).length_le
        have hrest : (rest.take (owed - 1)).length ≤ rest.length := List.length_take_le' _ _
        rw [List.length_cons]
        omega

/-- What stands before a byte that starts a sequence is read on its own. -/
theorem decodeLossy_append (run : List UInt8) {b : UInt8} (h : Starts b) (more : List UInt8) :
    decodeLossy (run ++ b :: more) = decodeLossy run ++ decodeLossy (b :: more) := by
  fun_induction decodeLossy run with
  | case1 => rfl
  | case2 first rest owed found c ih =>
      have hle : found ≤ rest.length := continued_le _ rest owed
      rw [List.cons_append, decodeLossy, continued_append _ rest h more,
        List.take_append_of_le_length hle, List.drop_append_of_le_length hle, ih]
      rfl

/-- A complete sequence reads as one character. -/
theorem decodeLossy_sequence {lead second : UInt8} {others : List UInt8}
    (hwidth : width lead.toNat = others.length + 2)
    (hsecond : secondInRange lead.toNat second.toNat = true)
    (hothers : ∀ b ∈ others, isTail b.toNat = true) (more : List UInt8) :
    decodeLossy (lead :: second :: others ++ more) =
      assemble lead.toNat (second :: others) :: decodeLossy more := by
  have hfound : continued lead.toNat (second :: others ++ more) (width lead.toNat - 1) =
      (second :: others).length := by
    show (if width lead.toNat - 1 == 0 || !secondInRange lead.toNat second.toNat then 0 else _) = _
    rw [hwidth, hsecond]
    show 1 + (((others ++ more).take others.length).takeWhile fun t => isTail t.toNat).length = _
    rw [List.take_left, List.takeWhile_eq_self_iff.2 hothers, List.length_cons, Nat.add_comm]
  rw [List.cons_append, decodeLossy, hfound, List.take_left, List.drop_left, hwidth]
  have hcomplete : (others.length + 2 == 0 ||
      decide ((second :: others).length < others.length + 2 - 1)) = false := by
    simp
  rw [if_neg (by rw [hcomplete]; exact Bool.false_ne_true)]

theorem toNat_toUInt8 {n : Nat} (h : n < 256) : n.toUInt8.toNat = n := by
  rw [Nat.toUInt8_eq, UInt8.toNat_ofNat']
  exact Nat.mod_eq_of_lt h

theorem width_two {n : Nat} (h : 0xc2 ≤ n) (h' : n ≤ 0xdf) : width n = 2 := by
  unfold width
  rw [if_neg (by omega), if_pos (by simp; omega)]

theorem width_three {n : Nat} (h : 0xe0 ≤ n) (h' : n ≤ 0xef) : width n = 3 := by
  unfold width
  rw [if_neg (by omega), if_neg (by simp; omega), if_pos (by simp; omega)]

theorem width_four {n : Nat} (h : 0xf0 ≤ n) (h' : n ≤ 0xf4) : width n = 4 := by
  unfold width
  rw [if_neg (by omega), if_neg (by simp; omega), if_neg (by simp; omega), if_pos (by simp; omega)]

theorem isTail_of {n : Nat} (h : 0x80 ≤ n) (h' : n ≤ 0xbf) : isTail n = true := by
  unfold isTail
  simp only [Bool.and_eq_true, decide_eq_true_eq]
  exact ⟨h, h'⟩

/-- Only after four first bytes the second one is not any that continues a sequence. -/
theorem secondInRange_of {first second : Nat} (h : isTail second = true)
    (he0 : first = 0xe0 → 0xa0 ≤ second) (hed : first = 0xed → second ≤ 0x9f)
    (hf0 : first = 0xf0 → 0x90 ≤ second) (hf4 : first = 0xf4 → second ≤ 0x8f) :
    secondInRange first second = true := by
  have hrange : 0x80 ≤ second ∧ second ≤ 0xbf := by
    unfold isTail at h
    simpa only [Bool.and_eq_true, decide_eq_true_eq] using h
  unfold secondInRange
  simp only [beq_iff_eq]
  split
  · simp only [Bool.and_eq_true, decide_eq_true_eq]
    exact ⟨he0 ‹_›, hrange.2⟩
  · split
    · simp only [Bool.and_eq_true, decide_eq_true_eq]
      exact ⟨hrange.1, hed ‹_›⟩
    · split
      · simp only [Bool.and_eq_true, decide_eq_true_eq]
        exact ⟨hf0 ‹_›, hrange.2⟩
      · split
        · simp only [Bool.and_eq_true, decide_eq_true_eq]
          exact ⟨hrange.1, hf4 ‹_›⟩
        · exact h

/-- The bytes of a character: the first one starts a sequence, and together they read as the
character. -/
structure Reads (c : Char) (bytes : List UInt8) : Prop where
  starts : ∃ lead tail, bytes = lead :: tail ∧ Starts lead
  reads : ∀ more, decodeLossy (bytes ++ more) = c :: decodeLossy more

theorem reads_sequence {c : Char} {lead second : UInt8} {others : List UInt8}
    (hlead : 0xc2 ≤ lead.toNat) (hwidth : width lead.toNat = others.length + 2)
    (hsecond : secondInRange lead.toNat second.toNat = true)
    (hothers : ∀ b ∈ others, isTail b.toNat = true)
    (hchar : assemble lead.toNat (second :: others) = c) :
    Reads c (lead :: second :: others) where
  starts := ⟨lead, _, rfl, .inr hlead⟩
  reads more := by rw [decodeLossy_sequence hwidth hsecond hothers more, hchar]

theorem toNat_tailByte (m : Nat) : (0x80 + m % 64).toUInt8.toNat = 0x80 + m % 64 :=
  toNat_toUInt8 (by omega)

theorem isTail_tailByte (m : Nat) : isTail (0x80 + m % 64).toUInt8.toNat = true := by
  rw [toNat_tailByte]
  exact isTail_of (by omega) (by omega)

theorem reads_one {n : Nat} (h : n < 0x80) : Reads (Char.ofNat n) [n.toUInt8] := by
  have hlead : n.toUInt8.toNat = n := toNat_toUInt8 (by omega)
  have hwidth : width n.toUInt8.toNat = 1 := by
    rw [hlead]
    exact if_pos h
  refine ⟨⟨_, [], rfl, .inl (by omega)⟩, fun more => ?_⟩
  have hfound : continued n.toUInt8.toNat more 0 = 0 := by
    cases more <;> rfl
  rw [List.singleton_append, decodeLossy, hwidth, hfound]
  exact congrArg (Char.ofNat · :: _) hlead

theorem reads_two {n : Nat} (h : 0x80 ≤ n) (h' : n < 0x800) :
    Reads (Char.ofNat n) [(0xc0 + n / 64).toUInt8, (0x80 + n % 64).toUInt8] := by
  have hlead : (0xc0 + n / 64).toUInt8.toNat = 0xc0 + n / 64 := toNat_toUInt8 (by omega)
  have hwidth : width (0xc0 + n / 64).toUInt8.toNat = 2 := by
    rw [hlead]
    exact width_two (by omega) (by omega)
  refine reads_sequence (by omega) hwidth ?_ (List.forall_mem_nil _) (congrArg Char.ofNat ?_)
  · refine secondInRange_of (isTail_tailByte _) ?_ ?_ ?_ ?_ <;> rw [hlead] <;> omega
  · show 64 * ((0xc0 + n / 64).toUInt8.toNat - 0xc0) + ((0x80 + n % 64).toUInt8.toNat - 0x80) = n
    rw [hlead, toNat_tailByte]
    omega

theorem reads_three {n : Nat} (h : 0x800 ≤ n) (h' : n < 0x10000)
    (hvalid : n < 0xd800 ∨ 0xdfff < n) :
    Reads (Char.ofNat n)
      [(0xe0 + n / 4096).toUInt8, (0x80 + n / 64 % 64).toUInt8, (0x80 + n % 64).toUInt8] := by
  have hlead : (0xe0 + n / 4096).toUInt8.toNat = 0xe0 + n / 4096 := toNat_toUInt8 (by omega)
  have hwidth : width (0xe0 + n / 4096).toUInt8.toNat = 3 := by
    rw [hlead]
    exact width_three (by omega) (by omega)
  refine reads_sequence (by omega) hwidth ?_ (List.forall_mem_singleton.2 (isTail_tailByte _))
    (congrArg Char.ofNat ?_)
  · refine secondInRange_of (isTail_tailByte _) ?_ ?_ ?_ ?_ <;>
      rw [hlead, toNat_tailByte] <;> omega
  · show 64 * (64 * ((0xe0 + n / 4096).toUInt8.toNat - 0xe0) +
      ((0x80 + n / 64 % 64).toUInt8.toNat - 0x80)) + ((0x80 + n % 64).toUInt8.toNat - 0x80) = n
    rw [hlead, toNat_tailByte, toNat_tailByte]
    omega

theorem reads_four {n : Nat} (h : 0x10000 ≤ n) (h' : n < 0x110000) :
    Reads (Char.ofNat n) [(0xf0 + n / 262144).toUInt8, (0x80 + n / 4096 % 64).toUInt8,
      (0x80 + n / 64 % 64).toUInt8, (0x80 + n % 64).toUInt8] := by
  have hlead : (0xf0 + n / 262144).toUInt8.toNat = 0xf0 + n / 262144 := toNat_toUInt8 (by omega)
  have hwidth : width (0xf0 + n / 262144).toUInt8.toNat = 4 := by
    rw [hlead]
    exact width_four (by omega) (by omega)
  have htails : ∀ b ∈ [(0x80 + n / 64 % 64).toUInt8, (0x80 + n % 64).toUInt8],
      isTail b.toNat = true :=
    List.forall_mem_cons.2
      ⟨isTail_tailByte _, List.forall_mem_singleton.2 (isTail_tailByte _)⟩
  refine reads_sequence (by omega) hwidth ?_ htails (congrArg Char.ofNat ?_)
  · refine secondInRange_of (isTail_tailByte _) ?_ ?_ ?_ ?_ <;>
      rw [hlead, toNat_tailByte] <;> omega
  · show 64 * (64 * (64 * ((0xf0 + n / 262144).toUInt8.toNat - 0xf0) +
      ((0x80 + n / 4096 % 64).toUInt8.toNat - 0x80)) +
      ((0x80 + n / 64 % 64).toUInt8.toNat - 0x80)) + ((0x80 + n % 64).toUInt8.toNat - 0x80) = n
    rw [hlead, toNat_tailByte, toNat_tailByte, toNat_tailByte]
    omega

theorem reads_encodeChar (c : Char) : Reads c (encodeChar c) := by
  have hvalid : c.toNat < 0xd800 ∨ (0xdfff < c.toNat ∧ c.toNat < 0x110000) := c.valid
  have hchar : Char.ofNat c.toNat = c := Char.ofNat_toNat c
  unfold encodeChar
  dsimp only
  generalize c.toNat = n at hvalid hchar ⊢
  subst hchar
  split
  · exact reads_one ‹_›
  · split
    · exact reads_two (by omega) ‹_›
    · split
      · exact reads_three (by omega) ‹_› (by omega)
      · exact reads_four (by omega) (by omega)

/-- The bytes of a character read as that character, whatever stands around them. -/
theorem decodeLossy_encodeChar (run : List UInt8) (c : Char) (more : List UInt8) :
    decodeLossy (run ++ encodeChar c ++ more) = decodeLossy run ++ c :: decodeLossy more := by
  obtain ⟨⟨lead, tail, hbytes, hstarts⟩, hreads⟩ := reads_encodeChar c
  rw [← hreads, hbytes, List.append_assoc, List.cons_append, decodeLossy_append run hstarts]

end Utf8

/-! ## Escaped texts -/

namespace Percent

variable {escaped : Char → Bool}

theorem hexValue?_hexDigitUpper : ∀ n < 16, Ascii.hexValue? (Ascii.hexDigitUpper n) = some n := by
  decide

theorem decodeFrom_escapeByte (run : List UInt8) (b : UInt8) (rest : List Char) :
    decodeFrom run (escapeByte b ++ rest) = decodeFrom (run ++ [b]) rest := by
  have hbyte : b.toNat < 256 := b.toNat_lt
  have hvalue : (16 * (b.toNat / 16) + b.toNat % 16).toUInt8 = b := by
    rw [Nat.div_add_mod]
    exact UInt8.ofNat_toNat
  have hescape := decodeFrom_escape run (hexValue?_hexDigitUpper (b.toNat / 16) (by omega))
    (hexValue?_hexDigitUpper (b.toNat % 16) (by omega)) rest
  rw [hvalue] at hescape
  exact hescape

theorem decodeFrom_escapeBytes (bytes run : List UInt8) (rest : List Char) :
    decodeFrom run (bytes.flatMap escapeByte ++ rest) = decodeFrom (run ++ bytes) rest := by
  induction bytes generalizing run with
  | nil =>
      rw [List.append_nil]
      rfl
  | cons b bytes ih =>
      rw [List.flatMap_cons, List.append_assoc, decodeFrom_escapeByte, ih, List.append_assoc]
      rfl

/-- The bytes of a character in a run of escapes stand for that character. -/
theorem decodeFrom_encodeChar (run : List UInt8) (c : Char) (more : List UInt8) (text : List Char) :
    decodeFrom (run ++ Utf8.encodeChar c ++ more) text =
      Utf8.decodeLossy run ++ c :: decodeFrom more text := by
  have hends : ∀ (more : List UInt8) {d : Char} {rest : List Char},
      d ≠ '%' ∨ startsWithDigits rest = false →
      decodeFrom (run ++ Utf8.encodeChar c ++ more) (d :: rest) =
        Utf8.decodeLossy run ++ c :: (Utf8.decodeLossy more ++ d :: decodeFrom [] rest) := by
    intro more d rest h
    rw [decodeFrom_ends h, Utf8.decodeLossy_encodeChar, List.append_assoc]
    rfl
  fun_induction decodeFrom more text with
  | case1 more => exact Utf8.decodeLossy_encodeChar run c more
  | case2 more a b rest x y hb ha ih =>
      rw [decodeFrom_escape _ ha hb, ← ih, List.append_assoc _ more]
  | case3 more a b rest hdigits ih => exact hends more (.inr (ends_of_digits hdigits))
  | case4 more d rest hshort ih => exact hends more (ends_of_short hshort)

/-- Neither the percent sign nor a digit is escaped. -/
def SparesEscapes (escaped : Char → Bool) : Prop :=
  ∀ c, c = '%' ∨ (Ascii.hexValue? c).isSome = true → escaped c = false

theorem encode_cons_plain {c : Char} (h : escaped c = false) (rest : List Char) :
    encode escaped (c :: rest) = c :: encode escaped rest := by
  unfold encode
  rw [List.flatMap_cons, h]
  rfl

theorem encode_cons_escaped {c : Char} (h : escaped c = true) (rest : List Char) :
    encode escaped (c :: rest) =
      (Utf8.encodeChar c).flatMap escapeByte ++ encode escaped rest := by
  unfold encode
  rw [List.flatMap_cons, h, if_pos rfl]

/-- An escaped character starts with a percent sign. -/
theorem head_encode {c : Char} (h : escaped c = true) (rest : List Char) :
    ∃ more, encode escaped (c :: rest) = '%' :: more := by
  obtain ⟨⟨lead, tail, hbytes, -⟩, -⟩ := Utf8.reads_encodeChar c
  rw [encode_cons_escaped h, hbytes]
  exact ⟨_, rfl⟩

/-- Escaping puts no digits at the start. -/
theorem startsWithDigits_encode {text : List Char} (h : startsWithDigits text = false) :
    startsWithDigits (encode escaped text) = false := by
  have hpercent : ∀ a more, startsWithDigits ('%' :: more) = false ∧
      startsWithDigits (a :: '%' :: more) = false := by
    intro a more
    refine ⟨?_, Bool.and_false _⟩
    cases more <;> rfl
  cases text with
  | nil => rfl
  | cons a rest =>
      cases ha : escaped a with
      | true =>
          obtain ⟨more, hmore⟩ := head_encode ha rest
          rw [hmore]
          exact (hpercent a more).1
      | false =>
          rw [encode_cons_plain ha]
          cases rest with
          | nil => rfl
          | cons b rest =>
              cases hb : escaped b with
              | true =>
                  obtain ⟨more, hmore⟩ := head_encode hb rest
                  rw [hmore]
                  exact (hpercent a more).2
              | false =>
                  rw [encode_cons_plain hb]
                  exact h

theorem decodeFrom_encode (h : SparesEscapes escaped) (run : List UInt8) (text : List Char) :
    decodeFrom run (encode escaped text) = decodeFrom run text := by
  have hpercent : escaped '%' = false := h '%' (.inl rfl)
  fun_induction decodeFrom run text with
  | case1 run => rw [decodeFrom.eq_def]; rfl
  | case2 run a b rest x y hb ha ih =>
      have hdigit : ∀ {c : Char} {n : Nat}, Ascii.hexValue? c = some n → escaped c = false :=
        fun hc => h _ (.inr (by rw [hc]; rfl))
      rw [encode_cons_plain hpercent, encode_cons_plain (hdigit ha), encode_cons_plain (hdigit hb),
        decodeFrom_escape _ ha hb, ih]
  | case3 run a b rest hdigits ih =>
      rw [encode_cons_plain hpercent,
        decodeFrom_ends (.inr (startsWithDigits_encode (ends_of_digits hdigits))), ih]
  | case4 run c rest hshort ih =>
      cases hc : escaped c with
      | true =>
          have hchar := decodeFrom_encodeChar run c [] (encode escaped rest)
          rw [List.append_nil] at hchar
          rw [encode_cons_escaped hc, decodeFrom_escapeBytes, hchar, ih]
      | false =>
          rw [encode_cons_plain hc,
            decodeFrom_ends ((ends_of_short hshort).imp_right startsWithDigits_encode), ih]

/-- What a text decodes to does not depend on whether it is escaped. -/
theorem decode_encode (h : SparesEscapes escaped) (text : List Char) :
    decode (encode escaped text) = decode text :=
  decodeFrom_encode h [] text

end Percent

end SchemaGraph

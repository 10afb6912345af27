import SchemaGraph.Base64
import SchemaGraph.Text.Utf8
import SchemaGraph.Uuid
import Mathlib.Data.List.Induction

set_option autoImplicit false

/-! # Bytes and UUIDs as text

The bytes of a text are those of its UTF-8 encoding (`Utf8.encode_toList`). Base64 gives back the
bytes it encodes (`Base64.decode?_encode`), and since padding and stray bits are checked, every text
that decodes is the one its bytes encode to (`Base64.encode_of_decode?`). So is a UUID in lower case
written as it was read (`Uuid.text_of_readVersioned?`).
-/

namespace SchemaGraph

/-- A character is as far from the first of its class as its code. -/
theorem Ascii.ofNat_add_sub {c first last : Char} (h : (first ≤ c && c ≤ last) = true) :
    Char.ofNat (first.toNat + (c.toNat - first.toNat)) = c ∧
      c.toNat - first.toNat ≤ last.toNat - first.toNat := by
  obtain ⟨hfirst, hlast⟩ := Bool.and_eq_true_iff.1 h
  have hfirst : first.toNat ≤ c.toNat := of_decide_eq_true hfirst
  have hlast : c.toNat ≤ last.toNat := of_decide_eq_true hlast
  refine ⟨?_, Nat.sub_le_sub_right hlast _⟩
  rw [Nat.add_sub_cancel' hfirst, Char.ofNat_toNat]

/-! ## Base64 -/

namespace Base64

theorem value?_letter {n : Nat} (h : n < 64) : value? (letter n) = some n :=
  (show ∀ n < 64, value? (letter n) = some n by decide +kernel) n h

theorem letter_ne_padding {n : Nat} (h : n < 64) : letter n ≠ '=' :=
  (show ∀ n < 64, letter n ≠ '=' by decide +kernel) n h

/-- A value has no other letter. -/
theorem letter_of_value? {c : Char} {n : Nat} (h : value? c = some n) : letter n = c ∧ n < 64 := by
  unfold value? at h
  split at h
  · rename_i hupper
    obtain ⟨hletter, hbound⟩ := Ascii.ofNat_add_sub hupper
    have hbound : c.toNat - 'A'.toNat ≤ 25 := hbound
    obtain rfl := Option.some.inj h
    refine ⟨?_, by omega⟩
    unfold letter
    rw [if_pos (by omega)]
    exact hletter
  · split at h
    · rename_i hlower
      obtain ⟨hletter, hbound⟩ := Ascii.ofNat_add_sub hlower
      have hbound : c.toNat - 'a'.toNat ≤ 25 := hbound
      obtain rfl := Option.some.inj h
      refine ⟨?_, by omega⟩
      unfold letter
      rw [if_neg (by omega), if_pos (by omega), Nat.add_sub_cancel]
      exact hletter
    · split at h
      · rename_i hdigit
        obtain ⟨hletter, hbound⟩ := Ascii.ofNat_add_sub hdigit
        have hbound : c.toNat - '0'.toNat ≤ 9 := hbound
        obtain rfl := Option.some.inj h
        refine ⟨?_, by omega⟩
        unfold letter
        rw [if_neg (by omega), if_neg (by omega), if_pos (by omega), Nat.add_sub_cancel]
        exact hletter
      · split at h
        · rename_i hplus
          obtain rfl := Option.some.inj h
          exact ⟨(eq_of_beq hplus).symm, by decide⟩
        · split at h
          · rename_i hslash
            obtain rfl := Option.some.inj h
            exact ⟨(eq_of_beq hslash).symm, by decide⟩
          · cases h

theorem decode?_one (a b : Char) : decode? [a, b, '=', '='] = (value? a).bind fun w =>
    (value? b).bind fun x =>
      if x % 16 == 0 then some [(w * 4 + x / 16).toUInt8] else none := by
  rw [decode?.eq_2]
  rfl

theorem decode?_two {c : Char} (hc : c ≠ '=') (a b : Char) :
    decode? [a, b, c, '='] = (value? a).bind fun w => (value? b).bind fun x =>
      (value? c).bind fun y =>
        if y % 4 == 0 then
          some [(w * 4 + x / 16).toUInt8, (x % 16 * 16 + y / 4).toUInt8]
        else none := by
  rw [decode?.eq_3 _ _ _ hc]
  rfl

theorem decode?_three {d : Char} (hd : d ≠ '=') (a b c : Char) (rest : List Char) :
    decode? (a :: b :: c :: d :: rest) = (value? a).bind fun w => (value? b).bind fun x =>
      (value? c).bind fun y => (value? d).bind fun z => (decode? rest).bind fun bytes =>
        some ((w * 4 + x / 16).toUInt8 :: (x % 16 * 16 + y / 4).toUInt8 ::
          (y % 4 * 64 + z).toUInt8 :: bytes) := by
  rw [decode?.eq_4 _ _ _ _ _ (fun _ heq _ => hd heq) (fun heq _ => hd heq)]
  rfl

theorem toUInt8_eq {n : Nat} {b : UInt8} (h : n = b.toNat) : n.toUInt8 = b := by
  rw [h]
  exact UInt8.ofNat_toNat

/-- What bytes encode to decodes to them. -/
theorem decode?_encode (bytes : List UInt8) : decode? (encode bytes) = some bytes := by
  fun_induction encode bytes with
  | case1 => rfl
  | case2 a =>
      have ha := a.toNat_lt
      have hbyte : (a.toNat / 4 * 4 + a.toNat % 4 * 16 / 16).toUInt8 = a := toUInt8_eq (by omega)
      rw [decode?_one, value?_letter (by omega), value?_letter (by omega), Option.bind_some,
        Option.bind_some, if_pos (beq_iff_eq.2 (Nat.mul_mod_left _ _)), hbyte]
  | case3 a b =>
      have ha := a.toNat_lt
      have hb := b.toNat_lt
      have hfirst : (a.toNat / 4 * 4 + (a.toNat % 4 * 16 + b.toNat / 16) / 16).toUInt8 = a :=
        toUInt8_eq (by omega)
      have hsecond : ((a.toNat % 4 * 16 + b.toNat / 16) % 16 * 16 +
          b.toNat % 16 * 4 / 4).toUInt8 = b := toUInt8_eq (by omega)
      rw [decode?_two (letter_ne_padding (by omega)), value?_letter (by omega),
        value?_letter (by omega), value?_letter (by omega), Option.bind_some, Option.bind_some,
        Option.bind_some, if_pos (beq_iff_eq.2 (Nat.mul_mod_left _ _)), hfirst, hsecond]
  | case4 a b c rest ih =>
      have ha := a.toNat_lt
      have hb := b.toNat_lt
      have hc := c.toNat_lt
      have hfirst : (a.toNat / 4 * 4 + (a.toNat % 4 * 16 + b.toNat / 16) / 16).toUInt8 = a :=
        toUInt8_eq (by omega)
      have hsecond : ((a.toNat % 4 * 16 + b.toNat / 16) % 16 * 16 +
          (b.toNat % 16 * 4 + c.toNat / 64) / 4).toUInt8 = b := toUInt8_eq (by omega)
      have hthird : ((b.toNat % 16 * 4 + c.toNat / 64) % 4 * 64 + c.toNat % 64).toUInt8 = c :=
        toUInt8_eq (by omega)
      rw [decode?_three (letter_ne_padding (by omega)), value?_letter (by omega),
        value?_letter (by omega), value?_letter (by omega), value?_letter (by omega), ih,
        Option.bind_some, Option.bind_some, Option.bind_some, Option.bind_some, Option.bind_some,
        hfirst, hsecond, hthird]

theorem toNat_toUInt8 {n : Nat} (h : n < 256) : n.toUInt8.toNat = n :=
  UInt8.toNat_ofNat_of_lt' h

/-- No other text decodes to the bytes: padding and the bits it leaves over are checked. -/
theorem encode_of_decode? {text : List Char} {bytes : List UInt8} (h : decode? text = some bytes) :
    encode bytes = text := by
  induction text using decode?.induct generalizing bytes with
  | case1 =>
      obtain rfl := Option.some.inj h
      rfl
  | case2 a b =>
      rw [decode?_one] at h
      obtain ⟨w, ha, h⟩ := Option.bind_eq_some_iff.1 h
      obtain ⟨x, hb, h⟩ := Option.bind_eq_some_iff.1 h
      obtain ⟨hbits, h⟩ := Option.ite_none_right_eq_some.1 h
      obtain rfl := Option.some.inj h
      obtain ⟨rfl, hw⟩ := letter_of_value? ha
      obtain ⟨rfl, hx⟩ := letter_of_value? hb
      -- the bits that the padding leaves over are zeros, so the byte has all of both letters
      have hbits : x % 16 = 0 := eq_of_beq hbits
      have hbyte : (w * 4 + x / 16).toUInt8.toNat = w * 4 + x / 16 := toNat_toUInt8 (by omega)
      unfold encode
      rw [hbyte, show (w * 4 + x / 16) / 4 = w by omega,
        show (w * 4 + x / 16) % 4 * 16 = x by omega]
  | case3 a b c hc =>
      rw [decode?_two hc] at h
      obtain ⟨w, ha, h⟩ := Option.bind_eq_some_iff.1 h
      obtain ⟨x, hb, h⟩ := Option.bind_eq_some_iff.1 h
      obtain ⟨y, hc, h⟩ := Option.bind_eq_some_iff.1 h
      obtain ⟨hbits, h⟩ := Option.ite_none_right_eq_some.1 h
      obtain rfl := Option.some.inj h
      obtain ⟨rfl, hw⟩ := letter_of_value? ha
      obtain ⟨rfl, hx⟩ := letter_of_value? hb
      obtain ⟨rfl, hy⟩ := letter_of_value? hc
      have hbits : y % 4 = 0 := eq_of_beq hbits
      have hfirst : (w * 4 + x / 16).toUInt8.toNat = w * 4 + x / 16 := toNat_toUInt8 (by omega)
      have hsecond : (x % 16 * 16 + y / 4).toUInt8.toNat = x % 16 * 16 + y / 4 :=
        toNat_toUInt8 (by omega)
      unfold encode
      rw [hfirst, hsecond, show (w * 4 + x / 16) / 4 = w by omega,
        show (w * 4 + x / 16) % 4 * 16 + (x % 16 * 16 + y / 4) / 16 = x by omega,
        show (x % 16 * 16 + y / 4) % 16 * 4 = y by omega]
  | case4 a b c d rest hone htwo ih =>
      rw [decode?.eq_4 _ _ _ _ _ hone htwo] at h
      obtain ⟨w, ha, h⟩ := Option.bind_eq_some_iff.1 h
      obtain ⟨x, hb, h⟩ := Option.bind_eq_some_iff.1 h
      obtain ⟨y, hc, h⟩ := Option.bind_eq_some_iff.1 h
      obtain ⟨z, hd, h⟩ := Option.bind_eq_some_iff.1 h
      obtain ⟨more, hrest, h⟩ := Option.bind_eq_some_iff.1 h
      obtain rfl := Option.some.inj h
      obtain ⟨rfl, hw⟩ := letter_of_value? ha
      obtain ⟨rfl, hx⟩ := letter_of_value? hb
      obtain ⟨rfl, hy⟩ := letter_of_value? hc
      obtain ⟨rfl, hz⟩ := letter_of_value? hd
      have hfirst : (w * 4 + x / 16).toUInt8.toNat = w * 4 + x / 16 := toNat_toUInt8 (by omega)
      have hsecond : (x % 16 * 16 + y / 4).toUInt8.toNat = x % 16 * 16 + y / 4 :=
        toNat_toUInt8 (by omega)
      have hthird : (y % 4 * 64 + z).toUInt8.toNat = y % 4 * 64 + z := toNat_toUInt8 (by omega)
      unfold encode
      rw [hfirst, hsecond, hthird, ih hrest, show (w * 4 + x / 16) / 4 = w by omega,
        show (w * 4 + x / 16) % 4 * 16 + (x % 16 * 16 + y / 4) / 16 = x by omega,
        show (x % 16 * 16 + y / 4) % 16 * 4 + (y % 4 * 64 + z) / 64 = y by omega,
        show (y % 4 * 64 + z) % 64 = z by omega]
  | case5 text hempty hone htwo hthree =>
      rw [decode?.eq_5 text hempty hone htwo hthree] at h
      cases h

end Base64

/-! ## UTF-8 -/

namespace Utf8

theorem encodeChar_eq (c : Char) : encodeChar c = String.utf8EncodeChar c := by
  have hcode : c.toNat < 0x110000 := by
    have hvalid := c.valid
    unfold UInt32.isValidChar Nat.isValidChar at hvalid
    have hval : c.val.toNat = c.toNat := rfl
    omega
  unfold encodeChar String.utf8EncodeChar
  dsimp only
  rw [show c.val.toNat = c.toNat from rfl]
  generalize c.toNat = n at hcode
  by_cases hone : n < 0x80
  · exact (if_pos hone).trans (if_pos (Nat.le_of_lt_succ hone)).symm
  · rw [if_neg hone, if_neg (show ¬n ≤ 0x7f by omega)]
    -- the bits that are masked away are zeros
    by_cases htwo : n < 0x800
    · rw [if_pos htwo, if_pos (Nat.le_of_lt_succ htwo),
        show n / 64 % 32 + 192 = 0xc0 + n / 64 by omega, Nat.add_comm (n % 64)]
    · rw [if_neg htwo, if_neg (show ¬n ≤ 0x7ff by omega)]
      by_cases hthree : n < 0x10000
      · rw [if_pos hthree, if_pos (Nat.le_of_lt_succ hthree),
          show n / 4096 % 16 + 224 = 0xe0 + n / 4096 by omega, Nat.add_comm (n / 64 % 64),
          Nat.add_comm (n % 64)]
      · rw [if_neg hthree, if_neg (show ¬n ≤ 0xffff by omega),
          show n / 262144 % 8 + 240 = 0xf0 + n / 262144 by omega, Nat.add_comm (n / 4096 % 64),
          Nat.add_comm (n / 64 % 64), Nat.add_comm (n % 64)]

theorem encode_toList (text : String) : encode text.toList = text.toUTF8.data.toList := by
  have hbytes : text.toUTF8 = text.toList.utf8Encode := by
    rw [← String.toByteArray_ofList, String.ofList_toList]
    rfl
  have hchars : encodeChar = String.utf8EncodeChar := funext encodeChar_eq
  rw [hbytes]
  unfold encode List.utf8Encode
  rw [List.toList_data_toByteArray, hchars]

end Utf8

/-! ## UUIDs -/

namespace Uuid

theorem hexDigit_of_isLowerHex {c : Char} (h : isLowerHex c = true) :
    ∃ d < 16, Ascii.hexValue? c = some d ∧ Ascii.hexDigit d = c := by
  unfold isLowerHex at h
  by_cases hdigit : Ascii.isDigit c = true
  · obtain ⟨hchar, hbound⟩ := Ascii.ofNat_add_sub hdigit
    have hbound : c.toNat - '0'.toNat ≤ 9 := hbound
    refine ⟨c.toNat - '0'.toNat, by omega, if_pos hdigit, ?_⟩
    unfold Ascii.hexDigit
    rw [if_pos (by omega)]
    exact hchar
  · rw [Bool.eq_false_iff.2 hdigit, Bool.false_or] at h
    obtain ⟨hchar, hbound⟩ := Ascii.ofNat_add_sub h
    have hbound : c.toNat - 'a'.toNat ≤ 5 := hbound
    refine ⟨c.toNat - 'a'.toNat + 10, by omega, ?_, ?_⟩
    · unfold Ascii.hexValue?
      rw [if_neg hdigit, if_pos h]
    · unfold Ascii.hexDigit
      rw [if_neg (by omega), Nat.add_sub_cancel]
      exact hchar

/-- The last digit comes off the end. -/
theorem digits_succ (count n : Nat) :
    digits (count + 1) n = digits count (n / 16) ++ [Ascii.hexDigit (n % 16)] := by
  unfold digits
  rw [List.range_succ, List.map_append]
  refine congrArg₂ (· ++ ·) (List.map_congr_left fun i hi => ?_) ?_
  · have hi : i < count := List.mem_range.1 hi
    have hexponent : count + 1 - 1 - i = (count - 1 - i) + 1 := by omega
    rw [hexponent, Nat.div_div_eq_div_mul, Nat.mul_comm]
    rfl
  · show [Ascii.hexDigit (n / Nat.pow 16 (count - count) % 16)] = _
    rw [Nat.sub_self]
    exact congrArg (fun m => [Ascii.hexDigit (m % 16)]) (Nat.div_one n)

theorem valueOf_append_digit {c : Char} {d : Nat} (h : Ascii.hexValue? c = some d)
    (text : List Char) : valueOf (text ++ [c]) = 16 * valueOf text + d := by
  unfold valueOf
  rw [List.filterMap_append, List.foldl_append, List.filterMap_cons_some h]
  rfl

/-- The number of lower case digits is written with them. -/
theorem digits_valueOf {text : List Char} (h : ∀ c ∈ text, isLowerHex c = true) :
    digits text.length (valueOf text) = text := by
  -- from the end, where the last digit is the remainder by sixteen
  induction text using List.reverseRecOn with
  | nil => rfl
  | append_singleton text c ih =>
      obtain ⟨d, hd, hvalue, hchar⟩ :=
        hexDigit_of_isLowerHex (h c (List.mem_append_right _ List.mem_cons_self))
      have hfront := ih fun c hc => h c (List.mem_append_left _ hc)
      rw [valueOf_append_digit hvalue, List.length_append, List.length_singleton, digits_succ,
        show (16 * valueOf text + d) / 16 = valueOf text by omega,
        show (16 * valueOf text + d) % 16 = d by omega, hfront, hchar]

/-- A group, a hyphen, and the other groups. -/
theorem grouped_cons {isDigit : Char → Bool} {n m : Nat} {more : List Nat} {text : List Char}
    (h : grouped isDigit (n :: m :: more) text = true) : ∃ front back,
      text = front ++ '-' :: back ∧ front.length = n ∧ (∀ c ∈ front, isDigit c = true) ∧
        grouped isDigit (m :: more) back = true := by
  have h : ((text.take n).length == n && (text.take n).all isDigit &&
      (text.drop n).head? == some '-' && grouped isDigit (m :: more) (text.drop (n + 1))) = true :=
    h
  obtain ⟨h, hmore⟩ := Bool.and_eq_true_iff.1 h
  obtain ⟨h, hhyphen⟩ := Bool.and_eq_true_iff.1 h
  obtain ⟨hlength, hdigits⟩ := Bool.and_eq_true_iff.1 h
  have hrest : text.drop n = '-' :: text.drop (n + 1) := by
    obtain ⟨rest, hrest⟩ := List.head?_eq_some_iff.1 (eq_of_beq hhyphen)
    rw [← List.drop_drop, hrest]
    rfl
  refine ⟨text.take n, text.drop (n + 1), ?_, eq_of_beq hlength, List.all_eq_true.1 hdigits, hmore⟩
  rw [← hrest, List.take_append_drop]

theorem grouped_last {isDigit : Char → Bool} {n : Nat} {text : List Char}
    (h : grouped isDigit [n] text = true) :
    text.length = n ∧ ∀ c ∈ text, isDigit c = true := by
  obtain ⟨hlength, hdigits⟩ := Bool.and_eq_true_iff.1 h
  exact ⟨eq_of_beq hlength, List.all_eq_true.1 hdigits⟩

section Groups

variable {a b c d e : List Char}

/-- The digits are cut into their groups. -/
theorem text_of_digits {uuid : Uuid} (ha : a.length = 8) (hb : b.length = 4) (hc : c.length = 4)
    (hd : d.length = 4) (h : digits 32 uuid.value = a ++ (b ++ (c ++ (d ++ e)))) :
    uuid.text.toList = a ++ '-' :: (b ++ '-' :: (c ++ '-' :: (d ++ '-' :: e))) := by
  have hsecond : (a ++ (b ++ (c ++ (d ++ e)))).drop 8 = b ++ (c ++ (d ++ e)) :=
    List.drop_left' ha
  have hthird : (a ++ (b ++ (c ++ (d ++ e)))).drop 12 = c ++ (d ++ e) := by
    rw [← List.drop_drop (i := 4) (j := 8), hsecond]
    exact List.drop_left' hb
  have hfourth : (a ++ (b ++ (c ++ (d ++ e)))).drop 16 = d ++ e := by
    rw [← List.drop_drop (i := 4) (j := 12), hthird]
    exact List.drop_left' hc
  have hfifth : (a ++ (b ++ (c ++ (d ++ e)))).drop 20 = e := by
    rw [← List.drop_drop (i := 4) (j := 16), hfourth]
    exact List.drop_left' hd
  unfold Uuid.text
  dsimp only
  rw [String.toList_ofList, h, hsecond, hthird, hfourth, hfifth, List.take_left' ha,
    List.take_left' hb, List.take_left' hc, List.take_left' hd]
  simp only [List.append_assoc, List.cons_append]

/-- Hyphens are no digits. -/
theorem valueOf_groups : valueOf (a ++ '-' :: (b ++ '-' :: (c ++ '-' :: (d ++ '-' :: e)))) =
    valueOf (a ++ (b ++ (c ++ (d ++ e)))) := by
  have hhyphen : Ascii.hexValue? '-' = none := by decide
  unfold valueOf
  simp only [List.filterMap_append, List.filterMap_cons_none hhyphen]

end Groups

/-- A UUID is written as it was read. -/
theorem text_of_readVersioned? {text : String} {uuid : Uuid}
    (h : readVersioned? text = some uuid) : uuid.text = text := by
  obtain ⟨hlower, h⟩ := Option.ite_none_right_eq_some.1 h
  obtain ⟨-, h⟩ := Option.ite_none_right_eq_some.1 h
  obtain rfl := Option.some.inj h
  obtain ⟨hgroups, -⟩ := Bool.and_eq_true_iff.1 hlower
  obtain ⟨a, rest, htext, ha, haDigits, hgroups⟩ := grouped_cons hgroups
  obtain ⟨b, rest, rfl, hb, hbDigits, hgroups⟩ := grouped_cons hgroups
  obtain ⟨c, rest, rfl, hc, hcDigits, hgroups⟩ := grouped_cons hgroups
  obtain ⟨d, e, rfl, hd, hdDigits, hgroups⟩ := grouped_cons hgroups
  obtain ⟨he, heDigits⟩ := grouped_last hgroups
  have hlength : (a ++ (b ++ (c ++ (d ++ e)))).length = 32 := by
    simp only [List.length_append]
    omega
  have hdigits : ∀ x ∈ a ++ (b ++ (c ++ (d ++ e))), isLowerHex x = true := by
    simp only [List.mem_append]
    rintro x (hx | hx | hx | hx | hx)
    · exact haDigits x hx
    · exact hbDigits x hx
    · exact hcDigits x hx
    · exact hdDigits x hx
    · exact heDigits x hx
  have hall : digits 32 (valueOf text.toList) = a ++ (b ++ (c ++ (d ++ e))) := by
    rw [htext, valueOf_groups, ← hlength]
    exact digits_valueOf hdigits
  exact String.toList_inj.1 ((text_of_digits ha hb hc hd hall).trans htext.symm)

end Uuid

end SchemaGraph

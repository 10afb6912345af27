import SchemaGraph.Calendar.Timestamp
import SchemaGraph.Proofs.Digits
import SchemaGraph.Proofs.Text
import SchemaGraph.Proofs.Url.Characters

set_option autoImplicit false

/-! # Dates and timestamps as text

Reading accepts many spellings of a date: blanks, short numbers, long years with a sign. What it
gives is always a date of the calendar, and the one spelling in which that is written reads as the
same date (`Date.read?_text`). So it is with timestamps (`Timestamp.read?_text`), where fractions
and offsets have many spellings. What is read consists of few characters
(`Date.IsMark`, `Timestamp.IsMark`).
-/

namespace SchemaGraph

/-! ## What reading goes over -/

/-- The text up to a rest consists of some characters only. -/
def Passes (mark : Char → Prop) (text rest : List Char) : Prop :=
  ∃ front, text = front ++ rest ∧ ∀ c ∈ front, mark c

namespace Passes

variable {mark : Char → Prop} {text middle rest front : List Char} {c : Char}

theorem append (h : ∀ c ∈ front, mark c) : Passes mark (front ++ rest) rest := ⟨front, rfl, h⟩

theorem cons (h : mark c) : Passes mark (c :: rest) rest :=
  have hfront : ∀ d ∈ [c], mark d := fun _ hd => List.mem_singleton.1 hd ▸ h
  append hfront

theorem refl (text : List Char) : Passes mark text text := ⟨[], rfl, nofun⟩

theorem trans (h : Passes mark text middle) (h' : Passes mark middle rest) :
    Passes mark text rest := by
  obtain ⟨front, rfl, hfront⟩ := h
  obtain ⟨next, rfl, hnext⟩ := h'
  refine ⟨front ++ next, (List.append_assoc _ _ _).symm, fun c hc => ?_⟩
  exact (List.mem_append.1 hc).elim (hfront c) (hnext c)

/-- What a test lets through is passed if the test accepts such characters only. -/
theorem dropWhile {p : Char → Bool} (h : ∀ c, p c = true → mark c) (text : List Char) :
    Passes mark text (text.dropWhile p) :=
  ⟨text.takeWhile p, List.takeWhile_append_dropWhile.symm, fun c hc =>
    h c (List.all_eq_true.1 List.all_takeWhile c hc)⟩

theorem mem (h : Passes mark text []) : ∀ c ∈ text, mark c := by
  obtain ⟨front, rfl, hfront⟩ := h
  rw [List.append_nil]
  exact hfront

end Passes

/-! ## Dates -/

namespace Date

/-- The date is one of the calendar. -/
def IsValid (date : Date) : Prop := ofNumbers? date.year date.month date.day = some date

theorem ofNumbers?_eq_some {year : Int} {month day : Nat} {date : Date}
    (h : ofNumbers? year month day = some date) : date = ⟨year, month, day⟩ ∧ date.IsValid := by
  have hsame := h
  unfold ofNumbers? at h
  obtain ⟨-, h⟩ := Option.ite_none_right_eq_some.1 h
  obtain rfl := Option.some.inj h
  exact ⟨rfl, hsame⟩

theorem daysInMonth_le (year : Int) (month : Nat) : daysInMonth year month ≤ 31 := by
  unfold daysInMonth
  split
  · split <;> decide
  · split <;> decide

/-- Months and days have two digits at most. -/
theorem IsValid.bounds {date : Date} (h : date.IsValid) :
    date.month < 100 ∧ date.day < 100 := by
  obtain ⟨hrange, -⟩ := Option.ite_none_right_eq_some.1 h
  simp only [Bool.and_eq_true, decide_eq_true_eq] at hrange
  have hdays := daysInMonth_le date.year date.month
  omega

theorem isBlank_of_isDigit {c : Char} (h : Ascii.isDigit c = true) : isBlank c = false := by
  have hrange := Ascii.isDigit_range h
  unfold isBlank
  simp only [Bool.or_eq_false_iff, Bool.and_eq_false_iff, decide_eq_false_iff_not,
    beq_eq_false_iff_ne]
  omega

/-- Digits are read up to the first character that is none, or up to the number allowed. -/
theorem readNumber?_append {most : Nat} {digits rest : List Char}
    (hdigits : ∀ c ∈ digits, Ascii.isDigit c = true) (hne : digits ≠ [])
    (hmost : digits.length ≤ most)
    (hstop : digits.length = most ∨ ∀ c, rest.head? = some c → Ascii.isDigit c = false) :
    readNumber? most (digits ++ rest) = some (Ascii.decimalValue digits, rest) := by
  -- blanks are dropped up to the first digit, which is there already
  have hblank : (digits ++ rest).dropWhile isBlank = digits ++ rest := by
    cases digits with
    | nil => exact absurd rfl hne
    | cons c digits =>
        have hc := isBlank_of_isDigit (hdigits c List.mem_cons_self)
        exact List.dropWhile_cons_of_neg (by rw [hc]; nofun)
  have htaken : ((digits ++ rest).take most).takeWhile Ascii.isDigit = digits := by
    rw [List.take_append, List.take_of_length_le hmost]
    refine takeWhile_append_of_stops hdigits fun c hc => ?_
    rcases hstop with hlength | hstop
    · rw [hlength, Nat.sub_self] at hc
      cases hc
    · refine hstop c ?_
      rw [List.head?_take] at hc
      exact (Option.ite_none_left_eq_some.1 hc).2
  unfold readNumber?
  dsimp only
  rw [hblank, htaken, if_neg (by simpa using hne), List.drop_left]

/-- A number that was padded to the width allowed is read in front of anything. -/
theorem readNumber?_padded {width n : Nat} (hwidth : 0 < width) (h : n < Nat.pow 10 width)
    (rest : List Char) : readNumber? width (padded width n ++ rest) = some (n, rest) := by
  have hlength := length_padded hwidth h
  rw [readNumber?_append (fun _ => isDigit_of_mem_padded) (padded_ne_nil width n)
    (Nat.le_of_eq hlength) (.inl hlength), decimalValue_padded]

/-- A year with a sign is read up to the next hyphen. -/
theorem readNumber?_signed (n : Nat) (rest : List Char) :
    readNumber? (padded 4 n ++ '-' :: rest).length (padded 4 n ++ '-' :: rest) =
      some (n, '-' :: rest) := by
  have hmost : (padded 4 n).length ≤ (padded 4 n ++ '-' :: rest).length := by
    rw [List.length_append]
    exact Nat.le_add_right _ _
  rw [readNumber?_append (fun _ => isDigit_of_mem_padded) (padded_ne_nil 4 n) hmost
    (.inr fun c hc => by cases hc; rfl), decimalValue_padded]

/-- A text without a sign in front is a year of four digits. -/
theorem readYear?_plain {c : Char} {text : List Char} (hdigit : Ascii.isDigit c = true) :
    readYear? (c :: text) = (readNumber? 4 (c :: text)).map fun (n, rest) => ((n : Int), rest) := by
  unfold readYear?
  rw [List.dropWhile_cons_of_neg (by rw [isBlank_of_isDigit hdigit]; nofun)]
  -- a digit is neither of the two signs
  split
  · rename_i heq
    cases heq
    cases hdigit
  · rename_i heq
    cases heq
    cases hdigit
  · rfl

theorem readYear?_minus (text : List Char) : readYear? ('-' :: text) =
    if readYear?.startsWithDigit text then
      (readNumber? text.length text).map fun (n, rest) => (-(n : Int), rest)
    else none := rfl

theorem readYear?_plus (text : List Char) : readYear? ('+' :: text) =
    if readYear?.startsWithDigit text then
      (readNumber? text.length text).map fun (n, rest) => ((n : Int), rest)
    else none := rfl

theorem startsWithDigit_padded (width n : Nat) (rest : List Char) :
    readYear?.startsWithDigit (padded width n ++ rest) = true := by
  cases hpadded : padded width n with
  | nil => exact absurd hpadded (padded_ne_nil width n)
  | cons c more => exact isDigit_of_mem_padded (hpadded ▸ List.mem_cons_self)

/-- Years are read as they are written. -/
theorem readYear?_yearText (year : Int) (rest : List Char) :
    readYear? (yearText year ++ '-' :: rest) = some (year, '-' :: rest) := by
  -- a sign stands in front of years with other than four digits, so no digit of theirs is lost
  unfold yearText
  by_cases hshort : (0 ≤ year && year ≤ 9999) = true
  · rw [if_pos hshort]
    obtain ⟨hlow, hhigh⟩ := Bool.and_eq_true_iff.1 hshort
    have hlow : 0 ≤ year := of_decide_eq_true hlow
    have hhigh : year ≤ 9999 := of_decide_eq_true hhigh
    have hread : readNumber? 4 (padded 4 year.toNat ++ '-' :: rest) =
        some (year.toNat, '-' :: rest) :=
      readNumber?_padded (by decide) (show _ < 10000 by omega) _
    cases hpadded : padded 4 year.toNat with
    | nil => exact absurd hpadded (padded_ne_nil _ _)
    | cons c more =>
        have hdigit : Ascii.isDigit c = true := isDigit_of_mem_padded (hpadded ▸ List.mem_cons_self)
        rw [hpadded] at hread
        rw [List.cons_append, readYear?_plain hdigit, ← List.cons_append, hread]
        exact congrArg (fun y => some (y, '-' :: rest)) (Int.toNat_of_nonneg hlow)
  · rw [if_neg hshort]
    have hread := readNumber?_signed year.natAbs rest
    by_cases hnegative : year < 0
    · rw [if_pos hnegative, List.cons_append, readYear?_minus, startsWithDigit_padded, if_pos rfl,
        hread]
      exact congrArg (fun y => some (y, '-' :: rest)) (by omega)
    · rw [if_neg hnegative, List.cons_append, readYear?_plus, startsWithDigit_padded, if_pos rfl,
        hread]
      exact congrArg (fun y => some (y, '-' :: rest)) (by omega)

/-- A date is read in three steps, with a hyphen after the first two. -/
theorem read?_eq_some_iff {text : String} {date : Date} : read? text = some date ↔
    ∃ year afterYear month afterMonth day, readYear? text.toList = some (year, '-' :: afterYear) ∧
      readNumber? 2 afterYear = some (month, '-' :: afterMonth) ∧
      readNumber? 2 afterMonth = some (day, []) ∧ ofNumbers? year month day = some date := by
  constructor
  · intro h
    unfold read? at h
    split at h
    · split at h
      · split at h
        · exact ⟨_, _, _, _, _, ‹_›, ‹_›, ‹_›, h⟩
        · cases h
      · cases h
    · cases h
  · rintro ⟨year, afterYear, month, afterMonth, day, hyear, hmonth, hday, hdate⟩
    unfold read?
    simp only [hyear, hmonth, hday, hdate]

/-- A date is read as it is written. -/
theorem read?_text {date : Date} (h : date.IsValid) : read? date.text = some date := by
  obtain ⟨hmonth, hday⟩ := h.bounds
  have hend : readNumber? 2 (padded 2 date.day ++ []) = some (date.day, []) :=
    readNumber?_padded (by decide) hday []
  rw [List.append_nil] at hend
  refine read?_eq_some_iff.2 ⟨date.year, padded 2 date.month ++ '-' :: padded 2 date.day,
    date.month, padded 2 date.day, date.day, ?_, readNumber?_padded (by decide) hmonth _, hend, h⟩
  unfold text
  rw [String.toList_ofList, List.append_assoc, List.cons_append]
  exact readYear?_yearText _ _

/-! ### Texts that are dates -/

/-- The characters of dates. -/
def IsMark (c : Char) : Prop :=
  isBlank c = true ∨ Ascii.isDigit c = true ∨ c = '-' ∨ c = '+'

/-- No letter is one of them. -/
theorem IsMark.not_letter {c : Char} (h : IsMark c) : Ascii.isLetter c = false := by
  rw [Bool.eq_false_iff]
  intro hletter
  have hrange := Ascii.isLetter_range hletter
  rcases h with hblank | hdigit | rfl | rfl
  · unfold isBlank at hblank
    simp only [Bool.or_eq_true, Bool.and_eq_true, decide_eq_true_eq, beq_iff_eq] at hblank
    omega
  · have hdigits := Ascii.isDigit_range hdigit
    omega
  · cases hletter
  · cases hletter

variable {text rest : List Char}

theorem readNumber?_passes {most n : Nat} (h : readNumber? most text = some (n, rest)) :
    Passes IsMark text rest := by
  obtain ⟨-, h⟩ := Option.ite_none_left_eq_some.1 h
  obtain ⟨-, rfl⟩ := Prod.ext_iff.1 (Option.some.inj h)
  refine (Passes.dropWhile (p := isBlank) (fun c => .inl) text).trans ?_
  generalize text.dropWhile isBlank = text
  have hprefix := (List.takeWhile_prefix Ascii.isDigit).trans (List.take_prefix most text)
  refine ⟨_, (List.prefix_iff_eq_append.1 hprefix).symm, fun c hc => ?_⟩
  exact .inr (.inl (List.all_eq_true.1 List.all_takeWhile c hc))

theorem readYear?_passes {year : Int} (h : readYear? text = some (year, rest)) :
    Passes IsMark text rest := by
  -- behind either sign the text is read in the same way
  have hsigned : ∀ {sign : Char} {more : List Char} {f : Nat × List Char → Int × List Char},
      IsMark sign → (∀ found, (f found).2 = found.2) →
      (if readYear?.startsWithDigit more then (readNumber? more.length more).map f else none) =
        some (year, rest) → Passes IsMark (sign :: more) rest := by
    intro sign more f hsign hf h
    obtain ⟨-, h⟩ := Option.ite_none_right_eq_some.1 h
    obtain ⟨⟨n, after⟩, hread, heq⟩ := Option.map_eq_some_iff.1 h
    have hrest : after = rest := (hf (n, after)).symm.trans (congrArg Prod.snd heq)
    exact (Passes.cons hsign).trans (readNumber?_passes (hrest ▸ hread))
  refine (Passes.dropWhile (p := isBlank) (fun c => .inl) text).trans ?_
  unfold readYear? at h
  split at h
  · rename_i heq
    rw [heq]
    exact hsigned (.inr (.inr (.inl rfl))) (fun _ => rfl) h
  · rename_i heq
    rw [heq]
    exact hsigned (.inr (.inr (.inr rfl))) (fun _ => rfl) h
  · obtain ⟨⟨n, after⟩, hread, heq⟩ := Option.map_eq_some_iff.1 h
    obtain ⟨-, rfl⟩ := Prod.ext_iff.1 heq
    exact readNumber?_passes hread

/-- What reads as a date consists of few characters, and the date is one of the calendar. -/
theorem read?_passes {text : String} {date : Date} (h : read? text = some date) :
    (∀ c ∈ text.toList, IsMark c) ∧ date.IsValid := by
  obtain ⟨year, afterYear, month, afterMonth, day, hyear, hmonth, hday, hdate⟩ :=
    read?_eq_some_iff.1 h
  have hhyphen (text : List Char) : Passes IsMark ('-' :: text) text :=
    .cons (.inr (.inr (.inl rfl)))
  have hpasses : Passes IsMark text.toList [] :=
    ((readYear?_passes hyear).trans (hhyphen _)).trans
      (((readNumber?_passes hmonth).trans (hhyphen _)).trans (readNumber?_passes hday))
  exact ⟨hpasses.mem, (ofNumbers?_eq_some hdate).2⟩

end Date

/-! ## Timestamps -/

namespace Timestamp

/-- A timestamp as it can be read: a date with a year of four digits, a time of day, and an offset
of less than a day. -/
structure IsValid (t : Timestamp) : Prop where
  date : t.date.IsValid
  year : 0 ≤ t.date.year ∧ t.date.year ≤ 9999
  hour : t.hour ≤ 23
  minute : t.minute ≤ 59
  second : t.second ≤ 60
  nanosecond : t.nanosecond < 1000000000
  offset : t.offset.natAbs ≤ 23 * 60 + 59

variable {text rest : List Char} {n : Nat}

/-! ### Parts of a timestamp are read as they are written -/

theorem readFixed?_append {count : Nat} {digits : List Char}
    (hdigits : ∀ c ∈ digits, Ascii.isDigit c = true) (hlength : digits.length = count)
    (rest : List Char) :
    readFixed? count (digits ++ rest) = some (Ascii.decimalValue digits, rest) := by
  have hall : digits.all Ascii.isDigit = true := List.all_eq_true.2 hdigits
  have hcount : (digits.length == count) = true := beq_iff_eq.2 hlength
  unfold readFixed?
  dsimp only
  rw [List.take_left' hlength, List.drop_left' hlength, hcount, hall, Bool.and_self, if_pos rfl]

theorem readFixed?_padded {count : Nat} (hcount : 0 < count) (h : n < Nat.pow 10 count)
    (rest : List Char) : readFixed? count (padded count n ++ rest) = some (n, rest) := by
  rw [readFixed?_append (fun _ => isDigit_of_mem_padded) (length_padded hcount h),
    decimalValue_padded]

theorem readOneOf?_cons {chars : List Char} {c : Char} (h : chars.contains c = true)
    (rest : List Char) : readOneOf? chars (c :: rest) = some rest := if_pos h

/-- Up to nine digits behind a point count from the left. -/
theorem readFraction?_point {digits : List Char} (hdigits : ∀ c ∈ digits, Ascii.isDigit c = true)
    (hne : digits ≠ []) (hshort : digits.length ≤ 9)
    (hrest : ∀ c, rest.head? = some c → Ascii.isDigit c = false) :
    readFraction? ('.' :: (digits ++ rest)) =
      some (Ascii.decimalValue digits * Nat.pow 10 (9 - digits.length), rest) := by
  rw [readFraction?.eq_1]
  dsimp only
  rw [takeWhile_append_of_stops hdigits hrest, dropWhile_append_of_stops hdigits hrest,
    if_neg (by simpa using hne), List.take_of_length_le hshort]

theorem readFraction?_padded {width : Nat} (hwidth : 0 < width) (hshort : width ≤ 9)
    (h : n < Nat.pow 10 width) (hrest : ∀ c, rest.head? = some c → Ascii.isDigit c = false) :
    readFraction? ('.' :: (padded width n ++ rest)) = some (n * Nat.pow 10 (9 - width), rest) := by
  have hlength := length_padded hwidth h
  rw [readFraction?_point (fun _ => isDigit_of_mem_padded) (padded_ne_nil width n)
    (by rw [hlength]; exact hshort) hrest, decimalValue_padded, hlength]

/-- The digits left out of a fraction are zeros. -/
theorem readFraction?_fractionText (h : n < 1000000000)
    (hrest : ∀ c, rest.head? = some c → Ascii.isDigit c = false ∧ c ≠ '.') :
    readFraction? (fractionText n ++ rest) = some (n, rest) := by
  have hdigit : ∀ c, rest.head? = some c → Ascii.isDigit c = false := fun c hc => (hrest c hc).1
  unfold fractionText
  split
  · rename_i hzero
    rw [eq_of_beq hzero, List.nil_append]
    unfold readFraction?
    split
    · exact absurd rfl (hrest '.' rfl).2
    · rfl
  · split
    · rename_i hmillis
      have hmillis : n % 1000000 = 0 := eq_of_beq hmillis
      have hfits : n / 1000000 < 1000 := by omega
      rw [List.cons_append, readFraction?_padded (by decide) (by decide) hfits hdigit]
      exact congrArg (fun m => some (m, rest)) (show n / 1000000 * 1000000 = n by omega)
    · split
      · rename_i hmicros
        have hmicros : n % 1000 = 0 := eq_of_beq hmicros
        have hfits : n / 1000 < 1000000 := by omega
        rw [List.cons_append, readFraction?_padded (by decide) (by decide) hfits hdigit]
        exact congrArg (fun m => some (m, rest)) (show n / 1000 * 1000 = n by omega)
      · rw [List.cons_append, readFraction?_padded (by decide) (by decide) h hdigit]
        exact congrArg (fun m => some (m, rest)) (Nat.mul_one n)

theorem head_offsetText {offset : Int} {c : Char} (h : (offsetText offset).head? = some c) :
    Ascii.isDigit c = false ∧ c ≠ '.' := by
  have hsign : (if offset < 0 then '-' else '+') = c := Option.some.inj h
  split at hsign
  · subst hsign
    decide
  · subst hsign
    decide

/-- Hours and minutes behind a sign. -/
theorem readOffset?_signed {c : Char} (hzulu : (c == 'Z' || c == 'z') = false)
    (hsign : (c == '+' || c == '-' || c == '\u2212') = true) {hours minutes : Nat}
    (hhours : hours ≤ 23) (hminutes : minutes ≤ 59) :
    readOffset? (c :: (padded 2 hours ++ ':' :: padded 2 minutes)) =
      some (if c == '+' then (hours : Int) * 60 + minutes else -((hours : Int) * 60 + minutes),
        []) := by
  have hfirst : readFixed? 2 (padded 2 hours ++ ':' :: padded 2 minutes) =
      some (hours, ':' :: padded 2 minutes) :=
    readFixed?_padded (by decide) (show _ < 100 by omega) _
  have hsecond : readFixed? 2 (padded 2 minutes ++ []) = some (minutes, []) :=
    readFixed?_padded (by decide) (show _ < 100 by omega) []
  rw [List.append_nil] at hsecond
  have hcolon : readOneOf? [':'] (':' :: padded 2 minutes) = some (padded 2 minutes) :=
    readOneOf?_cons rfl _
  have hrange : (decide (hours ≤ 23) && decide (minutes ≤ 59)) = true := by
    rw [decide_eq_true hhours, decide_eq_true hminutes]
    rfl
  unfold readOffset?
  simp only [hzulu, hsign, hfirst, hcolon, hsecond, hrange, Bool.false_eq_true, if_false, if_true,
    Option.bind_eq_bind, Option.bind_some]

/-- Offsets are read as they are written. -/
theorem readOffset?_offsetText {offset : Int} (h : offset.natAbs ≤ 23 * 60 + 59) :
    readOffset? (offsetText offset) = some (offset, []) := by
  have hhours : offset.natAbs / 60 ≤ 23 := by omega
  have hminutes : offset.natAbs % 60 ≤ 59 := by omega
  unfold offsetText
  by_cases hnegative : offset < 0
  · rw [if_pos hnegative, readOffset?_signed (by decide) (by decide) hhours hminutes,
      if_neg (by decide)]
    exact congrArg (fun o => some (o, [])) (by omega)
  · rw [if_neg hnegative, readOffset?_signed (by decide) (by decide) hhours hminutes,
      if_pos (by decide)]
    exact congrArg (fun o => some (o, [])) (by omega)

/-- A timestamp is read as it is written. -/
theorem read?_text {t : Timestamp} (h : t.IsValid) : read? t.text = some t := by
  obtain ⟨hmonth, hday⟩ := h.date.bounds
  have hyear := h.year
  have hhour := h.hour
  have hminute := h.minute
  have hsecond := h.second
  have hyearText : Date.yearText t.date.year = padded 4 t.date.year.toNat := by
    unfold Date.yearText
    rw [decide_eq_true hyear.1, decide_eq_true hyear.2, Bool.and_self, if_pos rfl]
  have htext : t.text.toList = padded 4 t.date.year.toNat ++ '-' :: (padded 2 t.date.month ++ '-' ::
      (padded 2 t.date.day ++ 'T' :: (padded 2 t.hour ++ ':' :: (padded 2 t.minute ++ ':' ::
        (padded 2 t.second ++ (fractionText t.nanosecond ++ offsetText t.offset)))))) := by
    unfold Timestamp.text Date.text
    rw [String.toList_ofList, String.toList_ofList, hyearText]
    simp only [List.append_assoc, List.cons_append]
  have hfixed (n : Nat) (hn : n < 100) (rest : List Char) :
      readFixed? 2 (padded 2 n ++ rest) = some (n, rest) := readFixed?_padded (by decide) hn rest
  have hfour (rest : List Char) : readFixed? 4 (padded 4 t.date.year.toNat ++ rest) =
      some (t.date.year.toNat, rest) :=
    readFixed?_padded (by decide) (show _ < 10000 by omega) rest
  have hdate : Date.ofNumbers? (t.date.year.toNat : Int) t.date.month t.date.day = some t.date := by
    rw [Int.toNat_of_nonneg hyear.1]
    exact h.date
  have hrange : (List.isEmpty ([] : List Char) && decide (t.hour ≤ 23) && decide (t.minute ≤ 59) &&
      decide (t.second ≤ 60)) = true := by
    rw [decide_eq_true hhour, decide_eq_true hminute, decide_eq_true hsecond]
    rfl
  have hhyphen (rest : List Char) : readOneOf? ['-'] ('-' :: rest) = some rest := rfl
  have hcolon (rest : List Char) : readOneOf? [':'] (':' :: rest) = some rest := rfl
  have hseparator (rest : List Char) : readOneOf? ['T', 't', ' '] ('T' :: rest) = some rest := rfl
  unfold read?
  rw [htext]
  -- part by part, each in front of the text of those after it
  refine Option.bind_eq_some_iff.2 ⟨_, hfour _, ?_⟩
  refine Option.bind_eq_some_iff.2 ⟨_, hhyphen _, ?_⟩
  refine Option.bind_eq_some_iff.2 ⟨_, hfixed _ hmonth _, ?_⟩
  refine Option.bind_eq_some_iff.2 ⟨_, hhyphen _, ?_⟩
  refine Option.bind_eq_some_iff.2 ⟨_, hfixed _ hday _, ?_⟩
  refine Option.bind_eq_some_iff.2 ⟨_, hseparator _, ?_⟩
  refine Option.bind_eq_some_iff.2 ⟨_, hfixed t.hour (by omega) _, ?_⟩
  refine Option.bind_eq_some_iff.2 ⟨_, hcolon _, ?_⟩
  refine Option.bind_eq_some_iff.2 ⟨_, hfixed t.minute (by omega) _, ?_⟩
  refine Option.bind_eq_some_iff.2 ⟨_, hcolon _, ?_⟩
  refine Option.bind_eq_some_iff.2 ⟨_, hfixed t.second (by omega) _, ?_⟩
  refine Option.bind_eq_some_iff.2
    ⟨_, readFraction?_fractionText h.nanosecond (fun _ => head_offsetText), ?_⟩
  refine Option.bind_eq_some_iff.2 ⟨_, readOffset?_offsetText h.offset, ?_⟩
  refine Option.bind_eq_some_iff.2 ⟨_, hdate, ?_⟩
  exact if_pos hrange

/-! ### Texts that are timestamps -/

/-- The characters of timestamps. -/
def IsMark (c : Char) : Prop :=
  Ascii.isDigit c = true ∨ c ∈ ['-', ':', 'T', 't', ' ', '.', '+', 'Z', 'z', '\u2212']

theorem readFixed?_passes {count : Nat} (h : readFixed? count text = some (n, rest)) :
    Passes IsMark text rest ∧ n < Nat.pow 10 count := by
  obtain ⟨hdigits, h⟩ := Option.ite_none_right_eq_some.1 h
  obtain ⟨hlength, hdigits⟩ := Bool.and_eq_true_iff.1 hdigits
  have hdigits := List.all_eq_true.1 hdigits
  have hlength : (text.take count).length = count := eq_of_beq hlength
  have hvalue := Ascii.decimalValue_lt hdigits
  rw [hlength] at hvalue
  obtain ⟨rfl, rfl⟩ := Prod.ext_iff.1 (Option.some.inj h)
  refine ⟨⟨text.take count, (List.take_append_drop _ _).symm, fun c hc => ?_⟩, hvalue⟩
  exact .inl (hdigits c hc)

/-- Some digit comes first. -/
theorem readFixed?_head {count : Nat} (hcount : 0 < count)
    (h : readFixed? count text = some (n, rest)) : ∃ c more, text = c :: more ∧
      Ascii.isDigit c = true := by
  obtain ⟨hdigits, -⟩ := Option.ite_none_right_eq_some.1 h
  obtain ⟨hlength, hdigits⟩ := Bool.and_eq_true_iff.1 hdigits
  have hlength : (text.take count).length = count := eq_of_beq hlength
  cases text with
  | nil =>
      rw [List.take_nil, List.length_nil] at hlength
      omega
  | cons c more =>
      obtain ⟨count, rfl⟩ := Nat.exists_eq_succ_of_ne_zero (Nat.ne_of_gt hcount)
      exact ⟨c, more, rfl, List.all_eq_true.1 hdigits c List.mem_cons_self⟩

theorem readOneOf?_passes {chars : List Char} (hchars : ∀ c ∈ chars, IsMark c)
    (h : readOneOf? chars text = some rest) : Passes IsMark text rest := by
  cases text with
  | nil => cases h
  | cons c text =>
      obtain ⟨hc, h⟩ := Option.ite_none_right_eq_some.1 h
      obtain rfl := Option.some.inj h
      exact .cons (hchars c (List.contains_iff_mem.1 hc))

theorem readFraction?_passes (h : readFraction? text = some (n, rest)) :
    Passes IsMark text rest ∧ n < 1000000000 := by
  unfold readFraction? at h
  split at h
  · rename_i digits
    obtain ⟨-, h⟩ := Option.ite_none_left_eq_some.1 h
    obtain ⟨rfl, rfl⟩ := Prod.ext_iff.1 (Option.some.inj h)
    refine ⟨(Passes.cons (.inr (by decide))).trans (.dropWhile (fun c => .inl) digits), ?_⟩
    generalize hkept : (digits.takeWhile Ascii.isDigit).take 9 = kept
    have hdigits : ∀ c ∈ kept, Ascii.isDigit c = true := by
      intro c hc
      rw [← hkept] at hc
      exact List.all_eq_true.1 List.all_takeWhile c (List.mem_of_mem_take hc)
    have hlength : kept.length ≤ 9 := by
      rw [← hkept]
      exact List.length_take_le _ _
    -- the digits kept and the zeros put behind them are nine
    calc Ascii.decimalValue kept * Nat.pow 10 (9 - kept.length)
        < Nat.pow 10 kept.length * Nat.pow 10 (9 - kept.length) :=
          Nat.mul_lt_mul_of_pos_right (Ascii.decimalValue_lt hdigits) (Nat.pow_pos (by decide))
      _ = Nat.pow 10 (kept.length + (9 - kept.length)) := (Nat.pow_add 10 _ _).symm
      _ = 1000000000 := by rw [Nat.add_sub_cancel' hlength]
  · cases h
    exact ⟨.refl text, by decide⟩

theorem readOffset?_passes {offset : Int} (h : readOffset? text = some (offset, rest)) :
    Passes IsMark text rest ∧ offset.natAbs ≤ 23 * 60 + 59 := by
  cases text with
  | nil => cases h
  | cons c text =>
      unfold readOffset? at h
      dsimp only at h
      split at h
      · rename_i hzulu
        cases h
        rcases Bool.or_eq_true_iff.1 hzulu with hc | hc
        · rw [eq_of_beq hc]
          exact ⟨.cons (.inr (by decide)), by decide⟩
        · rw [eq_of_beq hc]
          exact ⟨.cons (.inr (by decide)), by decide⟩
      · obtain ⟨hsign, h⟩ := Option.ite_none_right_eq_some.1 h
        have hmark : IsMark c := by
          simp only [Bool.or_eq_true, beq_iff_eq] at hsign
          rcases hsign with (rfl | rfl) | rfl <;> exact .inr (by decide)
        obtain ⟨⟨hours, _⟩, hhours, h⟩ := Option.bind_eq_some_iff.1 h
        obtain ⟨_, hcolon, h⟩ := Option.bind_eq_some_iff.1 h
        obtain ⟨⟨minutes, _⟩, hminutes, h⟩ := Option.bind_eq_some_iff.1 h
        obtain ⟨hrange, h⟩ := Option.ite_none_right_eq_some.1 h
        obtain ⟨rfl, rfl⟩ := Prod.ext_iff.1 (Option.some.inj h)
        obtain ⟨hmost, hmost'⟩ := Bool.and_eq_true_iff.1 hrange
        have hmost : hours ≤ 23 := of_decide_eq_true hmost
        have hmost' : minutes ≤ 59 := of_decide_eq_true hmost'
        have hcolon : ∀ d ∈ [':'], IsMark d := fun d hd => .inr (by simp_all)
        refine ⟨(Passes.cons hmark).trans ((readFixed?_passes hhours).1.trans
          ((readOneOf?_passes hcolon ‹_›).trans (readFixed?_passes hminutes).1)), ?_⟩
        dsimp only
        split <;> omega

/-- What reads as a timestamp starts with a digit and consists of few characters, and the timestamp
is one that can be written. -/
theorem read?_passes {text : String} {t : Timestamp} (h : read? text = some t) :
    (∀ c ∈ text.toList, IsMark c) ∧
      (∃ c more, text.toList = c :: more ∧ Ascii.isDigit c = true) ∧ t.IsValid := by
  unfold read? at h
  obtain ⟨⟨year, _⟩, hyear, h⟩ := Option.bind_eq_some_iff.1 h
  obtain ⟨_, hhyphen, h⟩ := Option.bind_eq_some_iff.1 h
  obtain ⟨⟨month, _⟩, hmonth, h⟩ := Option.bind_eq_some_iff.1 h
  obtain ⟨_, hhyphen', h⟩ := Option.bind_eq_some_iff.1 h
  obtain ⟨⟨day, _⟩, hday, h⟩ := Option.bind_eq_some_iff.1 h
  obtain ⟨_, hseparator, h⟩ := Option.bind_eq_some_iff.1 h
  obtain ⟨⟨hour, _⟩, hhour, h⟩ := Option.bind_eq_some_iff.1 h
  obtain ⟨_, hcolon, h⟩ := Option.bind_eq_some_iff.1 h
  obtain ⟨⟨minute, _⟩, hminute, h⟩ := Option.bind_eq_some_iff.1 h
  obtain ⟨_, hcolon', h⟩ := Option.bind_eq_some_iff.1 h
  obtain ⟨⟨second, _⟩, hsecond, h⟩ := Option.bind_eq_some_iff.1 h
  obtain ⟨⟨nanosecond, _⟩, hfraction, h⟩ := Option.bind_eq_some_iff.1 h
  obtain ⟨⟨offset, rest⟩, hoffset, h⟩ := Option.bind_eq_some_iff.1 h
  obtain ⟨date, hdate, h⟩ := Option.bind_eq_some_iff.1 h
  obtain ⟨hrange, h⟩ := Option.ite_none_right_eq_some.1 h
  obtain rfl := Option.some.inj h
  simp only [Bool.and_eq_true, decide_eq_true_eq, List.isEmpty_iff] at hrange
  obtain ⟨⟨⟨rfl, hhours⟩, hminutes⟩, hseconds⟩ := hrange
  have hhead := readFixed?_head (by decide) hyear
  obtain ⟨hyear, hfour⟩ := readFixed?_passes hyear
  have hfour : year < 10000 := hfour
  obtain ⟨hfraction, hnanosecond⟩ := readFraction?_passes hfraction
  obtain ⟨hoffset, hbound⟩ := readOffset?_passes hoffset
  obtain ⟨rfl, hvalid⟩ := Date.ofNumbers?_eq_some hdate
  have hone {chars : List Char} (hchars : ∀ c ∈ chars,
      c ∈ ['-', ':', 'T', 't', ' ', '.', '+', 'Z', 'z', '\u2212']) : ∀ c ∈ chars, IsMark c :=
    fun c hc => .inr (hchars c hc)
  have hpasses : Passes IsMark text.toList [] :=
    hyear.trans <| (readOneOf?_passes (hone (by simp)) hhyphen).trans <|
      (readFixed?_passes hmonth).1.trans <| (readOneOf?_passes (hone (by simp)) hhyphen').trans <|
      (readFixed?_passes hday).1.trans <| (readOneOf?_passes (hone (by simp)) hseparator).trans <|
      (readFixed?_passes hhour).1.trans <| (readOneOf?_passes (hone (by simp)) hcolon).trans <|
      (readFixed?_passes hminute).1.trans <| (readOneOf?_passes (hone (by simp)) hcolon').trans <|
      (readFixed?_passes hsecond).1.trans <| hfraction.trans hoffset
  have hrange : 0 ≤ (year : Int) ∧ (year : Int) ≤ 9999 := by omega
  exact ⟨hpasses.mem, hhead, hvalid, hrange, hhours, hminutes, hseconds, hnanosecond, hbound⟩

end Timestamp

end SchemaGraph

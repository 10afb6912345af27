import SchemaGraph.Proofs.Resolver.Joins
import SchemaGraph.Proofs.Resolver.Pointers

set_option autoImplicit false

/-! # Texts of locations

The text of a location writes each segment with its tildes and slashes escaped, and reading undoes
that (`Segment.unescape_escape`). Reading decodes percent escapes too, which writing never makes: a
segment that holds one comes back shorter (`Segment.length_unescape_decodeFrom`), and one that is
empty does not come back at all. All other locations are read back from their texts, by a location
and by a resolver (`Path.reads_back_iff`).
-/

namespace SchemaGraph

/-! ## Percent escapes in a text -/

namespace Percent

/-- A percent sign with two hexadecimal digits behind it. -/
def HasEscape (text : List Char) : Prop :=
  ∃ front a b back, text = front ++ '%' :: a :: b :: back ∧ Ascii.isHex a = true ∧
    Ascii.isHex b = true

variable {c : Char} {text rest : List Char}

theorem startsWithDigits_iff : startsWithDigits text = true ↔
    ∃ a b back, text = a :: b :: back ∧ Ascii.isHex a = true ∧ Ascii.isHex b = true := by
  constructor
  · intro h
    rcases text with _ | ⟨a, _ | ⟨b, back⟩⟩
    · cases h
    · cases h
    · obtain ⟨ha, hb⟩ := Bool.and_eq_true_iff.1 h
      exact ⟨a, b, back, rfl, ha, hb⟩
  · rintro ⟨a, b, back, rfl, ha, hb⟩
    exact Bool.and_eq_true_iff.2 ⟨ha, hb⟩

theorem not_hasEscape_nil : ¬HasEscape [] := by
  rintro ⟨front, a, b, back, h, -⟩
  cases front <;> cases h

/-- An escape comes first, or further on. -/
theorem hasEscape_cons :
    HasEscape (c :: rest) ↔ (c = '%' ∧ startsWithDigits rest = true) ∨ HasEscape rest := by
  constructor
  · rintro ⟨_ | ⟨d, front⟩, a, b, back, heq, ha, hb⟩
    · obtain ⟨rfl, rfl⟩ := List.cons.inj heq
      exact .inl ⟨rfl, startsWithDigits_iff.2 ⟨a, b, back, rfl, ha, hb⟩⟩
    · exact .inr ⟨front, a, b, back, (List.cons.inj heq).2, ha, hb⟩
  · rintro (⟨rfl, hdigits⟩ | ⟨front, a, b, back, rfl, ha, hb⟩)
    · obtain ⟨a, b, back, rfl, ha, hb⟩ := startsWithDigits_iff.1 hdigits
      exact ⟨[], a, b, back, rfl, ha, hb⟩
    · exact ⟨c :: front, a, b, back, rfl, ha, hb⟩

theorem hasEscape_cons_of_ne (h : c ≠ '%') : HasEscape (c :: rest) ↔ HasEscape rest := by
  rw [hasEscape_cons]
  exact or_iff_right fun hc => h hc.1

instance decidableHasEscape : (text : List Char) → Decidable (HasEscape text)
  | [] => isFalse not_hasEscape_nil
  | _ :: rest =>
    have := decidableHasEscape rest
    decidable_of_iff _ hasEscape_cons.symm

/-- Without escapes there is nothing to decode. -/
theorem decode_of_not_hasEscape (h : ¬HasEscape text) : decode text = text := by
  induction text with
  | nil => exact Utf8.decodeLossy.eq_1
  | cons c rest ih =>
      rw [hasEscape_cons, not_or, not_and_or] at h
      have hends : c ≠ '%' ∨ startsWithDigits rest = false :=
        h.1.imp_right Bool.eq_false_iff.2
      unfold decode at ih ⊢
      rw [decodeFrom_ends hends, Utf8.decodeLossy.eq_1, ih h.2]
      rfl

end Percent

/-- A byte reads as one character at most. -/
theorem Utf8.length_decodeLossy_le (bytes : List UInt8) :
    (decodeLossy bytes).length ≤ bytes.length := by
  fun_induction decodeLossy bytes with
  | case1 => exact Nat.le_refl 0
  | case2 b rest owed found c ih =>
      rw [List.length_drop] at ih
      rw [List.length_cons, List.length_cons]
      omega

/-! ## Segments -/

namespace Segment

open Percent

variable {c : Char} {text rest : List Char}

theorem escape_cons (c : Char) (rest : List Char) : escape (c :: rest) =
    (if c == '~' then ['~', '0'] else if c == '/' then ['~', '1'] else [c]) ++ escape rest := rfl

theorem escape_tilde (rest : List Char) : escape ('~' :: rest) = '~' :: '0' :: escape rest := rfl

theorem escape_slash (rest : List Char) : escape ('/' :: rest) = '~' :: '1' :: escape rest := rfl

theorem escape_plain (htilde : c ≠ '~') (hslash : c ≠ '/') (rest : List Char) :
    escape (c :: rest) = c :: escape rest := by
  rw [escape_cons, if_neg (by simpa using htilde), if_neg (by simpa using hslash)]
  rfl

theorem escape_eq_nil : escape text = [] ↔ text = [] := by
  cases text with
  | nil => exact iff_of_true rfl rfl
  | cons c rest =>
      rw [escape_cons]
      split
      · simp
      · split <;> simp

theorem slash_not_mem_escape (text : List Char) : '/' ∉ escape text := by
  induction text with
  | nil => exact List.not_mem_nil
  | cons c rest ih =>
      rw [escape_cons, List.mem_append, not_or]
      refine ⟨?_, ih⟩
      split
      · decide
      · split
        · decide
        · rename_i hslash
          rw [List.mem_singleton]
          rintro rfl
          exact hslash rfl

/-! ### Undoing escapes in one pass

Slashes are put back before tildes, and neither step makes work for the other: together they read
the text once. -/

/-- Neither `~0` nor `~1` starts with this character. -/
def Stands (c : Char) (rest : List Char) : Prop :=
  c ≠ '~' ∨ rest.head? ≠ some '0' ∧ rest.head? ≠ some '1'

theorem unescapeSlash_cons (h : c ≠ '~' ∨ rest.head? ≠ some '1') :
    unescapeSlash (c :: rest) = c :: unescapeSlash rest := by
  rw [unescapeSlash.eq_def]
  split
  · rename_i heq
    cases heq
  · rename_i heq
    cases heq
    rcases h with h | h
    · exact absurd rfl h
    · exact absurd rfl h
  · rename_i heq
    cases heq
    rfl

theorem unescapeTilde_cons (h : c ≠ '~' ∨ rest.head? ≠ some '0') :
    unescapeTilde (c :: rest) = c :: unescapeTilde rest := by
  rw [unescapeTilde.eq_def]
  split
  · rename_i heq
    cases heq
  · rename_i heq
    cases heq
    rcases h with h | h
    · exact absurd rfl h
    · exact absurd rfl h
  · rename_i heq
    cases heq
    rfl

/-- Putting slashes back makes no digit. -/
theorem head_unescapeSlash (h : rest.head? ≠ some '0') : (unescapeSlash rest).head? ≠ some '0' := by
  rw [unescapeSlash.eq_def]
  split
  · exact h
  · exact fun hzero => by cases hzero
  · exact h

@[simp] theorem unescape_nil : unescape [] = [] := rfl

@[simp] theorem unescape_zero (rest : List Char) :
    unescape ('~' :: '0' :: rest) = '~' :: unescape rest := by
  have htilde : unescapeSlash ('~' :: '0' :: rest) = '~' :: unescapeSlash ('0' :: rest) :=
    unescapeSlash_cons (.inr nofun)
  have hzero : unescapeSlash ('0' :: rest) = '0' :: unescapeSlash rest :=
    unescapeSlash_cons (.inl (by decide))
  unfold unescape
  rw [htilde, hzero]
  rfl

@[simp] theorem unescape_one (rest : List Char) :
    unescape ('~' :: '1' :: rest) = '/' :: unescape rest := by
  have hslash : unescapeSlash ('~' :: '1' :: rest) = '/' :: unescapeSlash rest := rfl
  unfold unescape
  rw [hslash]
  exact unescapeTilde_cons (.inl (by decide))

theorem unescape_cons (h : Stands c rest) : unescape (c :: rest) = c :: unescape rest := by
  have hslash : unescapeSlash (c :: rest) = c :: unescapeSlash rest :=
    unescapeSlash_cons (h.imp_right And.right)
  unfold unescape
  rw [hslash]
  exact unescapeTilde_cons (h.imp_right fun hrest => head_unescapeSlash hrest.1)

/-- A character stands for itself, or an escape starts with it. -/
theorem stands_or_escape (c : Char) (rest : List Char) :
    Stands c rest ∨ c = '~' ∧ ∃ d more, rest = d :: more ∧ (d = '0' ∨ d = '1') := by
  by_cases hc : c = '~'
  · cases rest with
    | nil => exact .inl (.inr (by decide))
    | cons d more =>
        by_cases hd : d = '0' ∨ d = '1'
        · exact .inr ⟨hc, d, more, rfl, hd⟩
        · exact .inl (.inr (by simpa [not_or] using hd))
  · exact .inl (.inl hc)

theorem unescape_escape (text : List Char) : unescape (escape text) = text := by
  induction text with
  | nil => rfl
  | cons c rest ih =>
      by_cases htilde : c = '~'
      · rw [htilde, escape_tilde, unescape_zero, ih]
      · by_cases hslash : c = '/'
        · rw [hslash, escape_slash, unescape_one, ih]
        · rw [escape_plain htilde hslash, unescape_cons (.inl htilde), ih]

/-! ### Lengths -/

/-- Of an escape one character is left, as if only its digit stood there. -/
theorem length_unescape_escaped {d : Char} (h : d = '0' ∨ d = '1') (rest : List Char) :
    (unescape ('~' :: d :: rest)).length = (unescape (d :: rest)).length := by
  rcases h with rfl | rfl
  · rw [unescape_zero, unescape_cons (.inl (by decide))]
    rfl
  · rw [unescape_one, unescape_cons (.inl (by decide))]
    rfl

theorem length_unescape_cons_le (c : Char) (rest : List Char) :
    (unescape (c :: rest)).length ≤ (unescape rest).length + 1 := by
  rcases stands_or_escape c rest with h | ⟨rfl, d, more, rfl, hd⟩
  · rw [unescape_cons h]
    exact Nat.le_refl _
  · rw [length_unescape_escaped hd]
    exact Nat.le_succ _

theorem length_unescape_append_le (front back : List Char) :
    (unescape (front ++ back)).length ≤ front.length + (unescape back).length := by
  induction front with
  | nil => exact Nat.le_of_eq (Nat.zero_add _).symm
  | cons c front ih =>
      have hle := length_unescape_cons_le c (front ++ back)
      rw [List.cons_append, List.length_cons]
      omega

/-- A digit is no tilde. -/
theorem stands_of_isHex (h : Ascii.isHex c = true) (rest : List Char) : Stands c rest := by
  refine .inl ?_
  rintro rfl
  cases h

/-- As much as decoding takes from what follows a character, it takes from the whole. -/
theorem length_unescape_decode_cons {extra : Nat} (c : Char)
    (h : (unescape (decode rest)).length + extra ≤ (unescape rest).length) :
    (unescape (c :: decode rest)).length + extra ≤ (unescape (c :: rest)).length := by
  rcases stands_or_escape c rest with hstands | ⟨rfl, d, more, rfl, hd⟩
  · have hle := length_unescape_cons_le c (decode rest)
    rw [unescape_cons hstands, List.length_cons]
    omega
  · -- the escape stays, as its digit starts no percent escape
    have hplain : d ≠ '%' := by rcases hd with rfl | rfl <;> decide
    have hdecode : decode (d :: more) = d :: decode more := by
      unfold decode
      rw [decodeFrom_plain hplain, Utf8.decodeLossy.eq_1]
      rfl
    rw [hdecode] at h ⊢
    rw [length_unescape_escaped hd, length_unescape_escaped hd]
    exact h

/-- The same where a run of escapes ends. -/
theorem length_unescape_ends {run : List UInt8} (hends : c ≠ '%' ∨ startsWithDigits rest = false)
    (h : (unescape (decodeFrom [] rest)).length + (if HasEscape rest then 1 else 0) ≤
      (unescape rest).length) :
    (unescape (Utf8.decodeLossy run ++ c :: decodeFrom [] rest)).length +
      (if HasEscape (c :: rest) then 1 else 0) ≤ run.length + (unescape (c :: rest)).length := by
  have hsame : HasEscape (c :: rest) ↔ HasEscape rest := by
    rw [hasEscape_cons]
    refine or_iff_right fun hfirst => ?_
    rcases hends with hc | hdigits
    · exact hc hfirst.1
    · rw [hdigits] at hfirst
      cases hfirst.2
  have hrun := Utf8.length_decodeLossy_le run
  have happend := length_unescape_append_le (Utf8.decodeLossy run) (c :: decodeFrom [] rest)
  have hcons := length_unescape_decode_cons c h
  unfold decode at hcons
  simp only [hsame]
  omega

/-- Decoding makes a text no longer, in unescaped form, and shorter if it finds an escape: three
characters become a byte. -/
theorem length_unescape_decodeFrom (run : List UInt8) (text : List Char) :
    (unescape (decodeFrom run text)).length + (if HasEscape text then 1 else 0) ≤
      run.length + (unescape text).length := by
  fun_induction decodeFrom run text with
  | case1 run =>
      have hrun := Utf8.length_decodeLossy_le run
      have happend := length_unescape_append_le (Utf8.decodeLossy run) []
      rw [List.append_nil] at happend
      rw [if_neg not_hasEscape_nil]
      exact Nat.le_trans happend (Nat.add_le_add_right hrun _)
  | case2 run a b rest x y hb ha ih =>
      have hdigit : ∀ {c n}, Ascii.hexValue? c = some n → Ascii.isHex c = true := fun h =>
        Option.isSome_iff_exists.2 ⟨_, h⟩
      have hlength : (unescape ('%' :: a :: b :: rest)).length = (unescape rest).length + 3 := by
        rw [unescape_cons (.inl (by decide)), unescape_cons (stands_of_isHex (hdigit ha) _),
          unescape_cons (stands_of_isHex (hdigit hb) _)]
        rfl
      rw [List.length_append, List.length_singleton] at ih
      rw [hlength]
      split <;> split at ih <;> omega
  | case3 run a b rest hdigits ih =>
      rw [List.length_nil, Nat.zero_add] at ih
      exact length_unescape_ends (.inr (ends_of_digits hdigits)) ih
  | case4 run c rest hshort ih =>
      rw [List.length_nil, Nat.zero_add] at ih
      exact length_unescape_ends (ends_of_short hshort) ih

/-! ### Segments that are read back -/

theorem startsWithDigits_cons (c : Char) (rest : List Char) :
    startsWithDigits (c :: rest) = (Ascii.isHex c && rest.head?.any Ascii.isHex) := by
  cases rest with
  | nil => exact (Bool.and_false _).symm
  | cons d rest => rfl

/-- Neither what is escaped nor what comes in its place is a digit. -/
theorem head_escape (text : List Char) :
    (escape text).head?.any Ascii.isHex = text.head?.any Ascii.isHex := by
  cases text with
  | nil => rfl
  | cons c rest =>
      by_cases htilde : c = '~'
      · rw [htilde]
        rfl
      · by_cases hslash : c = '/'
        · rw [hslash]
          rfl
        · rw [escape_plain htilde hslash]
          rfl

theorem startsWithDigits_escape (text : List Char) :
    startsWithDigits (escape text) = startsWithDigits text := by
  cases text with
  | nil => rfl
  | cons c rest =>
      by_cases htilde : c = '~'
      · rw [htilde, escape_tilde, startsWithDigits_cons, startsWithDigits_cons]
        rfl
      · by_cases hslash : c = '/'
        · rw [hslash, escape_slash, startsWithDigits_cons, startsWithDigits_cons]
          rfl
        · rw [escape_plain htilde hslash, startsWithDigits_cons, startsWithDigits_cons, head_escape]

/-- Escaping makes no percent escape and removes none. -/
theorem hasEscape_escape (text : List Char) : HasEscape (escape text) ↔ HasEscape text := by
  induction text with
  | nil => exact Iff.rfl
  | cons c rest ih =>
      by_cases htilde : c = '~'
      · rw [htilde, escape_tilde, hasEscape_cons_of_ne (by decide),
          hasEscape_cons_of_ne (by decide), hasEscape_cons_of_ne (by decide), ih]
      · by_cases hslash : c = '/'
        · rw [hslash, escape_slash, hasEscape_cons_of_ne (by decide),
            hasEscape_cons_of_ne (by decide), hasEscape_cons_of_ne (by decide), ih]
        · rw [escape_plain htilde hslash, hasEscape_cons, hasEscape_cons, ih,
            startsWithDigits_escape]

/-- What is read for a segment that was written. -/
def readBack (part : String) : String :=
  Uri.segmentOf (Percent.decode (escape part.toList))

/-- A segment is read back exactly if it holds no percent escape. -/
theorem readBack_eq_iff (part : String) : readBack part = part ↔ ¬HasEscape part.toList := by
  unfold readBack Uri.segmentOf
  constructor
  · intro h hescape
    have hshorter := length_unescape_decodeFrom [] (escape part.toList)
    have hsame := congrArg String.toList h
    rw [String.toList_ofList] at hsame
    unfold Percent.decode at hsame
    rw [if_pos ((hasEscape_escape _).2 hescape), unescape_escape, hsame,
      List.length_nil] at hshorter
    omega
  · intro hescape
    rw [decode_of_not_hasEscape (mt (hasEscape_escape _).1 hescape), unescape_escape,
      String.ofList_toList]

end Segment

/-! ## Locations -/

namespace Path

open Percent

/-- A location as programs make it: the root, what a URI names, and what is reached from such a
location by going down to a segment or up again. -/
inductive IsBuilt : Path → Prop where
  | root : IsBuilt root
  | ofUri (uri : String) : IsBuilt (ofUri uri)
  | child {path : Path} (h : IsBuilt path) (part : String) : IsBuilt (path.child part)
  | parent {path : Path} (h : IsBuilt path) : IsBuilt path.parent

/-- The URI of a location's document has no fragment. -/
theorem IsBuilt.hash_not_mem {path : Path} (h : path.IsBuilt) : '#' ∉ path.base.toList := by
  induction h with
  | root => exact List.not_mem_nil
  | ofUri uri =>
      show '#' ∉ (String.ofList (Uri.document uri)).toList
      rw [String.toList_ofList]
      exact Uri.hash_not_mem_document uri
  | child _ _ ih => exact ih
  | parent _ ih => exact ih

/-- All segments are read back from their text. -/
def IsReadable (path : Path) : Prop :=
  ∀ part ∈ path.parts, part ≠ "" ∧ ¬HasEscape part.toList

instance (path : Path) : Decidable path.IsReadable :=
  inferInstanceAs (Decidable (∀ part ∈ path.parts, part ≠ "" ∧ ¬HasEscape part.toList))

/-- The text of segments, each behind a slash. -/
def pointer (parts : List String) : List Char :=
  parts.flatMap fun part => '/' :: Segment.escape part.toList

variable {path : Path} {parts : List String}

/-- The text of a location is cut where it was put together. -/
theorem splitFragment_text (h : '#' ∉ path.base.toList) :
    splitFragment path.text.toList = (path.base.toList, pointer path.parts) := by
  unfold text
  by_cases hparts : path.parts = []
  · rw [hparts, if_pos List.isEmpty_nil]
    by_cases hbase : path.base = ""
    · rw [hbase]
      rfl
    · rw [if_neg (by simpa using hbase), Uri.splitFragment_of_not_mem h]
      rfl
  · rw [if_neg (by simpa using hparts), String.toList_ofList, Uri.splitFragment_append h]
    rfl

theorem defrag_text (h : '#' ∉ path.base.toList) :
    Uri.defrag path.text = (path.base, String.ofList (pointer path.parts)) := by
  unfold Uri.defrag
  rw [splitFragment_text h]
  exact congrArg (·, _) String.ofList_toList

/-- Slashes separate the segments and nothing else. -/
theorem splitOn_pointer {front : List Char} (h : '/' ∉ front) (parts : List String) :
    splitOn '/' (front ++ pointer parts) = front :: parts.map (Segment.escape ·.toList) := by
  induction parts generalizing front with
  | nil => exact (congrArg (splitOn '/') (List.append_nil front)).trans (splitOn_of_not_mem h)
  | cons part parts ih =>
      have hcons : pointer (part :: parts) = '/' :: (Segment.escape part.toList ++ pointer parts) :=
        rfl
      rw [hcons, splitOn_append, splitOn_of_not_mem h, ih (Segment.slash_not_mem_escape _)]
      rfl

theorem escape_isEmpty (part : String) :
    (!(Segment.escape part.toList).isEmpty) = decide (part ≠ "") := by
  have hempty : (Segment.escape part.toList).isEmpty = true ↔ part = "" := by
    rw [List.isEmpty_iff, Segment.escape_eq_nil, String.toList_eq_nil_iff]
  by_cases h : part = ""
  · rw [hempty.2 h, decide_eq_false (not_not_intro h)]
    rfl
  · rw [Bool.eq_false_iff.2 (mt hempty.1 h), decide_eq_true h]
    rfl

/-- What a text gives back: segments that were empty are gone, the others have been decoded. -/
theorem ofUri_text (h : '#' ∉ path.base.toList) : ofUri path.text =
    ⟨path.base, (path.parts.filter (· ≠ "")).map Segment.readBack⟩ := by
  have hsplit := @splitOn_pointer [] List.not_mem_nil path.parts
  rw [List.nil_append] at hsplit
  unfold ofUri
  rw [splitFragment_text h]
  dsimp only
  rw [hsplit, List.filter_cons_of_neg (by decide), List.filter_map, List.map_map,
    String.ofList_toList]
  refine congrArg (fun kept : List String => Path.mk path.base (kept.map Segment.readBack)) ?_
  exact List.filter_congr fun part _ => escape_isEmpty part

/-- A text gives back the segments exactly if none is empty or holds a percent escape. -/
theorem ofUri_text_iff (h : '#' ∉ path.base.toList) :
    ofUri path.text = path ↔ path.IsReadable := by
  rw [ofUri_text h, Path.mk.injEq, and_iff_right rfl]
  constructor
  · intro hsame
    -- no segment was lost, so none was empty
    have hlength : (path.parts.filter (· ≠ "")).length = path.parts.length := by
      rw [← List.length_map Segment.readBack, hsame]
    have hnonempty := List.length_filter_eq_length_iff.1 hlength
    rw [List.filter_eq_self.2 hnonempty] at hsame
    intro part hmem
    have hback : Segment.readBack part = part :=
      List.map_inj_left.1 (hsame.trans (List.map_id _).symm) part hmem
    exact ⟨of_decide_eq_true (hnonempty part hmem), (Segment.readBack_eq_iff part).1 hback⟩
  · intro hreadable
    have hfilter : path.parts.filter (· ≠ "") = path.parts :=
      List.filter_eq_self.2 fun part hmem => decide_eq_true (hreadable part hmem).1
    have hmap : path.parts.map Segment.readBack = path.parts.map id :=
      List.map_inj_left.2 fun part hmem => (Segment.readBack_eq_iff part).2 (hreadable part hmem).2
    rw [hfilter, hmap, List.map_id]

/-- Behind its leading slash, the pointer of segments that are not empty starts with no other. -/
theorem pointerPieces_pointer (h : ∀ part ∈ parts, part ≠ "") :
    Uri.pointerPieces (String.ofList (pointer parts)) = parts.map (Segment.escape ·.toList) := by
  unfold Uri.pointerPieces
  rw [String.toList_ofList]
  cases parts with
  | nil => rfl
  | cons part parts =>
      have hslash := Segment.slash_not_mem_escape part.toList
      have hpieces := splitOn_pointer hslash parts
      have hcons : pointer (part :: parts) = '/' :: (Segment.escape part.toList ++ pointer parts) :=
        rfl
      cases hescape : Segment.escape part.toList with
      | nil =>
          have hempty := Segment.escape_eq_nil.1 hescape
          exact absurd (String.toList_eq_nil_iff.1 hempty) (h part List.mem_cons_self)
      | cons c rest =>
          rw [hescape] at hslash hcons hpieces
          have hc : ¬(c == '/') = true := by
            intro hc
            exact hslash (eq_of_beq hc ▸ List.mem_cons_self)
          have hpointer : (pointer (part :: parts)).dropWhile (· == '/') =
              c :: rest ++ pointer parts := by
            rw [hcons, List.dropWhile_cons, if_pos (beq_self_eq_true '/'), List.cons_append,
              List.dropWhile_cons, if_neg hc]
          rw [hpointer, List.map_cons, hescape, ← hpieces]
          rfl

theorem isUnambiguous_pointer (h : path.IsReadable) :
    Uri.isUnambiguous (String.ofList (pointer path.parts)) = true := by
  unfold Uri.isUnambiguous
  rw [pointerPieces_pointer fun part hmem => (h part hmem).1, List.all_map, List.all_eq_true]
  intro part hmem
  obtain ⟨hnonempty, hescape⟩ := h part hmem
  have hdecode := decode_of_not_hasEscape (mt (Segment.hasEscape_escape _).1 hescape)
  have hslash : (Segment.escape part.toList).contains '/' = false := by
    simpa using Segment.slash_not_mem_escape part.toList
  show (!(Segment.escape part.toList).isEmpty &&
    !(decode (Segment.escape part.toList)).contains '/') = true
  rw [escape_isEmpty, hdecode, hslash, decide_eq_true hnonempty]
  rfl

/-- A location is read back from its text exactly if none of its segments is empty or holds a
percent escape. Then its text has these very segments for a resolver too, which finds there what
stands at the location. -/
theorem reads_back_iff (h : path.IsBuilt) :
    (ofUri path.text = path ↔ ∀ part ∈ path.parts, part ≠ "" ∧ ¬HasEscape part.toList) ∧
    ((∀ part ∈ path.parts, part ≠ "" ∧ ¬HasEscape part.toList) →
      Uri.pointerSegments (Uri.defrag path.text).2 = path.parts ∧
      ∀ (r : Resolver) (target : Json), r.valueAt path.text = .ok target ↔
        r.StandsAt path target) := by
  have hback : ofUri path.text = path ↔ path.IsReadable := ofUri_text_iff h.hash_not_mem
  refine ⟨hback, fun hreadable => ?_⟩
  have hdefrag := defrag_text h.hash_not_mem
  have hsegments : Uri.pointerSegments (Uri.defrag path.text).2 = path.parts := by
    have hunambiguous : Uri.isUnambiguous (Uri.defrag path.text).2 = true := by
      rw [hdefrag]
      exact isUnambiguous_pointer hreadable
    rw [Uri.pointerSegments_eq_parts hunambiguous, ← (Uri.ofUri_defrag path.text).2,
      hback.2 hreadable]
  refine ⟨hsegments, fun r target => ?_⟩
  rw [Resolver.valueAt_eq_ok, hsegments, hdefrag]
  exact Iff.rfl

/-- A location below the parent of one that a URI names, with escapes of neither kind but what
looks like them. -/
def petsPath : Path := ((ofUri "pets.yaml#/paths/~1pets").parent.child "~01%7#").child "/%7G"

theorem petsPath_reads_back : petsPath.IsBuilt ∧
    petsPath.text = "pets.yaml#/paths/~001%7#/~1%7G" ∧ ofUri petsPath.text = petsPath ∧
    Uri.pointerSegments (Uri.defrag petsPath.text).2 = petsPath.parts := by
  have hbuilt : petsPath.IsBuilt :=
    ((IsBuilt.ofUri "pets.yaml#/paths/~1pets").parent.child "~01%7#").child "/%7G"
  have hreadable : ∀ part ∈ petsPath.parts, part ≠ "" ∧ ¬HasEscape part.toList := by decide +kernel
  obtain ⟨hback, hpointer⟩ := reads_back_iff hbuilt
  exact ⟨hbuilt, by decide +kernel, hback.2 hreadable, (hpointer hreadable).1⟩

end Path

end SchemaGraph

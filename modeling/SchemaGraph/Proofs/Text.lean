import SchemaGraph.Proofs.Resolver

set_option autoImplicit false

/-! # Pieces and escapes of a text

A text is cut at its first separator, if it has one (`splitOn_cases`), and inductions on the
pieces go along these cuts. A slash that is written plainly takes part in no escape, so decoding
goes piece by piece (`Percent.splitOn_decode`).
-/

namespace SchemaGraph

/-! ## Pieces -/

section Pieces

variable {separator : Char} {text : List Char}

theorem splitOn_of_not_mem (h : separator ∉ text) : splitOn separator text = [text] := by
  induction text with
  | nil => rfl
  | cons c rest ih =>
      have hc : ¬(c == separator) = true := by
        intro hc
        exact h (eq_of_beq hc ▸ List.mem_cons_self)
      have hrest : splitOn separator rest = [rest] :=
        ih fun hmem => h (List.mem_cons_of_mem _ hmem)
      unfold splitOn
      rw [if_neg hc, hrest]

theorem splitOn_ne_nil (separator : Char) (text : List Char) : splitOn separator text ≠ [] := by
  unfold splitOn
  split
  · simp
  · split
    · simp
    · split <;> simp

theorem splitOn_append (separator : Char) (front back : List Char) :
    splitOn separator (front ++ separator :: back) =
      splitOn separator front ++ splitOn separator back := by
  induction front with
  | nil => exact if_pos (beq_self_eq_true separator)
  | cons c rest ih =>
      rw [List.cons_append, splitOn.eq_def, splitOn.eq_def separator (c :: rest)]
      dsimp only
      rw [ih]
      by_cases hc : (c == separator) = true
      · rw [if_pos hc, if_pos hc]
        rfl
      · rw [if_neg hc, if_neg hc]
        cases hpieces : splitOn separator rest with
        | nil => exact absurd hpieces (splitOn_ne_nil separator rest)
        | cons piece pieces => rfl

/-- A text has no separator, or its first one comes behind its first piece. -/
theorem splitOn_cases (separator : Char) (text : List Char) :
    (separator ∉ text ∧ splitOn separator text = [text]) ∨
      ∃ front back, separator ∉ front ∧ text = front ++ separator :: back ∧
        splitOn separator text = front :: splitOn separator back := by
  by_cases h : separator ∈ text
  · obtain ⟨front, back, rfl, hfront⟩ := List.eq_append_cons_of_mem h
    refine .inr ⟨front, back, hfront, rfl, ?_⟩
    rw [splitOn_append, splitOn_of_not_mem hfront]
    rfl
  · exact .inl ⟨h, splitOn_of_not_mem h⟩

/-- Induction along the pieces of a text. -/
theorem splitOn_induction (separator : Char) {motive : List Char → Prop}
    (single : ∀ text, separator ∉ text → motive text)
    (cut : ∀ front back, separator ∉ front → motive back → motive (front ++ separator :: back))
    (text : List Char) : motive text := by
  induction hlength : text.length using Nat.strongRecOn generalizing text with
  | ind n ih =>
      rcases splitOn_cases separator text with ⟨hnot, -⟩ | ⟨front, back, hfront, heq, -⟩
      · exact single text hnot
      · subst heq
        refine cut front back hfront (ih back.length ?_ back rfl)
        rw [← hlength, List.length_append, List.length_cons]
        omega

theorem length_splitOn_pos (separator : Char) (text : List Char) :
    0 < (splitOn separator text).length :=
  List.length_pos_iff.2 (splitOn_ne_nil separator text)

/-- One piece only means no separator. -/
theorem length_splitOn_eq_one (separator : Char) (text : List Char) :
    (splitOn separator text).length = 1 ↔ separator ∉ text := by
  constructor
  · intro hone
    rcases splitOn_cases separator text with ⟨hnot, -⟩ | ⟨front, back, -, -, heq⟩
    · exact hnot
    · have hback := length_splitOn_pos separator back
      rw [heq, List.length_cons] at hone
      omega
  · intro hnot
    rw [splitOn_of_not_mem hnot]
    rfl

end Pieces

/-! ## Cuts -/

section Cuts

variable {p : Char → Bool} {separator : Char} {text front rest back : List Char}

/-- A text is cut where the first character of another sort comes. -/
theorem takeWhile_append_of_stops (hfront : ∀ c ∈ front, p c = true)
    (hrest : ∀ c, rest.head? = some c → p c = false) : (front ++ rest).takeWhile p = front := by
  rw [List.takeWhile_append_of_pos hfront]
  cases rest with
  | nil => exact List.append_nil front
  | cons c more =>
      rw [List.takeWhile_cons_of_neg (by rw [hrest c rfl]; nofun), List.append_nil]

theorem dropWhile_append_of_stops (hfront : ∀ c ∈ front, p c = true)
    (hrest : ∀ c, rest.head? = some c → p c = false) : (front ++ rest).dropWhile p = rest := by
  rw [List.dropWhile_append_of_pos hfront]
  cases rest with
  | nil => rfl
  | cons c more => rw [List.dropWhile_cons_of_neg (by rw [hrest c rfl]; nofun)]

theorem cutAt?_of_not_mem (h : separator ∉ text) :
    cutAt? separator text = none := by
  have hall : text.dropWhile (· != separator) = [] := by
    induction text with
    | nil => rfl
    | cons c rest ih =>
        have hc : (c != separator) = true := by
          rw [bne_iff_ne]
          rintro rfl
          exact h List.mem_cons_self
        rw [List.dropWhile_cons, if_pos hc]
        exact ih fun hmem => h (List.mem_cons_of_mem c hmem)
  unfold cutAt?
  rw [hall]

theorem cutAtLast?_of_not_mem (h : separator ∉ text) :
    cutAtLast? separator text = none := by
  unfold cutAtLast?
  rw [cutAt?_of_not_mem fun hmem => h (List.mem_reverse.1 hmem)]
  rfl

theorem cutAt?_append (h : separator ∉ front) :
    cutAt? separator (front ++ separator :: back) = some (front, back) := by
  have hfront : ∀ c ∈ front, (c != separator) = true := by
    intro c hc
    rw [bne_iff_ne]
    rintro rfl
    exact h hc
  have hstops : ∀ c, (separator :: back).head? = some c → (c != separator) = false := by
    intro c hc
    cases hc
    exact bne_self_eq_false separator
  unfold cutAt?
  rw [dropWhile_append_of_stops hfront hstops, takeWhile_append_of_stops hfront hstops]

theorem cutAtLast?_append (h : separator ∉ back) :
    cutAtLast? separator (front ++ separator :: back) = some (front, back) := by
  have hback : separator ∉ back.reverse := fun hmem => h (List.mem_reverse.1 hmem)
  have hcut : cutAt? separator (back.reverse ++ separator :: front.reverse) =
      some (back.reverse, front.reverse) := cutAt?_append hback
  unfold cutAtLast?
  rw [List.reverse_append, List.reverse_cons, List.append_assoc, List.singleton_append, hcut]
  show some (front.reverse.reverse, back.reverse.reverse) = _
  rw [List.reverse_reverse, List.reverse_reverse]

end Cuts

/-! ## Percent escapes -/

namespace Percent

/-- Two hexadecimal digits come first. -/
def startsWithDigits : List Char → Bool
  | a :: b :: _ => (Ascii.hexValue? a).isSome && (Ascii.hexValue? b).isSome
  | _ => false

theorem decodeFrom_plain {c : Char} (h : c ≠ '%') (run : List UInt8) (rest : List Char) :
    decodeFrom run (c :: rest) = Utf8.decodeLossy run ++ c :: decodeFrom [] rest := by
  rw [decodeFrom.eq_def]
  dsimp only
  split
  · exact absurd rfl h
  · rfl

theorem decodeFrom_lone (run : List UInt8) {rest : List Char}
    (h : startsWithDigits rest = false) :
    decodeFrom run ('%' :: rest) = Utf8.decodeLossy run ++ '%' :: decodeFrom [] rest := by
  rw [decodeFrom.eq_def]
  dsimp only
  split
  · rename_i a b rest' heq
    unfold startsWithDigits at h
    cases ha : Ascii.hexValue? a with
    | none => rfl
    | some x =>
        cases hb : Ascii.hexValue? b with
        | none => rfl
        | some y => simp [ha, hb] at h
  · rfl

theorem decodeFrom_escape (run : List UInt8) {a b : Char} {x y : Nat}
    (ha : Ascii.hexValue? a = some x) (hb : Ascii.hexValue? b = some y) (rest : List Char) :
    decodeFrom run ('%' :: a :: b :: rest) =
      decodeFrom (run ++ [(16 * x + y).toUInt8]) rest := by
  rw [decodeFrom.eq_def]
  simp only [ha, hb]

/-- A character that starts no escape ends a run of them. -/
theorem decodeFrom_ends {c : Char} {rest : List Char} (h : c ≠ '%' ∨ startsWithDigits rest = false)
    (run : List UInt8) :
    decodeFrom run (c :: rest) = Utf8.decodeLossy run ++ c :: decodeFrom [] rest := by
  by_cases hc : c = '%'
  · subst hc
    exact decodeFrom_lone run (h.resolve_left fun hne => hne rfl)
  · exact decodeFrom_plain hc run rest

theorem ends_of_digits {a b : Char} {rest : List Char}
    (h : ∀ x y, Ascii.hexValue? a = some x → Ascii.hexValue? b = some y → False) :
    startsWithDigits (a :: b :: rest) = false := by
  show ((Ascii.hexValue? a).isSome && (Ascii.hexValue? b).isSome) = false
  cases ha : Ascii.hexValue? a with
  | none => rfl
  | some x =>
      cases hb : Ascii.hexValue? b with
      | none => rfl
      | some y => exact (h x y ha hb).elim

theorem ends_of_short {c : Char} {rest : List Char}
    (h : ∀ a b rest', c = '%' → rest = a :: b :: rest' → False) :
    c ≠ '%' ∨ startsWithDigits rest = false := by
  by_cases hc : c = '%'
  · refine .inr ?_
    rcases rest with _ | ⟨a, _ | ⟨b, rest⟩⟩
    · rfl
    · rfl
    · exact (h a b rest hc rfl).elim
  · exact .inl hc

/-- A slash is no digit. -/
theorem startsWithDigits_append_slash {text : List Char} (h : startsWithDigits text = false)
    (back : List Char) : startsWithDigits (text ++ '/' :: back) = false := by
  rcases text with _ | ⟨a, _ | ⟨b, rest⟩⟩
  · cases back <;> rfl
  · show ((Ascii.hexValue? a).isSome && false) = false
    rw [Bool.and_false]
  · exact h

/-- A plain slash ends a run of escapes. -/
theorem decodeFrom_append_slash (run : List UInt8) (front back : List Char) :
    decodeFrom run (front ++ '/' :: back) = decodeFrom run front ++ '/' :: decodeFrom [] back := by
  fun_induction decodeFrom run front with
  | case1 run => exact decodeFrom_plain (by decide) run back
  | case2 run a b rest x y hb ha ih =>
      rw [← ih]
      exact decodeFrom_escape run ha hb _
  | case3 run a b rest hdigits ih =>
      rw [List.append_assoc]
      show _ = _ ++ '%' :: (decodeFrom [] (a :: b :: rest) ++ '/' :: decodeFrom [] back)
      rw [← ih]
      exact decodeFrom_lone run (startsWithDigits_append_slash (ends_of_digits hdigits) back)
  | case4 run c rest hshort ih =>
      have hends := (ends_of_short hshort).imp_right fun h => startsWithDigits_append_slash h back
      rw [List.append_assoc]
      show _ = _ ++ c :: (decodeFrom [] rest ++ '/' :: decodeFrom [] back)
      rw [← ih]
      exact decodeFrom_ends hends run

theorem decode_append_slash (front back : List Char) :
    decode (front ++ '/' :: back) = decode front ++ '/' :: decode back :=
  decodeFrom_append_slash [] front back

/-- The pieces of a decoded text come from its pieces one by one. -/
theorem splitOn_decode (text : List Char) :
    splitOn '/' (decode text) =
      (splitOn '/' text).flatMap fun piece => splitOn '/' (decode piece) := by
  induction text using splitOn_induction '/' with
  | single text h =>
      rw [splitOn_of_not_mem h, List.flatMap_cons, List.flatMap_nil, List.append_nil]
  | cut front back h ih =>
      rw [decode_append_slash, splitOn_append, splitOn_append, List.flatMap_append, ih,
        splitOn_of_not_mem h, List.flatMap_cons, List.flatMap_nil, List.append_nil]

end Percent

end SchemaGraph

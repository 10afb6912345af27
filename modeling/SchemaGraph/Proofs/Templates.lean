import Mathlib.Data.List.Infix
import SchemaGraph.Message.Table
import SchemaGraph.Proofs.Digits
import SchemaGraph.Proofs.Text

set_option autoImplicit false

/-! # Templates

A placeholder is the number of an argument in digits, between braces. It holds one opening brace
only, so placeholders never overlap, and a template can be cut at all of them in one way
(`Template.IsCut`). The cut depends on how many arguments there are, but not on what they are.
Filling a template replaces the placeholders of the cut, and leaves every other brace where it is
(`Template.fill_of_isCut`).
-/

namespace SchemaGraph

namespace Template

/-! ## Cuts -/

/-- A piece of a template for so many arguments: a text that stands for itself, or the place of an
argument. -/
inductive Piece (count : Nat) where
  | literal (text : List Char)
  | argument (index : Fin count)

/-- What a piece becomes when the arguments are given. -/
def Piece.filled {count : Nat} (args : Fin count → String) : Piece count → List Char
  | literal text => text
  | argument index => (args index).toList

/-- The number of an argument is written between braces. Digits that are too many for an index are
the number of no argument. -/
def IsPlaceholder {count : Nat} (index : Fin count) (written : List Char) : Prop :=
  ∃ digits, Numeral.AreDigits digits index ∧ written = '\x7b' :: (digits ++ ['\x7d'])

/-- No placeholder stands in a text. -/
def IsLiteral (count : Nat) (text : List Char) : Prop :=
  ∀ (index : Fin count) (written : List Char), IsPlaceholder index written → ¬written <:+: text

/-- The pieces of a template, from left to right: the text up to the first placeholder stands for
itself, and what is behind the placeholder is cut in the same way. -/
inductive IsCut {count : Nat} : List Char → List (Piece count) → Prop where
  | literal {text : List Char} (plain : IsLiteral count text) : IsCut text [.literal text]
  | argument {text written rest : List Char} {index : Fin count} {pieces : List (Piece count)}
      (plain : IsLiteral count text) (placeholder : IsPlaceholder index written)
      (behind : IsCut rest pieces) :
      IsCut (text ++ (written ++ rest)) (.literal text :: .argument index :: pieces)

/-! ## Places of placeholders -/

/-- A placeholder comes first. -/
def Starts (count : Nat) (text : List Char) : Prop :=
  ∃ (index : Fin count) (written rest : List Char),
    IsPlaceholder index written ∧ text = written ++ rest

/-- A literal goes no further than to here: this is the end, or a placeholder. -/
def IsBoundary (count : Nat) (rest : List Char) : Prop := rest = [] ∨ Starts count rest

section Places

variable {count : Nat} {index index' : Fin count} {text text' written written' rest rest' :
  List Char} {pieces pieces' : List (Piece count)} {c : Char}

theorem IsPlaceholder.starts (h : IsPlaceholder index written) (rest : List Char) :
    Starts count (written ++ rest) := ⟨index, written, rest, h, rfl⟩

/-- Only the first character of a placeholder is an opening brace. -/
theorem IsPlaceholder.eq_cons (h : IsPlaceholder index written) :
    ∃ tail, written = '\x7b' :: tail ∧ '\x7b' ∉ tail := by
  obtain ⟨digits, ⟨-, hdigits, -⟩, rfl⟩ := h
  refine ⟨_, rfl, fun hmem => ?_⟩
  rcases List.mem_append.1 hmem with hmem | hmem
  · exact absurd (hdigits _ hmem) (by decide)
  · exact absurd (List.mem_singleton.1 hmem) (by decide)

/-- Digits end where the brace behind them comes. -/
theorem cut_digits {digits : List Char} {value : Nat} (h : Numeral.AreDigits digits value)
    (rest : List Char) : (digits ++ '\x7d' :: rest).takeWhile (· != '\x7d') = digits ∧
      (digits ++ '\x7d' :: rest).dropWhile (· != '\x7d') = '\x7d' :: rest := by
  have hdigits : ∀ c ∈ digits, (c != '\x7d') = true := by
    intro c hc
    rw [bne_iff_ne]
    rintro rfl
    exact absurd (h.2.1 _ hc) (by decide)
  have hstops : ∀ c, ('\x7d' :: rest).head? = some c → (c != '\x7d') = false := by
    rintro c ⟨⟩
    rfl
  exact ⟨takeWhile_append_of_stops hdigits hstops, dropWhile_append_of_stops hdigits hstops⟩

/-- Where a placeholder starts, no other one does. -/
theorem IsPlaceholder.unique (h : IsPlaceholder index written)
    (h' : IsPlaceholder index' written') (heq : written ++ rest = written' ++ rest') :
    index = index' ∧ rest = rest' := by
  obtain ⟨digits, hnumber, rfl⟩ := h
  obtain ⟨digits', hnumber', rfl⟩ := h'
  have hbehind : digits ++ '\x7d' :: rest = digits' ++ '\x7d' :: rest' := by simpa using heq
  obtain ⟨htake, hdrop⟩ := cut_digits hnumber rest
  obtain ⟨htake', hdrop'⟩ := cut_digits hnumber' rest'
  rw [hbehind, htake'] at htake
  rw [hbehind, hdrop'] at hdrop
  refine ⟨Fin.ext ?_, (List.cons.inj hdrop).2.symm⟩
  rw [hnumber.2.2, hnumber'.2.2, htake]

/-- A placeholder that is not closed is none. -/
theorem isLiteral_of_not_mem (h : '\x7d' ∉ text) : IsLiteral count text := by
  rintro index written ⟨digits, -, rfl⟩ hstands
  exact h (hstands.subset (.tail _ (List.mem_append_right _ List.mem_cons_self)))

theorem IsLiteral.tail (h : IsLiteral count (c :: text)) : IsLiteral count text :=
  fun index written hwritten hstands => h index written hwritten (List.infix_cons hstands)

theorem IsLiteral.cons (h : IsLiteral count text) (hstarts : ¬Starts count (c :: (text ++ rest))) :
    IsLiteral count (c :: text) := by
  intro index written hwritten hstands
  rcases List.infix_cons_iff.1 hstands with ⟨more, heq⟩ | hstands
  · refine hstarts ⟨index, written, more ++ rest, hwritten, ?_⟩
    rw [← List.cons_append, ← heq, List.append_assoc]
  · exact h index written hwritten hstands

/-- No placeholder starts in a literal and goes on behind it. -/
theorem IsLiteral.not_starts (h : IsLiteral count (c :: text)) (hrest : IsBoundary count rest) :
    ¬Starts count (c :: (text ++ rest)) := by
  rintro ⟨index, written, back, hwritten, heq⟩
  rw [← List.cons_append] at heq
  rcases List.append_eq_append_iff.1 heq with ⟨more, hmore, hback⟩ | ⟨more, hmore, -⟩
  · cases more with
    | nil =>
        rw [List.append_nil] at hmore
        exact h index written hwritten (hmore ▸ List.infix_rfl)
    | cons d more =>
        -- it would go over the opening brace of the placeholder at the boundary
        obtain ⟨tail, rfl, hbrace⟩ := hwritten.eq_cons
        rcases hrest with rfl | ⟨_, next, _, hnext, rfl⟩
        · cases hback
        · obtain ⟨_, rfl, -⟩ := hnext.eq_cons
          obtain ⟨rfl, -⟩ := List.cons.inj hback
          obtain ⟨-, rfl⟩ := List.cons.inj hmore
          exact hbrace (List.mem_append_right _ List.mem_cons_self)
  · exact h index written hwritten (hmore ▸ List.infix_append' [] written more)

/-- Every text starts with a literal that goes up to a boundary. -/
theorem exists_literal (count : Nat) (text : List Char) :
    ∃ front rest, IsLiteral count front ∧ IsBoundary count rest ∧ text = front ++ rest := by
  have hnil : IsLiteral count [] := isLiteral_of_not_mem List.not_mem_nil
  induction text with
  | nil => exact ⟨[], [], hnil, .inl rfl, rfl⟩
  | cons c text ih =>
      by_cases hstarts : Starts count (c :: text)
      · exact ⟨[], c :: text, hnil, .inr hstarts, rfl⟩
      · obtain ⟨front, rest, hfront, hrest, rfl⟩ := ih
        exact ⟨c :: front, rest, hfront.cons hstarts, hrest, rfl⟩

/-- There is one such literal. -/
theorem IsLiteral.unique (h : IsLiteral count text) (h' : IsLiteral count text')
    (hrest : IsBoundary count rest) (hrest' : IsBoundary count rest')
    (heq : text ++ rest = text' ++ rest') : text = text' ∧ rest = rest' := by
  have hinside : ∀ {c : Char} {text rest : List Char}, IsLiteral count (c :: text) →
      IsBoundary count rest → ¬IsBoundary count (c :: (text ++ rest)) := fun h hrest =>
    not_or.2 ⟨List.cons_ne_nil _ _, h.not_starts hrest⟩
  -- the shorter of two literals would end inside of the other one, where no boundary is
  induction text generalizing text' with
  | nil =>
      cases text' with
      | nil => exact ⟨rfl, heq⟩
      | cons c text' =>
          rw [List.nil_append] at heq
          rw [heq] at hrest
          exact absurd hrest (hinside h' hrest')
  | cons c text ih =>
      cases text' with
      | nil =>
          rw [List.nil_append] at heq
          rw [← heq] at hrest'
          exact absurd hrest' (hinside h hrest)
      | cons c' text' =>
          obtain ⟨rfl, htext⟩ := List.cons.inj heq
          obtain ⟨rfl, hsame⟩ := ih h.tail h'.tail htext
          exact ⟨rfl, hsame⟩

/-- Every template can be cut. -/
theorem exists_isCut (count : Nat) (template : List Char) :
    ∃ pieces : List (Piece count), IsCut template pieces := by
  induction hlength : template.length using Nat.strongRecOn generalizing template with
  | ind n ih =>
      obtain ⟨front, rest, hfront, hrest, rfl⟩ := exists_literal count template
      rcases hrest with rfl | ⟨index, written, behind, hwritten, rfl⟩
      · rw [List.append_nil]
        exact ⟨_, .literal hfront⟩
      · -- a placeholder is not empty, so that less is left behind it
        obtain ⟨tail, htail, -⟩ := hwritten.eq_cons
        have hshort : behind.length < n := by
          rw [← hlength, htail]
          simp only [List.length_append, List.length_cons]
          omega
        obtain ⟨pieces, hpieces⟩ := ih behind.length hshort behind rfl
        exact ⟨_, .argument hfront hwritten hpieces⟩

/-- There is one way to cut a template. -/
theorem IsCut.unique (h : IsCut text pieces) (h' : IsCut text pieces') : pieces = pieces' := by
  induction h generalizing pieces' with
  | @literal text plain =>
      cases h' with
      | literal => rfl
      | @argument front written rest index _ _ placeholder =>
          exact absurd ⟨front, rest, List.append_assoc _ _ _⟩ (plain index written placeholder)
  | @argument front written rest index pieces plain placeholder behind ih =>
      generalize htext : front ++ (written ++ rest) = text at h'
      cases h' with
      | literal plain' =>
          exact absurd ⟨front, rest, (List.append_assoc _ _ _).trans htext⟩
            (plain' index written placeholder)
      | argument plain' placeholder' behind' =>
          obtain ⟨rfl, hsame⟩ := plain.unique plain' (.inr (placeholder.starts _))
            (.inr (placeholder'.starts _)) htext
          obtain ⟨rfl, rfl⟩ := placeholder.unique placeholder' hsame
          rw [ih behind']

end Places

/-! ## Filling -/

section Filling

variable {args : List String} {arg : String} {text written rest : List Char} {c : Char}
  {index : Fin args.length}

/-- What is found behind an opening brace is the rest of a placeholder. -/
theorem placeholder?_eq_some_iff : placeholder? args text = some (arg, rest) ↔
    ∃ (index : Fin args.length) (written : List Char), IsPlaceholder index written ∧
      '\x7b' :: text = written ++ rest ∧ args.get index = arg := by
  unfold placeholder?
  dsimp only
  constructor
  · intro h
    split at h
    · cases h
    · rename_i c tail htail
      have hclose := List.head?_dropWhile_not (· != '\x7d') text
      rw [htail] at hclose
      obtain rfl : c = '\x7d' := by simpa using hclose
      obtain ⟨hdigits, h⟩ := Option.ite_none_left_eq_some.1 h
      obtain ⟨_, hget, heq⟩ := Option.map_eq_some_iff.1 h
      cases heq
      obtain ⟨hlt, hget⟩ := List.getElem?_eq_some_iff.1 hget
      refine ⟨⟨_, hlt⟩, _, ⟨_, Numeral.readDigits?_iff.1 (if_neg hdigits), rfl⟩, ?_, hget⟩
      have hparts := List.takeWhile_append_dropWhile (p := (· != '\x7d')) (l := text)
      rw [htail] at hparts
      simp [hparts]
  · rintro ⟨index, _, ⟨digits, hnumber, rfl⟩, htext, rfl⟩
    have htext : text = digits ++ '\x7d' :: rest := by simpa using htext
    obtain ⟨htake, hdrop⟩ := cut_digits hnumber rest
    obtain ⟨hdigits, hvalue⟩ := Option.ite_none_left_eq_some.1 (Numeral.readDigits?_iff.2 hnumber)
    rw [htext, htake, hdrop]
    dsimp only
    rw [if_neg hdigits, Option.some.inj hvalue, List.getElem?_eq_getElem index.isLt]
    rfl

/-- A placeholder is replaced by its argument, in which nothing is replaced. -/
theorem fill_argument (h : IsPlaceholder index written) :
    fill args (written ++ rest) = (args.get index).toList ++ fill args rest := by
  obtain ⟨tail, rfl, -⟩ := h.eq_cons
  have hfound : placeholder? args (tail ++ rest) = some (args.get index, rest) :=
    placeholder?_eq_some_iff.2 ⟨index, _, h, rfl, rfl⟩
  rw [List.cons_append, fill.eq_def]
  dsimp only
  rw [if_pos (beq_self_eq_true _)]
  split
  · rename_i arg after heq
    rw [hfound] at heq
    cases heq
    rfl
  · rename_i heq
    rw [hfound] at heq
    cases heq

/-- Where no placeholder starts, a character is left as it is, be it a brace or not. -/
theorem fill_cons (h : ¬Starts args.length (c :: text)) :
    fill args (c :: text) = c :: fill args text := by
  rw [fill.eq_def]
  dsimp only
  split
  · rename_i hbrace
    rw [eq_of_beq hbrace] at h
    split
    · rename_i arg after heq
      obtain ⟨index, written, hwritten, htext, -⟩ := placeholder?_eq_some_iff.1 heq
      exact absurd ⟨index, written, after, hwritten, htext⟩ h
    · rfl
  · rfl

/-- A literal is left as it is. -/
theorem fill_literal (h : IsLiteral args.length text) (hrest : IsBoundary args.length rest) :
    fill args (text ++ rest) = text ++ fill args rest := by
  induction text with
  | nil => rfl
  | cons c text ih =>
      rw [List.cons_append, fill_cons (h.not_starts hrest), ih h.tail]
      rfl

theorem fill_of_isLiteral (h : IsLiteral args.length text) : fill args text = text := by
  have hfilled := fill_literal h (.inl rfl)
  rw [List.append_nil, fill.eq_def args [], List.append_nil] at hfilled
  exact hfilled

/-- Filling a template replaces the placeholders at which it is cut. -/
theorem fill_of_isCut {pieces : List (Piece args.length)} (h : IsCut text pieces) :
    fill args text = pieces.flatMap (Piece.filled args.get) := by
  induction h with
  | @literal text plain =>
      rw [fill_of_isLiteral plain]
      exact (List.append_nil text).symm
  | @argument text written rest index pieces plain placeholder behind ih =>
      calc fill args (text ++ (written ++ rest))
          = text ++ fill args (written ++ rest) :=
            fill_literal plain (.inr (placeholder.starts rest))
        _ = text ++ ((args.get index).toList ++ fill args rest) := by rw [fill_argument placeholder]
        _ = (Piece.literal text :: .argument index :: pieces).flatMap (Piece.filled args.get) := by
            rw [ih]
            rfl

end Filling

end Template

/-! ## Messages -/

namespace Messages

theorem get_override (messages : Messages) (key : MessageKey) (text : String) :
    (messages.override key text).get key = text := by
  unfold get override
  rw [List.lookup_cons_self]
  rfl

/-- Without arguments a text stands for itself. -/
theorem format_nil (messages : Messages) (key : MessageKey) :
    messages.format key [] = messages.get key := by
  have hliteral : Template.IsLiteral ([] : List String).length (messages.get key).toList :=
    fun index => index.elim0
  unfold format
  rw [Template.fill_of_isLiteral hliteral, String.ofList_toList]

/-- Every text can be a template, and a template is filled in one pass: there is one way to cut it
into literals and the places of arguments, which is the same for all arguments, and the message
consists of these literals with the arguments in their places. -/
theorem formatted_in_one_pass (messages : Messages) (key : MessageKey) (count : Nat) :
    (∀ text, (messages.override key text).get key = text) ∧
    ∃ pieces : List (Template.Piece count), Template.IsCut (messages.get key).toList pieces ∧
      (∀ other, Template.IsCut (messages.get key).toList other → other = pieces) ∧
      ∀ (args : List String) (length : args.length = count), messages.format key args =
        String.ofList (pieces.flatMap
          (Template.Piece.filled fun index => args.get (index.cast length.symm))) := by
  refine ⟨get_override messages key, ?_⟩
  obtain ⟨pieces, hpieces⟩ := Template.exists_isCut count (messages.get key).toList
  refine ⟨pieces, hpieces, fun other hother => hother.unique hpieces, ?_⟩
  rintro args rfl
  exact congrArg String.ofList (Template.fill_of_isCut hpieces)

/-- Braces that open no placeholder stay, and so do those of an argument. -/
theorem formatted_in_one_pass_nested :
    (builtIn.override .pattern "\x7b\x7b0\x7d and \x7bx\x7b1\x7d").format .pattern
      ["\x7b1\x7d", "b"] = "\x7b\x7b1\x7d and \x7bxb" := by
  obtain ⟨hget, pieces, -, hunique, hformat⟩ := formatted_in_one_pass
    (builtIn.override .pattern "\x7b\x7b0\x7d and \x7bx\x7b1\x7d") .pattern 2
  have hcut : Template.IsCut "\x7b\x7b0\x7d and \x7bx\x7b1\x7d".toList
      [.literal ['\x7b'], .argument (0 : Fin 2), .literal " and \x7bx".toList,
        .argument (1 : Fin 2), .literal []] := by
    have hfirst : Template.IsPlaceholder (0 : Fin 2) ['\x7b', '0', '\x7d'] :=
      ⟨['0'], ⟨List.cons_ne_nil _ _, List.forall_mem_singleton.2 rfl, rfl⟩, rfl⟩
    have hsecond : Template.IsPlaceholder (1 : Fin 2) ['\x7b', '1', '\x7d'] :=
      ⟨['1'], ⟨List.cons_ne_nil _ _, List.forall_mem_singleton.2 rfl, rfl⟩, rfl⟩
    have hfront : Template.IsLiteral 2 ['\x7b'] := Template.isLiteral_of_not_mem (by decide)
    have hmiddle : Template.IsLiteral 2 " and \x7bx".toList :=
      Template.isLiteral_of_not_mem (by decide)
    have hend : Template.IsLiteral 2 [] := Template.isLiteral_of_not_mem (by decide)
    exact .argument hfront hfirst (.argument hmiddle hsecond (.literal hend))
  rw [hformat _ rfl, ← hunique _ hcut]
  rfl

end Messages

end SchemaGraph

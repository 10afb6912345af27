import SchemaGraph.Proofs.Resolver.Joins

set_option autoImplicit false

/-! # Fragments of joined references

Whatever the scope is, a reference keeps its fragment: as it is, or escaped, or none at all, and an
empty reference keeps that of the scope (`Uri.fragment_join`). Escaping a fragment once more changes
nothing (`Uri.settled_settled`), so from finitely many references only finitely many fragments come.
-/

namespace SchemaGraph

/-! ## What comes after the hash -/

namespace Uri

/-- A fragment comes behind the first hash. -/
theorem splitFragment_behind {front : List Char} (h : '#' ∉ front) (text : List Char) :
    (splitFragment (front ++ text)).2 = (splitFragment text).2 := by
  by_cases hhash : '#' ∈ text
  · obtain ⟨before, after, rfl, hbefore⟩ := List.eq_append_cons_of_mem hhash
    rw [splitFragment_append hbefore, ← List.append_assoc, splitFragment_append]
    rw [List.mem_append]
    exact fun hmem => hmem.elim h hbefore
  · rw [splitFragment_of_not_mem hhash, splitFragment_of_not_mem]
    rw [List.mem_append]
    exact fun hmem => hmem.elim h hhash

theorem splitFragment_cons_of_ne {c : Char} (h : c ≠ '#') (text : List Char) :
    (splitFragment (c :: text)).2 = (splitFragment text).2 :=
  @splitFragment_behind [c] (by simpa using h.symm) text

theorem splitFragment_dropWhile {p : Char → Bool} (h : p '#' = false) (text : List Char) :
    (splitFragment (text.dropWhile p)).2 = (splitFragment text).2 := by
  have hfront : '#' ∉ text.takeWhile p := by
    intro hmem
    have htrue := List.all_eq_true.1 List.all_takeWhile '#' hmem
    rw [h] at htrue
    cases htrue
  have hbehind := splitFragment_behind hfront (text.dropWhile p)
  rw [List.takeWhile_append_dropWhile] at hbehind
  exact hbehind.symm

end Uri

namespace Url

open Uri (splitFragment_behind splitFragment_cons_of_ne splitFragment_dropWhile)

/-- The fragment of a URL is that of the text it was read from, escaped. -/
def KeepsFragment (text : List Char) (url : Url) : Prop :=
  url.fragment.getD [] = Percent.encode inFragment (splitFragment text).2

variable {text : List Char} {url : Url} {base : Option Url} {scheme : List Char}

theorem KeepsFragment.of_dropWhile {p : Char → Bool} (h : KeepsFragment (text.dropWhile p) url)
    (hp : p '#' = false) : KeepsFragment text url := by
  unfold KeepsFragment at h
  rwa [splitFragment_dropWhile hp] at h

theorem KeepsFragment.cons {c : Char} (h : KeepsFragment text url) (hc : c ≠ '#') :
    KeepsFragment (c :: text) url := by
  unfold KeepsFragment at h
  rwa [← splitFragment_cons_of_ne hc] at h

theorem keepsFragment_nil : KeepsFragment [] { url with fragment := none } := rfl

theorem keepsFragment_withFragment (url : Url) (fragment : List Char) :
    KeepsFragment ('#' :: fragment) (url.withFragment ('#' :: fragment)) := rfl

theorem fragmentOf?_eq (h : ∀ c, text.head? = some c → c = '#') :
    (fragmentOf? text).getD [] = Percent.encode inFragment (splitFragment text).2 := by
  cases text with
  | nil => rfl
  | cons c rest =>
      obtain rfl := h c rfl
      rfl

theorem keepsFragment_withTail (url : Url) (text : List Char) :
    KeepsFragment text (url.withTail text) := by
  refine KeepsFragment.of_dropWhile (p := fun c => !endsPath c) ?_ rfl
  show ((queryAndFragment url.kind text).2).getD [] = _
  rw [queryAndFragment_eq]
  -- the path ends with the text, at the query, or at the fragment
  cases htail : text.dropWhile fun c => !endsPath c with
  | nil => rfl
  | cons c rest =>
      rcases endsPath_of_dropWhile htail with rfl | rfl
      · show (fragmentOf? _).getD [] = _
        rw [fragmentOf?_eq, splitFragment_dropWhile (by decide),
          ← splitFragment_cons_of_ne (c := '?') (by decide)]
        · intro c hc
          have hnot := List.head?_dropWhile_not (· != '#') rest
          rw [hc] at hnot
          simpa using hnot
      · rfl

theorem afterSlashes?_keepsFragment (h : afterSlashes? scheme text = some url) :
    KeepsFragment text url := by
  unfold afterSlashes? at h
  obtain ⟨authority, -, h⟩ := Option.bind_eq_some_iff.1 h
  cases h
  refine (keepsFragment_withTail _ _).of_dropWhile ?_
  unfold endsAuthority endsPath
  simp

theorem fileAfterSlashes?_keepsFragment (h : fileAfterSlashes? text = some url) :
    KeepsFragment text url := by
  unfold fileAfterSlashes? at h
  dsimp only at h
  split at h
  · cases h
    exact keepsFragment_withTail _ _
  · split at h
    · cases h
      exact (keepsFragment_withTail _ _).of_dropWhile rfl
    · obtain ⟨host, -, h⟩ := Option.bind_eq_some_iff.1 h
      cases h
      exact (keepsFragment_withTail _ _).of_dropWhile rfl

theorem oneSlash_keepsFragment (base : Option Url) (text : List Char) :
    KeepsFragment text (readFile?.oneSlash base text) := by
  unfold readFile?.oneSlash
  dsimp only
  split
  · exact keepsFragment_withTail _ _
  · split
    · exact keepsFragment_withTail _ _
    · split <;> exact keepsFragment_withTail _ _

theorem relative_keepsFragment (base : Option Url) (text : List Char) :
    KeepsFragment text (readFile?.relative base text) := by
  unfold readFile?.relative
  split
  · exact keepsFragment_withTail _ _
  · split
    · exact keepsFragment_nil
    · exact keepsFragment_withTail _ _
    · exact keepsFragment_withFragment _ _
    · split <;> exact keepsFragment_withTail _ _

theorem ne_hash_of_isSlash {c : Char} (h : isSlash c = true) : c ≠ '#' := by
  rintro rfl
  cases h

theorem readFile?_keepsFragment (h : readFile? base text = some url) : KeepsFragment text url := by
  unfold readFile? at h
  split at h
  · split at h
    · rename_i hslashes
      obtain ⟨hc, hd⟩ := Bool.and_eq_true_iff.1 hslashes
      exact ((fileAfterSlashes?_keepsFragment h).cons (ne_hash_of_isSlash hd)).cons
        (ne_hash_of_isSlash hc)
    · split at h <;> cases h
      · exact oneSlash_keepsFragment _ _
      · exact relative_keepsFragment _ _
  · split at h <;> cases h
    · exact oneSlash_keepsFragment _ _
    · exact relative_keepsFragment _ _
  · cases h
    exact relative_keepsFragment _ _

theorem readRelative?_keepsFragment {base : Url} (h : readRelative? base text = some url) :
    KeepsFragment text url := by
  unfold readRelative? at h
  split at h
  · cases h
    exact keepsFragment_nil
  · cases h
    exact keepsFragment_withTail _ _
  · cases h
    exact keepsFragment_withFragment _ _
  · split at h
    · split at h
      · have hkeeps := afterSlashes?_keepsFragment h
        split at hkeeps
        · rename_i c rest _ _ _ _ htwo
          obtain ⟨d, more, rfl⟩ : ∃ d more, rest = d :: more := by
            cases rest with
            | nil => simp at htwo
            | cons d more => exact ⟨d, more, rfl⟩
          have hpair : [c, d] = ['/', '/'] := eq_of_beq htwo
          cases hpair
          exact (hkeeps.cons (by decide)).cons (by decide)
        · exact hkeeps.of_dropWhile rfl
      · cases h
        exact keepsFragment_withTail _ _
    · cases h
      exact keepsFragment_withTail _ _

theorem readOther?_keepsFragment (h : readOther? scheme text = some url) :
    KeepsFragment text url := by
  unfold readOther? at h
  split at h
  · exact ((afterSlashes?_keepsFragment h).cons (by decide)).cons (by decide)
  · cases h
    exact (keepsFragment_withTail _ _).cons (by decide)
  · cases h
    exact keepsFragment_withTail _ _

theorem afterScheme?_keepsFragment (h : afterScheme? base scheme text = some url) :
    KeepsFragment text url := by
  unfold afterScheme? at h
  split at h
  · exact readFile?_keepsFragment h
  · split at h
    · split at h
      · exact readRelative?_keepsFragment h
      · exact (afterSlashes?_keepsFragment h).of_dropWhile rfl
    · exact (afterSlashes?_keepsFragment h).of_dropWhile rfl
  · exact readOther?_keepsFragment h

theorem withoutScheme?_keepsFragment (h : withoutScheme? base text = some url) :
    KeepsFragment text url := by
  unfold withoutScheme? at h
  obtain ⟨base, -, h⟩ := Option.bind_eq_some_iff.1 h
  split at h
  · rename_i hhash
    cases h
    cases text with
    | nil => cases hhash
    | cons c rest =>
        obtain rfl : c = '#' := by simpa using hhash
        exact keepsFragment_withFragment _ _
  · split at h
    · cases h
    · split at h
      · exact readFile?_keepsFragment h
      · exact readRelative?_keepsFragment h

/-- No scheme has a hash. -/
theorem cutScheme?_keepsFragment {rest : List Char} (h : cutScheme? text = some (scheme, rest)) :
    (splitFragment rest).2 = (splitFragment text).2 := by
  cases text with
  | nil => cases h
  | cons c more =>
      rw [cutScheme?_cons] at h
      split at h
      · split at h
        · rename_i hdrop
          cases h
          have hsplit : (c :: more).takeWhile inScheme ++ ':' :: rest = c :: more := by
            rw [← hdrop]
            exact List.prefix_iff_eq_append.1 (List.takeWhile_prefix inScheme)
          have hfront : '#' ∉ (c :: more).takeWhile inScheme := by
            intro hmem
            have htrue := List.all_eq_true.1 List.all_takeWhile '#' hmem
            cases htrue
          rw [← hsplit, splitFragment_behind hfront,
            ← splitFragment_cons_of_ne (c := ':') (by decide)]
        · nomatch h
      · nomatch h

/-- Whatever a text is read against, its fragment stays. -/
theorem readAgainst?_keepsFragment {text : String} (h : readAgainst? base text = some url) :
    KeepsFragment (cleaned text) url := by
  unfold readAgainst? at h
  dsimp only at h
  split at h
  · rename_i scheme rest hcut
    have hkeeps := afterScheme?_keepsFragment h
    unfold KeepsFragment at hkeeps
    rwa [cutScheme?_keepsFragment hcut] at hkeeps
  · exact withoutScheme?_keepsFragment h

end Url

namespace Uri

open Url (IsWritten)

/-- What comes after the hash of a URI. -/
def fragment (uri : String) : List Char := (splitFragment uri.toList).2

/-! ## Settling -/

/-- Blanks and control characters at the end go, tabs and line breaks everywhere. -/
def trimmed (text : List Char) : List Char :=
  (text.reverse.dropWhile fun c => decide (c.toNat ≤ 0x20)).reverse.filter
    fun c => !(c == '\t' || c == '\n' || c == '\r')

/-- What a fragment becomes in a URL. -/
def settled (fragment : List Char) : List Char := Percent.encode Url.inFragment (trimmed fragment)

theorem splitFragment_dropEnd {p : Char → Bool} (h : p '#' = false) (text : List Char) :
    (splitFragment (text.reverse.dropWhile p).reverse).2 =
      ((splitFragment text).2.reverse.dropWhile p).reverse := by
  by_cases hhash : '#' ∈ text
  · obtain ⟨before, after, rfl, hbefore⟩ := List.eq_append_cons_of_mem hhash
    have hback : (before ++ '#' :: after).reverse.dropWhile p =
        after.reverse.dropWhile p ++ '#' :: before.reverse := by
      rw [List.reverse_append, List.reverse_cons, List.append_assoc, List.dropWhile_append]
      split
      · rename_i hempty
        rw [List.isEmpty_iff.1 hempty, List.singleton_append,
          List.dropWhile_cons_of_neg (by simp [h])]
        rfl
      · rfl
    rw [hback, List.reverse_append, List.reverse_cons, List.reverse_reverse, List.append_assoc,
      List.singleton_append, splitFragment_append hbefore, splitFragment_append hbefore]
  -- nothing that is dropped is a hash, so without one there is no fragment before or after
  · have hgone : '#' ∉ (text.reverse.dropWhile p).reverse := by
      rw [List.mem_reverse]
      exact fun hmem => hhash (List.mem_reverse.1 ((List.dropWhile_sublist p).subset hmem))
    rw [splitFragment_of_not_mem hhash, splitFragment_of_not_mem hgone]
    rfl

theorem splitFragment_filter {p : Char → Bool} (h : p '#' = true) (text : List Char) :
    (splitFragment (text.filter p)).2 = (splitFragment text).2.filter p := by
  by_cases hhash : '#' ∈ text
  · obtain ⟨before, after, rfl, hbefore⟩ := List.eq_append_cons_of_mem hhash
    rw [List.filter_append, List.filter_cons_of_pos h, splitFragment_append hbefore,
      splitFragment_append fun hmem => hbefore (List.mem_filter.1 hmem).1]
  · rw [splitFragment_of_not_mem hhash,
      splitFragment_of_not_mem fun hmem => hhash (List.mem_filter.1 hmem).1]
    rfl

theorem fragment_cleaned (text : String) :
    (splitFragment (Url.cleaned text)).2 = trimmed (fragment text) := by
  unfold Url.cleaned trimmed fragment
  dsimp only
  rw [splitFragment_filter (by decide), splitFragment_dropEnd (by decide),
    splitFragment_dropWhile (by decide)]

theorem trimmed_of_isEncoded {text : List Char} (h : Percent.IsEncoded Url.inFragment text) :
    trimmed text = text := by
  -- escaping leaves no character that trimming takes away
  have hhigh : ∀ c ∈ text, 0x20 < c.toNat := by
    intro c hc
    have hmarks := h c hc
    have hblank : c ≠ ' ' := by
      rintro rfl
      cases hmarks
    have hlow := Url.high_of_not_inFragment hmarks
    refine Nat.lt_of_le_of_ne hlow fun heq => hblank ?_
    exact (Char.toNat_inj (c := ' ')).1 heq |>.symm
  unfold trimmed
  have hend : text.reverse.dropWhile (fun c => decide (c.toNat ≤ 0x20)) = text.reverse := by
    cases hback : text.reverse with
    | nil => rfl
    | cons c rest =>
        have hc := hhigh c (List.mem_reverse.1 (hback ▸ List.mem_cons_self))
        exact List.dropWhile_cons_of_neg (by simpa using hc)
  rw [hend, List.reverse_reverse, List.filter_eq_self]
  intro c hc
  have hc := hhigh c hc
  have hne : ∀ d : Char, d.toNat ≤ 0x20 → c ≠ d := by
    rintro d hd rfl
    omega
  simp [hne '\t' (by decide), hne '\n' (by decide), hne '\r' (by decide)]

/-- A fragment settles once. -/
theorem settled_settled (fragment : List Char) : settled (settled fragment) = settled fragment := by
  have hencoded : Percent.IsEncoded Url.inFragment (settled fragment) :=
    Percent.isEncoded_encode Url.inFragment_escapes
  unfold settled at hencoded ⊢
  rw [trimmed_of_isEncoded hencoded, Percent.encode_of_isEncoded hencoded]

/-! ## Joining -/

variable {scope reference : String} {url : Url}

theorem fragment_text (h : IsWritten url) : fragment url.text = url.fragment.getD [] := by
  have hdocument := document_text h
  have htext : url.text.toList = document url.text ++ Url.fragmentText url.fragment := by
    rw [hdocument, Url.text_eq, String.toList_ofList, Url.tailText]
    simp
  unfold fragment
  rw [htext]
  cases url.fragment with
  | none =>
      show (splitFragment (document url.text ++ [])).2 = []
      rw [List.append_nil, splitFragment_of_not_mem (hash_not_mem_document _)]
  | some fragment =>
      show (splitFragment (document url.text ++ '#' :: fragment)).2 = fragment
      rw [splitFragment_append (hash_not_mem_document _)]

/-- The fragment of a reference settles when a URL resolves it. -/
theorem fragment_resolved {base : Option Url} (hbase : ∀ b, base = some b → IsWritten b)
    (h : Url.readAgainst? base reference = some url) :
    fragment url.text = settled (fragment reference) := by
  rw [fragment_text (Url.readAgainst?_isWritten hbase h), Url.readAgainst?_keepsFragment h,
    fragment_cleaned, settled]

theorem withoutStart?_eq_some {start text rest : List Char}
    (h : withoutStart? start text = some rest) : start ++ rest = text := by
  unfold withoutStart? at h
  split at h
  · rename_i hprefix
    obtain ⟨rest, rfl⟩ := List.isPrefixOf_iff_prefix.1 hprefix
    cases h
    rw [List.drop_left]
  · nomatch h

theorem fragment_joinRelative (scope reference : String) :
    fragment (joinRelative scope reference) ∈
      [fragment reference, settled (fragment reference)] := by
  -- what stands in for the scope ends before the fragment, so taking it off leaves that alone
  have hplain : '#' ∉ if (scope.toList.head? == some '/' ||
      reference.toList.head? == some '/') = true then placeholder.toList.dropLast
      else placeholder.toList := by
    split <;> decide
  unfold joinRelative
  dsimp only
  generalize (if (scope.toList.head? == some '/' || reference.toList.head? == some '/') = true
    then placeholder.toList.dropLast else placeholder.toList) = start at hplain
  split
  · exact List.mem_cons_self
  · rename_i url hjoined
    obtain ⟨root, hroot, hjoined⟩ := Option.bind_eq_some_iff.1 hjoined
    obtain ⟨base, hbase, hjoined⟩ := Option.bind_eq_some_iff.1 hjoined
    have hwritten := (Url.isWritten_of_read? hroot).join? hbase
    have hsettled : fragment url.text = settled (fragment reference) :=
      fragment_resolved (fun b hb => by cases hb; exact hwritten) hjoined
    rw [List.mem_cons, List.mem_singleton, ← hsettled]
    refine .inr ?_
    cases hrest : withoutStart? start url.text.toList with
    | none => rfl
    | some rest =>
        show (splitFragment (String.ofList rest).toList).2 = (splitFragment url.text.toList).2
        rw [String.toList_ofList, ← withoutStart?_eq_some hrest, splitFragment_behind hplain]

/-- The fragment of a joined reference is that of the reference, settled or not, or that of the
scope. -/
theorem fragment_join (scope reference : String) : fragment (join scope reference) ∈
    [fragment scope, fragment reference, settled (fragment reference)] := by
  have hkept : fragment reference ∈
      [fragment scope, fragment reference, settled (fragment reference)] := by simp
  have hread : ∀ {base : Option Url} {url : Url}, (∀ b, base = some b → IsWritten b) →
      Url.readAgainst? base reference = some url → fragment url.text ∈
        [fragment scope, fragment reference, settled (fragment reference)] := by
    intro base url hbase h
    rw [fragment_resolved hbase h]
    simp
  unfold join
  split
  · exact List.mem_cons_self
  · split
    · rename_i url hurl
      exact hread (fun _ hb => by cases hb) hurl
    · split
      · rename_i base hscope
        cases hjoin : base.join? reference with
        | none => exact hkept
        | some url =>
            exact hread (fun b hb => by cases hb; exact Url.isWritten_of_read? hscope) hjoin
      · split
        · rename_i rest heq
          -- a scope that is no URL gives its document to a reference that is a fragment alone
          have hfragment : fragment reference = rest := by
            unfold fragment
            rw [heq, splitFragment_cons]
          have hjoined : fragment (String.ofList ((splitFragment scope.toList).1 ++ '#' :: rest)) =
              rest := by
            unfold fragment
            rw [String.toList_ofList]
            exact congrArg Prod.snd (splitFragment_append (hash_not_mem_document scope) rest)
          rw [hjoined, ← hfragment]
          exact hkept
        · exact List.mem_cons_of_mem _ (fragment_joinRelative scope reference)

end Uri

end SchemaGraph

import SchemaGraph.Node.Check
import SchemaGraph.Proofs.Resolver

set_option autoImplicit false

/-! # What format checks demand of a text

Addresses of electronic mail have an at sign and URLs start with a letter; the other checks are not
about texts. So a check that accepts one text with neither accepts every text (`Check.accepts_any`).
That an address has an at sign is read off its pattern, which needs that character
(`Pattern.not_matches_of_needs`).
-/

namespace SchemaGraph

/-! ## Characters that a pattern needs -/

namespace Pattern

/-- The pattern has a part for just this character, which no match leaves out. -/
def needs (c : Char) : Pattern → Bool
  | one set => set == .single c
  | seq a b => a.needs c || b.needs c
  | alt a b => a.needs c && b.needs c
  | times least _ a => least != 0 && a.needs c
  | _ => false

section Steps

variable {step : List Nat → List Nat}

theorem iterate_nil (h : step [] = []) (n : Nat) : iterate step n [] = [] := by
  cases n with
  | zero => rfl
  | succ n =>
      show (if step [] == [] then [] else iterate step n (step [])) = []
      rw [h]
      rfl

theorem reach_nil (h : step [] = []) (n : Nat) : reach step n [] [] = [] := by
  cases n with
  | zero => rfl
  | succ n =>
      unfold reach
      rw [h]
      rfl

end Steps

variable {text : Array Char} {c : Char}

/-- Where nothing starts nothing ends. -/
theorem ends_nil (text : Array Char) (pattern : Pattern) : pattern.ends text [] = [] := by
  induction pattern with
  | empty => rfl
  | one set => rfl
  | look condition => rfl
  | seq a b iha ihb =>
      show b.ends text (a.ends text []) = []
      rw [iha, ihb]
  | alt a b iha ihb =>
      show addPlaces (a.ends text []) (b.ends text []) = []
      rw [iha, ihb]
      rfl
  | times least most a ih =>
      unfold ends
      dsimp only
      rw [iterate_nil ih]
      cases most with
      | none => exact reach_nil ih _
      | some most => exact reach_nil ih _

/-- Without a character that it needs a pattern matches nowhere. -/
theorem ends_of_needs (hc : c ∉ text) {pattern : Pattern} (h : pattern.needs c = true)
    (places : List Nat) : pattern.ends text places = [] := by
  induction pattern generalizing places with
  | empty => cases h
  | look condition => cases h
  | one set =>
      have hset : set = .single c := eq_of_beq h
      refine List.filterMap_eq_nil_iff.2 fun place _ => ?_
      cases hd : text[place]? with
      | none => rfl
      | some d =>
          refine if_neg fun hcontains => hc ?_
          rw [hset] at hcontains
          obtain ⟨hlow, hhigh⟩ := Bool.and_eq_true_iff.1 hcontains
          have hlow : c.toNat ≤ d.toNat := of_decide_eq_true hlow
          have hhigh : d.toNat ≤ c.toNat := of_decide_eq_true hhigh
          rw [Char.toNat_inj.1 (Nat.le_antisymm hlow hhigh)]
          exact Array.mem_of_getElem? hd
  | seq a b iha ihb =>
      show b.ends text (a.ends text places) = []
      rcases Bool.or_eq_true_iff.1 h with ha | hb
      · rw [iha ha, ends_nil]
      · exact ihb hb _
  | alt a b iha ihb =>
      obtain ⟨ha, hb⟩ := Bool.and_eq_true_iff.1 h
      show addPlaces (a.ends text places) (b.ends text places) = []
      rw [iha ha, ihb hb]
      rfl
  | times least most a ih =>
      obtain ⟨hleast, ha⟩ := Bool.and_eq_true_iff.1 h
      -- the first of the repetitions finds no place, and so do those after it
      have hnil : a.ends text [] = [] := ends_nil text a
      have hsettled : iterate (a.ends text) least places = [] := by
        obtain ⟨n, rfl⟩ := Nat.exists_eq_succ_of_ne_zero (bne_iff_ne.1 hleast)
        unfold iterate
        dsimp only
        rw [ih ha]
        split
        · rename_i hsame
          exact (eq_of_beq hsame).symm
        · exact iterate_nil hnil n
      unfold ends
      dsimp only
      rw [hsettled]
      cases most with
      | none => exact reach_nil hnil _
      | some most => exact reach_nil hnil _

theorem not_matches_of_needs {pattern : Pattern} (h : pattern.needs c = true) {text : String}
    (hc : c ∉ text.toList) : pattern.matchesFromStart text = false := by
  unfold matchesFromStart
  rw [ends_of_needs (by simpa using hc) h]
  rfl

end Pattern

/-! ## Texts that are no URLs -/

namespace Url

/-- A text of which no letter comes first, once control characters and blanks are dropped, is no
URL. -/
theorem read?_eq_none {text : String} (h : ∀ c, (text.toList.dropWhile fun c => decide
    (c.toNat ≤ 0x20)).head? = some c → Ascii.isLetter c = false) : read? text = none := by
  have hscheme : cutScheme? (cleaned text) = none := by
    cases hfront : text.toList.dropWhile (fun c => decide (c.toNat ≤ 0x20)) with
    | nil =>
        have hempty : cleaned text = [] := by
          unfold cleaned
          dsimp only
          rw [hfront]
          rfl
        rw [hempty]
        rfl
    | cons first rest =>
        obtain ⟨more, hmore⟩ := Uri.cleaned_eq_cons hfront
        rw [hmore]
        unfold cutScheme?
        dsimp only
        rw [h first (by rw [hfront]; rfl)]
        rfl
  unfold read? readAgainst?
  dsimp only
  rw [hscheme]
  rfl

end Url

/-! ## Checks of texts -/

/-- An address has an at sign. -/
theorem FormatCheck.not_accepts_email {text : String} (h : '@' ∉ text.toList) :
    email.accepts (.string text) = false := by
  have hneeds : emailPattern.all (Pattern.needs '@') = true := by decide +kernel
  show emailPattern.any (fun pattern => pattern.matchesFromStart text) = false
  cases hpattern : emailPattern with
  | none => rfl
  | some pattern =>
      rw [hpattern] at hneeds
      exact Pattern.not_matches_of_needs hneeds h

namespace Check

/-- A check that accepts a text which is neither an address nor a URL is not about texts. -/
theorem accepts_any {check : Check} {text : String} (hmail : '@' ∉ text.toList)
    (hurl : Url.read? text = none) (h : check.violation? (.string text) (.str text) = none)
    (other : String) : check.violation? (.string other) (.str other) = none := by
  cases check with
  | rule demand messages => rfl
  | format check messages =>
      cases check with
      | email =>
          -- this check has not accepted a text without an at sign
          unfold violation? at h
          dsimp only at h
          rw [FormatCheck.not_accepts_email hmail] at h
          cases h
      | uri =>
          have hrefused : FormatCheck.uri.accepts (.string text) = false := by
            show (Url.read? text).isSome = false
            rw [hurl]
            rfl
          unfold violation? at h
          dsimp only at h
          rw [hrefused] at h
          cases h
      | int32 => rfl
      | int64 => rfl

end Check

end SchemaGraph

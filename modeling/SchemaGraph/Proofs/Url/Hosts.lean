import SchemaGraph.Proofs.Text
import SchemaGraph.Proofs.Url.Characters

set_option autoImplicit false

/-! # Hosts in a URL

Whatever a host is read from, no character of it ends an authority or a host too early: only an
address in brackets has colons (`isDelimited_special?`, `isDelimited_opaqueText?`).
-/

namespace SchemaGraph

theorem exists_of_mem_mapM {α β : Type} {f : α → Option β} {as : List α} : ∀ {bs : List β},
    as.mapM f = some bs → ∀ {b}, b ∈ bs → ∃ a ∈ as, f a = some b := by
  induction as with
  | nil =>
      intro bs h b hb
      cases h
      cases hb
  | cons a rest ih =>
      intro bs h b hb
      rw [List.mapM_cons] at h
      obtain ⟨first, hfirst, h⟩ := Option.bind_eq_some_iff.1 h
      obtain ⟨more, hmore, h⟩ := Option.bind_eq_some_iff.1 h
      cases h
      rcases List.mem_cons.1 hb with rfl | hb
      · exact ⟨a, List.mem_cons_self, hfirst⟩
      · obtain ⟨a', ha', hread⟩ := ih hmore hb
        exact ⟨a', List.mem_cons_of_mem _ ha', hread⟩

theorem mem_intercalate {separator c : Char} {pieces : List (List Char)}
    (h : c ∈ [separator].intercalate pieces) : c = separator ∨ ∃ piece ∈ pieces, c ∈ piece := by
  induction pieces with
  | nil => cases h
  | cons first rest ih =>
      cases rest with
      | nil =>
          rw [List.intercalate_singleton] at h
          exact .inr ⟨first, List.mem_cons_self, h⟩
      | cons second more =>
          rw [List.intercalate_cons_cons] at h
          rcases List.mem_append.1 h with h | h
          · rcases List.mem_append.1 h with h | h
            · exact .inr ⟨first, List.mem_cons_self, h⟩
            · exact .inl (List.mem_singleton.1 h)
          · refine (ih h).imp id fun ⟨piece, hpiece, hc⟩ => ?_
            exact ⟨piece, List.mem_cons_of_mem _ hpiece, hc⟩

theorem mem_toDigits {base n : Nat} (hbase : 1 < base) {c : Char} (h : c ∈ Nat.toDigits base n) :
    ∃ d < base, c = Nat.digitChar d := by
  induction n using Nat.strongRecOn with
  | ind n ih =>
      rw [Nat.toDigits_eq_if hbase] at h
      split at h
      · rename_i hlt
        exact ⟨n, hlt, List.mem_singleton.1 h⟩
      · rename_i hge
        rcases List.mem_append.1 h with h | h
        · exact ih _ (Nat.div_lt_self (by omega) hbase) h
        · exact ⟨n % base, Nat.mod_lt n (by omega), List.mem_singleton.1 h⟩

namespace Host

/-- A character that neither ends an authority nor a host, and that is no blank. -/
def isPlain (c : Char) : Bool :=
  decide (0x20 < c.toNat) && !(['#', '/', ':', '?', '@', '[', '\\', ']', '|'].contains c)

/-- A host whose end can be seen. -/
inductive IsDelimited : List Char → Prop where
  | plain {host : List Char} (h : ∀ c ∈ host, isPlain c = true) : IsDelimited host
  | bracketed {inner : List Char} (h : ∀ c ∈ inner, isPlain c = true ∨ c = ':') :
      IsDelimited ('[' :: inner ++ [']'])

theorem isPlain_digit {base : Nat} (hbase : base ≤ 16) {d : Nat} (h : d < base) :
    isPlain (Nat.digitChar d) = true := by
  have hall : ∀ d < 16, isPlain (Nat.digitChar d) = true := by decide
  exact hall d (by omega)

theorem isPlain_toDigits {base n : Nat} (hbase : 1 < base) (hbound : base ≤ 16) :
    ∀ c ∈ Nat.toDigits base n, isPlain c = true := by
  intro c hc
  obtain ⟨d, hd, rfl⟩ := mem_toDigits hbase hc
  exact isPlain_digit hbound hd

/-! ## Addresses -/

theorem isPlain_addressText (address : Nat) : ∀ c ∈ addressText address, isPlain c = true := by
  intro c (hc : c ∈ ['.'].intercalate _)
  rcases mem_intercalate hc with rfl | ⟨piece, hpiece, hc⟩
  · decide
  · obtain ⟨i, -, rfl⟩ := List.mem_map.1 hpiece
    exact isPlain_toDigits (by decide) (by decide) c hc

theorem isDelimited_longAddressText (groups : List Nat) : IsDelimited (longAddressText groups) := by
  have hwrite : ∀ part : List Nat, ∀ c ∈ [':'].intercalate (part.map (Nat.toDigits 16)),
      isPlain c = true ∨ c = ':' := by
    intro part c hc
    rcases mem_intercalate hc with rfl | ⟨piece, hpiece, hc⟩
    · exact .inr rfl
    · obtain ⟨group, -, rfl⟩ := List.mem_map.1 hpiece
      exact .inl (isPlain_toDigits (by decide) (by decide) c hc)
  unfold longAddressText
  dsimp only
  refine .bracketed fun c hc => ?_
  split at hc
  · exact hwrite groups c hc
  · rcases List.mem_append.1 hc with hc | hc
    · rcases List.mem_append.1 hc with hc | hc
      · exact hwrite _ c hc
      · exact .inr (by simpa using hc)
    · exact hwrite _ c hc

theorem isDelimited_bracketed? {text host : List Char}
    (h : bracketed? text = some (some host)) : IsDelimited host := by
  unfold bracketed? at h
  split at h
  · have haddress := Option.some.inj h
    split at haddress
    · obtain ⟨groups, -, rfl⟩ := Option.map_eq_some_iff.1 haddress
      exact isDelimited_longAddressText groups
    · cases haddress
  · cases h

/-! ## Domains -/

theorem isPlain_of_not_forbidden {c : Char} (h : isForbiddenInDomain c = false) :
    isPlain c = true := by
  unfold isForbiddenInDomain at h
  simp only [Bool.or_eq_false_iff, decide_eq_false_iff_not, List.contains_eq_mem, List.mem_cons,
    List.not_mem_nil, or_false, not_or] at h
  obtain ⟨⟨⟨hbound, -⟩, -⟩, hmarks⟩ := h
  have hlow : 0x20 < c.toNat := by omega
  unfold isPlain
  simp only [List.contains_eq_mem, List.mem_cons, List.not_mem_nil, or_false, Bool.and_eq_true,
    decide_eq_true_eq, Bool.not_eq_true', decide_eq_false_iff_not, not_or]
  grind

end Host

namespace Punycode

theorem threshold_le (k bias : Nat) : threshold k bias ≤ 26 := by
  unfold threshold
  split
  · omega
  · split <;> omega

theorem isPlain_digit {d : Nat} (h : d < 36) : Host.isPlain (digit d) = true := by
  have hall : ∀ d < 36, Host.isPlain (digit d) = true := by decide
  exact hall d h

theorem isPlain_distanceDigits (bias k distance : Nat) :
    ∀ c ∈ distanceDigits bias k distance, Host.isPlain c = true := by
  induction k, distance using distanceDigits.induct bias with
  | case1 k distance t hlt =>
      intro c hc
      have hbound := threshold_le k bias
      rw [distanceDigits, if_pos hlt, List.mem_singleton] at hc
      rw [hc]
      exact isPlain_digit (Nat.lt_of_lt_of_le hlt (by omega))
  | case2 k distance t hge ih =>
      intro c hc
      have hbound := threshold_le k bias
      have hmod : (distance - threshold k bias) % (36 - threshold k bias) <
          36 - threshold k bias := Nat.mod_lt _ (by omega)
      rw [distanceDigits, if_neg hge] at hc
      rcases List.mem_cons.1 hc with rfl | hc
      · exact isPlain_digit (by omega)
      · exact ih c hc

theorem isPlain_pass {basic m : Nat} {p : Progress} (h : ∀ c ∈ p.written, Host.isPlain c = true)
    (d : Char) : ∀ c ∈ (pass basic m p d).written, Host.isPlain c = true := by
  unfold pass
  split
  · exact h
  · split
    · intro c hc
      rcases List.mem_append.1 hc with hc | hc
      · exact h c hc
      · exact isPlain_distanceDigits _ _ _ c hc
    · exact h

theorem isPlain_foldl_pass {basic m : Nat} {label : List Char} : ∀ {p : Progress},
    (∀ c ∈ p.written, Host.isPlain c = true) →
      ∀ c ∈ (label.foldl (pass basic m) p).written, Host.isPlain c = true := by
  induction label with
  | nil => exact fun h => h
  | cons d rest ih => exact fun h => ih (isPlain_pass h d)

theorem isPlain_encodeFrom {label : List Char} {basic : Nat} {more : List Nat} :
    ∀ {n : Nat} {p : Progress}, (∀ c ∈ p.written, Host.isPlain c = true) →
      ∀ c ∈ (encodeFrom label basic n more p).written, Host.isPlain c = true := by
  induction more with
  | nil => exact fun h => h
  | cons m rest ih =>
      intro n p h
      refine ih ?_
      exact isPlain_foldl_pass (p := { p with delta := p.delta + (m - n) * (p.handled + 1) }) h

theorem isPlain_encode {label : List Char} (h : ∀ c ∈ label, Host.isPlain c = true) :
    ∀ c ∈ encode label, Host.isPlain c = true := by
  intro c hc
  unfold encode at hc
  dsimp only at hc
  rcases List.mem_append.1 hc with hc | hc
  · rcases List.mem_append.1 hc with hc | hc
    · exact h c (List.mem_filter.1 hc).1
    · split at hc
      · cases hc
      · rw [List.mem_singleton.1 hc]
        decide
  · exact isPlain_encodeFrom (by simp) c hc

end Punycode

namespace Host

theorem isPlain_asciiLabel? {label written : List Char} (h : asciiLabel? label = some written)
    (hlabel : ∀ c ∈ label, isPlain c = true) : ∀ c ∈ written, isPlain c = true := by
  unfold asciiLabel? at h
  split at h
  · have hsame : written = label := by
      split at h
      · split at h
        · split at h
          · exact (Option.some.inj h).symm
          · cases h
        · cases h
      · exact (Option.some.inj h).symm
    rw [hsame]
    exact hlabel
  · cases h
    intro c hc
    rcases List.mem_append.1 hc with hc | hc
    · exact List.all_eq_true.1 (show ['x', 'n', '-', '-'].all isPlain = true by decide) c hc
    · exact Punycode.isPlain_encode hlabel c hc

theorem isPlain_asciiDomain? {text domain : List Char} (h : asciiDomain? text = some domain) :
    ∀ c ∈ domain, isPlain c = true := by
  unfold asciiDomain? at h
  dsimp only at h
  generalize (Percent.decode text).flatMap mapDomainChar = mapped at h
  split at h
  · cases h
  · rename_i hforbidden
    obtain ⟨labels, hlabels, h⟩ := Option.bind_eq_some_iff.1 h
    split at h
    · cases h
    · cases h
      have hmapped : ∀ c ∈ mapped, isPlain c = true := by
        intro c hc
        refine isPlain_of_not_forbidden ?_
        rw [Bool.eq_false_iff]
        exact fun hbad => hforbidden (List.any_eq_true.2 ⟨c, hc, hbad⟩)
      intro c hc
      rcases mem_intercalate hc with rfl | ⟨written, hwritten, hc⟩
      · decide
      · obtain ⟨label, hlabel, hread⟩ := exists_of_mem_mapM hlabels hwritten
        exact isPlain_asciiLabel? hread (fun d hd => hmapped d (mem_of_mem_splitOn hlabel hd)) c hc

/-! ## Both sorts of hosts -/

theorem isDelimited_special? {text host : List Char} (h : special? text = some host) :
    IsDelimited host := by
  unfold special? at h
  split at h
  · rename_i address hbracketed
    subst h
    exact isDelimited_bracketed? hbracketed
  · obtain ⟨domain, hdomain, h⟩ := Option.bind_eq_some_iff.1 h
    split at h
    · obtain ⟨address, -, rfl⟩ := Option.map_eq_some_iff.1 h
      exact .plain (isPlain_addressText address)
    · cases h
      exact .plain (isPlain_asciiDomain? hdomain)

theorem isDelimited_opaqueText? {text host : List Char} (h : opaqueText? text = some host) :
    IsDelimited host := by
  unfold opaqueText? at h
  split at h
  · rename_i address hbracketed
    subst h
    exact isDelimited_bracketed? hbracketed
  · split at h
    · cases h
    · rename_i hforbidden
      cases h
      refine .plain fun c hc => ?_
      rcases Percent.mem_encode hc with ⟨hmem, hcontrol⟩ | hescape
      · have hallowed : isForbidden c = false := by
          rw [Bool.eq_false_iff]
          exact fun hbad => hforbidden (List.any_eq_true.2 ⟨c, hmem, hbad⟩)
        unfold isForbidden at hallowed
        simp only [Bool.or_eq_false_iff, List.contains_eq_mem, List.mem_cons, List.not_mem_nil,
          or_false, decide_eq_false_iff_not, not_or] at hallowed
        obtain ⟨-, hmarks⟩ := hallowed
        simp only [isControl, Bool.or_eq_false_iff, decide_eq_false_iff_not] at hcontrol
        have hblank : c.toNat ≠ 0x20 := by
          intro heq
          exact hmarks.2.2.2.1 (Char.toNat_inj.1 heq)
        have hlow : 0x20 < c.toNat := by omega
        unfold isPlain
        simp only [List.contains_eq_mem, List.mem_cons, List.not_mem_nil, or_false,
          Bool.and_eq_true, decide_eq_true_eq, Bool.not_eq_true', decide_eq_false_iff_not, not_or]
        grind
      · exact List.all_eq_true.1 (show Percent.escapes.all isPlain = true by decide) c hescape

end Host

end SchemaGraph

import SchemaGraph.Proofs.Escapes
import SchemaGraph.Proofs.Resolver.Fragments
import SchemaGraph.Proofs.Resolver.Runs

set_option autoImplicit false

/-! # References into the document of a base

A resolver stores its document under the document part of the base, as it is given. References
into it are joined to the base, and where the base is a URL, that part is written by the URL
standard. They lead to the document exactly if both are the same text, and then no retriever is
asked (`Resolver.local_references_stay_iff`).
-/

namespace SchemaGraph

namespace Ascii

theorem isHex_range {c : Char} (h : (hexValue? c).isSome = true) :
    0x30 ≤ c.toNat ∧ c.toNat ≤ 0x66 := by
  have hlower : 'a'.toNat = 0x61 ∧ 'f'.toNat = 0x66 := by decide
  have hupper : 'A'.toNat = 0x41 ∧ 'F'.toNat = 0x46 := by decide
  unfold hexValue? at h
  simp only [Bool.and_eq_true, decide_eq_true_eq, char_le_iff] at h
  split at h
  · have hdigit := isDigit_range ‹_›
    omega
  · split at h
    · omega
    · split at h
      · omega
      · cases h

end Ascii

namespace Url

/-- Neither the percent sign nor a digit is escaped in a fragment. -/
theorem inFragment_spares : Percent.SparesEscapes inFragment := by
  have hmarks : ∀ d ∈ [' ', '"', '<', '>', '\x60'], (Ascii.hexValue? d).isSome = false :=
    eq_false_of_any (by decide)
  rintro c (rfl | hhex)
  · decide
  · have hrange := Ascii.isHex_range hhex
    have hcontrol : Host.isControl c = false := by
      unfold Host.isControl
      simp only [Bool.or_eq_false_iff, decide_eq_false_iff_not]
      omega
    have hplain : [' ', '"', '<', '>', '\x60'].contains c = false := by
      refine Bool.eq_false_iff.2 fun hmem => ?_
      rw [hmarks c (List.contains_iff_mem.1 hmem)] at hhex
      cases hhex
    unfold inFragment
    rw [hcontrol, hplain]
    rfl

end Url

namespace Uri

/-! ## Where references into a base lead -/

/-- The document that references into a base are joined to. -/
def home (base : String) : String :=
  match Url.read? base with
  | some url => (defrag url.text).1
  | none => (defrag base).1

/-- The fragment of a reference into a base: a URL writes it by the URL standard. -/
def written (base fragment : String) : String :=
  match Url.read? base with
  | some _ => String.ofList (settled fragment.toList)
  | none => fragment

/-- What is left of a fragment in a reference into a base: in a URL tabs and line breaks are
dropped, and blanks and control characters at the end. -/
def kept (base fragment : String) : String :=
  match Url.read? base with
  | some _ => String.ofList (trimmed fragment.toList)
  | none => fragment

variable {base fragment : String}

theorem toList_local (fragment : String) : ("#" ++ fragment).toList = '#' :: fragment.toList := by
  rw [String.toList_append]
  rfl

theorem isFragment_local (fragment : String) : IsFragment ("#" ++ fragment) :=
  ⟨fragment.toList, toList_local fragment⟩

/-- A reference into a base leads to the same document, whatever the fragment is. -/
theorem defrag_join_local (base fragment : String) :
    defrag (join base ("#" ++ fragment)) = (home base, written base fragment) := by
  have hfragment := isFragment_local fragment
  have hread := read?_fragment hfragment
  have hne : "#" ++ fragment ≠ "" := by
    intro h
    have hlist := toList_local fragment
    rw [h] at hlist
    cases hlist
  unfold home written
  cases hbase : Url.read? base with
  | none =>
      have hjoin : join base ("#" ++ fragment) =
          String.ofList (document base ++ '#' :: fragment.toList) := by
        unfold join
        rw [not_isEmpty hne, hread, hbase, toList_local]
        rfl
      unfold defrag
      rw [hjoin, String.toList_ofList, splitFragment_append (hash_not_mem_document base)]
      show (String.ofList (document base), String.ofList fragment.toList) = _
      rw [String.ofList_toList]
      rfl
  | some url =>
      have hurl := Url.isWritten_of_read? hbase
      obtain ⟨rest, hclean⟩ := cleaned_fragment hfragment
      have hresolved : resolved? base ("#" ++ fragment) = some (url.withFragment ('#' :: rest)) := by
        unfold resolved?
        rw [hread, hbase]
        show Url.readAgainst? (some url) ("#" ++ fragment) = _
        unfold Url.readAgainst?
        rw [hclean]
        rfl
      have hrest : rest = trimmed fragment.toList := by
        have htrimmed := fragment_cleaned ("#" ++ fragment)
        unfold Uri.fragment at htrimmed
        rw [hclean, splitFragment_cons, toList_local, splitFragment_cons] at htrimmed
        exact htrimmed
      rw [join_of_resolved? hne hresolved]
      refine Prod.ext ?_ ?_
      · show String.ofList (document _) = String.ofList (document _)
        rw [document_text (hurl.withFragment _), document_text hurl]
        rfl
      · show String.ofList (Uri.fragment _) = _
        rw [fragment_text (hurl.withFragment _), hrest]
        rfl

/-! ## What fragments point at -/

theorem dropWhile_encode (text : List Char) :
    (Percent.encode Url.inFragment text).dropWhile (· == '/') =
      Percent.encode Url.inFragment (text.dropWhile (· == '/')) := by
  induction text with
  | nil => rfl
  | cons c rest ih =>
      cases hc : Url.inFragment c with
      | true =>
          obtain ⟨more, hmore⟩ := Percent.head_encode hc rest
          have hne : ¬(c == '/') = true := by
            intro h
            rw [eq_of_beq h] at hc
            revert hc
            decide
          rw [List.dropWhile_cons, if_neg hne, hmore]
          rfl
      | false =>
          rw [Percent.encode_cons_plain hc, List.dropWhile_cons, List.dropWhile_cons]
          split
          · exact ih
          · rw [Percent.encode_cons_plain hc]

/-- Escaping a fragment leaves the segments it points along. -/
theorem pointerSegments_encode (text : List Char) :
    pointerSegments (String.ofList (Percent.encode Url.inFragment text)) =
      pointerSegments (String.ofList text) := by
  unfold pointerSegments
  dsimp only
  rw [String.toList_ofList, String.toList_ofList, dropWhile_encode,
    Percent.decode_encode Url.inFragment_spares]
  cases htext : text.dropWhile (· == '/') with
  | nil => rfl
  | cons c rest =>
      have hne : (Percent.encode Url.inFragment (c :: rest)).isEmpty = false := by
        rw [List.isEmpty_eq_false_iff]
        exact Percent.encode_ne_nil (fun h => nomatch h)
      rw [hne]
      rfl

/-- A fragment points along the segments of what is left of it. -/
theorem pointerSegments_written (base fragment : String) :
    pointerSegments (written base fragment) = pointerSegments (kept base fragment) := by
  unfold written kept
  cases Url.read? base with
  | none => rfl
  | some url => exact pointerSegments_encode _

/-- A fragment of which a URL escapes nothing stays as it is. -/
theorem written_of_isEncoded (base : String)
    (h : Percent.IsEncoded Url.inFragment fragment.toList) : written base fragment = fragment := by
  unfold written
  cases Url.read? base with
  | none => rfl
  | some url =>
      show String.ofList (settled fragment.toList) = fragment
      unfold settled
      rw [trimmed_of_isEncoded h, Percent.encode_of_isEncoded h, String.ofList_toList]

end Uri

/-! ## Resolving them -/

namespace Resolver

variable {r : Resolver} {base : String}

/-- What was asked for after a document was looked up: its URI, if it is not stored and there is a
retriever for its scheme. -/
def askedAfter (r : Resolver) (uri : String) : List String :=
  if (Entries.find? uri r.store).isSome then r.asked
  else if (Entries.find? ((Uri.scheme? uri).getD "") r.retrievers).isSome then uri :: r.asked
  else r.asked

theorem asked_resolveUrl (r : Resolver) (url : String) :
    (r.resolveUrl url).2.asked = r.askedAfter (Uri.defrag url).1 := by
  unfold resolveUrl askedAfter retrieve
  dsimp only
  cases Entries.find? (Uri.defrag url).1 r.store with
  | some document => rfl
  | none =>
      cases Entries.find? ((Uri.scheme? (Uri.defrag url).1).getD "") r.retrievers with
      | none => rfl
      | some retriever =>
          dsimp only
          cases retriever (Uri.defrag url).1 <;> rfl

theorem asked_resolve (h : r.IsFresh) (reference : String) :
    (r.resolve reference).2.asked =
      r.askedAfter (Uri.defrag (Uri.join r.scope reference)).1 := by
  have hjoined := (h.remembers.join r.scope reference).1
  have hresolved : (r.join r.scope reference).2.resolved.entries = [] := h.2
  have hasked := asked_resolveUrl (r.join r.scope reference).2 (r.join r.scope reference).1
  rw [hjoined] at hasked
  have hsame : (r.join r.scope reference).2.askedAfter (Uri.defrag (Uri.join r.scope reference)).1 =
      r.askedAfter (Uri.defrag (Uri.join r.scope reference)).1 := rfl
  rw [← hsame, ← hasked]
  unfold resolve
  generalize r.join r.scope reference = joined at hjoined hresolved ⊢
  obtain ⟨url, s⟩ := joined
  dsimp only at hjoined hresolved ⊢
  subst hjoined
  have hnone : s.resolved.find? (Uri.join r.scope reference) = none := by
    unfold Recent.find?
    rw [hresolved]
    rfl
  rw [hnone]
  dsimp only
  generalize s.resolveUrl (Uri.join r.scope reference) = found
  obtain ⟨result, t⟩ := found
  cases result <;> rfl

/-- Resolving a reference into the base of a new resolver. -/
theorem resolve_local (retrievers : List (String × Retriever)) (base : String) (document : Json)
    (fragment : String) :
    ((ofDocument retrievers base document).resolve ("#" ++ fragment)).1 =
        (((ofDocument retrievers base document).documentAt (Uri.home base)).bind fun found =>
          resolveFragment found (Uri.written base fragment)).map
            (fun value => (Uri.join base ("#" ++ fragment), value)) ∧
      ((ofDocument retrievers base document).resolve ("#" ++ fragment)).2.asked =
        (ofDocument retrievers base document).askedAfter (Uri.home base) := by
  have hfresh := isFresh_ofDocument retrievers base document
  have hscope : (ofDocument retrievers base document).scope = base := rfl
  have hdefrag := Uri.defrag_join_local base fragment
  have hanswer := (hfresh.remembers.resolve ("#" ++ fragment)).1
  have hasked := asked_resolve hfresh ("#" ++ fragment)
  unfold valueAt at hanswer
  rw [hscope, hdefrag] at hasked hanswer
  exact ⟨hanswer, hasked⟩

/-- The only document is stored under the document part of the base. -/
theorem find?_ofDocument (retrievers : List (String × Retriever)) (base uri : String)
    (document : Json) : Entries.find? uri (ofDocument retrievers base document).store =
      if (Uri.defrag base).1 = uri then some document else none := by
  show (if (Uri.defrag base).1 == uri then some document else none) = _
  simp only [beq_iff_eq]

theorem find?_elsewhere (retrievers : List (String × Retriever)) (document : Json)
    (h : Uri.home base ≠ (Uri.defrag base).1) :
    Entries.find? (Uri.home base) (ofDocument retrievers base document).store = none := by
  rw [find?_ofDocument, if_neg fun heq => h heq.symm]

theorem askedAfter_home (retrievers : List (String × Retriever)) (document : Json)
    (h : Uri.home base = (Uri.defrag base).1) :
    (ofDocument retrievers base document).askedAfter (Uri.home base) = [] := by
  unfold askedAfter
  rw [find?_ofDocument, if_pos h.symm]
  rfl

theorem askedAfter_elsewhere (retrievers : List (String × Retriever)) (document : Json)
    (h : Uri.home base ≠ (Uri.defrag base).1) :
    (ofDocument retrievers base document).askedAfter (Uri.home base) =
      if (Entries.find? ((Uri.scheme? (Uri.home base)).getD "") retrievers).isSome
      then [Uri.home base] else [] := by
  unfold askedAfter
  rw [find?_elsewhere retrievers document h]
  rfl

theorem documentAt_home (retrievers : List (String × Retriever)) (document : Json)
    (h : Uri.home base = (Uri.defrag base).1) :
    (ofDocument retrievers base document).documentAt (Uri.home base) = .ok document := by
  unfold documentAt
  rw [find?_ofDocument, if_pos h.symm]

/-- No retriever is asked for references into a base, whatever there is, exactly if the base writes
its document as references into it are joined. Then they resolve within the document, by the
fragment as the base makes it written; otherwise what they come to does not depend on the document.
Only a base that is a URL writes fragments anew, and it changes none of which nothing is escaped;
every fragment still points at what is left of it. -/
theorem local_references_stay_iff (base : String) :
    ((∀ retrievers document fragment,
        ((ofDocument retrievers base document).resolve ("#" ++ fragment)).2.asked = []) ↔
      Uri.home base = (Uri.defrag base).1) ∧
    (Uri.home base = (Uri.defrag base).1 → ∀ retrievers document fragment,
      ((ofDocument retrievers base document).resolve ("#" ++ fragment)).1 =
        (resolveFragment document (Uri.written base fragment)).map
          fun value => (Uri.join base ("#" ++ fragment), value)) ∧
    (Uri.home base ≠ (Uri.defrag base).1 → ∀ retrievers document document' fragment,
      ((ofDocument retrievers base document).resolve ("#" ++ fragment)).1 =
        ((ofDocument retrievers base document').resolve ("#" ++ fragment)).1) ∧
    (∀ document fragment, (resolveFragment document (Uri.written base fragment)).toOption =
        (resolveFragment document (Uri.kept base fragment)).toOption ∧
      (Percent.IsEncoded Url.inFragment fragment.toList → Uri.written base fragment = fragment)) ∧
    (Url.read? base = none →
      Uri.home base = (Uri.defrag base).1 ∧ ∀ fragment, Uri.written base fragment = fragment) := by
  refine ⟨⟨fun h => ?_, fun h retrievers document fragment => ?_⟩,
    fun h retrievers document fragment => ?_,
    fun h retrievers document document' fragment => ?_, fun document fragment => ⟨?_, ?_⟩,
    fun h => ?_⟩
  · -- a retriever for the scheme of the document would be asked
    by_contra hne
    let scheme := (Uri.scheme? (Uri.home base)).getD ""
    let retrievers : List (String × Retriever) := [(scheme, fun _ => .ok .null)]
    have hasked := h retrievers .null ""
    have hfound : Entries.find? scheme retrievers = some fun _ => .ok .null :=
      if_pos (beq_self_eq_true scheme)
    rw [(resolve_local retrievers base .null "").2, askedAfter_elsewhere retrievers .null hne,
      hfound] at hasked
    cases hasked
  · rw [(resolve_local retrievers base document fragment).2,
      askedAfter_home retrievers document h]
  · rw [(resolve_local retrievers base document fragment).1,
      documentAt_home retrievers document h]
    rfl
  · rw [(resolve_local retrievers base document fragment).1,
      (resolve_local retrievers base document' fragment).1]
    rw [documentAt_of_missing (find?_elsewhere retrievers document h),
      documentAt_of_missing (find?_elsewhere retrievers document' h)]
    rfl
  · unfold resolveFragment
    rw [Uri.pointerSegments_written]
    cases document.walk? (Uri.pointerSegments (Uri.kept base fragment)) <;> rfl
  · exact Uri.written_of_isEncoded base
  · unfold Uri.home Uri.written
    rw [h]
    exact ⟨rfl, fun _ => rfl⟩

/-- A document with one property. -/
def single : Json := .obj [("a", .bool true)]

/-- A retriever that finds nothing. -/
def nothing : Retriever := fun uri => .error (.fetch uri "no such document")

theorem resolveFragment_single : resolveFragment single "/a" = .ok (.bool true) := by
  have hsegments : Uri.pointerSegments "/a" = ["a"] := by decide +kernel
  unfold resolveFragment
  rw [hsegments]
  rfl

/-- A base that has nothing after its host, with the slash that the URL standard writes there. -/
theorem local_references_stay_host :
    let origin := ofDocument [("http", nothing)] "http://example.com/" single
    Uri.home "http://example.com/" = (Uri.defrag "http://example.com/").1 ∧
      (origin.resolve ("#" ++ "/a")).2.asked = [] ∧
      (origin.resolve ("#" ++ "/a")).1 = .ok ("http://example.com/#/a", .bool true) := by
  have hhome : Uri.home "http://example.com/" = (Uri.defrag "http://example.com/").1 := by
    decide +kernel
  have hjoin : Uri.join "http://example.com/" ("#" ++ "/a") = "http://example.com/#/a" := by
    decide +kernel
  have hwritten : Uri.written "http://example.com/" "/a" = "/a" := by decide +kernel
  have hstay := local_references_stay_iff "http://example.com/"
  refine ⟨hhome, hstay.1.2 hhome _ _ "/a", ?_⟩
  rw [hstay.2.1 hhome, hjoin, hwritten, resolveFragment_single]
  rfl

/-- Without that slash, the document of the base is not found under the URI that references into it
are joined to, and that is asked for. -/
theorem local_references_leave :
    let origin := ofDocument [("http", nothing)] "http://example.com" single
    (origin.resolve ("#" ++ "/a")).2.asked = ["http://example.com/"] ∧
      (origin.resolve ("#" ++ "/a")).1 = .error (.fetch "http://example.com/" "no such document") ∧
      resolveFragment single "/a" = .ok (.bool true) := by
  have hhome : Uri.home "http://example.com" = "http://example.com/" := by decide +kernel
  have hscheme : (Uri.scheme? "http://example.com/").getD "" = "http" := by decide +kernel
  have haway : Uri.home "http://example.com" ≠ (Uri.defrag "http://example.com").1 := by
    decide +kernel
  obtain ⟨hanswer, hasked⟩ := resolve_local [("http", nothing)] "http://example.com" single "/a"
  rw [documentAt_of_missing (find?_elsewhere _ _ haway), hhome, hscheme] at hanswer
  rw [askedAfter_elsewhere _ _ haway, hhome, hscheme] at hasked
  exact ⟨hasked, hanswer, resolveFragment_single⟩

end Resolver

end SchemaGraph

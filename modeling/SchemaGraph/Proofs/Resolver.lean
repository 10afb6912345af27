import SchemaGraph.Proofs.Resolver.Retrieval

set_option autoImplicit false

/-! # References within a document

A reference such as `#/components/schemas/Pet` stays in the document it stands in. A resolver
that holds the document under the empty URI resolves it to what its segments lead to,
whatever was resolved before: the memories of a resolver only hold what joining and walking give.
-/

namespace SchemaGraph

/-! ## Texts -/

theorem mem_of_mem_splitOn {separator c : Char} :
    ∀ {text piece : List Char}, piece ∈ splitOn separator text → c ∈ piece → c ∈ text
  | [], piece, hpiece, hc => by
      rw [List.mem_singleton.1 hpiece] at hc
      exact hc
  | d :: rest, piece, hpiece, hc => by
      have hrest : ∀ piece ∈ splitOn separator rest, c ∈ piece → c ∈ rest :=
        fun piece hpiece hc => mem_of_mem_splitOn hpiece hc
      unfold splitOn at hpiece
      split at hpiece
      · rcases List.mem_cons.1 hpiece with rfl | hpiece
        · cases hc
        · exact List.mem_cons_of_mem _ (hrest piece hpiece hc)
      · split at hpiece
        · rw [List.mem_singleton.1 hpiece] at hc
          rw [List.mem_singleton.1 hc]
          exact List.mem_cons_self
        · rename_i first pieces hsplit
          rcases List.mem_cons.1 hpiece with rfl | hpiece
          · rcases List.mem_cons.1 hc with rfl | hc
            · exact List.mem_cons_self
            · exact List.mem_cons_of_mem _ (hrest first (hsplit ▸ List.mem_cons_self) hc)
          · exact List.mem_cons_of_mem _
              (hrest piece (hsplit ▸ List.mem_cons_of_mem _ hpiece) hc)

/-- A text without a percent sign stands for itself. -/
theorem Percent.decode_plain : ∀ {text : List Char}, '%' ∉ text → Percent.decode text = text
  | [], _ => by
      show Utf8.decodeLossy [] = []
      rw [Utf8.decodeLossy]
  | c :: rest, h => by
      have hc : c ≠ '%' := fun hc => h (hc ▸ List.mem_cons_self)
      have hrest : Percent.decodeFrom [] rest = rest :=
        Percent.decode_plain fun hmem => h (List.mem_cons_of_mem _ hmem)
      show Percent.decodeFrom [] (c :: rest) = c :: rest
      unfold Percent.decodeFrom
      split
      · exact absurd rfl hc
      · rw [hrest, Utf8.decodeLossy]
        rfl

/-! ## References -/

namespace Uri

/-- A reference that stays in its document: `#`, or `#/` and segments that are not empty, without
percent escapes. -/
def isLocal (reference : String) : Bool :=
  match reference.toList with
  | '#' :: fragment =>
    !fragment.contains '%' && match fragment with
      | [] => true
      | '/' :: pointer => (splitOn '/' pointer).all fun piece => !piece.isEmpty
      | _ => false
  | _ => false

/-- A text that is a fragment only. -/
def IsFragment (text : String) : Prop := ∃ fragment, text.toList = '#' :: fragment

theorem isFragment_of_isLocal {reference : String} (h : isLocal reference = true) :
    IsFragment reference := by
  unfold isLocal at h
  split at h
  · rename_i fragment heq
    exact ⟨fragment, heq⟩
  · cases h

/-- A scope inside the document without a URI. -/
def IsInside (scope : String) : Prop := scope = "" ∨ IsFragment scope

/-- Cleaning leaves the first character that is neither a blank nor a control character. -/
theorem cleaned_eq_cons {text : String} {first : Char} {rest : List Char}
    (h : text.toList.dropWhile (fun c => decide (c.toNat ≤ 0x20)) = first :: rest) :
    ∃ more, Url.cleaned text = first :: more := by
  have hhigh : ¬decide (first.toNat ≤ 0x20) = true := by
    have hnot := List.head?_dropWhile_not (fun c : Char => decide (c.toNat ≤ 0x20)) text.toList
    rw [h] at hnot
    exact Bool.eq_false_iff.1 hnot
  have hkept : (!(first == '\t' || first == '\n' || first == '\r')) = true := by
    rw [Bool.not_eq_true', Bool.eq_false_iff]
    intro hbreak
    simp only [Bool.or_eq_true, beq_iff_eq] at hbreak
    rcases hbreak with (rfl | rfl) | rfl <;> exact hhigh (by decide)
  unfold Url.cleaned
  dsimp only
  rw [h, List.reverse_cons]
  generalize rest.reverse = back
  induction back with
  | nil =>
      rw [List.nil_append, List.dropWhile_cons, if_neg hhigh]
      exact ⟨[], List.filter_cons_of_pos hkept⟩
  | cons c rest ih =>
      rw [List.cons_append]
      by_cases hc : (decide (c.toNat ≤ 0x20)) = true
      · rw [List.dropWhile_cons, if_pos hc]
        exact ih
      · rw [List.dropWhile_cons, if_neg hc, ← List.cons_append, List.reverse_append]
        exact ⟨_, List.filter_cons_of_pos hkept⟩

/-- Cleaning leaves the start of a fragment. -/
theorem cleaned_fragment {text : String} (h : IsFragment text) :
    ∃ rest, Url.cleaned text = '#' :: rest := by
  obtain ⟨fragment, heq⟩ := h
  have hfront : text.toList.dropWhile (fun c => decide (c.toNat ≤ 0x20)) = '#' :: fragment := by
    rw [heq]
    exact List.dropWhile_cons_of_neg (by decide)
  exact cleaned_eq_cons hfront

theorem read?_fragment {text : String} (h : IsFragment text) : Url.read? text = none := by
  obtain ⟨rest, hrest⟩ := cleaned_fragment h
  unfold Url.read? Url.readAgainst?
  rw [hrest]
  rfl

theorem read?_inside {scope : String} (h : IsInside scope) : Url.read? scope = none := by
  rcases h with rfl | h
  · rfl
  · exact read?_fragment h

theorem splitFragment_cons (fragment : List Char) :
    splitFragment ('#' :: fragment) = ([], fragment) := rfl

theorem splitFragment_inside {scope : String} (h : IsInside scope) :
    (splitFragment scope.toList).1 = [] := by
  rcases h with rfl | ⟨fragment, heq⟩
  · rfl
  · rw [heq, splitFragment_cons]

/-- Inside a document a fragment joins to itself. -/
theorem join_fragment {scope reference : String} (hscope : IsInside scope)
    (hreference : IsFragment reference) : join scope reference = reference := by
  obtain ⟨fragment, heq⟩ := hreference
  unfold join
  rw [read?_fragment ⟨fragment, heq⟩, read?_inside hscope, heq, splitFragment_inside hscope]
  have hne : reference.isEmpty = false := by
    rw [Bool.eq_false_iff]
    intro hempty
    rw [String.isEmpty_iff.1 hempty] at heq
    cases heq
  rw [hne]
  show String.ofList ('#' :: fragment) = reference
  rw [← heq, String.ofList_toList]

/-- From inside a document what stays inside leads nowhere else. -/
theorem join_inside {scope reference : String} (hscope : IsInside scope)
    (hreference : IsInside reference) : IsInside (join scope reference) := by
  rcases hreference with rfl | hfragment
  · exact hscope
  · rw [join_fragment hscope hfragment]
    exact .inr hfragment

theorem defrag_fragment {reference : String} {fragment : List Char}
    (h : reference.toList = '#' :: fragment) : defrag reference = ("", String.ofList fragment) := by
  unfold defrag
  rw [h, splitFragment_cons]

theorem defrag_inside {url : String} (h : IsInside url) : (defrag url).1 = "" := by
  rcases h with rfl | ⟨fragment, heq⟩
  · rfl
  · rw [defrag_fragment heq]

/-- The location of a reference within a document is what its pointer says. -/
theorem ofUri_local {reference : String} (h : isLocal reference = true) :
    Path.ofUri reference = ⟨"", pointerSegments (defrag reference).2⟩ := by
  obtain ⟨fragment, heq⟩ := isFragment_of_isLocal h
  unfold isLocal at h
  rw [heq] at h
  obtain ⟨hplain, hshape⟩ := Bool.and_eq_true_iff.1 h
  have hplain : '%' ∉ fragment := by simpa using hplain
  rw [defrag_fragment heq]
  unfold Path.ofUri pointerSegments
  rw [heq, splitFragment_cons, String.toList_ofList]
  dsimp only
  cases fragment with
  | nil => rfl
  | cons c pointer =>
      have hpieces : c = '/' ∧ ∀ piece ∈ splitOn '/' pointer, piece.isEmpty = false := by
        split at hshape
        · rename_i hcons
          cases hcons
        · rename_i hcons
          cases hcons
          exact ⟨rfl, by simpa using hshape⟩
        · cases hshape
      obtain ⟨rfl, hpieces⟩ := hpieces
      have hpointer : '%' ∉ pointer := fun hmem => hplain (List.mem_cons_of_mem _ hmem)
      have hstart : pointer.dropWhile (· == '/') = pointer := by
        cases pointer with
        | nil => rfl
        | cons d rest =>
            by_cases hd : (d == '/') = true
            · have hfirst := hpieces [] (by
                unfold splitOn
                rw [hd]
                exact List.mem_cons_self)
              cases hfirst
            · rw [List.dropWhile_cons, if_neg hd]
      have hnonempty : pointer.isEmpty = false := by
        cases pointer with
        | nil => exact absurd (hpieces [] List.mem_cons_self) (by decide)
        | cons d rest => rfl
      have hsplit : (splitOn '/' ('/' :: pointer)).filter (fun piece => !piece.isEmpty) =
          splitOn '/' pointer := by
        show ([] :: splitOn '/' pointer).filter (fun piece => !piece.isEmpty) = _
        rw [List.filter_cons_of_neg (by decide), List.filter_eq_self]
        intro piece hpiece
        rw [hpieces piece hpiece]
        rfl
      rw [hsplit, List.dropWhile_cons_of_pos (by decide), hstart, hnonempty,
        Percent.decode_plain hpointer]
      refine congrArg (Path.mk "") (List.map_congr_left fun piece hpiece => ?_)
      rw [Percent.decode_plain fun hmem => hpointer (mem_of_mem_splitOn hpiece hmem)]

end Uri

/-! ## Memories -/

/-- What is put into a memory is one more entry among some of those before. -/
theorem Recent.mem_put {κ α : Type} [BEq κ] {memory : Recent κ α} {key : κ} {value : α}
    {entry : κ × α} (h : entry ∈ (memory.put key value).entries) :
    entry = (key, value) ∨ entry ∈ memory.entries := by
  rcases List.mem_cons.1 (List.mem_of_mem_take h) with h | h
  · exact .inl h
  · exact .inr (List.mem_filter.1 h).1

theorem Recent.mem_of_find? {κ α : Type} [BEq κ] [LawfulBEq κ] {memory : Recent κ α} {key : κ}
    {value : α} (h : memory.find? key = some value) : (key, value) ∈ memory.entries := by
  obtain ⟨before, after, heq, -⟩ := List.lookup_eq_some_iff.1 h
  rw [heq]
  exact List.mem_append_right _ List.mem_cons_self

namespace Resolver

/-- The resolver holds the document under the empty URI, and remembers only what joining and
walking give. -/
structure Serves (document : Json) (r : Resolver) : Prop where
  base : r.base = ""
  stored : Entries.find? "" r.store = some document
  joins : ∀ entry ∈ r.joins.entries, entry.2 = Uri.join entry.1.1 entry.1.2
  resolved : ∀ entry ∈ r.resolved.entries, (Uri.defrag entry.1).1 = "" →
    resolveFragment document (Uri.defrag entry.1).2 = .ok entry.2

variable {document : Json} {r : Resolver}

theorem serves_ofConfig (retrievers : List (String × Retriever)) (document : Json) {config : Config}
    (hbase : config.baseUri = "") : Serves document (ofConfig retrievers document config) where
  base := hbase
  stored := by
    show Entries.find? "" [((Uri.defrag config.baseUri).1, document)] = some document
    rw [hbase]
    rfl
  joins _ h := by cases h
  resolved _ h := by cases h

theorem Serves.join (h : Serves document r) (base reference : String) :
    (r.join base reference).1 = Uri.join base reference ∧
      Serves document (r.join base reference).2 := by
  have hjoined : (r.join base reference).1 = Uri.join base reference := by
    show (r.joins.find? (base, reference)).getD (Uri.join base reference) = _
    cases hfind : r.joins.find? (base, reference) with
    | none => rfl
    | some joined => exact h.joins _ (Recent.mem_of_find? hfind)
  refine ⟨hjoined, h.base, h.stored, ?_, h.resolved⟩
  intro entry hentry
  rcases Recent.mem_put hentry with rfl | hentry
  · exact hjoined
  · exact h.joins entry hentry

theorem Serves.pushScope (h : Serves document r) (url : String) :
    Serves document (r.pushScope url) := by
  have hj := (h.join r.scope url).2
  exact ⟨hj.base, hj.stored, hj.joins, hj.resolved⟩

theorem Serves.leaveScope (h : Serves document r) : Serves document r.leaveScope :=
  ⟨h.base, h.stored, h.joins, h.resolved⟩

/-- A document that is retrieved has a URI of its own: the one without is there. -/
theorem Serves.resolveUrl (h : Serves document r) (url : String) :
    Serves document (r.resolveUrl url).2 ∧ ((Uri.defrag url).1 = "" →
      (r.resolveUrl url).1 = resolveFragment document (Uri.defrag url).2) := by
  unfold Resolver.resolveUrl
  dsimp only
  cases hfind : Entries.find? (Uri.defrag url).1 r.store with
  | some found =>
      refine ⟨h, fun hempty => ?_⟩
      rw [hempty, h.stored] at hfind
      rw [Option.some.inj hfind]
  | none =>
      have hne : (Uri.defrag url).1 ≠ "" := by
        intro hempty
        rw [hempty, h.stored] at hfind
        cases hfind
      refine ⟨?_, fun hempty => absurd hempty hne⟩
      dsimp only
      unfold retrieve
      dsimp only
      cases Entries.find? ((Uri.scheme? (Uri.defrag url).1).getD "") r.retrievers with
      | none => exact h
      | some retriever =>
          dsimp only
          cases retriever (Uri.defrag url).1 with
          | error e => exact ⟨h.base, h.stored, h.joins, h.resolved⟩
          | ok retrieved =>
              refine ⟨h.base, ?_, h.joins, h.resolved⟩
              dsimp only
              split
              · rw [Entries.find?_insertLast_of_ne hne]
                exact h.stored
              · exact h.stored

theorem Serves.resolve (h : Serves document r) (reference : String) :
    Serves document (r.resolve reference).2 := by
  obtain ⟨-, hjoin⟩ := h.join r.scope reference
  unfold Resolver.resolve
  dsimp only
  generalize r.join r.scope reference = joined at hjoin ⊢
  obtain ⟨url, s⟩ := joined
  cases hfind : s.resolved.find? url with
  | some target =>
      refine ⟨hjoin.base, hjoin.stored, hjoin.joins, ?_⟩
      intro entry hentry
      rcases Recent.mem_put hentry with rfl | hentry
      · exact hjoin.resolved _ (Recent.mem_of_find? hfind)
      · exact hjoin.resolved entry hentry
  | none =>
      obtain ⟨hserves, hvalue⟩ := hjoin.resolveUrl url
      dsimp only at hserves hvalue ⊢
      generalize s.resolveUrl url = found at hserves hvalue ⊢
      obtain ⟨result, t⟩ := found
      cases result with
      | error e => exact hserves
      | ok target =>
          refine ⟨hserves.base, hserves.stored, hserves.joins, ?_⟩
          intro entry hentry
          rcases Recent.mem_put hentry with rfl | hentry
          · intro hempty
            exact (hvalue hempty).symm
          · exact hserves.resolved entry hentry

/-- What joins to a place in the document resolves to what its fragment leads to. -/
theorem Serves.resolve_inside (h : Serves document r) {reference url : String}
    (hjoined : Uri.join r.scope reference = url) (hempty : (Uri.defrag url).1 = "") :
    (r.resolve reference).1 =
      (resolveFragment document (Uri.defrag url).2).map fun part => (url, part) := by
  obtain ⟨hurl, hjoin⟩ := h.join r.scope reference
  rw [hjoined] at hurl
  unfold Resolver.resolve
  generalize r.join r.scope reference = joined at hurl hjoin ⊢
  obtain ⟨url, s⟩ := joined
  cases hurl
  dsimp only at hjoin ⊢
  cases hfind : s.resolved.find? url with
  | some target =>
      rw [hjoin.resolved _ (Recent.mem_of_find? hfind) hempty]
      rfl
  | none =>
      have hvalue := (hjoin.resolveUrl url).2 hempty
      dsimp only
      generalize s.resolveUrl url = found at hvalue ⊢
      obtain ⟨result, t⟩ := found
      rw [← hvalue]
      cases result <;> rfl

/-- Within the document a reference resolves to what its pointer leads to. -/
theorem Serves.resolve_local (h : Serves document r) (hscope : Uri.IsInside r.scope)
    {reference : String} (hlocal : Uri.isLocal reference = true) :
    (r.resolve reference).1 = (match document.walk? (Path.ofUri reference).parts with
      | some part => .ok (reference, part)
      | none => .error (.unresolvable (Uri.defrag reference).2)) := by
  have hfragment := Uri.isFragment_of_isLocal hlocal
  have hempty : (Uri.defrag reference).1 = "" := by
    obtain ⟨fragment, heq⟩ := hfragment
    rw [Uri.defrag_fragment heq]
  have hparts : (Path.ofUri reference).parts = Uri.pointerSegments (Uri.defrag reference).2 := by
    rw [Uri.ofUri_local hlocal]
  rw [h.resolve_inside (Uri.join_fragment hscope hfragment) hempty, hparts]
  unfold resolveFragment
  cases document.walk? (Uri.pointerSegments (Uri.defrag reference).2) <;> rfl

/-! ## What operations leave as it is -/

/-- What resolving may change: the scopes stay, a document that was served is still, and documents
may have been retrieved. -/
structure Kept (r s : Resolver) : Prop where
  base : s.base = r.base
  entered : s.entered = r.entered
  serves : ∀ {document}, Serves document r → Serves document s
  retrieves : ∃ asked, Retrieves r s asked

theorem Kept.refl (r : Resolver) : Kept r r := ⟨rfl, rfl, fun h => h, [], .refl r⟩

theorem Kept.trans {r s t : Resolver} (hrs : Kept r s) (hst : Kept s t) : Kept r t where
  base := hst.base.trans hrs.base
  entered := hst.entered.trans hrs.entered
  serves h := hst.serves (hrs.serves h)
  retrieves := by
    obtain ⟨earlier, hrs⟩ := hrs.retrieves
    obtain ⟨later, hst⟩ := hst.retrieves
    exact ⟨later ++ earlier, hrs.trans hst⟩

theorem Kept.scope {r s : Resolver} (h : Kept r s) : s.scope = r.scope := by
  unfold Resolver.scope
  rw [h.base, h.entered]

theorem scopes_resolveUrl (r : Resolver) (url : String) :
    (r.resolveUrl url).2.base = r.base ∧ (r.resolveUrl url).2.entered = r.entered := by
  unfold Resolver.resolveUrl retrieve
  dsimp only
  split
  · exact ⟨rfl, rfl⟩
  · split
    · exact ⟨rfl, rfl⟩
    · split <;> exact ⟨rfl, rfl⟩

theorem scopes_resolve (r : Resolver) (reference : String) :
    (r.resolve reference).2.base = r.base ∧ (r.resolve reference).2.entered = r.entered := by
  obtain ⟨hbase, hentered⟩ := scopes_resolveUrl (r.join r.scope reference).2
    (r.join r.scope reference).1
  unfold Resolver.resolve
  dsimp only
  split
  · exact ⟨rfl, rfl⟩
  · split
    · exact ⟨hbase, hentered⟩
    · exact ⟨hbase, hentered⟩

theorem kept_resolve (r : Resolver) (reference : String) : Kept r (r.resolve reference).2 := by
  obtain ⟨hbase, hentered⟩ := scopes_resolve r reference
  exact ⟨hbase, hentered, fun h => h.resolve reference, Retrieves.resolve r reference⟩

/-- A scope that was entered is left again. -/
theorem Kept.inScope {r s : Resolver} {url : String} (h : Kept (r.pushScope url) s) :
    Kept r s.leaveScope where
  base := h.base
  entered := by
    show s.entered.tail = r.entered
    rw [h.entered]
    rfl
  serves hserves := (h.serves (hserves.pushScope url)).leaveScope
  retrieves := by
    obtain ⟨asked, hretrieves⟩ := h.retrieves
    exact ⟨asked ++ [], (Retrieves.pushScope r url).trans hretrieves.leaveScope⟩

end Resolver

end SchemaGraph

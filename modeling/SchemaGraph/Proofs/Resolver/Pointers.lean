import SchemaGraph.Proofs.Compiler.Calls
import SchemaGraph.Proofs.Resolver.Runs
import SchemaGraph.Proofs.Text

set_option autoImplicit false

/-! # The two readings of a pointer

A pointer is read in two ways. Resolving decodes it as a whole, cuts it then, and keeps empty
segments (`Uri.pointerSegments`). A location cuts it first, drops the pieces that are empty, and
decodes the others (`Path.ofUri`). Both are read off the same pieces, and they agree in every
document exactly where each piece is one segment (`Uri.isUnambiguous`). Only there a location
tells what a reference resolves to.
-/

namespace SchemaGraph

/-! ## Pieces and segments -/

namespace Uri

/-- What the slashes of a pointer separate, behind the leading ones. -/
def pointerPieces (fragment : String) : List (List Char) :=
  let pointer := fragment.toList.dropWhile (· == '/')
  if pointer.isEmpty then [] else splitOn '/' pointer

/-- The piece is one segment: it is not empty, and its escapes hide no slash. -/
def isSegment (piece : List Char) : Bool :=
  !piece.isEmpty && !(Percent.decode piece).contains '/'

/-- Both readings find the same segments: those that the slashes of the pointer separate. -/
def isUnambiguous (fragment : String) : Bool := (pointerPieces fragment).all isSegment

/-- The segment that a decoded text writes. -/
def segmentOf (text : List Char) : String := String.ofList (Segment.unescape text)

/-- Resolving finds as many segments in a piece as the decoded piece has. -/
theorem pointerSegments_eq (fragment : String) :
    pointerSegments fragment = (pointerPieces fragment).flatMap fun piece =>
      (splitOn '/' (Percent.decode piece)).map segmentOf := by
  unfold pointerSegments pointerPieces
  dsimp only
  by_cases hempty : (fragment.toList.dropWhile (· == '/')).isEmpty = true
  · rw [if_pos hempty, if_pos hempty]
    rfl
  · rw [if_neg hempty, if_neg hempty, Percent.splitOn_decode, List.map_flatMap]
    rfl

theorem filter_splitOn_dropWhile (text : List Char) :
    (splitOn '/' text).filter (fun piece => !piece.isEmpty) =
      (splitOn '/' (text.dropWhile (· == '/'))).filter fun piece => !piece.isEmpty := by
  induction text with
  | nil => rfl
  | cons c rest ih =>
      by_cases hc : (c == '/') = true
      · rw [List.dropWhile_cons, if_pos hc, ← ih]
        have hfirst : splitOn '/' (c :: rest) = [] :: splitOn '/' rest := if_pos hc
        rw [hfirst, List.filter_cons_of_neg (by decide)]
      · rw [List.dropWhile_cons, if_neg hc]

/-- A location finds one segment in every piece that is not empty. -/
theorem parts_eq (fragment : String) :
    (Path.ofUri ("#" ++ fragment)).parts =
      ((pointerPieces fragment).filter fun piece => !piece.isEmpty).map fun piece =>
        segmentOf (Percent.decode piece) := by
  have htext : ("#" ++ fragment).toList = '#' :: fragment.toList := by
    rw [String.toList_append]
    rfl
  unfold Path.ofUri pointerPieces
  rw [htext, splitFragment_cons]
  dsimp only
  rw [filter_splitOn_dropWhile]
  by_cases hempty : (fragment.toList.dropWhile (· == '/')).isEmpty = true
  · rw [if_pos hempty, List.isEmpty_iff.1 hempty]
    rfl
  · rw [if_neg hempty]
    rfl

/-- The document of a location is that of its URI, and its segments are those of the fragment. -/
theorem ofUri_defrag (url : String) :
    (Path.ofUri url).base = (defrag url).1 ∧
      (Path.ofUri url).parts = (Path.ofUri ("#" ++ (defrag url).2)).parts := by
  have htext : ("#" ++ (defrag url).2).toList = '#' :: (splitFragment url.toList).2 := by
    rw [String.toList_append]
    exact congrArg ('#' :: ·) String.toList_ofList
  unfold Path.ofUri
  rw [htext, splitFragment_cons]
  exact ⟨rfl, rfl⟩

/-! ## Where the readings agree -/

theorem readings_agree {pieces : List (List Char)} (h : pieces.all isSegment = true) :
    pieces.flatMap (fun piece => (splitOn '/' (Percent.decode piece)).map segmentOf) =
      (pieces.filter fun piece => !piece.isEmpty).map fun piece =>
        segmentOf (Percent.decode piece) := by
  induction pieces with
  | nil => rfl
  | cons piece rest ih =>
      obtain ⟨hpiece, hrest⟩ := Bool.and_eq_true_iff.1 h
      obtain ⟨hnonempty, hslash⟩ := Bool.and_eq_true_iff.1 hpiece
      have hslash : '/' ∉ Percent.decode piece := by simpa using hslash
      rw [List.flatMap_cons, ih hrest, splitOn_of_not_mem hslash,
        List.filter_cons_of_pos (by simpa using hnonempty)]
      rfl

/-- A piece gives at least one segment to resolving and at most one to a location, and exactly
one to both only if it is one segment. -/
theorem readings_length (pieces : List (List Char)) :
    (pieces.filter fun piece => !piece.isEmpty).length + (if pieces.all isSegment then 0 else 1) ≤
      (pieces.flatMap fun piece => (splitOn '/' (Percent.decode piece)).map segmentOf).length := by
  induction pieces with
  | nil => exact Nat.le_refl 0
  | cons piece rest ih =>
      have hpos := length_splitOn_pos '/' (Percent.decode piece)
      have hone := length_splitOn_eq_one '/' (Percent.decode piece)
      rw [List.flatMap_cons, List.length_append, List.length_map, List.all_cons]
      by_cases hempty : piece.isEmpty = true
      · rw [List.filter_cons_of_neg (by simpa using hempty)]
        have hsegment : isSegment piece = false := by
          unfold isSegment
          rw [hempty]
          rfl
        rw [hsegment, Bool.false_and]
        split at ih <;> simp only [Bool.false_eq_true, if_false] <;> omega
      · rw [List.filter_cons_of_pos (by simpa using hempty), List.length_cons]
        by_cases hslash : '/' ∈ Percent.decode piece
        · have htwo : (splitOn '/' (Percent.decode piece)).length ≠ 1 := fun h => hone.1 h hslash
          have hsegment : isSegment piece = false := by
            unfold isSegment
            rw [List.contains_iff_mem.2 hslash, Bool.not_true, Bool.and_false]
          rw [hsegment, Bool.false_and]
          split at ih <;> simp only [Bool.false_eq_true, if_false] <;> omega
        · have hsegment : isSegment piece = true := by
            unfold isSegment
            simp [hempty, hslash]
          rw [hsegment, Bool.true_and]
          omega

theorem pointerSegments_eq_parts {fragment : String} (h : isUnambiguous fragment = true) :
    pointerSegments fragment = (Path.ofUri ("#" ++ fragment)).parts := by
  rw [pointerSegments_eq, parts_eq]
  exact readings_agree h

/-- Where the readings differ, resolving reads more segments. -/
theorem length_parts_lt {fragment : String} (h : isUnambiguous fragment = false) :
    (Path.ofUri ("#" ++ fragment)).parts.length < (pointerSegments fragment).length := by
  have hlength := readings_length (pointerPieces fragment)
  have hall : (pointerPieces fragment).all isSegment = false := h
  rw [hall] at hlength
  rw [if_neg Bool.false_ne_true] at hlength
  rw [pointerSegments_eq, parts_eq, List.length_map]
  exact hlength

end Uri

/-! ## Documents that tell readings apart -/

namespace Json

/-- A document with nothing but what the segments lead to, which is null. -/
def nest (segments : List String) : Json :=
  segments.foldr (fun segment part => .obj [(segment, part)]) .null

theorem walk_nest (segments : List String) : (nest segments).walk? segments = some .null := by
  induction segments with
  | nil => rfl
  | cons segment rest ih =>
      have hstep : (nest (segment :: rest)).step? segment = some (nest rest) :=
        if_pos (beq_self_eq_true segment)
      show ((nest (segment :: rest)).step? segment).bind (fun part => part.walk? rest) = _
      rw [hstep]
      exact ih

/-- Nothing is found further down. -/
theorem walk_nest_of_longer {segments other : List String}
    (h : segments.length < other.length) : (nest segments).walk? other = none := by
  induction segments generalizing other with
  | nil =>
      cases other with
      | nil => exact absurd h (Nat.lt_irrefl 0)
      | cons first rest => rfl
  | cons segment rest ih =>
      cases other with
      | nil => exact absurd h (Nat.not_lt_zero _)
      | cons first others =>
          show ((if segment == first then some (nest rest) else none).bind fun part =>
            part.walk? others) = none
          split
          · exact ih (Nat.lt_of_succ_lt_succ h)
          · rfl

end Json

/-! ## Locations and what references resolve to -/

namespace Resolver

theorem resolveFragment_eq_ok {document part : Json} {fragment : String} :
    resolveFragment document fragment = .ok part ↔
      document.walk? (Uri.pointerSegments fragment) = some part := by
  unfold resolveFragment
  cases document.walk? (Uri.pointerSegments fragment) <;> simp

/-- A URL points at what its pointer walks to. -/
theorem valueAt_eq_ok {r : Resolver} {url : String} {target : Json} :
    r.valueAt url = .ok target ↔ ∃ document, r.documentAt (Uri.defrag url).1 = .ok document ∧
      document.walk? (Uri.pointerSegments (Uri.defrag url).2) = some target := by
  unfold valueAt
  cases r.documentAt (Uri.defrag url).1 with
  | error failure => exact ⟨(nomatch ·), fun ⟨_, hdocument, _⟩ => nomatch hdocument⟩
  | ok document =>
      dsimp only [Except.bind]
      rw [resolveFragment_eq_ok]
      refine ⟨fun hwalk => ⟨document, rfl, hwalk⟩, ?_⟩
      rintro ⟨_, ⟨⟩, hwalk⟩
      exact hwalk

/-- What stands at a location, in the documents. -/
def StandsAt (r : Resolver) (path : Path) (part : Json) : Prop :=
  ∃ document, r.documentAt path.base = .ok document ∧ document.walk? path.parts = some part

theorem StandsAt.unique {r : Resolver} {path : Path} {part part' : Json}
    (h : r.StandsAt path part) (h' : r.StandsAt path part') : part = part' := by
  obtain ⟨document, hdocument, hwalk⟩ := h
  obtain ⟨document', hdocument', hwalk'⟩ := h'
  rw [hdocument] at hdocument'
  cases hdocument'
  rw [hwalk] at hwalk'
  exact Option.some.inj hwalk'

/-- A URL with an unambiguous pointer points at what stands at its location. -/
theorem standsAt_of_valueAt {r : Resolver} {url : String} {target : Json}
    (hpointer : Uri.isUnambiguous (Uri.defrag url).2 = true)
    (hvalue : r.valueAt url = .ok target) : r.StandsAt (Path.ofUri url) target := by
  obtain ⟨document, hdocument, hwalk⟩ := valueAt_eq_ok.1 hvalue
  obtain ⟨hbase, hparts⟩ := Uri.ofUri_defrag url
  rw [Uri.pointerSegments_eq_parts hpointer, ← hparts] at hwalk
  rw [← hbase] at hdocument
  exact ⟨document, hdocument, hwalk⟩

/-- The two readings of a fragment agree in every document exactly if the fragment is
unambiguous. After any requests, a reference that resolves to a URL with an unambiguous pointer
resolves to what stands at its location; so two such references with the same location resolve
to the same value. -/
theorem readings_agree_iff {origin : Resolver} (hfresh : origin.IsFresh) :
    (∀ fragment, (∀ document part, resolveFragment document fragment = .ok part ↔
        document.walk? (Path.ofUri ("#" ++ fragment)).parts = some part) ↔
      Uri.isUnambiguous fragment = true) ∧
    (∀ requests reference url target,
      ((origin.run requests).resolve reference).1 = .ok (url, target) →
      Uri.isUnambiguous (Uri.defrag url).2 = true → origin.StandsAt (Path.ofUri url) target) ∧
    ∀ requests reference url target requests' reference' url' target',
      ((origin.run requests).resolve reference).1 = .ok (url, target) →
      ((origin.run requests').resolve reference').1 = .ok (url', target') →
      Uri.isUnambiguous (Uri.defrag url).2 = true →
      Uri.isUnambiguous (Uri.defrag url').2 = true →
      Path.ofUri url = Path.ofUri url' → target = target' := by
  have hstands (requests : List Request) (reference url : String) (target : Json)
      (h : ((origin.run requests).resolve reference).1 = .ok (url, target))
      (hpointer : Uri.isUnambiguous (Uri.defrag url).2 = true) :
      origin.StandsAt (Path.ofUri url) target :=
    standsAt_of_valueAt hpointer ((resolve_run_eq_ok hfresh).1 h).2
  refine ⟨fun fragment => ⟨fun hagree => ?_, fun hpointer document part => ?_⟩, hstands, ?_⟩
  · -- a document with the location's reading alone tells the two apart
    by_contra hpointer
    have hlonger := Uri.length_parts_lt (Bool.eq_false_iff.2 hpointer)
    have hfound := (hagree _ _).2 (Json.walk_nest (Path.ofUri ("#" ++ fragment)).parts)
    rw [resolveFragment_eq_ok, Json.walk_nest_of_longer hlonger] at hfound
    cases hfound
  · rw [resolveFragment_eq_ok, Uri.pointerSegments_eq_parts hpointer]
  · intro requests reference url target requests' reference' url' target' h h' hpointer hpointer'
      hpath
    have hthere := hstands requests reference url target h hpointer
    have hthere' := hstands requests' reference' url' target' h' hpointer'
    rw [hpath] at hthere
    exact hthere.unique hthere'

/-- Two schemas in a list of schemas. -/
def petsDocument : Json :=
  .obj [("Pets", .obj [("Cat", .obj [("type", .str "object")]), ("a/b", .bool true)])]

theorem readings_agree_iff_pets :
    let origin := ofDocument [] "" petsDocument
    origin.IsFresh ∧
      ((origin.run [.enter "#/Pets"]).resolve "#/Pets/a~1b").1 =
        .ok ("#/Pets/a~1b", .bool true) ∧
      Uri.isUnambiguous (Uri.defrag "#/Pets/a~1b").2 = true ∧
      origin.StandsAt (Path.ofUri "#/Pets/a~1b") (.bool true) := by
  intro origin
  have hfresh : origin.IsFresh := isFresh_ofDocument _ _ _
  have hscope : (origin.run [.enter "#/Pets"]).scope = "#/Pets" :=
    (hfresh.remembers.pushScope "#/Pets").1.trans (Uri.join_fragment (.inl rfl) ⟨_, rfl⟩)
  have hvalue : origin.valueAt "#/Pets/a~1b" = .ok (.bool true) := by
    have hdefrag : Uri.defrag "#/Pets/a~1b" = ("", "/Pets/a~1b") := by decide +kernel
    have hsegments : Uri.pointerSegments "/Pets/a~1b" = ["Pets", "a/b"] := by decide +kernel
    have hdocument : origin.documentAt "" = .ok petsDocument := rfl
    unfold valueAt
    rw [hdefrag, hdocument]
    dsimp only [Except.bind]
    rw [resolveFragment_eq_ok, hsegments]
    rfl
  have hresolve : ((origin.run [.enter "#/Pets"]).resolve "#/Pets/a~1b").1 =
      .ok ("#/Pets/a~1b", .bool true) := by
    rw [resolve_run_eq_ok hfresh, hscope]
    exact ⟨Uri.join_fragment (.inr ⟨_, rfl⟩) ⟨_, rfl⟩, hvalue⟩
  have hpointer : Uri.isUnambiguous (Uri.defrag "#/Pets/a~1b").2 = true := by decide +kernel
  obtain ⟨-, hstands, -⟩ := readings_agree_iff hfresh
  exact ⟨hfresh, hresolve, hpointer, hstands _ _ _ _ hresolve hpointer⟩

/-- Behind an empty segment the readings differ, and a compiler that was asked for `#/D//E` answers
`#/D/E` with the node it made then. -/
theorem empty_segment_misleads :
    let document : Json := .obj [("D", .obj [("", .obj [("E", .obj [("type", .str "string")])]),
      ("E", .obj [("type", .str "integer")])])]
    let c := Compiler.withResolver (.ofConfig [] document .default) .default
    let asked := c.calls [.compile 40 "#/D//E", .compile 40 "#/D/E"]
    document.walk? (Uri.pointerSegments "/D//E") = some (.obj [("type", .str "string")]) ∧
      document.walk? (Path.ofUri ("#" ++ "/D//E")).parts = some (.obj [("type", .str "integer")]) ∧
      Path.ofUri "#/D//E" = Path.ofUri "#/D/E" ∧ asked.2 = [0, 0] := by
  intro document c asked
  have hsegments : Uri.pointerSegments "/D//E" = ["D", "", "E"] := by decide +kernel
  have hparts : (Path.ofUri ("#" ++ "/D//E")).parts = ["D", "E"] := by decide +kernel
  rw [hsegments, hparts]
  exact ⟨rfl, rfl, by decide +kernel, by decide +kernel⟩

end Resolver

end SchemaGraph

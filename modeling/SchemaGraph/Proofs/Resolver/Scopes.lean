import SchemaGraph.Proofs.Resolver.Joins
import SchemaGraph.Proofs.Resolver.Pointers

set_option autoImplicit false

/-! # Entering the scope a reference resolved to

What a reference resolved to is entered by joining it once more to the scope it was joined to.
That leads to the same scope inside a document without a URI and where the result is a URL that
stands. A relative scope goes wrong: its directory is put in front a second time.
-/

namespace SchemaGraph

namespace Resolver

variable {origin : Resolver} {requests : List Request}

/-- The scope after following a reference: it is resolved, and the URL it resolved to entered. -/
def followed (r : Resolver) (reference : String) (url : String) : Resolver :=
  (r.resolve reference).2.pushScope url

/-- Following a reference joins it to the scope and what came of it to the scope again. -/
theorem scope_followed (hfresh : origin.IsFresh) (reference url : String) :
    ((origin.run requests).followed reference url).scope =
      Uri.join (origin.run requests).scope url := by
  have hremembers := (((hfresh.remembers).run requests).resolve reference).2
  have hpush := (hremembers.pushScope url).1
  rw [scope_resolve] at hpush
  exact hpush

/-- Following a reference joins what it resolved to once more. Among URLs that is exact if the URL
stands, and it is inside a document without a URI. A relative scope leaves a path from the root as
it is at the root, and puts its directory in front of any other path. Where the scope is exact, a
fragment in the target stays in its document. -/
theorem entered_scope (hfresh : origin.IsFresh) {reference url : String} {target : Json}
    (hresolve : ((origin.run requests).resolve reference).1 = .ok (url, target)) :
    let scope := (origin.run requests).scope
    let entered := ((origin.run requests).followed reference url).scope
    (url = Uri.join scope reference ∧ entered = Uri.join scope url) ∧
      (∀ u, Url.read? url = some u → entered = u.text) ∧
      (reference ≠ "" →
        (∀ u, Uri.resolved? scope reference = some u → u.Stands → entered = url) ∧
        ((Url.read? scope).isSome → Uri.resolved? scope reference = none → entered = url)) ∧
      (Uri.IsInside scope → Uri.IsFragment reference → entered = url) ∧
      (∀ directory, Url.read? scope = none → Uri.directory? scope = some directory →
        (Uri.IsRooted url → entered = Uri.join "" url) ∧
        (Uri.IsPlain url → entered = String.ofList (directory ++ url.toList) ∧
          (entered = url ↔ directory = []))) ∧
      (entered = url → (∀ u, Url.read? url = some u → u.text = url) →
        ∀ fragment, Uri.IsFragment fragment →
          Uri.document (Uri.join entered fragment) = Uri.document url) := by
  intro scope entered
  obtain ⟨hurl, -⟩ := (resolve_run_eq_ok hfresh).1 hresolve
  have hurl : url = Uri.join scope reference := hurl.symm
  have hentered : entered = Uri.join scope url := scope_followed hfresh reference url
  refine ⟨⟨hurl, hentered⟩, fun u hread => ?_, fun hne => ⟨fun u hresolved hstands => ?_,
    fun hscope hresolved => ?_⟩, fun hinside hfragment => ?_, fun directory hscope hdirectory =>
    ⟨fun hrooted => ?_, fun hplain => ?_⟩, fun hexact hwritten fragment hfragment => ?_⟩
  · rw [hentered, Uri.join_of_read? hread]
  · rw [hentered, hurl, Uri.join_join_of_resolved? hne hresolved hstands]
  · obtain ⟨base, hbase⟩ := Option.isSome_iff_exists.1 hscope
    have hstays : Uri.join scope reference = reference := Uri.join_unresolved hne hbase hresolved
    rw [hentered, hurl, hstays, hstays]
  · have hsame : Uri.join scope reference = reference := Uri.join_fragment hinside hfragment
    rw [hentered, hurl, hsame, hsame]
  · obtain ⟨base, hbase, -⟩ := Option.map_eq_some_iff.1 hdirectory
    rw [hentered, Uri.join_isRooted hrooted hscope hbase]
  · have hfront : entered = String.ofList (directory ++ url.toList) := by
      rw [hentered, Uri.join_isPlain hplain hscope hdirectory]
    refine ⟨hfront, ?_⟩
    rw [hfront, ← String.toList_inj, String.toList_ofList]
    exact List.append_left_eq_self
  · rw [hexact, Uri.document_join_fragment hfragment hwritten]

/-- Two schemas, one of which refers to the other. -/
def ownedPetsDocument : Json :=
  .obj [("Owner", .obj [("type", .str "string")]), ("Pet", .obj [("$ref", .str "#/Owner")])]

theorem entered_scope_pets :
    let origin := (ofDocument [] "http://example.com/api/openapi.yaml" (.obj [])).addDocument
      "http://example.com/api/pets.yaml" ownedPetsDocument
    let url := "http://example.com/api/pets.yaml#/Pet"
    origin.IsFresh ∧ ((origin.run []).resolve "pets.yaml#/Pet").1 =
        .ok (url, .obj [("$ref", .str "#/Owner")]) ∧
      ((origin.run []).followed "pets.yaml#/Pet" url).scope = url := by
  intro origin url
  have hfresh : origin.IsFresh := (isFresh_ofDocument _ _ _).addDocument _ _
  have hvalue : origin.valueAt url = .ok (.obj [("$ref", .str "#/Owner")]) := by
    have hdefrag : Uri.defrag url = ("http://example.com/api/pets.yaml", "/Pet") := by
      decide +kernel
    have hsegments : Uri.pointerSegments "/Pet" = ["Pet"] := by decide +kernel
    have hdocument : origin.documentAt "http://example.com/api/pets.yaml" =
        .ok ownedPetsDocument := rfl
    unfold valueAt
    rw [hdefrag, hdocument]
    dsimp only [Except.bind]
    rw [resolveFragment_eq_ok, hsegments]
    rfl
  have hjoin : Uri.join "http://example.com/api/openapi.yaml" "pets.yaml#/Pet" = url := by
    decide +kernel
  have hresolve : ((origin.run []).resolve "pets.yaml#/Pet").1 =
      .ok (url, .obj [("$ref", .str "#/Owner")]) :=
    (resolve_run_eq_ok hfresh).2 ⟨hjoin, hvalue⟩
  have hresolved : Uri.resolved? "http://example.com/api/openapi.yaml" "pets.yaml#/Pet" =
      some ⟨"http".toList, some ⟨[], "example.com".toList, none⟩, "/api/pets.yaml".toList, none,
        some "/Pet".toList⟩ := by decide +kernel
  have hstands : Url.Stands ⟨"http".toList, some ⟨[], "example.com".toList, none⟩,
      "/api/pets.yaml".toList, none, some "/Pet".toList⟩ := by
    refine ⟨fun authority hauthority => ?_, nofun⟩
    cases hauthority
    show Host.special? "example.com".toList = some "example.com".toList
    decide +kernel
  exact ⟨hfresh, hresolve,
    ((entered_scope hfresh hresolve).2.2.1 (by decide)).1 _ hresolved hstands⟩

/-- In the directory `api` a reference to a neighbour enters a scope in `api/api`, in which the
references of the neighbour do not resolve. -/
theorem entered_scope_misses :
    let origin := (ofDocument [] "api/openapi.yaml" (.obj [])).addDocument "api/pets.yaml"
      ownedPetsDocument
    let followed := origin.followed "pets.yaml#/Pet" "api/pets.yaml#/Pet"
    (origin.resolve "pets.yaml#/Pet").1 =
        .ok ("api/pets.yaml#/Pet", .obj [("$ref", .str "#/Owner")]) ∧
      followed.scope = "api/api/pets.yaml#/Pet" ∧
      (followed.resolve "#/Owner").1 =
        .error (.unsupportedScheme "" "api/api/pets.yaml") := by
  intro origin followed
  have hfresh : origin.IsFresh := (isFresh_ofDocument _ _ _).addDocument _ _
  have hfollowed : followed.scope = Uri.join "api/openapi.yaml" "api/pets.yaml#/Pet" :=
    show ((origin.run []).followed "pets.yaml#/Pet" "api/pets.yaml#/Pet").scope = _ from
      scope_followed hfresh _ _
  have hscope : followed.scope = "api/api/pets.yaml#/Pet" := by
    rw [hfollowed]
    decide +kernel
  have hpet : origin.valueAt "api/pets.yaml#/Pet" = .ok (.obj [("$ref", .str "#/Owner")]) := by
    have hdefrag : Uri.defrag "api/pets.yaml#/Pet" = ("api/pets.yaml", "/Pet") := by decide +kernel
    have hsegments : Uri.pointerSegments "/Pet" = ["Pet"] := by decide +kernel
    have hdocument : origin.documentAt "api/pets.yaml" = .ok ownedPetsDocument := rfl
    unfold valueAt
    rw [hdefrag, hdocument]
    dsimp only [Except.bind]
    rw [resolveFragment_eq_ok, hsegments]
    rfl
  have hjoin : Uri.join "api/openapi.yaml" "pets.yaml#/Pet" = "api/pets.yaml#/Pet" := by
    decide +kernel
  refine ⟨?_, hscope, ?_⟩
  · exact show ((origin.run []).resolve "pets.yaml#/Pet").1 = _ from
      (resolve_run_eq_ok hfresh).2 ⟨hjoin, hpet⟩
  · have hremembers : Remembers origin followed :=
      ((hfresh.remembers.resolve "pets.yaml#/Pet").2.pushScope "api/pets.yaml#/Pet").2
    have howner : Uri.join "api/api/pets.yaml#/Pet" "#/Owner" = "api/api/pets.yaml#/Owner" := by
      decide +kernel
    have hdefrag : Uri.defrag "api/api/pets.yaml#/Owner" = ("api/api/pets.yaml", "/Owner") := by
      decide +kernel
    have hdocument : origin.documentAt "api/api/pets.yaml" =
        .error (.unsupportedScheme "" "api/api/pets.yaml") := by
      have hscheme : (Uri.scheme? "api/api/pets.yaml").getD "" = "" := by decide +kernel
      unfold documentAt
      rw [hscheme]
      rfl
    rw [(hremembers.resolve "#/Owner").1, hscope, howner]
    unfold valueAt
    rw [hdefrag, hdocument]
    rfl

end Resolver

end SchemaGraph

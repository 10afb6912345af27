import SchemaGraph.Proofs.Compiler.Aliases
import SchemaGraph.Proofs.Compiler.Interpreter
import SchemaGraph.Proofs.Resolver.Pointers

set_option autoImplicit false

/-! # What references reach

A reference leads to a URL, which is entered as a scope, and to what the URL points at; references
inside of that lead on from there (`Resolver.Reaches`). In a document whose references stay in it,
all of this stays in the document, and scopes are the URLs that were entered
(`Resolver.Reaches.local`).
-/

namespace SchemaGraph

/-- A reference inside the value, at whatever depth. -/
def Json.Refers (value : Json) (text : String) : Prop :=
  ∃ part ∈ value.inside, part.get? "$ref" = some (.str text)

/-- Where a reference has led: the URL, the scope that was entered, and what the URL points at. -/
structure Landing where
  url : String
  scope : String
  value : Json

namespace Landing

/-- The location of the value. -/
def path (landing : Landing) : Path := Path.ofUri landing.url

end Landing

namespace Resolver

variable {origin : Resolver} {first landing : Landing}

/-- A reference in a scope leads there. -/
structure Lands (origin : Resolver) (scope text : String) (landing : Landing) : Prop where
  url : landing.url = Uri.join scope text
  scope : landing.scope = Uri.join scope landing.url
  value : origin.valueAt landing.url = .ok landing.value

/-- References lead there, one after the other, each inside of what the one before led to. -/
inductive Reaches (origin : Resolver) (first : Landing) : Landing → Prop where
  | here : Reaches origin first first
  | next {last landing : Landing} {text : String} (h : Reaches origin first last)
      (hrefers : last.value.Refers text) (hlands : origin.Lands last.scope text landing) :
      Reaches origin first landing

/-- The locations that references reach. -/
def Opens (origin : Resolver) (first : Landing) (path : Path) : Prop :=
  ∃ landing, origin.Reaches first landing ∧ landing.path = path

theorem Reaches.value (h : origin.Reaches first landing)
    (hfirst : origin.valueAt first.url = .ok first.value) :
    origin.valueAt landing.url = .ok landing.value := by
  cases h with
  | here => exact hfirst
  | next _ _ hlands => exact hlands.value

/-! ## Known scopes -/

/-- The resolver has the documents of `origin`, and certain scopes were entered. -/
structure StandsIn (origin : Resolver) (base : String) (entered : List String) (r : Resolver) :
    Prop where
  remembers : origin.Remembers r
  base : r.base = base
  entered : r.entered = entered

namespace StandsIn

variable {r : Resolver} {base : String} {entered : List String}

theorem scope (h : origin.StandsIn base entered r) : r.scope = entered.headD base := by
  unfold Resolver.scope
  rw [h.base, h.entered]

theorem resolve (h : origin.StandsIn base entered r) (reference : String) :
    origin.StandsIn base entered (r.resolve reference).2 := by
  obtain ⟨hbase, hentered⟩ := scopes_resolve r reference
  exact ⟨(h.remembers.resolve reference).2, hbase.trans h.base, hentered.trans h.entered⟩

theorem enter (h : origin.StandsIn base entered r) (url : String) :
    origin.StandsIn base (Uri.join (entered.headD base) url :: entered) (r.pushScope url) := by
  have hjoined : (r.join r.scope url).1 = Uri.join (entered.headD base) url := by
    rw [(h.remembers.join r.scope url).1, h.scope]
  refine ⟨(h.remembers.pushScope url).2, h.base, ?_⟩
  show (r.join r.scope url).1 :: r.entered = _
  rw [hjoined, h.entered]

theorem leave {scope : String} (h : origin.StandsIn base (scope :: entered) r) :
    origin.StandsIn base entered r.leaveScope := by
  refine ⟨h.remembers.leaveScope, h.base, ?_⟩
  show r.entered.tail = entered
  rw [h.entered]
  rfl

/-- Where a reference leads, and in which scope. -/
theorem lands (h : origin.StandsIn base entered r) {text url : String} {value : Json}
    (hanswer : (r.resolve text).1 = .ok (url, value)) :
    origin.Lands (entered.headD base) text
      ⟨url, Uri.join (entered.headD base) url, value⟩ := by
  obtain ⟨hurl, hvalue⟩ := h.remembers.resolve_eq_ok.1 hanswer
  rw [h.scope] at hurl
  exact ⟨hurl.symm, rfl, hvalue⟩

end StandsIn

/-! ## Documents on their own -/

theorem isUnambiguous_of_isLocal {reference : String} (h : Uri.isLocal reference = true) :
    Uri.isUnambiguous (Uri.defrag reference).2 = true := by
  by_contra hnot
  have hless := Uri.length_parts_lt (Bool.eq_false_iff.2 hnot)
  obtain ⟨-, hparts⟩ := Uri.ofUri_defrag reference
  rw [← hparts, Uri.ofUri_local h] at hless
  exact Nat.lt_irrefl _ hless

/-- A reference within the document leads to what its pointer walks to, and enters itself. -/
theorem Lands.eq_local {document : Json} {scope text : String} (h : origin.Lands scope text landing)
    (hscope : Uri.IsInside scope) (htext : Uri.isLocal text = true)
    (hdocument : origin.documentAt "" = .ok document) :
    ∃ value, document.walk? (Uri.pointerSegments (Uri.defrag text).2) = some value ∧
      landing = ⟨text, text, value⟩ := by
  have hjoin : Uri.join scope text = text :=
    Uri.join_fragment hscope (Uri.isFragment_of_isLocal htext)
  obtain ⟨url, inner, value⟩ := landing
  obtain rfl : url = text := h.url.trans hjoin
  obtain rfl : inner = url := h.scope.trans hjoin
  obtain ⟨found, hfound, hwalk⟩ := valueAt_eq_ok.1 h.value
  rw [Uri.defrag_inside (.inr (Uri.isFragment_of_isLocal htext)), hdocument] at hfound
  cases hfound
  exact ⟨value, hwalk, rfl⟩

/-- Where references stay in the document, they lead to parts of it, and the scopes entered are the
URLs themselves. -/
structure Landing.IsLocal (document : Json) (landing : Landing) : Prop where
  url : Uri.isLocal landing.url = true
  scope : landing.scope = landing.url
  value : landing.value ∈ document.inside

theorem Lands.isLocal {document : Json} {scope text : String} (h : origin.Lands scope text landing)
    (hscope : Uri.IsInside scope) (htext : Uri.isLocal text = true)
    (hdocument : origin.documentAt "" = .ok document) : Landing.IsLocal document landing := by
  obtain ⟨value, hwalk, rfl⟩ := h.eq_local hscope htext hdocument
  exact ⟨htext, rfl, Json.mem_inside_of_walk hwalk⟩

/-- From a location of such a document references lead to its locations. -/
theorem Reaches.local {document : Json} (h : origin.Reaches first landing)
    (closed : document.SelfContained) (hdocument : origin.documentAt "" = .ok document)
    (hfirst : Landing.IsLocal document first) : Landing.IsLocal document landing := by
  induction h with
  | here => exact hfirst
  | @next last landing text _ hrefers hlands ih =>
      obtain ⟨part, hpart, href⟩ := hrefers
      have hinside : part ∈ document.inside := Json.mem_inside_trans hpart ih.value
      have htext : Uri.isLocal text = true :=
        Json.isLocal_of_refersWithin (Json.test_of_mem_inside closed.within hinside) (by rw [href]; rfl)
      refine hlands.isLocal ?_ htext hdocument
      rw [ih.scope]
      exact .inr (Uri.isFragment_of_isLocal ih.url)

end Resolver

end SchemaGraph

import SchemaGraph.Proofs.Resolver

set_option autoImplicit false

/-! # Runs of a resolver

A resolver joins, retrieves and remembers, but none of this shows: after any requests it answers
what joining the reference to the scope and reading the documents gives (`Remembers.resolve`).
The documents are those it started with, stored or retrieved. Every request keeps this
(`Remembers.after`), and so does every run (`Remembers.run`).
-/

namespace SchemaGraph

namespace Resolver

variable {origin r : Resolver}

/-! ## What there is to find -/

/-- The document under a URI: the stored one, or else what the retriever of its scheme gives. -/
def documentAt (r : Resolver) (uri : String) : Except ResolveError Json :=
  match Entries.find? uri r.store with
  | some document => .ok document
  | none =>
    match Entries.find? ((Uri.scheme? uri).getD "") r.retrievers with
    | none => .error (.unsupportedScheme ((Uri.scheme? uri).getD "") uri)
    | some retriever => retriever uri

/-- What a URL points at, in the documents. -/
def valueAt (r : Resolver) (url : String) : Except ResolveError Json :=
  (r.documentAt (Uri.defrag url).1).bind fun document =>
    resolveFragment document (Uri.defrag url).2

/-- Storing a document where it is found already changes no document. -/
theorem documentAt_stored {uri : String} {document : Json} (h : r.documentAt uri = .ok document)
    (asked : List String) (other : String) :
    documentAt { r with store := Entries.insertLast uri document r.store, asked } other =
      r.documentAt other := by
  by_cases heq : uri = other
  · subst heq
    rw [h]
    unfold documentAt
    dsimp only
    rw [Entries.find?_insertLast_self]
  · unfold documentAt
    dsimp only
    rw [Entries.find?_insertLast_of_ne heq]

/-- What is not stored is what its retriever gives. -/
theorem documentAt_of_missing {uri : String} (hmissing : Entries.find? uri r.store = none) :
    r.documentAt uri = match Entries.find? ((Uri.scheme? uri).getD "") r.retrievers with
      | none => .error (.unsupportedScheme ((Uri.scheme? uri).getD "") uri)
      | some retriever => retriever uri := by
  unfold documentAt
  rw [hmissing]

/-- What is not stored is retrieved, which changes no document. -/
theorem retrieve_eq {uri : String} (hmissing : Entries.find? uri r.store = none) :
    ∃ store asked, r.retrieve uri = (r.documentAt uri, { r with store, asked }) ∧
      ∀ other, documentAt { r with store, asked } other = r.documentAt other := by
  have hdocument := documentAt_of_missing hmissing
  rw [hdocument]
  unfold Resolver.retrieve
  dsimp only
  cases hretriever : Entries.find? ((Uri.scheme? uri).getD "") r.retrievers with
  | none => exact ⟨r.store, r.asked, rfl, fun _ => rfl⟩
  | some retriever =>
      rw [hretriever] at hdocument
      dsimp only at hdocument ⊢
      cases hanswer : retriever uri with
      | error failure => exact ⟨r.store, uri :: r.asked, rfl, fun _ => rfl⟩
      | ok document =>
          refine ⟨_, _, rfl, fun other => ?_⟩
          by_cases hkeep : r.cacheRemote = true
          · rw [if_pos hkeep]
            exact documentAt_stored (hdocument.trans hanswer) _ other
          · rw [if_neg hkeep]
            rfl

/-! ## Requests -/

/-- What a resolver can be asked to do. -/
inductive Request where
  | resolve (reference : String)
  | resolveUrl (url : String)
  | enter (reference : String)
  | leave

/-- The resolver after a request. -/
def after (r : Resolver) : Request → Resolver
  | .resolve reference => (r.resolve reference).2
  | .resolveUrl url => (r.resolveUrl url).2
  | .enter reference => r.pushScope reference
  | .leave => r.leaveScope

/-- The resolver after some requests, one after the other. -/
def run (r : Resolver) (requests : List Request) : Resolver := requests.foldl after r

/-- A resolver that was asked nothing yet. -/
def IsFresh (r : Resolver) : Prop := r.joins.entries = [] ∧ r.resolved.entries = []

theorem isFresh_withCapacity (retrievers : List (String × Retriever)) (base : String)
    (document : Json) (joinCacheSize remoteCacheSize : Nat) :
    (withCapacity retrievers base document joinCacheSize remoteCacheSize).IsFresh :=
  ⟨rfl, rfl⟩

theorem isFresh_ofDocument (retrievers : List (String × Retriever)) (base : String)
    (document : Json) : (ofDocument retrievers base document).IsFresh :=
  isFresh_withCapacity retrievers base document _ _

theorem IsFresh.addDocument (h : r.IsFresh) (uri : String) (document : Json) :
    (r.addDocument uri document).IsFresh :=
  h

/-! ## The invariant -/

/-- The resolver has the documents of `origin`, and remembers only what joining and reading
those documents give. -/
structure Remembers (origin r : Resolver) : Prop where
  documents : ∀ uri, r.documentAt uri = origin.documentAt uri
  joins : ∀ entry ∈ r.joins.entries, entry.2 = Uri.join entry.1.1 entry.1.2
  resolved : ∀ entry ∈ r.resolved.entries, origin.valueAt entry.1 = .ok entry.2

theorem IsFresh.remembers (h : r.IsFresh) : Remembers r r where
  documents _ := rfl
  joins entry hentry := by
    rw [h.1] at hentry
    cases hentry
  resolved entry hentry := by
    rw [h.2] at hentry
    cases hentry

namespace Remembers

theorem join (h : Remembers origin r) (base reference : String) :
    (r.join base reference).1 = Uri.join base reference ∧
      Remembers origin (r.join base reference).2 := by
  have hjoined : (r.join base reference).1 = Uri.join base reference := by
    show (r.joins.find? (base, reference)).getD (Uri.join base reference) = _
    cases hfind : r.joins.find? (base, reference) with
    | none => rfl
    | some joined => exact h.joins _ (Recent.mem_of_find? hfind)
  refine ⟨hjoined, h.documents, ?_, h.resolved⟩
  intro entry hentry
  rcases Recent.mem_put hentry with rfl | hentry
  · exact hjoined
  · exact h.joins entry hentry

/-- Entering a reference leads to where the reference joins to. -/
theorem pushScope (h : Remembers origin r) (reference : String) :
    (r.pushScope reference).scope = Uri.join r.scope reference ∧
      Remembers origin (r.pushScope reference) := by
  obtain ⟨hjoined, hjoin⟩ := h.join r.scope reference
  have hscope : (r.pushScope reference).scope = (r.join r.scope reference).1 := rfl
  rw [hscope, hjoined]
  exact ⟨rfl, hjoin.documents, hjoin.joins, hjoin.resolved⟩

theorem leaveScope (h : Remembers origin r) : Remembers origin r.leaveScope :=
  ⟨h.documents, h.joins, h.resolved⟩

theorem put (h : Remembers origin r) {url : String} {target : Json}
    (htarget : origin.valueAt url = .ok target) :
    Remembers origin { r with resolved := r.resolved.put url target } := by
  refine ⟨h.documents, h.joins, ?_⟩
  intro entry hentry
  rcases Recent.mem_put hentry with rfl | hentry
  · exact htarget
  · exact h.resolved entry hentry

/-- Retrieving reads the document, and may store it. -/
theorem retrieve (h : Remembers origin r) {uri : String}
    (hmissing : Entries.find? uri r.store = none) :
    (r.retrieve uri).1 = origin.documentAt uri ∧ Remembers origin (r.retrieve uri).2 := by
  obtain ⟨store, asked, hretrieve, hdocuments⟩ := retrieve_eq hmissing
  rw [hretrieve]
  exact ⟨h.documents uri, fun other => (hdocuments other).trans (h.documents other), h.joins,
    h.resolved⟩

theorem resolveUrl (h : Remembers origin r) (url : String) :
    (r.resolveUrl url).1 = origin.valueAt url ∧ Remembers origin (r.resolveUrl url).2 := by
  unfold Resolver.resolveUrl valueAt
  dsimp only
  cases hfind : Entries.find? (Uri.defrag url).1 r.store with
  | some document =>
      have hdocument : origin.documentAt (Uri.defrag url).1 = .ok document := by
        rw [← h.documents]
        unfold documentAt
        rw [hfind]
      rw [hdocument]
      refine ⟨?_, h⟩
      dsimp only [Except.bind]
  | none =>
      obtain ⟨hanswer, hremembers⟩ := h.retrieve hfind
      refine ⟨?_, hremembers⟩
      dsimp only
      rw [hanswer]

/-- A reference resolves to where it joins to, and to what stands there. -/
theorem resolve (h : Remembers origin r) (reference : String) :
    (r.resolve reference).1 = (origin.valueAt (Uri.join r.scope reference)).map
        (fun target => (Uri.join r.scope reference, target)) ∧
      Remembers origin (r.resolve reference).2 := by
  obtain ⟨hurl, hjoin⟩ := h.join r.scope reference
  rw [← hurl]
  unfold Resolver.resolve
  dsimp only
  generalize r.join r.scope reference = joined at hjoin ⊢
  obtain ⟨url, s⟩ := joined
  dsimp only at hjoin ⊢
  cases hfind : s.resolved.find? url with
  | some target =>
      have htarget : origin.valueAt url = .ok target :=
        hjoin.resolved (url, target) (Recent.mem_of_find? hfind)
      rw [htarget]
      exact ⟨rfl, hjoin.put htarget⟩
  | none =>
      obtain ⟨hvalue, hserves⟩ := hjoin.resolveUrl url
      dsimp only at hvalue hserves ⊢
      generalize s.resolveUrl url = found at hvalue hserves ⊢
      obtain ⟨result, t⟩ := found
      dsimp only at hvalue hserves ⊢
      rw [← hvalue]
      cases result with
      | error failure => exact ⟨rfl, hserves⟩
      | ok target => exact ⟨rfl, hserves.put hvalue.symm⟩

/-- Every request keeps the invariant. -/
theorem after (h : Remembers origin r) (request : Request) :
    Remembers origin (r.after request) := by
  cases request with
  | resolve reference => exact (h.resolve reference).2
  | resolveUrl url => exact (h.resolveUrl url).2
  | enter reference => exact (h.pushScope reference).2
  | leave => exact h.leaveScope

theorem run (h : Remembers origin r) (requests : List Request) :
    Remembers origin (r.run requests) := by
  induction requests generalizing r with
  | nil => exact h
  | cons request rest ih => exact ih (h.after request)

end Remembers

/-- A reference resolves to where it joins to in the scope, if something is there. -/
theorem Remembers.resolve_eq_ok (h : Remembers origin r) {reference url : String} {target : Json} :
    (r.resolve reference).1 = .ok (url, target) ↔
      Uri.join r.scope reference = url ∧ origin.valueAt url = .ok target := by
  rw [(h.resolve reference).1]
  constructor
  · intro h
    cases hvalue : origin.valueAt (Uri.join r.scope reference) with
    | error failure =>
        rw [hvalue] at h
        cases h
    | ok found =>
        rw [hvalue] at h
        cases h
        exact ⟨rfl, hvalue⟩
  · rintro ⟨rfl, hvalue⟩
    rw [hvalue]
    rfl

/-- After any requests it still does. -/
theorem resolve_run_eq_ok (hfresh : origin.IsFresh) {requests : List Request}
    {reference url : String} {target : Json} :
    ((origin.run requests).resolve reference).1 = .ok (url, target) ↔
      Uri.join (origin.run requests).scope reference = url ∧ origin.valueAt url = .ok target :=
  (hfresh.remembers.run requests).resolve_eq_ok

/-! ## Resolving alone enters no scope -/

theorem scope_of_entered {s : Resolver} (hbase : s.base = r.base)
    (hentered : s.entered = r.entered) : s.scope = r.scope := by
  unfold scope
  rw [hbase, hentered]

theorem scope_resolve (r : Resolver) (reference : String) :
    (r.resolve reference).2.scope = r.scope := by
  obtain ⟨hbase, hentered⟩ := scopes_resolve r reference
  exact scope_of_entered hbase hentered

end Resolver

end SchemaGraph

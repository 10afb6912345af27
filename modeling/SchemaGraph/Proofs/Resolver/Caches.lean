import SchemaGraph.Proofs.Resolver.Runs

set_option autoImplicit false

/-! # Resolvers that remember differently

How much a resolver remembers and whether it keeps what it retrieves is not seen by who asks it
(`answers_withCaches`). Two resolvers are compared that have the documents of one origin and stand
in the same scopes (`Alike`). They answer alike (`Alike.answer`), and stay alike whatever they are
asked (`Alike.after`), although one may retrieve again what the other one looks up.
-/

namespace SchemaGraph

namespace Resolver

variable {origin r s : Resolver}

/-! ## Answers -/

/-- What a request is answered. -/
inductive Answer where
  | target (found : Except ResolveError (String × Json))
  | value (found : Except ResolveError Json)
  | moved (result : Except ResolveError Unit)

/-- The answer to a request. -/
def answer (r : Resolver) : Request → Answer
  | .resolve reference => .target (r.resolve reference).1
  | .resolveUrl url => .value (r.resolveUrl url).1
  | .enter _ => .moved (.ok ())
  | .leave => .moved (r.popScope.map fun _ => ())

/-- The answers to some requests, one after the other, each with the scope that follows it. -/
def answers (r : Resolver) : List Request → List (Answer × String)
  | [] => []
  | request :: rest => (r.answer request, (r.after request).scope) :: (r.after request).answers rest

/-! ## Resolvers that cannot be told apart -/

/-- Two resolvers with the documents of `origin` and the same scopes. -/
structure Alike (origin r s : Resolver) : Prop where
  base : r.base = s.base
  entered : r.entered = s.entered
  first : Remembers origin r
  second : Remembers origin s

theorem Remembers.alike (h : Remembers origin r) : Alike origin r r := ⟨rfl, rfl, h, h⟩

namespace Alike

theorem scope (h : Alike origin r s) : r.scope = s.scope := scope_of_entered h.base h.entered

theorem resolveUrl (h : Alike origin r s) (url : String) :
    (r.resolveUrl url).1 = (s.resolveUrl url).1 ∧
      Alike origin (r.resolveUrl url).2 (s.resolveUrl url).2 := by
  obtain ⟨hr, hr'⟩ := h.first.resolveUrl url
  obtain ⟨hs, hs'⟩ := h.second.resolveUrl url
  obtain ⟨hrbase, hrentered⟩ := scopes_resolveUrl r url
  obtain ⟨hsbase, hsentered⟩ := scopes_resolveUrl s url
  exact ⟨hr.trans hs.symm, hrbase.trans (h.base.trans hsbase.symm),
    hrentered.trans (h.entered.trans hsentered.symm), hr', hs'⟩

theorem resolve (h : Alike origin r s) (reference : String) :
    (r.resolve reference).1 = (s.resolve reference).1 ∧
      Alike origin (r.resolve reference).2 (s.resolve reference).2 := by
  obtain ⟨hr, hr'⟩ := h.first.resolve reference
  obtain ⟨hs, hs'⟩ := h.second.resolve reference
  obtain ⟨hrbase, hrentered⟩ := scopes_resolve r reference
  obtain ⟨hsbase, hsentered⟩ := scopes_resolve s reference
  rw [← h.scope] at hs
  exact ⟨hr.trans hs.symm, hrbase.trans (h.base.trans hsbase.symm),
    hrentered.trans (h.entered.trans hsentered.symm), hr', hs'⟩

theorem pushScope (h : Alike origin r s) (reference : String) :
    Alike origin (r.pushScope reference) (s.pushScope reference) := by
  obtain ⟨hr, hr'⟩ := h.first.pushScope reference
  obtain ⟨hs, hs'⟩ := h.second.pushScope reference
  refine ⟨h.base, ?_, hr', hs'⟩
  have hjoined : (r.pushScope reference).scope = (s.pushScope reference).scope := by
    rw [hr, hs, h.scope]
  show (r.pushScope reference).scope :: r.entered = (s.pushScope reference).scope :: s.entered
  rw [hjoined, h.entered]

theorem leaveScope (h : Alike origin r s) : Alike origin r.leaveScope s.leaveScope :=
  ⟨h.base, congrArg List.tail h.entered, h.first.leaveScope, h.second.leaveScope⟩

/-- There is a scope to leave for both or for none. -/
theorem popScope (h : Alike origin r s) :
    r.popScope.map (fun _ => ()) = s.popScope.map (fun _ => ()) := by
  unfold Resolver.popScope
  rw [h.entered]
  cases s.entered <;> rfl

/-- Resolvers that are alike answer alike. -/
theorem answer (h : Alike origin r s) (request : Request) :
    r.answer request = s.answer request := by
  cases request with
  | resolve reference => exact congrArg Answer.target (h.resolve reference).1
  | resolveUrl url => exact congrArg Answer.value (h.resolveUrl url).1
  | enter reference => rfl
  | leave => exact congrArg Answer.moved h.popScope

/-- Every request keeps resolvers alike. -/
theorem after (h : Alike origin r s) (request : Request) :
    Alike origin (r.after request) (s.after request) := by
  cases request with
  | resolve reference => exact (h.resolve reference).2
  | resolveUrl url => exact (h.resolveUrl url).2
  | enter reference => exact h.pushScope reference
  | leave => exact h.leaveScope

theorem answers (h : Alike origin r s) (requests : List Request) :
    r.answers requests = s.answers requests := by
  induction requests generalizing r s with
  | nil => rfl
  | cons request rest ih =>
      have hafter : Alike origin (r.after request) (s.after request) := h.after request
      show (_, _) :: _ = (_, _) :: _
      rw [h.answer request, hafter.scope, ih hafter]

end Alike

/-- A relation between resolvers that answer alike and stay related. -/
structure Accord (T : Resolver → Resolver → Prop) : Prop where
  scope : ∀ {r s}, T r s → r.scope = s.scope
  resolve : ∀ {r s}, T r s → ∀ reference, (r.resolve reference).1 = (s.resolve reference).1 ∧
    T (r.resolve reference).2 (s.resolve reference).2
  pushScope : ∀ {r s}, T r s → ∀ url, T (r.pushScope url) (s.pushScope url)
  leaveScope : ∀ {r s}, T r s → T r.leaveScope s.leaveScope

theorem alike_accord (origin : Resolver) : Accord (Alike origin) :=
  ⟨Alike.scope, Alike.resolve, Alike.pushScope, Alike.leaveScope⟩

/-! ## What is stored -/

/-- The store holds what that of `origin` does and, if the resolver keeps what it retrieves, the
documents of all that it remembers. -/
structure Stocked (origin r : Resolver) : Prop where
  stored : ∀ {uri document}, Entries.find? uri origin.store = some document →
    Entries.find? uri r.store = some document
  resolved : r.cacheRemote = true → ∀ entry ∈ r.resolved.entries,
    (Entries.find? (Uri.defrag entry.1).1 r.store).isSome = true

/-- What is stored under a URI after a URL was looked up. -/
def stockAfter (r : Resolver) (url uri : String) : Option Json :=
  match Entries.find? uri r.store with
  | some document => some document
  | none =>
    if r.cacheRemote && uri == (Uri.defrag url).1 then (r.documentAt uri).toOption else none

theorem stockAfter_of_stored {url : String}
    (h : (Entries.find? (Uri.defrag url).1 r.store).isSome = true ∨ r.cacheRemote = false)
    (uri : String) : r.stockAfter url uri = Entries.find? uri r.store := by
  unfold stockAfter
  cases hfind : Entries.find? uri r.store with
  | some document => rfl
  | none =>
      refine if_neg fun hkept => ?_
      rw [Bool.and_eq_true, beq_iff_eq] at hkept
      obtain ⟨hkeeps, rfl⟩ := hkept
      rw [hfind, hkeeps] at h
      rcases h with h | h <;> cases h

/-- What is retrieved is stored, if the resolver keeps it. -/
theorem find?_retrieve {asked : String} (hmissing : Entries.find? asked r.store = none)
    (uri : String) :
    Entries.find? uri (r.retrieve asked).2.store =
      if r.cacheRemote && uri == asked then (r.documentAt asked).toOption
      else Entries.find? uri r.store := by
  have hdocument := documentAt_of_missing hmissing
  unfold Resolver.retrieve
  dsimp only
  by_cases hsame : uri = asked
  · subst hsame
    rw [hdocument, beq_self_eq_true, Bool.and_true, hmissing]
    cases Entries.find? ((Uri.scheme? uri).getD "") r.retrievers with
    | none => exact hmissing.trans (ite_self _).symm
    | some retriever =>
        dsimp only
        cases retriever uri with
        | error failure => exact hmissing.trans (ite_self _).symm
        | ok document =>
            show Entries.find? uri (if r.cacheRemote then _ else _) = _
            cases r.cacheRemote with
            | true => exact Entries.find?_insertLast_self uri document r.store
            | false => exact hmissing
  · have hother : (uri == asked) = false := beq_false_of_ne hsame
    rw [hother, Bool.and_false]
    show _ = Entries.find? uri r.store
    split
    · rfl
    · split
      · rfl
      · show Entries.find? uri (if r.cacheRemote then _ else _) = _
        cases r.cacheRemote with
        | true => exact Entries.find?_insertLast_of_ne (Ne.symm hsame)
        | false => rfl

theorem find?_resolveUrl (r : Resolver) (url uri : String) :
    Entries.find? uri (r.resolveUrl url).2.store = r.stockAfter url uri := by
  unfold Resolver.resolveUrl
  dsimp only
  cases hstored : Entries.find? (Uri.defrag url).1 r.store with
  | some document => exact (stockAfter_of_stored (.inl (by rw [hstored]; rfl)) uri).symm
  | none =>
      refine (find?_retrieve hstored uri).trans ?_
      unfold stockAfter
      by_cases hsame : uri = (Uri.defrag url).1
      · rw [hsame, hstored]
      · rw [beq_false_of_ne hsame, Bool.and_false]
        cases Entries.find? uri r.store <;> rfl

theorem cacheRemote_resolveUrl (r : Resolver) (url : String) :
    (r.resolveUrl url).2.cacheRemote = r.cacheRemote ∧
      (r.resolveUrl url).2.resolved = r.resolved := by
  unfold Resolver.resolveUrl Resolver.retrieve
  dsimp only
  split
  · exact ⟨rfl, rfl⟩
  · split
    · exact ⟨rfl, rfl⟩
    · split <;> exact ⟨rfl, rfl⟩

/-- Where a URL points at something, there is a document. -/
theorem documentAt_of_valueAt {url : String} {target : Json} (h : r.valueAt url = .ok target) :
    ∃ document, r.documentAt (Uri.defrag url).1 = .ok document := by
  unfold valueAt at h
  cases hdocument : r.documentAt (Uri.defrag url).1 with
  | error failure =>
      rw [hdocument] at h
      cases h
  | ok document => exact ⟨document, rfl⟩

namespace Stocked

theorem leaveScope (h : Stocked origin r) : Stocked origin r.leaveScope := ⟨h.stored, h.resolved⟩

theorem pushScope (h : Stocked origin r) (reference : String) :
    Stocked origin (r.pushScope reference) :=
  ⟨h.stored, h.resolved⟩

theorem of_stockAfter {url : String} (h : Stocked origin r) (hkeeps : s.cacheRemote = r.cacheRemote)
    (hresolved : s.resolved = r.resolved)
    (hstore : ∀ uri, Entries.find? uri s.store = r.stockAfter url uri) : Stocked origin s := by
  have hstays {uri : String} {document : Json} (hfind : Entries.find? uri r.store = some document) :
      Entries.find? uri s.store = some document := by
    rw [hstore]
    unfold stockAfter
    rw [hfind]
  refine ⟨fun hfind => hstays (h.stored hfind), fun hkept entry hentry => ?_⟩
  rw [hkeeps] at hkept
  rw [hresolved] at hentry
  obtain ⟨document, hfind⟩ := Option.isSome_iff_exists.1 (h.resolved hkept entry hentry)
  rw [hstays hfind]
  rfl

/-- What a URL points at is remembered once its document is stored. -/
theorem put (h : Stocked origin r) {url : String} (target : Json)
    (hstored : r.cacheRemote = true → (Entries.find? (Uri.defrag url).1 r.store).isSome = true) :
    Stocked origin { r with resolved := r.resolved.put url target } := by
  refine ⟨h.stored, fun hkept entry hentry => ?_⟩
  rcases Recent.mem_put hentry with rfl | hentry
  · exact hstored hkept
  · exact h.resolved hkept entry hentry

/-- Resolving a reference stores what looking up its URL does, also where the target was
remembered. -/
theorem resolve (h : Stocked origin r) (hremembers : Remembers origin r) (reference : String) :
    Stocked origin (r.resolve reference).2 ∧
      (r.resolve reference).2.cacheRemote = r.cacheRemote ∧
      ∀ uri, Entries.find? uri (r.resolve reference).2.store =
        r.stockAfter (Uri.join r.scope reference) uri := by
  obtain ⟨hurl, hjoin⟩ := hremembers.join r.scope reference
  have hjoined : Stocked origin (r.join r.scope reference).2 := ⟨h.stored, h.resolved⟩
  have hafter : ∀ uri, (r.join r.scope reference).2.stockAfter (Uri.join r.scope reference) uri =
      r.stockAfter (Uri.join r.scope reference) uri := fun _ => rfl
  have hkeeps : (r.join r.scope reference).2.cacheRemote = r.cacheRemote := rfl
  rw [← hkeeps]
  simp only [← hafter]
  rw [← hurl]
  unfold Resolver.resolve
  dsimp only
  generalize r.join r.scope reference = joined at hjoin hjoined ⊢
  obtain ⟨url, s⟩ := joined
  dsimp only at hjoin hjoined ⊢
  cases hfind : s.resolved.find? url with
  | some target =>
      have hstored := fun hkept =>
        hjoined.resolved hkept (url, target) (Recent.mem_of_find? hfind)
      refine ⟨hjoined.put target hstored, rfl, fun uri => (stockAfter_of_stored ?_ uri).symm⟩
      cases hkept : s.cacheRemote with
      | true => exact .inl (hstored hkept)
      | false => exact .inr rfl
  | none =>
      obtain ⟨hvalue, hserves⟩ := hjoin.resolveUrl url
      obtain ⟨hkept, hresolved⟩ := cacheRemote_resolveUrl s url
      have hstore := find?_resolveUrl s url
      have hstocked := hjoined.of_stockAfter hkept hresolved hstore
      generalize s.resolveUrl url = found at hvalue hserves hkept hstore hstocked ⊢
      obtain ⟨result, t⟩ := found
      dsimp only at hvalue hserves hkept hstore hstocked ⊢
      cases result with
      | error failure => exact ⟨hstocked, hkept, hstore⟩
      | ok target =>
          refine ⟨hstocked.put target fun hkeeps => ?_, hkept, hstore⟩
          rw [hstore]
          unfold stockAfter
          rw [← hkept, hkeeps, beq_self_eq_true]
          cases hfind : Entries.find? (Uri.defrag url).1 s.store with
          | some document => rfl
          | none =>
              obtain ⟨document, hdocument⟩ := documentAt_of_valueAt hvalue.symm
              show ((s.documentAt (Uri.defrag url).1).toOption).isSome = true
              rw [hjoin.documents, hdocument]
              rfl

end Stocked

theorem documentAt_of_stored {uri : String} {document : Json}
    (h : Entries.find? uri r.store = some document) : r.documentAt uri = .ok document := by
  unfold documentAt
  rw [h]

/-- Two resolvers that are alike and store the same documents. Where they do not, no harm is done
by it. -/
structure Twins (origin : Resolver) (harmless : Prop) (r s : Resolver) : Prop where
  alike : Alike origin r s
  first : Stocked origin r
  second : Stocked origin s
  stores : (r.cacheRemote = s.cacheRemote ∧
    ∀ uri, Entries.find? uri r.store = Entries.find? uri s.store) ∨ harmless

namespace Twins

variable {harmless : Prop}

theorem stockAfter (h : Alike origin r s) (hkeeps : r.cacheRemote = s.cacheRemote)
    (hstores : ∀ uri, Entries.find? uri r.store = Entries.find? uri s.store) (url uri : String) :
    r.stockAfter url uri = s.stockAfter url uri := by
  unfold Resolver.stockAfter
  rw [hstores, hkeeps, h.first.documents, h.second.documents]

theorem resolve (h : Twins origin harmless r s) (reference : String) :
    (r.resolve reference).1 = (s.resolve reference).1 ∧
      Twins origin harmless (r.resolve reference).2 (s.resolve reference).2 := by
  obtain ⟨hanswer, halike⟩ := h.alike.resolve reference
  obtain ⟨hfirst, hkept, hstore⟩ := h.first.resolve h.alike.first reference
  obtain ⟨hsecond, hkept', hstore'⟩ := h.second.resolve h.alike.second reference
  refine ⟨hanswer, halike, hfirst, hsecond, h.stores.imp_left ?_⟩
  rintro ⟨hkeeps, hstores⟩
  refine ⟨by rw [hkept, hkept', hkeeps], fun uri => ?_⟩
  rw [hstore, hstore', h.alike.scope]
  exact stockAfter h.alike hkeeps hstores _ uri

theorem accord (origin : Resolver) (harmless : Prop) : Accord (Twins origin harmless) where
  scope h := h.alike.scope
  resolve := resolve
  pushScope h url :=
    ⟨h.alike.pushScope url, h.first.pushScope url, h.second.pushScope url, h.stores⟩
  leaveScope h := ⟨h.alike.leaveScope, h.first.leaveScope, h.second.leaveScope, h.stores⟩

/-- A document that only one of them stores is not stored from the start. -/
theorem document? (h : Twins origin harmless r s) (uri : String) :
    r.document? uri = s.document? uri ∨
      harmless ∧ origin.document? uri = none ∧
        ∀ document, r.document? uri = some document ∨ s.document? uri = some document →
          origin.documentAt (Uri.defrag uri).1 = .ok document := by
  rcases h.stores with ⟨-, hstores⟩ | hharmless
  · exact .inl (hstores _)
  · cases hfind : origin.document? uri with
    | some document => exact .inl ((h.first.stored hfind).trans (h.second.stored hfind).symm)
    | none =>
        refine .inr ⟨hharmless, rfl, fun document hdocument => ?_⟩
        rcases hdocument with hdocument | hdocument
        · rw [← h.alike.first.documents]
          exact documentAt_of_stored hdocument
        · rw [← h.alike.second.documents]
          exact documentAt_of_stored hdocument

end Twins

/-! ## Settings -/

/-- The resolver with empty memories of the given sizes, which keeps what it retrieves if told
so. -/
def withCaches (r : Resolver) (joinCacheSize remoteCacheSize : Nat) (cacheRemote : Bool) :
    Resolver :=
  { r with joins := .empty joinCacheSize, resolved := .empty remoteCacheSize, cacheRemote }

theorem remembers_withCaches (r : Resolver) (joinCacheSize remoteCacheSize : Nat)
    (cacheRemote : Bool) : Remembers r (r.withCaches joinCacheSize remoteCacheSize cacheRemote) :=
  ⟨fun _ => rfl, fun _ => (nomatch ·), fun _ => (nomatch ·)⟩

theorem stocked_withCaches (r : Resolver) (joinCacheSize remoteCacheSize : Nat)
    (cacheRemote : Bool) : Stocked r (r.withCaches joinCacheSize remoteCacheSize cacheRemote) :=
  ⟨fun h => h, fun _ _ => (nomatch ·)⟩

/-- Whatever a resolver remembers and keeps, it answers alike and stands in the same scope. -/
theorem answers_withCaches (r : Resolver) (joinCacheSize joinCacheSize' : Nat)
    (remoteCacheSize remoteCacheSize' : Nat) (cacheRemote cacheRemote' : Bool)
    (requests : List Request) :
    (r.withCaches joinCacheSize remoteCacheSize cacheRemote).answers requests =
      (r.withCaches joinCacheSize' remoteCacheSize' cacheRemote').answers requests := by
  have halike : Alike r (r.withCaches joinCacheSize remoteCacheSize cacheRemote)
      (r.withCaches joinCacheSize' remoteCacheSize' cacheRemote') :=
    ⟨rfl, rfl, r.remembers_withCaches _ _ _, r.remembers_withCaches _ _ _⟩
  exact halike.answers requests

end Resolver

end SchemaGraph

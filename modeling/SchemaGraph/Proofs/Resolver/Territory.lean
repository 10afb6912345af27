import SchemaGraph.Proofs.Json
import SchemaGraph.Proofs.Resolver.Fragments
import SchemaGraph.Proofs.Resolver.Runs

set_option autoImplicit false

/-! # Where references lead

A reference leads from its scope to a document, and to a fragment that is its own or the one of the
scope, settled or not. So from finitely many documents no reference leads anywhere else than to
finitely many URLs (`Territory.Holds.resolve`), whatever the scopes are that were entered on the
way. Every resolver whose retrievers answer for finitely many URIs has such a territory
(`Resolver.exists_territory`). So has every resolver that starts in a document without a URI whose
references stay in it: there retrievers are not asked (`Resolver.holds_inner`).
-/

namespace SchemaGraph

/-! ## Counting down -/

theorem countP_lt {α : Type} {p q : α → Bool} {items : List α} {item : α}
    (h : ∀ other ∈ items, p other = true → q other = true) (hitem : item ∈ items)
    (hp : p item = false) (hq : q item = true) : items.countP p < items.countP q := by
  obtain ⟨before, after, rfl⟩ := List.append_of_mem hitem
  have hbefore : before.countP p ≤ before.countP q :=
    List.countP_mono_left fun other hother => h other (List.mem_append_left _ hother)
  have hafter : after.countP p ≤ after.countP q :=
    List.countP_mono_left fun other hother =>
      h other (List.mem_append_right _ (List.mem_cons_of_mem _ hother))
  rw [List.countP_append, List.countP_append, List.countP_cons, List.countP_cons, if_pos hq,
    if_neg (by rw [hp]; exact Bool.false_ne_true)]
  omega

/-- How many of some items have not been passed. -/
def unpassed {α : Type} [BEq α] (items passed : List α) : Nat :=
  items.countP fun item => !passed.contains item

section Unpassed

variable {α : Type} [BEq α] {items passed : List α} {item other : α}

theorem unpassed_le (items passed : List α) : unpassed items passed ≤ items.length :=
  List.countP_le_length

theorem not_contains_of_cons (h : (!(item :: passed).contains other) = true) :
    (!passed.contains other) = true := by
  rw [List.contains_cons, Bool.not_or, Bool.and_eq_true] at h
  exact h.2

theorem unpassed_cons_le (items passed : List α) (item : α) :
    unpassed items (item :: passed) ≤ unpassed items passed :=
  List.countP_mono_left fun _ _ => not_contains_of_cons

/-- One that is new was passed over before. -/
theorem unpassed_cons_lt [LawfulBEq α] (hitem : item ∈ items)
    (hnew : passed.contains item = false) :
    unpassed items (item :: passed) < unpassed items passed := by
  refine countP_lt (fun _ _ => not_contains_of_cons) hitem ?_ ?_
  · rw [List.contains_cons, beq_self_eq_true]
    rfl
  · rw [hnew]
    rfl

end Unpassed

theorem exists_bound {α : Type} (items : List α) (size : α → Nat) :
    ∃ bound, ∀ item ∈ items, size item ≤ bound := by
  induction items with
  | nil => exact ⟨0, fun _ h => nomatch h⟩
  | cons first rest ih =>
      obtain ⟨bound, hbound⟩ := ih
      refine ⟨max (size first) bound, fun item hitem => ?_⟩
      rcases List.mem_cons.1 hitem with rfl | hitem
      · exact Nat.le_max_left _ _
      · exact Nat.le_trans (hbound item hitem) (Nat.le_max_right _ _)

/-! ## Territories -/

/-- URIs, fragments and values that references in these values do not lead out of, from scopes that
may be met there. -/
structure Territory where
  uris : List String
  fragments : List (List Char)
  values : List Json
  meets : String → Prop
  fragment : ∀ {reference}, meets reference → Uri.fragment reference ∈ fragments
  joins : ∀ {base reference}, meets base → meets reference → meets (Uri.join base reference)
  parts : ∀ {whole part : Json}, whole ∈ values → whole.Has part → part ∈ values
  references : ∀ {value text}, value ∈ values → (value.get? "$ref").bind Json.asStr? = some text →
    meets text

namespace Territory

variable {territory : Territory} {r : Resolver} {base reference url : String}

/-- The URLs of the territory. -/
def urls (territory : Territory) : List String :=
  territory.uris.flatMap fun uri => territory.fragments.flatMap fun fragment =>
    [uri, String.ofList (uri.toList ++ '#' :: fragment)]

/-- The locations that the URLs name. -/
def locations (territory : Territory) : List Path := territory.urls.map Path.ofUri

theorem mem_locations (h : url ∈ territory.urls) : Path.ofUri url ∈ territory.locations :=
  List.mem_map.2 ⟨url, h, rfl⟩

theorem mem_urls (huri : (Uri.defrag url).1 ∈ territory.uris)
    (hmeets : territory.meets url) : url ∈ territory.urls := by
  refine List.mem_flatMap.2 ⟨_, huri, List.mem_flatMap.2 ⟨_, territory.fragment hmeets, ?_⟩⟩
  unfold Uri.fragment Uri.defrag
  by_cases hhash : '#' ∈ url.toList
  · obtain ⟨front, back, heq, hfront⟩ := List.eq_append_cons_of_mem hhash
    rw [heq, Uri.splitFragment_append hfront]
    dsimp only
    rw [String.toList_ofList, ← heq, String.ofList_toList]
    exact List.mem_cons_of_mem _ (List.mem_singleton_self _)
  · rw [Uri.splitFragment_of_not_mem hhash]
    dsimp only
    rw [String.ofList_toList]
    exact List.mem_cons_self

theorem resolveFragment_mem {document target : Json} {fragment : String}
    (hdocument : document ∈ territory.values)
    (htarget : Resolver.resolveFragment document fragment = .ok target) :
    target ∈ territory.values := by
  unfold Resolver.resolveFragment at htarget
  split at htarget
  · rename_i part hwalk
    cases htarget
    exact Json.holds_of_walk territory.parts hdocument hwalk
  · cases htarget

/-- The resolver knows nothing outside of the territory. -/
structure Holds (territory : Territory) (r : Resolver) : Prop where
  documents : ∀ url document, territory.meets url →
    r.documentAt (Uri.defrag url).1 = .ok document →
    (Uri.defrag url).1 ∈ territory.uris ∧ document ∈ territory.values
  joins : ∀ entry ∈ r.joins.entries, territory.meets entry.2
  resolved : ∀ entry ∈ r.resolved.entries, (Uri.defrag entry.1).1 ∈ territory.uris ∧
    entry.2 ∈ territory.values
  base : territory.meets r.base
  entered : ∀ scope ∈ r.entered, territory.meets scope

namespace Holds

variable (h : territory.Holds r)
include h

theorem scope_mem : territory.meets r.scope := by
  unfold Resolver.scope
  cases hentered : r.entered with
  | nil =>
      rw [List.headD_nil]
      exact h.base
  | cons scope outer =>
      rw [List.headD_cons]
      exact h.entered scope (hentered ▸ List.mem_cons_self)

theorem join (hbase : territory.meets base) (hreference : territory.meets reference) :
    territory.meets (r.join base reference).1 ∧ territory.Holds (r.join base reference).2 := by
  have hjoined : territory.meets (r.join base reference).1 := by
    -- a join is remembered, or made
    show territory.meets ((r.joins.find? (base, reference)).getD (Uri.join base reference))
    cases hfind : r.joins.find? (base, reference) with
    | none =>
        rw [Option.getD_none]
        exact territory.joins hbase hreference
    | some joined =>
        rw [Option.getD_some]
        exact h.joins ((base, reference), joined) (Recent.mem_of_find? hfind)
  refine ⟨hjoined, h.documents, fun entry hentry => ?_, h.resolved, h.base, h.entered⟩
  rcases Recent.mem_put hentry with rfl | hentry
  · exact hjoined
  · exact h.joins entry hentry

theorem pushScope (hreference : territory.meets reference) :
    territory.Holds (r.pushScope reference) := by
  obtain ⟨hjoined, hjoin⟩ := h.join h.scope_mem hreference
  refine ⟨hjoin.documents, hjoin.joins, hjoin.resolved, hjoin.base, fun scope hscope => ?_⟩
  rcases List.mem_cons.1 hscope with rfl | hscope
  · exact hjoined
  · exact hjoin.entered scope hscope

theorem leaveScope : territory.Holds r.leaveScope :=
  ⟨h.documents, h.joins, h.resolved, h.base,
    fun scope hscope => h.entered scope (List.mem_of_mem_tail hscope)⟩

theorem resolveUrl (hurl : territory.meets url) : territory.Holds (r.resolveUrl url).2 ∧
    ∀ target, (r.resolveUrl url).1 = .ok target →
      (Uri.defrag url).1 ∈ territory.uris ∧ target ∈ territory.values := by
  unfold Resolver.resolveUrl
  dsimp only
  cases hfind : Entries.find? (Uri.defrag url).1 r.store with
  | some document =>
      have hdocument : r.documentAt (Uri.defrag url).1 = .ok document := by
        unfold Resolver.documentAt
        rw [hfind]
      obtain ⟨huri, hvalue⟩ := h.documents url document hurl hdocument
      dsimp only
      exact ⟨h, fun target htarget => ⟨huri, resolveFragment_mem hvalue htarget⟩⟩
  | none =>
      -- a document that is retrieved is what the resolver had for its URI before
      obtain ⟨store, asked, hretrieve, hdocuments⟩ := Resolver.retrieve_eq hfind
      dsimp only
      rw [hretrieve]
      refine ⟨⟨fun other document hother hdocument => ?_, h.joins, h.resolved, h.base, h.entered⟩,
        fun target htarget => ?_⟩
      · rw [hdocuments] at hdocument
        exact h.documents other document hother hdocument
      · dsimp only at htarget
        cases hdocument : r.documentAt (Uri.defrag url).1 with
        | error failure =>
            rw [hdocument] at htarget
            cases htarget
        | ok document =>
            rw [hdocument] at htarget
            dsimp only [Except.bind] at htarget
            obtain ⟨huri, hvalue⟩ := h.documents url document hurl hdocument
            exact ⟨huri, resolveFragment_mem hvalue htarget⟩

theorem put {target : Json} (huri : (Uri.defrag url).1 ∈ territory.uris)
    (htarget : target ∈ territory.values) :
    territory.Holds { r with resolved := r.resolved.put url target } := by
  refine ⟨h.documents, h.joins, fun entry hentry => ?_, h.base, h.entered⟩
  rcases Recent.mem_put hentry with rfl | hentry
  · exact ⟨huri, htarget⟩
  · exact h.resolved entry hentry

/-- No reference leads out of the territory. -/
theorem resolve (hreference : territory.meets reference) :
    territory.Holds (r.resolve reference).2 ∧
      ∀ url target, (r.resolve reference).1 = .ok (url, target) →
        url ∈ territory.urls ∧ territory.meets url ∧ target ∈ territory.values := by
  obtain ⟨hmeets, hjoin⟩ := h.join h.scope_mem hreference
  unfold Resolver.resolve
  dsimp only
  generalize r.join r.scope reference = joined at hmeets hjoin ⊢
  obtain ⟨url, s⟩ := joined
  dsimp only at hmeets hjoin ⊢
  cases hfind : s.resolved.find? url with
  | some target =>
      obtain ⟨huri, hvalue⟩ := hjoin.resolved _ (Recent.mem_of_find? hfind)
      refine ⟨hjoin.put huri hvalue, ?_⟩
      rintro _ _ ⟨⟩
      exact ⟨mem_urls huri hmeets, hmeets, hvalue⟩
  | none =>
      obtain ⟨hresolve, hfound⟩ := hjoin.resolveUrl hmeets
      dsimp only
      generalize s.resolveUrl url = answer at hresolve hfound ⊢
      obtain ⟨failure | target, t⟩ := answer
      · exact ⟨hresolve, fun _ _ h => by cases h⟩
      · obtain ⟨huri, hvalue⟩ := hfound target rfl
        refine ⟨hresolve.put huri hvalue, ?_⟩
        rintro _ _ ⟨⟩
        exact ⟨mem_urls huri hmeets, hmeets, hvalue⟩

end Holds

end Territory

/-! ## Every resolver has a territory -/

/-- No other URIs are answered by the retrievers. -/
def Resolver.AnswersOnly (r : Resolver) (uris : List String) : Prop :=
  ∀ scheme retriever, Entries.find? scheme r.retrievers = some retriever →
    ∀ uri document, retriever uri = .ok document → uri ∈ uris

namespace Territory

/-- The fragments that come of documents and references. -/
def fragmentsOf (documents : List Json) (references : List String) : List (List Char) :=
  let found := (references ++ (documents.flatMap Json.inside).filterMap fun value =>
    (value.get? "$ref").bind Json.asStr?).map Uri.fragment
  found ++ found.map Uri.settled

section

variable {documents : List Json} {references : List String}

theorem mem_fragmentsOf {reference : String} (h : reference ∈ references) :
    Uri.fragment reference ∈ fragmentsOf documents references :=
  List.mem_append_left _ (List.mem_map.2 ⟨reference, List.mem_append_left _ h, rfl⟩)

theorem mem_fragmentsOf_inside {value : Json} {text : String}
    (hvalue : value ∈ documents.flatMap Json.inside)
    (htext : (value.get? "$ref").bind Json.asStr? = some text) :
    Uri.fragment text ∈ fragmentsOf documents references := by
  refine List.mem_append_left _ (List.mem_map.2 ⟨_, List.mem_append_right _ ?_, rfl⟩)
  exact List.mem_filterMap.2 ⟨_, hvalue, htext⟩

theorem settled_mem_fragmentsOf {fragment : List Char}
    (h : fragment ∈ fragmentsOf documents references) :
    Uri.settled fragment ∈ fragmentsOf documents references := by
  rcases List.mem_append.1 h with h | h
  · exact List.mem_append_right _ (List.mem_map.2 ⟨fragment, h, rfl⟩)
  · obtain ⟨before, -, rfl⟩ := List.mem_map.1 h
    rw [Uri.settled_settled]
    exact List.mem_append_right _ h

theorem join_mem_fragmentsOf {base reference : String}
    (hbase : Uri.fragment base ∈ fragmentsOf documents references)
    (hreference : Uri.fragment reference ∈ fragmentsOf documents references) :
    Uri.fragment (Uri.join base reference) ∈ fragmentsOf documents references := by
  have hjoin := Uri.fragment_join base reference
  simp only [List.mem_cons, List.not_mem_nil, or_false] at hjoin
  rcases hjoin with hjoin | hjoin | hjoin <;> rw [hjoin]
  · exact hbase
  · exact hreference
  · exact settled_mem_fragmentsOf hreference

end

/-- What documents and references span. -/
def spanned (uris : List String) (documents : List Json) (references : List String) :
    Territory where
  uris
  fragments := fragmentsOf documents references
  values := documents.flatMap Json.inside
  meets reference := Uri.fragment reference ∈ fragmentsOf documents references
  fragment h := h
  joins := join_mem_fragmentsOf
  parts hwhole hpart := by
    obtain ⟨document, hdocument, hwhole⟩ := List.mem_flatMap.1 hwhole
    exact List.mem_flatMap.2 ⟨document, hdocument, hpart.inside hwhole⟩
  references := mem_fragmentsOf_inside

theorem mem_spanned_values {uris : List String} {documents : List Json} {references : List String}
    {document : Json} (h : document ∈ documents) :
    document ∈ (spanned uris documents references).values :=
  List.mem_flatMap.2 ⟨document, h, Json.mem_inside_self document⟩

/-- What a document without a URI and references within it span. -/
def inner (document : Json) (references : List String)
    (hlocal : ∀ value ∈ document.inside, ∀ text,
      (value.get? "$ref").bind Json.asStr? = some text → Uri.IsInside text) : Territory :=
  { spanned [""] [document] ("" :: references) with
    meets := fun reference => Uri.IsInside reference ∧
      Uri.fragment reference ∈ fragmentsOf [document] ("" :: references)
    fragment := And.right
    joins := fun hbase hreference =>
      ⟨Uri.join_inside hbase.1 hreference.1, join_mem_fragmentsOf hbase.2 hreference.2⟩
    references := fun hvalue htext => by
      refine ⟨?_, mem_fragmentsOf_inside hvalue htext⟩
      obtain ⟨_, hdocument, hvalue⟩ := List.mem_flatMap.1 hvalue
      rw [List.mem_singleton.1 hdocument] at hvalue
      exact hlocal _ hvalue _ htext }

theorem mem_inner_values (document : Json) (references : List String)
    (hlocal : ∀ value ∈ document.inside, ∀ text,
      (value.get? "$ref").bind Json.asStr? = some text → Uri.IsInside text) :
    document ∈ (inner document references hlocal).values :=
  List.mem_flatMap.2 ⟨document, List.mem_singleton_self _, Json.mem_inside_self document⟩

end Territory

theorem Resolver.uri_of_documentAt {r : Resolver} {uris : List String} (h : r.AnswersOnly uris)
    {uri : String} {document : Json} (hdocument : r.documentAt uri = .ok document) :
    uri ∈ uris ++ r.store.map Prod.fst := by
  unfold documentAt at hdocument
  split at hdocument
  · rename_i stored hstored
    exact List.mem_append_right _ (List.mem_map.2 ⟨_, Entries.mem_of_find? hstored, rfl⟩)
  · split at hdocument
    · cases hdocument
    · rename_i retriever hretriever
      exact List.mem_append_left _ (h _ retriever hretriever uri document hdocument)

/-- Whatever a resolver has been asked before, references lead it to finitely many URLs. -/
theorem Resolver.exists_territory (r : Resolver) {uris : List String} (h : r.AnswersOnly uris)
    (pointers : List String) :
    ∃ territory : Territory, territory.Holds r ∧
      ∀ pointer ∈ pointers, territory.meets pointer := by
  -- URIs are answered, stored or remembered; references were joined, entered or asked for
  let uris' := uris ++ r.store.map Prod.fst ++ r.resolved.entries.map fun entry =>
    (Uri.defrag entry.1).1
  let documents := (uris'.filterMap fun uri => (r.documentAt uri).toOption) ++
    r.resolved.entries.map Prod.snd
  let references := r.base :: (r.entered ++ r.joins.entries.map Prod.snd ++ pointers)
  refine ⟨.spanned uris' documents references, ⟨fun url document _ hdocument => ?_,
    fun entry hentry => ?_, fun entry hentry => ?_, ?_, fun scope hscope => ?_⟩,
    fun pointer hpointer => ?_⟩
  · have huri : (Uri.defrag url).1 ∈ uris' :=
      List.mem_append_left _ (uri_of_documentAt h hdocument)
    refine ⟨huri, Territory.mem_spanned_values (List.mem_append_left _ ?_)⟩
    exact List.mem_filterMap.2 ⟨_, huri, by rw [hdocument]; rfl⟩
  · refine Territory.mem_fragmentsOf (List.mem_cons_of_mem _ (List.mem_append_left _ ?_))
    exact List.mem_append_right _ (List.mem_map.2 ⟨entry, hentry, rfl⟩)
  · refine ⟨List.mem_append_right _ (List.mem_map.2 ⟨entry, hentry, rfl⟩), ?_⟩
    exact Territory.mem_spanned_values
      (List.mem_append_right _ (List.mem_map.2 ⟨entry, hentry, rfl⟩))
  · exact Territory.mem_fragmentsOf List.mem_cons_self
  · refine Territory.mem_fragmentsOf (List.mem_cons_of_mem _ (List.mem_append_left _ ?_))
    exact List.mem_append_left _ hscope
  · refine Territory.mem_fragmentsOf (List.mem_cons_of_mem _ ?_)
    exact List.mem_append_right _ hpointer

/-- A resolver that serves a document without a URI, and was asked nothing yet, is not led out of
it, whatever its retrievers answer. -/
theorem Resolver.holds_inner {r : Resolver} {document : Json} (h : Serves document r)
    (hfresh : r.IsFresh) (hentered : r.entered = []) (references : List String)
    (hlocal : ∀ value ∈ document.inside, ∀ text,
      (value.get? "$ref").bind Json.asStr? = some text → Uri.IsInside text) :
    (Territory.inner document references hlocal).Holds r where
  documents url found hmeets hfound := by
    rw [Uri.defrag_inside hmeets.1] at hfound ⊢
    unfold documentAt at hfound
    rw [h.stored] at hfound
    cases hfound
    exact ⟨List.mem_singleton_self _, Territory.mem_inner_values document references hlocal⟩
  joins entry hentry := by
    rw [hfresh.1] at hentry
    cases hentry
  resolved entry hentry := by
    rw [hfresh.2] at hentry
    cases hentry
  base := by
    rw [h.base]
    exact ⟨.inl rfl, Territory.mem_fragmentsOf List.mem_cons_self⟩
  entered scope hscope := by
    rw [hentered] at hscope
    cases hscope

end SchemaGraph

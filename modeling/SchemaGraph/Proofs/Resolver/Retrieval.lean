import SchemaGraph.Resolver.Basic

set_option autoImplicit false

/-! # What was retrieved

Whatever a resolver is asked to do, it goes on with a store that only grew by the documents that
retrievers gave on the way, in that order, and it asked for each of them when it was not stored
(`Resolver.Retrieves`). A resolver that keeps what it retrieves therefore is given a document at
most once (`Resolver.Retrieves.count_le_one`); the memories of a resolver play no part in this.
-/

namespace SchemaGraph

namespace Entries

variable {α : Type} {key other : String} {value : α} {entries : List (String × α)}

theorem find?_insertLast_self (key : String) (value : α) (entries : List (String × α)) :
    find? key (insertLast key value entries) = some value := by
  induction entries with
  | nil => exact if_pos (beq_self_eq_true key)
  | cons entry rest ih =>
      obtain ⟨k, v⟩ := entry
      unfold insertLast
      by_cases hk : (k == key) = true
      · rw [if_pos hk]
        exact if_pos hk
      · rw [if_neg hk]
        show (if k == key then some v else find? key _) = some value
        rw [if_neg hk, ih]

theorem find?_insertLast_of_ne (h : key ≠ other) :
    ∀ {entries : List (String × α)},
      find? other (insertLast key value entries) = find? other entries
  | [] => if_neg (by simpa using h)
  | (k, v) :: rest => by
      unfold insertLast
      split
      · rename_i hk
        have hk : k = key := eq_of_beq hk
        subst hk
        have hne : ¬(k == other) = true := by simpa using h
        show (if k == other then _ else _) = (if k == other then _ else _)
        rw [if_neg hne, if_neg hne]
      · show (if k == other then _ else _) = (if k == other then _ else _)
        rw [find?_insertLast_of_ne h]

end Entries

namespace Resolver

variable {r s t : Resolver} {asked earlier later : List String} {uri url reference : String}

/-! ## Stores -/

/-- The document that a retriever gives for a URI. -/
def retrieved? (r : Resolver) (uri : String) : Option Json :=
  (Entries.find? ((Uri.scheme? uri).getD "") r.retrievers).bind fun retriever =>
    (retriever uri).toOption

/-- The store after retrievers were asked for the documents of some URIs, last one first. -/
def storeAfter (r : Resolver) : List String → List (String × Json)
  | [] => r.store
  | uri :: earlier =>
    match r.retrieved? uri with
    | some document =>
      if r.cacheRemote then Entries.insertLast uri document (r.storeAfter earlier)
      else r.storeAfter earlier
    | none => r.storeAfter earlier

theorem storeAfter_none (h : r.retrieved? uri = none) :
    r.storeAfter (uri :: earlier) = r.storeAfter earlier := by
  rw [storeAfter, h]

theorem storeAfter_some {document : Json} (h : r.retrieved? uri = some document) :
    r.storeAfter (uri :: earlier) =
      if r.cacheRemote then Entries.insertLast uri document (r.storeAfter earlier)
      else r.storeAfter earlier := by
  rw [storeAfter, h]

/-- The document of each of the URIs was not stored when it was asked for. -/
def AsksMissing (r : Resolver) : List String → Prop
  | [] => True
  | uri :: earlier => Entries.find? uri (r.storeAfter earlier) = none ∧ r.AsksMissing earlier

/-- A resolver that keeps what it retrieves has stored what it asked for and was given, besides
what was stored before. -/
theorem find?_storeAfter (hcache : r.cacheRemote = true) (hmissing : r.AsksMissing asked)
    (uri : String) : Entries.find? uri (r.storeAfter asked) =
      (Entries.find? uri r.store).or (if uri ∈ asked then r.retrieved? uri else none) := by
  induction asked with
  | nil => exact (Option.or_none).symm
  | cons first earlier ih =>
      obtain ⟨hfirst, hearlier⟩ := hmissing
      have hbefore := ih hearlier
      by_cases hsame : uri = first
      · subst hsame
        rw [hfirst] at hbefore
        obtain ⟨hstore, -⟩ := Option.or_eq_none_iff.1 hbefore.symm
        rw [hstore, Option.none_or, if_pos List.mem_cons_self]
        cases hgiven : r.retrieved? uri with
        | none => rw [storeAfter_none hgiven, hfirst]
        | some document =>
            rw [storeAfter_some hgiven, if_pos hcache, Entries.find?_insertLast_self]
      · have hmem : uri ∈ first :: earlier ↔ uri ∈ earlier :=
          List.mem_cons.trans (or_iff_right hsame)
        simp only [hmem, ← hbefore]
        cases hgiven : r.retrieved? first with
        | none => rw [storeAfter_none hgiven]
        | some document =>
            rw [storeAfter_some hgiven, if_pos hcache,
              Entries.find?_insertLast_of_ne (Ne.symm hsame)]

theorem AsksMissing.at (h : r.AsksMissing (later ++ uri :: earlier)) :
    Entries.find? uri (r.storeAfter earlier) = none ∧ r.AsksMissing earlier := by
  induction later with
  | nil => exact h
  | cons first later ih => exact ih h.2

/-! ## Retrieving -/

/-- What a resolver did while retrievers were asked for the documents of some URIs. -/
structure Retrieves (r s : Resolver) (asked : List String) : Prop where
  retrievers : s.retrievers = r.retrievers
  cacheRemote : s.cacheRemote = r.cacheRemote
  log : s.asked = asked ++ r.asked
  store : s.store = r.storeAfter asked
  missing : r.AsksMissing asked

namespace Retrieves

theorem refl (r : Resolver) : Retrieves r r [] := ⟨rfl, rfl, rfl, rfl, trivial⟩

theorem storeAfter (h : Retrieves r s earlier) (asked : List String) :
    s.storeAfter asked = r.storeAfter (asked ++ earlier) := by
  have hretrieved : s.retrieved? = r.retrieved? := by
    funext uri
    unfold retrieved?
    rw [h.retrievers]
  induction asked with
  | nil => exact h.store
  | cons first asked ih =>
      rw [List.cons_append]
      unfold Resolver.storeAfter
      rw [hretrieved, h.cacheRemote, ih]

theorem asksMissing (h : Retrieves r s earlier) :
    ∀ {asked : List String}, s.AsksMissing asked → r.AsksMissing (asked ++ earlier)
  | [], _ => h.missing
  | first :: asked, hmissing => by
      obtain ⟨hfirst, hrest⟩ := hmissing
      rw [h.storeAfter] at hfirst
      exact ⟨hfirst, h.asksMissing hrest⟩

theorem trans (hrs : Retrieves r s earlier) (hst : Retrieves s t later) :
    Retrieves r t (later ++ earlier) where
  retrievers := hst.retrievers.trans hrs.retrievers
  cacheRemote := hst.cacheRemote.trans hrs.cacheRemote
  log := by rw [hst.log, hrs.log, List.append_assoc]
  store := hst.store.trans (hrs.storeAfter later)
  missing := hrs.asksMissing hst.missing

/-- A document is retrieved only if it is not stored. -/
theorem resolveUrl (r : Resolver) (url : String) :
    ∃ asked, Retrieves r (r.resolveUrl url).2 asked := by
  unfold Resolver.resolveUrl
  dsimp only
  cases hfind : Entries.find? (Uri.defrag url).1 r.store with
  | some document => exact ⟨[], rfl, rfl, rfl, rfl, trivial⟩
  | none =>
      dsimp only
      generalize (Uri.defrag url).1 = uri at hfind ⊢
      unfold retrieve
      dsimp only
      cases hretriever : Entries.find? ((Uri.scheme? uri).getD "") r.retrievers with
      | none => exact ⟨[], rfl, rfl, rfl, rfl, trivial⟩
      | some retriever =>
          have hretrieved : r.retrieved? uri = (retriever uri).toOption := by
            unfold retrieved?
            rw [hretriever]
            rfl
          dsimp only
          cases hanswer : retriever uri with
          | error failure =>
              refine ⟨[uri], rfl, rfl, rfl, ?_, hfind, trivial⟩
              rw [hanswer] at hretrieved
              rw [storeAfter_none hretrieved]
              rfl
          | ok document =>
              refine ⟨[uri], rfl, rfl, rfl, ?_, hfind, trivial⟩
              rw [hanswer] at hretrieved
              rw [storeAfter_some hretrieved]
              rfl

/-- Joining and remembering retrieve nothing. -/
theorem resolve (r : Resolver) (reference : String) :
    ∃ asked, Retrieves r (r.resolve reference).2 asked := by
  have hfound := resolveUrl (r.join r.scope reference).2 (r.join r.scope reference).1
  unfold Resolver.resolve
  dsimp only
  split
  · exact ⟨[], rfl, rfl, rfl, rfl, trivial⟩
  · obtain ⟨asked, h⟩ := hfound
    have hjoined : Retrieves r (r.join r.scope reference).2 [] := ⟨rfl, rfl, rfl, rfl, trivial⟩
    refine ⟨asked ++ [], ?_⟩
    split
    · exact hjoined.trans h
    · exact hjoined.trans ⟨h.retrievers, h.cacheRemote, h.log, h.store, h.missing⟩

theorem pushScope (r : Resolver) (reference : String) : Retrieves r (r.pushScope reference) [] :=
  ⟨rfl, rfl, rfl, rfl, trivial⟩

theorem leaveScope (h : Retrieves r s asked) : Retrieves r s.leaveScope asked :=
  ⟨h.retrievers, h.cacheRemote, h.log, h.store, h.missing⟩

/-- What is stored is not asked for, neither is what was retrieved and kept. -/
theorem not_mem_earlier (h : Retrieves r s (later ++ uri :: earlier))
    (hcache : r.cacheRemote = true) : Entries.find? uri r.store = none ∧
      ((r.retrieved? uri).isSome = true → uri ∉ earlier) := by
  obtain ⟨hmissing, hearlier⟩ := h.missing.at
  rw [find?_storeAfter hcache hearlier] at hmissing
  obtain ⟨hstore, hgiven⟩ := Option.or_eq_none_iff.1 hmissing
  refine ⟨hstore, fun hsome hmem => ?_⟩
  rw [if_pos hmem] at hgiven
  rw [hgiven] at hsome
  cases hsome

/-- A document is given at most once. -/
theorem count_le_one (h : Retrieves r s asked) (hcache : r.cacheRemote = true)
    (hgiven : (r.retrieved? uri).isSome = true) : asked.count uri ≤ 1 := by
  by_cases hmem : uri ∈ asked
  · obtain ⟨later, earlier, rfl, hlater⟩ := List.eq_append_cons_of_mem hmem
    have hearlier : uri ∉ earlier := (h.not_mem_earlier hcache).2 hgiven
    have hcount : (later ++ uri :: earlier).count uri = 1 := by
      rw [List.count_append, List.count_cons_self, List.count_eq_zero_of_not_mem hlater,
        List.count_eq_zero_of_not_mem hearlier]
    exact Nat.le_of_eq hcount
  · rw [List.count_eq_zero_of_not_mem hmem]
    exact Nat.zero_le 1

end Retrieves

end Resolver

end SchemaGraph

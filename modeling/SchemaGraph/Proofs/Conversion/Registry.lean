import Mathlib.Order.Defs.LinearOrder
import SchemaGraph.Conversion.Registry
import SchemaGraph.Proofs.Json

set_option autoImplicit false

/-! # What a registry knows

Every change of a registry concerns one location. A location that was linked stays linked, and its
value is given out as soon as it is done (`Registry.lookup_links`).
-/

namespace SchemaGraph

namespace Path

variable {path other : Path}

theorem eq_of_compare (h : path.compare other = .eq) : path = other := by
  unfold compare at h
  split at h
  · rename_i heq
    exact eq_of_beq heq
  · obtain ⟨-, h⟩ := Ordering.then_eq_eq.1 h
    obtain ⟨hparts, hbase⟩ := Ordering.then_eq_eq.1 h
    have hsame : path.parts = other.parts := by
      unfold compareOfLessAndEq at hparts
      split at hparts
      · cases hparts
      · split at hparts
        · assumption
        · cases hparts
    have hbase : path.base = other.base := Std.LawfulEqCmp.eq_of_compare hbase
    obtain ⟨base, parts⟩ := path
    cases hsame
    cases hbase
    rfl

end Path

namespace Registry

variable {registry : Registry} {path other : Path}

/-! ## Locations -/

theorem find?_set (registry : Registry) (path other : Path) (progress : Progress) :
    (registry.set path progress).find? other =
      if other = path then some progress else registry.find? other := by
  unfold find? set without
  rw [List.lookup_cons, lookup_without]
  by_cases hother : other = path
  · rw [if_pos hother, if_pos hother, beq_iff_eq.2 hother]
  · rw [if_neg hother, if_neg hother, beq_eq_false_iff_ne.2 hother]

theorem find?_remove (registry : Registry) (path other : Path) :
    (registry.remove path).find? other = if other = path then none else registry.find? other :=
  lookup_without path other registry.states

@[simp] theorem find?_start_self (registry : Registry) (path : Path) :
    (registry.start path).find? path = some .pending := by
  unfold start
  rw [find?_set, if_pos rfl]

@[simp] theorem find?_finish_self (registry : Registry) (path : Path) (value : Value) :
    (registry.finish path value).find? path = some (.done value) := by
  unfold finish
  rw [find?_set, if_pos rfl]

@[simp] theorem find?_poison_self (registry : Registry) (path : Path) :
    (registry.poison path).find? path = some .poisoned := by
  unfold poison
  rw [find?_set, if_pos rfl]

@[simp] theorem find?_remove_self (registry : Registry) (path : Path) :
    (registry.remove path).find? path = none := by
  rw [find?_remove, if_pos rfl]

theorem find?_start_of_ne (h : other ≠ path) :
    (registry.start path).find? other = registry.find? other := by
  unfold start
  rw [find?_set, if_neg h]

theorem find?_finish_of_ne {value : Value} (h : other ≠ path) :
    (registry.finish path value).find? other = registry.find? other := by
  unfold finish
  rw [find?_set, if_neg h]

theorem find?_poison_of_ne (h : other ≠ path) :
    (registry.poison path).find? other = registry.find? other := by
  unfold poison
  rw [find?_set, if_neg h]

theorem find?_remove_of_ne (h : other ≠ path) :
    (registry.remove path).find? other = registry.find? other := by
  rw [find?_remove, if_neg h]

/-! ## Open locations -/

/-- Nothing is known of a location, or only that it failed. -/
def IsOpen (registry : Registry) (path : Path) : Prop :=
  registry.find? path = none ∨ registry.find? path = some .poisoned

variable {g h k : Registry}

theorem IsOpen.ne_pending (hopen : g.IsOpen path) : g.find? path ≠ some .pending := by
  rcases hopen with hnone | hpoisoned
  · rw [hnone]
    exact fun h => nomatch h
  · rw [hpoisoned]
    exact fun h => nomatch h

theorem IsOpen.ne_done (hopen : g.IsOpen path) (value : Value) :
    g.find? path ≠ some (.done value) := by
  rcases hopen with hnone | hpoisoned
  · rw [hnone]
    exact fun h => nomatch h
  · rw [hpoisoned]
    exact fun h => nomatch h

/-- The same locations are being converted. -/
def SamePending (g h : Registry) : Prop :=
  ∀ path, h.find? path = some .pending ↔ g.find? path = some .pending

theorem SamePending.trans (hgh : SamePending g h) (hhk : SamePending h k) : SamePending g k :=
  fun path => (hhk path).trans (hgh path)

/-- A location that was open is closed again. -/
theorem SamePending.close (hopen : g.IsOpen path) (hinner : SamePending (g.start path) h)
    (hothers : ∀ other, other ≠ path → k.find? other = h.find? other)
    (hpath : k.find? path ≠ some .pending) : SamePending g k := by
  intro other
  by_cases hother : other = path
  · subst hother
    exact ⟨fun hk => absurd hk hpath, fun hg => absurd hg hopen.ne_pending⟩
  · rw [hothers other hother, hinner other, find?_start_of_ne hother]

/-! ## Links -/

theorem mem_insertPath : ∀ {paths : List Path}, other ∈ insertPath path paths ↔
    other = path ∨ other ∈ paths
  | [] => by
      unfold insertPath
      simp
  | first :: rest => by
      unfold insertPath
      cases hcompare : path.compare first with
      | lt => simp
      | eq =>
          rw [Path.eq_of_compare hcompare]
          simp
      | gt =>
          dsimp only
          rw [List.mem_cons, mem_insertPath, List.mem_cons]
          exact or_left_comm

theorem mem_linked_link : other ∈ (registry.link path).linked ↔
    other = path ∨ other ∈ registry.linked :=
  mem_insertPath

/-- A location has a value among the links if it was linked and is done. -/
theorem lookup_links {value : Value} : registry.links.lookup path = some value ↔
    path ∈ registry.linked ∧ registry.find? path = some (.done value) := by
  unfold links
  induction registry.linked with
  | nil => simp
  | cons first rest ih =>
      by_cases hfirst : path = first
      · subst hfirst
        rw [List.filterMap_cons]
        rcases hfind : registry.find? path with _ | _ | _ | found
        · simp [ih, hfind]
        · simp [ih, hfind]
        · simp [ih, hfind]
        · simp
      · rw [List.filterMap_cons]
        have hmem : path ∈ first :: rest ↔ path ∈ rest := by simp [hfirst]
        rcases registry.find? first with _ | _ | _ | found
        · rw [hmem]; exact ih
        · rw [hmem]; exact ih
        · rw [hmem]; exact ih
        · dsimp only
          rw [hmem, List.lookup_cons, beq_eq_false_iff_ne.2 hfirst]
          exact ih

/-- A value that is given out is that of a location which was linked and is done. -/
theorem mem_links {value : Value} (h : (path, value) ∈ registry.links) :
    path ∈ registry.linked ∧ registry.find? path = some (.done value) := by
  obtain ⟨location, hlocation, hfind⟩ := List.mem_filterMap.1 h
  split at hfind
  · rename_i found hdone
    cases hfind
    exact ⟨hlocation, hdone⟩
  · cases hfind

/-- A location that was linked and does not convert any more has a value, or it is open. -/
theorem lookup_links_cases (hlinked : path ∈ registry.linked)
    (hpending : registry.find? path ≠ some .pending) :
    (∃ value, registry.find? path = some (.done value) ∧
        registry.links.lookup path = some value) ∨
      (registry.IsOpen path ∧ registry.links.lookup path = none) := by
  have hnone : registry.IsOpen path → registry.links.lookup path = none := by
    intro hopen
    cases hfound : registry.links.lookup path with
    | none => rfl
    | some value => exact absurd (lookup_links.1 hfound).2 (hopen.ne_done value)
  rcases hfind : registry.find? path with _ | _ | _ | value
  · exact .inr ⟨.inl hfind, hnone (.inl hfind)⟩
  · exact absurd hfind hpending
  · exact .inr ⟨.inr hfind, hnone (.inr hfind)⟩
  · exact .inl ⟨value, rfl, lookup_links.2 ⟨hlinked, hfind⟩⟩

end Registry

end SchemaGraph

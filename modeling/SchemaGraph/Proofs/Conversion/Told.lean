import Mathlib.Data.List.Nodup
import Mathlib.Data.List.Perm.Subperm
import SchemaGraph.Error
import SchemaGraph.Proofs.Conversion.Registry

set_option autoImplicit false

/-! # Errors told once

Where the locations that references may open lie apart from each other, an error tells by its path
what it comes from: what was converted at the path or above, or a location that was opened on the
way (`Told`). Errors of one part and of the next are then different ones, because a location is
opened only once (`Told.append`).
-/

namespace SchemaGraph

/-! ## Locations inside a location -/

namespace Path

/-- The location is another one, or further down. -/
def Within (path top : Path) : Prop := path.base = top.base ∧ top.parts <+: path.parts

/-- The location is inside of another one, behind one of the segments. -/
def Beneath (top : Path) (keys : String → Prop) (path : Path) : Prop :=
  ∃ key, keys key ∧ path.Within (top.child key)

variable {path top other : Path} {keys keys' : String → Prop}

theorem Within.refl (path : Path) : path.Within path := ⟨rfl, List.prefix_rfl⟩

theorem Within.trans (h : path.Within top) (h' : top.Within other) : path.Within other :=
  ⟨h.1.trans h'.1, h'.2.trans h.2⟩

theorem within_child (path : Path) (key : String) : (path.child key).Within path :=
  ⟨rfl, List.prefix_append _ _⟩

/-- Of two locations around a third one, one is inside of the other. -/
theorem Within.total (h : path.Within top) (h' : path.Within other) :
    top.Within other ∨ other.Within top := by
  rcases List.prefix_or_prefix_of_prefix h.2 h'.2 with hparts | hparts
  · exact .inr ⟨h'.1.symm.trans h.1, hparts⟩
  · exact .inl ⟨h.1.symm.trans h'.1, hparts⟩

/-- A location is behind one segment only. -/
theorem Within.child_inj {key key' : String} (h : path.Within (top.child key))
    (h' : path.Within (top.child key')) : key = key' := by
  have hparts : top.parts ++ [key] = top.parts ++ [key'] := by
    rcases List.prefix_or_prefix_of_prefix h.2 h'.2 with hparts | hparts
    · exact hparts.eq_of_length (by simp [child])
    · exact (hparts.eq_of_length (by simp [child])).symm
  exact List.singleton_inj.1 (List.append_cancel_left hparts)

theorem Beneath.within (h : top.Beneath keys path) : path.Within top := by
  obtain ⟨key, -, hwithin⟩ := h
  exact hwithin.trans (within_child top key)

theorem not_beneath_self : ¬top.Beneath keys top := by
  rintro ⟨key, -, -, hparts⟩
  have hlength := hparts.length_le
  unfold child at hlength
  rw [List.length_append] at hlength
  exact Nat.not_succ_le_self _ hlength

theorem Beneath.mono (h : top.Beneath keys path) (hkeys : ∀ key, keys key → keys' key) :
    top.Beneath keys' path := by
  obtain ⟨key, hkey, hwithin⟩ := h
  exact ⟨key, hkeys key hkey, hwithin⟩

/-- Nothing is behind segments of both kinds if there are none. -/
theorem Beneath.apart (hkeys : ∀ key, keys key → ¬keys' key) (h : top.Beneath keys path) :
    ¬top.Beneath keys' path := by
  rintro ⟨key', hkey', hwithin'⟩
  obtain ⟨key, hkey, hwithin⟩ := h
  obtain rfl := hwithin.child_inj hwithin'
  exact hkeys key hkey hkey'

theorem beneath_or : (top.Beneath fun key => keys key ∨ keys' key) path ↔
    top.Beneath keys path ∨ top.Beneath keys' path := by
  constructor
  · rintro ⟨key, hkey | hkey, hwithin⟩
    · exact .inl ⟨key, hkey, hwithin⟩
    · exact .inr ⟨key, hkey, hwithin⟩
  · rintro (h | h)
    · exact h.mono fun _ => .inl
    · exact h.mono fun _ => .inr

/-- None of the locations is inside of another one. -/
def Separate (place : Path → Prop) : Prop :=
  ∀ {top path : Path}, place top → place path → path.Within top → path = top

theorem Separate.eq {place : Path → Prop} (h : Separate place) (htop : place top)
    (hother : place other) (hwithin : path.Within top) (hwithin' : path.Within other) :
    top = other := by
  rcases hwithin.total hwithin' with hinside | hinside
  · exact h hother htop hinside
  · exact (h htop hother hinside).symm

end Path

/-! ## Opened locations -/

namespace Registry

variable {place : Path → Prop} {g h k : Registry} {path : Path}

/-- Of the locations that may be opened, those that are known stay known, and those that are being
converted stay so. -/
structure Retains (place : Path → Prop) (g h : Registry) : Prop where
  known : ∀ path, place path → g.find? path ≠ none → h.find? path ≠ none
  pending : ∀ path, place path → g.find? path = some .pending → h.find? path = some .pending

theorem Retains.refl (g : Registry) : g.Retains place g := ⟨fun _ _ => id, fun _ _ => id⟩

theorem Retains.trans (hgh : g.Retains place h) (hhk : h.Retains place k) : g.Retains place k where
  known path hpath hg := hhk.known path hpath (hgh.known path hpath hg)
  pending path hpath hg := hhk.pending path hpath (hgh.pending path hpath hg)

/-- The same is known of the locations that may be opened. -/
theorem Retains.of_find (hsame : ∀ path, place path → h.find? path = g.find? path) :
    g.Retains place h where
  known path hpath hg := by
    rw [hsame path hpath]
    exact hg
  pending path hpath hg := (hsame path hpath).trans hg

/-- A location that was opened and then given up or kept was not known before. -/
theorem Retains.close (hunknown : g.find? path = none) (hinner : (g.start path).Retains place h)
    (hothers : ∀ other, other ≠ path → k.find? other = h.find? other) : g.Retains place k := by
  refine ⟨fun other hother hg => ?_, fun other hother hg => ?_⟩
  · have hne : other ≠ path := fun heq => hg (heq ▸ hunknown)
    rw [hothers other hne]
    refine hinner.known other hother ?_
    rw [find?_start_of_ne hne]
    exact hg
  · have hne : other ≠ path := fun heq => by
      rw [heq, hunknown] at hg
      cases hg
    rw [hothers other hne]
    refine hinner.pending other hother ?_
    rw [find?_start_of_ne hne]
    exact hg

/-- The location is inside of one that was opened in between. -/
def Opened (place : Path → Prop) (g h : Registry) (path : Path) : Prop :=
  ∃ top, place top ∧ g.find? top = none ∧ h.find? top ≠ none ∧ path.Within top

theorem Opened.mono {g' h' : Registry} (hopened : Opened place g h path)
    (hbefore : g'.Retains place g) (hafter : h.Retains place h') : Opened place g' h' path := by
  obtain ⟨top, htop, hnone, hknown, hwithin⟩ := hopened
  refine ⟨top, htop, ?_, hafter.known top htop hknown, hwithin⟩
  by_contra hsome
  exact hbefore.known top htop hsome hnone

/-- What is inside of a location that was opened, or of one opened meanwhile, is inside of one that
was opened. -/
theorem Opened.close (hpath : place path) (hunknown : g.find? path = none)
    (hclosed : k.find? path ≠ none)
    (hothers : ∀ other, other ≠ path → k.find? other = h.find? other) {inside : Path}
    (hinside : inside.Within path ∨ Opened place (g.start path) h inside) :
    Opened place g k inside := by
  rcases hinside with hwithin | ⟨top, htop, hnone, hknown, hwithin⟩
  · exact ⟨path, hpath, hunknown, hclosed, hwithin⟩
  · have hne : top ≠ path := fun heq => by
      rw [heq, find?_start_self] at hnone
      cases hnone
    rw [find?_start_of_ne hne] at hnone
    rw [← hothers top hne] at hknown
    exact ⟨top, htop, hnone, hknown, hwithin⟩

end Registry

/-! ## Lists of errors -/

/-- Different errors, each from the area or from a location that was opened in between. -/
structure Told (place : Path → Prop) (g h : Registry) (area : Path → Prop)
    (errors : List LocatedError) : Prop where
  nodup : errors.Nodup
  located : ∀ error ∈ errors, area error.path ∨ Registry.Opened place g h error.path

namespace Told

variable {place area area' : Path → Prop} {g h k : Registry} {home : Path}
  {errors errors' : List LocatedError}

theorem nil : Told place g h area [] := ⟨List.nodup_nil, List.forall_mem_nil _⟩

theorem own (hnodup : errors.Nodup) (harea : ∀ error ∈ errors, area error.path) :
    Told place g h area errors :=
  ⟨hnodup, fun error hmem => .inl (harea error hmem)⟩

theorem mono {g' h' : Registry} (htold : Told place g h area errors) (hbefore : g'.Retains place g)
    (hafter : h.Retains place h') (harea : ∀ path, area path → area' path) :
    Told place g' h' area' errors := by
  refine ⟨htold.nodup, fun error hmem => ?_⟩
  rcases htold.located error hmem with harea' | hopened
  · exact .inl (harea _ harea')
  · exact .inr (hopened.mono hbefore hafter)

theorem subperm (htold : Told place g h area errors) (hsub : errors'.Subperm errors) :
    Told place g h area errors' := by
  refine ⟨?_, fun error hmem => htold.located error (hsub.subset hmem)⟩
  obtain ⟨between, hperm, hsublist⟩ := hsub
  exact hperm.nodup_iff.1 (htold.nodup.sublist hsublist)

/-- What is told first and what is told then are different errors: the areas are apart, no location
is opened twice, and the home of both areas was opened before. -/
theorem append (separate : Path.Separate place) (hhome : place home)
    (hknown : g.find? home ≠ none) (hgh : g.Retains place h) (hhk : h.Retains place k)
    (hinside : ∀ path, area path → path.Within home)
    (hinside' : ∀ path, area' path → path.Within home) (hapart : ∀ path, area path → ¬area' path)
    (htold : Told place g h area errors) (htold' : Told place h k area' errors') :
    Told place g k (fun path => area path ∨ area' path) (errors ++ errors') := by
  refine ⟨htold.nodup.append htold'.nodup ?_, fun error hmem => ?_⟩
  · refine List.disjoint_left.2 fun error hmem hmem' => ?_
    rcases htold.located error hmem with harea | ⟨top, htop, hnone, hopened, hwithin⟩
    · rcases htold'.located error hmem' with harea' | ⟨top, htop, hnone, -, hwithin⟩
      · exact hapart _ harea harea'
      · obtain rfl := separate.eq htop hhome hwithin (hinside _ harea)
        exact hgh.known top htop hknown hnone
    · rcases htold'.located error hmem' with harea' | ⟨top', htop', hnone', -, hwithin'⟩
      · obtain rfl := separate.eq htop hhome hwithin (hinside' _ harea')
        exact hknown hnone
      · obtain rfl := separate.eq htop htop' hwithin hwithin'
        exact hopened hnone'
  · rcases List.mem_append.1 hmem with hmem | hmem
    · exact (htold.located error hmem).imp .inl fun hopened => hopened.mono (.refl g) hhk
    · exact (htold'.located error hmem).imp .inr fun hopened => hopened.mono hgh (.refl k)

end Told

end SchemaGraph

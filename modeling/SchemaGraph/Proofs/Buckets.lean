import SchemaGraph.Proofs.Json
import SchemaGraph.Value.Buckets

set_option autoImplicit false

/-! # Lists of entries and buckets

Which entries and which keys there are after insertion, sorting and the updates of buckets. No
key is ever lost, and no entry comes from nowhere. Once settled, buckets have no key in common
(`Buckets.settle_isApart`).
-/

namespace SchemaGraph

/-! ## Lists of entries -/

namespace Entries

variable {α : Type} {key : String} {value : α}

theorem contains_iff {entries : List (String × α)} :
    contains key entries = true ↔ key ∈ entries.map Prod.fst := by
  induction entries with
  | nil => exact ⟨fun h => (Bool.false_ne_true h).elim, fun h => nomatch h⟩
  | cons entry rest ih =>
      obtain ⟨k, v⟩ := entry
      have hfind : find? key ((k, v) :: rest) = if k == key then some v else find? key rest := rfl
      rw [List.map_cons, List.mem_cons, ← ih]
      unfold contains
      rw [hfind]
      by_cases hk : k = key
      · subst hk
        rw [if_pos (beq_self_eq_true k)]
        exact ⟨fun _ => .inl rfl, fun _ => rfl⟩
      · have hne : ¬(k == key) = true := by simpa using hk
        rw [if_neg hne]
        exact ⟨.inr, fun h => h.resolve_left fun heq => hk heq.symm⟩

theorem mem_insertSorted {entry : String × α} :
    ∀ {entries : List (String × α)}, entry ∈ insertSorted key value entries →
      entry = (key, value) ∨ entry ∈ entries
  | [], h => .inl (List.mem_singleton.1 h)
  | (k, v) :: rest, h => by
      unfold insertSorted at h
      split at h
      · rcases List.mem_cons.1 h with h | h
        · exact .inl h
        · exact .inr (List.mem_cons_of_mem _ h)
      · split at h
        · exact List.mem_cons.1 h
        · rcases List.mem_cons.1 h with h | h
          · exact .inr (h ▸ List.mem_cons_self)
          · exact (mem_insertSorted h).imp_right (List.mem_cons_of_mem _)

theorem keys_insertSorted {other : String} :
    ∀ {entries : List (String × α)}, other = key ∨ other ∈ entries.map Prod.fst →
      other ∈ (insertSorted key value entries).map Prod.fst
  | [], h => by
      rcases h with rfl | h
      · exact List.mem_cons_self
      · cases h
  | (k, v) :: rest, h => by
      unfold insertSorted
      split
      · rename_i hk
        have hk : k = key := eq_of_beq hk
        subst hk
        rcases h with rfl | h
        · exact List.mem_cons_self
        · exact h
      · split
        · rcases h with rfl | h
          · exact List.mem_cons_self
          · exact List.mem_cons_of_mem _ h
        · rcases h with h | h
          · exact List.mem_cons_of_mem _ (keys_insertSorted (.inl h))
          · rcases List.mem_cons.1 h with rfl | h
            · exact List.mem_cons_self
            · exact List.mem_cons_of_mem _ (keys_insertSorted (.inr h))

theorem pairwise_insertSorted :
    ∀ {entries : List (String × α)}, (entries.map Prod.fst).Pairwise (· < ·) →
      ((insertSorted key value entries).map Prod.fst).Pairwise (· < ·)
  | [], _ => List.pairwise_singleton _ _
  | (k, v) :: rest, h => by
      obtain ⟨hfirst, hrest⟩ := List.pairwise_cons.1 h
      unfold insertSorted
      split
      · rename_i hk
        have hk : k = key := eq_of_beq hk
        subst hk
        exact List.pairwise_cons.2 ⟨hfirst, hrest⟩
      · rename_i hk
        split
        · rename_i hlt
          refine List.pairwise_cons.2 ⟨fun other hother => ?_, h⟩
          rcases List.mem_cons.1 hother with rfl | hother
          · exact hlt
          · exact String.lt_trans hlt (hfirst other hother)
        · rename_i hge
          have hlt : k < key := by
            refine String.not_le.1 fun hle => hk ?_
            rw [String.le_antisymm (String.not_lt.1 hge) hle]
            exact beq_self_eq_true _
          refine List.pairwise_cons.2 ⟨fun other hother => ?_, pairwise_insertSorted hrest⟩
          obtain ⟨entry, hentry, rfl⟩ := List.mem_map.1 hother
          rcases mem_insertSorted hentry with rfl | hentry
          · exact hlt
          · exact hfirst _ (List.mem_map_of_mem hentry)

theorem foldl_insertSorted {payload : List (String × α)} (entries : List (String × α)) :
    ∀ {done : List (String × α)}, (∀ entry ∈ entries, entry ∈ payload) →
      (done.map Prod.fst).Pairwise (· < ·) → (∀ entry ∈ done, entry ∈ payload) →
      let result := entries.foldl (fun done (k, v) => insertSorted k v done) done
      (result.map Prod.fst).Pairwise (· < ·) ∧ (∀ entry ∈ result, entry ∈ payload) ∧
        ∀ key, key ∈ entries.map Prod.fst ∨ key ∈ done.map Prod.fst →
          key ∈ result.map Prod.fst := by
  induction entries with
  | nil => exact fun _ hsorted hdone => ⟨hsorted, hdone, fun key h => h.resolve_left (by simp)⟩
  | cons entry rest ih =>
      intro done hmem hsorted hdone
      obtain ⟨k, v⟩ := entry
      have hnext : ∀ entry ∈ insertSorted k v done, entry ∈ payload := by
        intro entry hentry
        rcases mem_insertSorted hentry with rfl | hentry
        · exact hmem _ List.mem_cons_self
        · exact hdone entry hentry
      obtain ⟨hresult, hsub, hall⟩ :=
        ih (fun entry h => hmem entry (List.mem_cons_of_mem _ h))
          (pairwise_insertSorted hsorted) hnext
      refine ⟨hresult, hsub, fun key h => hall key ?_⟩
      rcases h with h | h
      · rcases List.mem_cons.1 h with rfl | h
        · exact .inr (keys_insertSorted (.inl rfl))
        · exact .inl h
      · exact .inr (keys_insertSorted (.inr h))

theorem nodup_of_pairwise {entries : List (String × α)}
    (h : (entries.map Prod.fst).Pairwise (· < ·)) : entries.Nodup :=
  (h.imp String.ne_of_lt).of_map _ fun _ _ hab heq => hab (congrArg Prod.fst heq)

/-- Sorting entries that are, in any order and any number of times, those of a sorted list gives
that list. -/
theorem sorted_eq {entries payload : List (String × α)}
    (hpayload : (payload.map Prod.fst).Pairwise (· < ·)) (hmem : ∀ entry ∈ entries, entry ∈ payload)
    (hkeys : ∀ key ∈ payload.map Prod.fst, key ∈ entries.map Prod.fst) :
    sorted entries = payload := by
  obtain ⟨hsorted, hsub, hall⟩ :=
    @foldl_insertSorted α payload entries [] hmem List.Pairwise.nil fun _ h => by cases h
  change ((sorted entries).map Prod.fst).Pairwise (· < ·) at hsorted
  change ∀ entry ∈ sorted entries, entry ∈ payload at hsub
  have hsup : ∀ entry ∈ payload, entry ∈ sorted entries := by
    intro entry hentry
    have hkey : entry.1 ∈ (sorted entries).map Prod.fst :=
      hall _ (.inl (hkeys _ (List.mem_map_of_mem hentry)))
    obtain ⟨found, hfound, heq⟩ := List.mem_map.1 hkey
    -- the keys of the payload are distinct, so both entries are the one under that key
    have hother : (entry.1, found.2) ∈ payload := heq ▸ hsub found hfound
    have hvalue := (find?_of_mem hpayload hother).symm.trans
      (find?_of_mem hpayload (hentry : (entry.1, entry.2) ∈ payload))
    have hsame : found = entry := Prod.ext heq (Option.some.inj hvalue)
    exact hsame ▸ hfound
  refine List.Perm.eq_of_pairwise ?_ (List.pairwise_map.1 hsorted) (List.pairwise_map.1 hpayload)
    ((List.perm_ext_iff_of_nodup (nodup_of_pairwise hsorted) (nodup_of_pairwise hpayload)).2
      fun entry => ⟨hsub entry, hsup entry⟩)
  exact fun a b _ _ hab hba => absurd hba (String.lt_asymm hab)

end Entries

/-! ## Buckets -/

namespace Buckets

variable {α : Type} {key : String} {entry : String × α}

theorem mem_insertLast {value : α} :
    ∀ {entries : List (String × α)}, entry ∈ Entries.insertLast key value entries →
      entry = (key, value) ∨ entry ∈ entries
  | [], h => .inl (List.mem_singleton.1 h)
  | (k, v) :: rest, h => by
      unfold Entries.insertLast at h
      split at h
      · rename_i hk
        rw [eq_of_beq hk] at h ⊢
        rcases List.mem_cons.1 h with h | h
        · exact .inl h
        · exact .inr (List.mem_cons_of_mem _ h)
      · rcases List.mem_cons.1 h with h | h
        · exact .inr (h ▸ List.mem_cons_self)
        · exact (mem_insertLast h).imp_right (List.mem_cons_of_mem _)

theorem keys_insertLast {other : String} {value : α} :
    ∀ {entries : List (String × α)}, other = key ∨ other ∈ entries.map Prod.fst →
      other ∈ (Entries.insertLast key value entries).map Prod.fst
  | [], h => by
      rcases h with rfl | h
      · exact List.mem_cons_self
      · cases h
  | (k, v) :: rest, h => by
      unfold Entries.insertLast
      split
      · rename_i hk
        have hk : k = key := eq_of_beq hk
        subst hk
        rcases h with rfl | h
        · exact List.mem_cons_self
        · exact h
      · rcases h with h | h
        · exact List.mem_cons_of_mem _ (keys_insertLast (.inl h))
        · rcases List.mem_cons.1 h with rfl | h
          · exact List.mem_cons_self
          · exact List.mem_cons_of_mem _ (keys_insertLast (.inr h))

theorem mem_extend {old new : List (String × α)} (h : entry ∈ extend old new) :
    entry ∈ old ∨ entry ∈ new := by
  unfold extend at h
  induction new generalizing old with
  | nil => exact .inl h
  | cons first rest ih =>
      rcases ih h with h | h
      · rcases mem_insertLast h with rfl | h
        · exact .inr List.mem_cons_self
        · exact .inl h
      · exact .inr (List.mem_cons_of_mem _ h)

theorem keys_extend {old new : List (String × α)}
    (h : key ∈ old.map Prod.fst ∨ key ∈ new.map Prod.fst) :
    key ∈ (extend old new).map Prod.fst := by
  unfold extend
  induction new generalizing old with
  | nil => exact h.resolve_right (by simp)
  | cons first rest ih =>
      refine ih ?_
      rcases h with h | h
      · exact .inl (keys_insertLast (.inr h))
      · rcases List.mem_cons.1 h with rfl | h
        · exact .inl (keys_insertLast (.inl rfl))
        · exact .inr h

theorem mem_outside {other entries : List (String × α)} (h : entry ∈ outside other entries) :
    entry ∈ entries := (List.mem_filter.1 h).1

/-- A key stands in the other list or outside it. -/
theorem keys_outside {other entries : List (String × α)} (h : key ∈ entries.map Prod.fst) :
    key ∈ other.map Prod.fst ∨ key ∈ (outside other entries).map Prod.fst := by
  by_cases hkey : key ∈ other.map Prod.fst
  · exact .inl hkey
  · obtain ⟨⟨k, v⟩, hentry, rfl⟩ := List.mem_map.1 h
    have hnot : Entries.contains k other = false :=
      Bool.eq_false_iff.2 fun hcontains => hkey (Entries.contains_iff.1 hcontains)
    refine .inr (List.mem_map_of_mem (List.mem_filter.2 ⟨hentry, ?_⟩))
    show (!Entries.contains k other) = true
    rw [hnot]
    rfl

/-- What stands outside of the other list has none of its keys. -/
theorem not_mem_of_outside {other entries : List (String × α)}
    (h : key ∈ (outside other entries).map Prod.fst) : key ∉ other.map Prod.fst := by
  obtain ⟨⟨k, v⟩, hentry, rfl⟩ := List.mem_map.1 h
  intro hother
  have hnot : (!Entries.contains k other) = true := (List.mem_filter.1 hentry).2
  rw [Entries.contains_iff.2 hother] at hnot
  cases hnot

theorem keys_of_outside {other entries : List (String × α)}
    (h : key ∈ (outside other entries).map Prod.fst) : key ∈ entries.map Prod.fst := by
  obtain ⟨entry, hentry, rfl⟩ := List.mem_map.1 h
  exact List.mem_map_of_mem (mem_outside hentry)

theorem mem_entries {b : Buckets α} :
    entry ∈ b.entries ↔ entry ∈ b.declared ∨ entry ∈ b.pattern ∨ entry ∈ b.additional := by
  unfold entries
  rw [List.mem_append, List.mem_append, or_assoc]

theorem keys_entries {b : Buckets α} :
    key ∈ b.entries.map Prod.fst ↔ key ∈ b.declared.map Prod.fst ∨ key ∈ b.pattern.map Prod.fst ∨
      key ∈ b.additional.map Prod.fst := by
  unfold entries
  rw [List.map_append, List.map_append, List.mem_append, List.mem_append, or_assoc]

theorem mem_settle {b : Buckets α} (h : entry ∈ b.settle.entries) : entry ∈ b.entries := by
  rcases mem_entries.1 h with h | h | h
  · exact mem_entries.2 (.inl h)
  · exact mem_entries.2 (.inr (.inl (mem_outside h)))
  · exact mem_entries.2 (.inr (.inr (mem_outside (mem_outside h))))

theorem keys_settle {b : Buckets α} (h : key ∈ b.entries.map Prod.fst) :
    key ∈ b.settle.entries.map Prod.fst := by
  refine keys_entries.2 ?_
  rcases keys_entries.1 h with h | h | h
  · exact .inl h
  · exact (keys_outside h).imp_right .inl
  · rcases keys_outside h with h | h
    · exact .inl h
    · exact .inr (keys_outside h)

theorem mem_update {b other : Buckets α} (h : entry ∈ (b.update other).entries) :
    entry ∈ b.entries ∨ entry ∈ other.entries := by
  rcases mem_entries.1 (mem_settle h) with h | h | h
  · exact (mem_extend h).imp (fun h => mem_entries.2 (.inl h)) fun h => mem_entries.2 (.inl h)
  · exact (mem_extend h).imp (fun h => mem_entries.2 (.inr (.inl h)))
      fun h => mem_entries.2 (.inr (.inl h))
  · exact (mem_extend h).imp (fun h => mem_entries.2 (.inr (.inr h)))
      fun h => mem_entries.2 (.inr (.inr h))

theorem keys_update {b other : Buckets α}
    (h : key ∈ b.entries.map Prod.fst ∨ key ∈ other.entries.map Prod.fst) :
    key ∈ (b.update other).entries.map Prod.fst := by
  refine keys_settle (keys_entries.2 ?_)
  rcases h with h | h
  · rcases keys_entries.1 h with h | h | h
    · exact .inl (keys_extend (.inl h))
    · exact .inr (.inl (keys_extend (.inl h)))
    · exact .inr (.inr (keys_extend (.inl h)))
  · rcases keys_entries.1 h with h | h | h
    · exact .inl (keys_extend (.inr h))
    · exact .inr (.inl (keys_extend (.inr h)))
    · exact .inr (.inr (keys_extend (.inr h)))

/-! ## Buckets apart -/

/-- One of the three buckets. -/
inductive Place where
  | declared
  | pattern
  | additional
  deriving DecidableEq, Repr

/-- The keys of one bucket, in its order. -/
def keys (b : Buckets α) : Place → List String
  | .declared => b.declared.map Prod.fst
  | .pattern => b.pattern.map Prod.fst
  | .additional => b.additional.map Prod.fst

/-- No key stands in two buckets. -/
def IsApart (b : Buckets α) : Prop :=
  ∀ key place place', key ∈ b.keys place → key ∈ b.keys place' → place = place'

/-- It is enough that a key of one bucket is in no later one. -/
theorem isApart_of {b : Buckets α} (hpattern : ∀ key ∈ b.keys .pattern, key ∉ b.keys .declared)
    (hadditional : ∀ key ∈ b.keys .additional, key ∉ b.keys .declared ∧ key ∉ b.keys .pattern) :
    b.IsApart := by
  intro key place place' h h'
  cases place with
  | declared =>
      cases place' with
      | declared => rfl
      | pattern => exact absurd h (hpattern key h')
      | additional => exact absurd h (hadditional key h').1
  | pattern =>
      cases place' with
      | declared => exact absurd h' (hpattern key h)
      | pattern => rfl
      | additional => exact absurd h (hadditional key h').2
  | additional =>
      cases place' with
      | declared => exact absurd h' (hadditional key h).1
      | pattern => exact absurd h' (hadditional key h).2
      | additional => rfl

theorem settle_isApart (b : Buckets α) : b.settle.IsApart := by
  let pattern := outside b.declared b.pattern
  refine isApart_of (fun key h => ?_) fun key h => ?_
  · have hkey : key ∈ pattern.map Prod.fst := h
    exact not_mem_of_outside hkey
  · have hkey : key ∈ (outside pattern (outside b.declared b.additional)).map Prod.fst := h
    exact ⟨not_mem_of_outside (keys_of_outside hkey), not_mem_of_outside hkey⟩

/-- If no bucket has a key twice, there is no key twice. -/
theorem IsApart.nodup_entries {b : Buckets α} (hapart : b.IsApart)
    (h : ∀ place, (b.keys place).Nodup) : (b.entries.map Prod.fst).Nodup := by
  have hne : ∀ place place' : Place, place ≠ place' → ∀ key ∈ b.keys place,
      ∀ other ∈ b.keys place', key ≠ other := by
    rintro place place' hne key hkey _ hkey' rfl
    exact hne (hapart key place place' hkey hkey')
  unfold entries
  rw [List.map_append, List.map_append]
  refine List.nodup_append.2 ⟨List.nodup_append.2 ⟨h .declared, h .pattern, ?_⟩, h .additional, ?_⟩
  · exact hne .declared .pattern (fun h => nomatch h)
  · intro key hkey
    rcases List.mem_append.1 hkey with hkey | hkey
    · exact hne .declared .additional (fun h => nomatch h) key hkey
    · exact hne .pattern .additional (fun h => nomatch h) key hkey

end Buckets

end SchemaGraph

import Mathlib.Data.Finset.Card
import MountIndex.Proofs.Miss
import MountIndex.Proofs.Reconcile

/-!
# Merging a mount table

A mount table is read without holding the cache, so by the time it is merged other callers
may have inserted records, filed delete requests or drained the queue. The merge passes over
every entry whose mount ID has a record and inserts the others. Main statement:
`merge_fills_only_free_ids`. Whatever state it meets and whatever the table lists (repeated
IDs included), a merge keeps every record it finds, with the same identity, files under each
free ID the record of the table's first entry with that ID, leaves the redemption cache and
the delete queue alone, and answers the number of IDs it filled (`MergeSpec`). Loading the
same table twice adds nothing the second time.
-/

namespace MountIndex

namespace Resolver

/-! ## One entry at a time -/

section Steps

variable {r : Resolver}

theorem get?_eq_none_of_not_contains {s : Store Record} {k : Nat} (h : ¬ s.contains k = true) :
    s.get? k = none := by
  simpa [Store.contains] using h

theorem redemption_place_of_free {m : Mount} (hfree : r.mounts.get? m.id = none) :
    (r.place m).redemption = r.redemption := by
  rw [place_of_free hfree]

theorem merge_cons (r : Resolver) (e : Table.Entry) (T : List Table.Entry) :
    r.merge (e :: T) =
      if r.mounts.contains e.mountId then r.merge T
      else (((r.place e.toMount).merge T).1, ((r.place e.toMount).merge T).2 + 1) := by
  unfold merge
  rw [List.foldl_cons]
  dsimp only
  by_cases hc : r.mounts.contains e.mountId = true
  · rw [if_pos hc, if_pos hc]
  · rw [if_neg hc, if_neg hc]
    -- the fold carries its count along without reading it
    refine @List.foldl_hom _ _ _ (Prod.map id (· + 1)) _ _ T (r.place e.toMount, 0) fun x e => ?_
    by_cases h : x.1.mounts.contains e.mountId = true <;> simp [Prod.map, h]

end Steps

/-! ## What a merge keeps and what it adds -/

section Merge

theorem redemption_merge (T : List Table.Entry) (r : Resolver) :
    (r.merge T).1.redemption = r.redemption := by
  induction T generalizing r with
  | nil => rfl
  | cons e T ih =>
    rw [merge_cons]
    split
    · exact ih r
    · rename_i hc
      rw [ih, redemption_place_of_free (get?_eq_none_of_not_contains hc)]

theorem queue_merge (T : List Table.Entry) (r : Resolver) : (r.merge T).1.queue = r.queue := by
  induction T generalizing r with
  | nil => rfl
  | cons e T ih =>
    rw [merge_cons]
    split
    · exact ih r
    · rw [ih, place_queue]

-- Placing the record of an entry under its free ID files it as it was read, with the next stamp.
theorem get?_place_entry (r : Resolver) (e : Table.Entry) :
    (r.place e.toMount).mounts.get? e.mountId = some ⟨e.toMount, r.nextStamp⟩ := by
  rw [← Table.Entry.normalize_toMount e]
  exact get?_place_self r e.toMount

-- A record the merge finds stays, the very same record.
theorem get?_merge_of_held (T : List Table.Entry) {r : Resolver} {k : Nat} {g : Record}
    (hg : r.mounts.get? k = some g) : (r.merge T).1.mounts.get? k = some g := by
  induction T generalizing r with
  | nil => exact hg
  | cons e T ih =>
    rw [merge_cons]
    split
    · exact ih hg
    · rename_i hc
      have hfree := get?_eq_none_of_not_contains hc
      have hne : k ≠ e.mountId := by
        rintro rfl
        rw [hfree] at hg
        cases hg
      apply ih
      rw [get?_place_of_free (m := e.toMount) hfree hne, hg]

-- Under an ID that had no record, the merge files the first entry of the table with that ID,
-- or nothing when the table does not list it.
theorem mount_get?_merge_of_free (T : List Table.Entry) {r : Resolver} {k : Nat}
    (hk : r.mounts.get? k = none) :
    ((r.merge T).1.mounts.get? k).map (·.mount) = (T.find? (·.mountId == k)).map (·.toMount) := by
  induction T generalizing r with
  | nil => simp [merge, hk]
  | cons e T ih =>
    rw [merge_cons, List.find?_cons]
    split
    · rename_i hc
      -- a listed ID that has a record is not the free one
      have hne : (e.mountId == k) = false := by
        simp only [beq_eq_false_iff_ne]
        rintro rfl
        simp [Store.contains, hk] at hc
      rw [hne, ih hk]
    · rename_i hc
      have hfree := get?_eq_none_of_not_contains hc
      by_cases he : e.mountId = k
      · subst he
        rw [get?_merge_of_held T (get?_place_entry r e), beq_self_eq_true]
        rfl
      · have hk' : (r.place e.toMount).mounts.get? k = none := by
          rw [get?_place_of_free (m := e.toMount) hfree (Ne.symm he), hk]
        rw [ih hk', (beq_eq_false_iff_ne).2 he]

-- A record the merge files is new: its stamp is one no record had before.
theorem stamp_get?_merge_of_free (T : List Table.Entry) {r : Resolver} {k : Nat} {g : Record}
    (hk : r.mounts.get? k = none) (hg : (r.merge T).1.mounts.get? k = some g) :
    r.nextStamp ≤ g.stamp := by
  induction T generalizing r with
  | nil => simp [merge, hk] at hg
  | cons e T ih =>
    rw [merge_cons] at hg
    split at hg
    · exact ih hk hg
    · rename_i hc
      have hfree := get?_eq_none_of_not_contains hc
      by_cases he : k = e.mountId
      · subst he
        rw [get?_merge_of_held T (get?_place_entry r e)] at hg
        cases hg
        exact Nat.le_refl _
      · have hk' : (r.place e.toMount).mounts.get? k = none := by
          rw [get?_place_of_free (m := e.toMount) hfree he, hk]
        have h := ih hk' hg
        rw [place_nextStamp] at h
        exact Nat.le_of_succ_le h

-- The count a merge answers is the number of distinct IDs of the table that had no record.
theorem count_merge (T : List Table.Entry) (r : Resolver) :
    (r.merge T).2 = ((T.map (·.mountId)).toFinset.filter fun k => r.mounts.get? k = none).card := by
  induction T generalizing r with
  | nil => rfl
  | cons e T ih =>
    rw [merge_cons, List.map_cons, List.toFinset_cons, Finset.filter_insert]
    split
    · rename_i hc
      have hheld : r.mounts.get? e.mountId ≠ none := Option.isSome_iff_ne_none.1 hc
      rw [if_neg hheld, ih]
    · rename_i hc
      have hfree := get?_eq_none_of_not_contains hc
      set X := (T.map (·.mountId)).toFinset.filter fun k => r.mounts.get? k = none
      -- once the entry is placed, the free IDs are the old ones less its own
      have hfilter : ((T.map (·.mountId)).toFinset.filter
          fun k => (r.place e.toMount).mounts.get? k = none) = X.erase e.mountId := by
        ext k
        by_cases hk : k = e.mountId
        · subst hk
          simp [get?_place_entry]
        · simp [X, get?_place_of_free (m := e.toMount) hfree hk, hk]
      rw [if_pos hfree, ih, hfilter]
      by_cases ha : e.mountId ∈ X
      · rw [Finset.insert_eq_of_mem ha, Finset.card_erase_add_one ha]
      · rw [Finset.card_insert_of_notMem ha, Finset.erase_eq_of_notMem ha]

-- After a merge every ID the table lists has a record.
theorem get?_merge_ne_none (T : List Table.Entry) (r : Resolver) {e : Table.Entry} (he : e ∈ T) :
    (r.merge T).1.mounts.get? e.mountId ≠ none := by
  cases hk : r.mounts.get? e.mountId with
  | some g => simp [get?_merge_of_held T hk]
  | none =>
    have hfound : (T.find? (·.mountId == e.mountId)).isSome := by
      rw [List.find?_isSome]
      exact ⟨e, he, beq_self_eq_true _⟩
    intro hnone
    have h := mount_get?_merge_of_free T hk
    rw [hnone, Option.map_none] at h
    cases hf : T.find? (·.mountId == e.mountId) with
    | none => simp [hf] at hfound
    | some x => simp [hf] at h

-- A table whose every ID has a record merges nothing.
theorem merge_of_held (T : List Table.Entry) (r : Resolver)
    (h : ∀ e ∈ T, r.mounts.get? e.mountId ≠ none) : r.merge T = (r, 0) := by
  induction T with
  | nil => rfl
  | cons e T ih =>
    have hc : r.mounts.contains e.mountId = true :=
      Option.isSome_iff_ne_none.2 (h e List.mem_cons_self)
    rw [merge_cons, if_pos hc]
    exact ih fun x hx => h x (List.mem_cons_of_mem e hx)

theorem proc_merge (T : List Table.Entry) (r : Resolver) : (r.merge T).1.proc = r.proc := by
  induction T generalizing r with
  | nil => rfl
  | cons e T ih =>
    rw [merge_cons]
    split
    · exact ih r
    · rw [ih, place_proc]

end Merge

/-! ## Loading a table twice -/

section Sync

theorem refreshFloor_mounts (r : Resolver) : r.refreshFloor.mounts = r.mounts := by
  unfold refreshFloor
  split
  · split <;> rfl
  · rfl

theorem refreshFloor_proc (r : Resolver) : r.refreshFloor.proc = r.proc := by
  unfold refreshFloor
  split
  · split <;> rfl
  · rfl

theorem syncCache_fst (r : Resolver) (pid : Nat) :
    (r.syncCache pid).1 = if pid = 1 then (r.syncPids [pid]).1.refreshFloor else (r.syncPids [pid]).1 :=
  rfl

theorem syncCache_mounts (r : Resolver) (pid : Nat) :
    (r.syncCache pid).1.mounts = (r.syncPids [pid]).1.mounts := by
  rw [syncCache_fst]
  split
  · exact refreshFloor_mounts _
  · rfl

theorem syncCache_proc (r : Resolver) (pid : Nat) :
    (r.syncCache pid).1.proc = (r.syncPids [pid]).1.proc := by
  rw [syncCache_fst]
  split
  · exact refreshFloor_proc _
  · rfl

-- Loading the table of one process, whatever it holds, leaves the table's every ID with a
-- record and the table as it reads.
theorem syncCache_loads (r : Resolver) (pid : Nat) :
    ((r.syncCache pid).1.proc.readTable pid).2 = (r.proc.readTable pid).2 ∧
      ∀ T, (r.proc.readTable pid).2 = .ok T →
        ∀ e ∈ T, (r.syncCache pid).1.mounts.get? e.mountId ≠ none := by
  rw [syncCache_proc, syncCache_mounts]
  unfold syncPids
  cases hread : (r.proc.readTable pid).2 with
  | error err =>
    rw [syncPids_go_skip [] none hread]
    refine ⟨by rw [syncPids.go, Proc.readTable_afterReads, hread], fun T h => ?_⟩
    cases h
  | ok T =>
    rw [syncPids_go_read [] none hread]
    refine ⟨?_, fun T' hT' e he => ?_⟩
    · rw [proc_merge]
      exact (Proc.readTable_afterReads _ _ _).trans hread
    · cases hT'
      exact get?_merge_ne_none T _ he

-- Loading the same table a second time adds nothing.
theorem syncCache_twice_mounts (r : Resolver) (pid : Nat) :
    ((r.syncCache pid).1.syncCache pid).1.mounts = (r.syncCache pid).1.mounts := by
  obtain ⟨hsame, hheld⟩ := syncCache_loads r pid
  set s := (r.syncCache pid).1
  rw [syncCache_mounts]
  unfold syncPids
  cases hread : (s.proc.readTable pid).2 with
  | error err =>
    rw [syncPids_go_skip [] none hread]
    rfl
  | ok T =>
    rw [syncPids_go_read [] none hread, merge_of_held]
    intro e he
    exact hheld T (hsame ▸ hread) e he

end Sync

/-! ## The merge as a whole -/

/-- What merging the entries `T` of a mount table into `r` leaves, `out` with the count it
answers. -/
structure MergeSpec (r : Resolver) (T : List Table.Entry) (out : Resolver × Nat) : Prop where
  /-- every record found is kept, the very same record: nothing is replaced or retired -/
  held : ∀ k g, r.mounts.get? k = some g → out.1.mounts.get? k = some g
  /-- a free ID holds the record of the table's first entry with that ID, or stays free -/
  free : ∀ k, r.mounts.get? k = none →
    (out.1.mounts.get? k).map (·.mount) = (T.find? (·.mountId == k)).map (·.toMount)
  /-- the records filed are new ones -/
  fresh : ∀ k g, r.mounts.get? k = none → out.1.mounts.get? k = some g → r.nextStamp ≤ g.stamp
  redemption : out.1.redemption = r.redemption
  queue : out.1.queue = r.queue
  /-- the count is the number of distinct IDs of the table that were free -/
  count : out.2 = ((T.map (·.mountId)).toFinset.filter fun k => r.mounts.get? k = none).card

theorem merge_spec (r : Resolver) (T : List Table.Entry) : MergeSpec r T (r.merge T) where
  held _ _ hg := get?_merge_of_held T hg
  free _ hk := mount_get?_merge_of_free T hk
  fresh _ _ hk hg := stamp_get?_merge_of_free T hk hg
  redemption := redemption_merge T r
  queue := queue_merge T r
  count := count_merge T r

/-- A merge of any table into any state, among them the state that callers left while the table
was being read, keeps every record it finds and fills free IDs only; loading the table of one
process twice adds nothing the second time. -/
theorem merge_fills_only_free_ids :
    (∀ (r : Resolver) (T : List Table.Entry), MergeSpec r T (r.merge T)) ∧
      ∀ (r : Resolver) (pid : Nat),
        ((r.syncCache pid).1.syncCache pid).1.mounts = (r.syncCache pid).1.mounts :=
  ⟨merge_spec, syncCache_twice_mounts⟩

end Resolver

end MountIndex

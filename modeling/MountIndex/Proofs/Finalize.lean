import MountIndex.Proofs.Reachable

/-!
# Finalizing a record, over any store

`retire` finalizes the record a handle names. This file says what it does to a whole cache
state, for any store that files each record under its own mount ID and any redemption cache
that files each key once, whatever the parent links look like (cycles, records that are their
own parent, parents that are not held) and however devices are shared:

* a handle that no longer names the record held under its ID changes nothing;
* otherwise the store loses exactly the teardown of the named record, the least set of
  records that holds it and is closed under dependence (`Teardown`), and keeps every other
  record as it was;
* the redemption cache loses exactly the entries filed for the records that leave, and keeps
  every other entry, in its order;
* nothing else changes: not the delete queue, the stamps, the counters or the capacity of the
  redemption cache.

Earlier files prove the redemption part for sound states only, where every entry names a held
record; here the cache may hold any entries, and an entry goes only if it names the very
record that leaves under its key.
-/

namespace MountIndex

namespace Resolver

/-! ## The redemption clean-up, entry by entry -/

/-- Whether a redemption entry is filed, under one of the IDs `gone`, for the record the store
holds under that ID. -/
def filedFor (s : Store Record) (gone : List Nat) (e : Nat × Handle) : Bool :=
  decide (e.1 ∈ gone) && (s.get? e.1).map Record.handle == some e.2

section Drop

variable {s : Store Record} {c : Lru Nat Handle}

-- With each key filed once, one clean-up step drops the entry of its ID only when that entry
-- names the record held there, and then no other entry.
theorem entries_dropRedeemed_of_distinct (hd : c.Distinct) (i : Nat) :
    (dropRedeemed s c i).entries = c.entries.filter fun e => !filedFor s [i] e := by
  unfold dropRedeemed
  cases hg : s.get? i with
  | none =>
    -- no record under the ID: nothing is filed for it
    symm
    rw [List.filter_eq_self]
    intro e he
    by_cases hei : e.1 = i
    · simp [filedFor, hei, hg]
    · simp [filedFor, hei]
  | some g =>
    dsimp only
    by_cases hp : c.peek? i = some g.handle
    · rw [if_pos (by simp [hp])]
      simp only [Lru.erase]
      apply List.filter_congr
      intro e he
      by_cases hei : e.1 = i
      · -- the only entry under the ID is the one the peek reads
        have hv : e.2 = g.handle := by
          have hmem : (i, e.2) ∈ c.entries := hei ▸ he
          have := (Lru.peek?_eq_some_iff hd).2 hmem
          rw [hp] at this
          exact (Option.some.inj this).symm
        simp [filedFor, hei, hg, hv]
      · simp [filedFor, hei]
    · rw [if_neg (by simpa using hp)]
      symm
      rw [List.filter_eq_self]
      rintro ⟨k, v⟩ he
      by_cases hki : k = i
      · -- an entry under the ID names another record, or the peek would read it
        subst hki
        have hv : v ≠ g.handle := by
          rintro rfl
          exact hp ((Lru.peek?_eq_some_iff hd).2 he)
        simp [filedFor, hg, Ne.symm hv]
      · simp [filedFor, hki]

theorem distinct_dropRedeemed (hd : c.Distinct) (i : Nat) : (dropRedeemed s c i).Distinct := by
  unfold Lru.Distinct
  rw [entries_dropRedeemed_of_distinct hd]
  exact hd.sublist (List.filter_sublist.map _)

-- The whole clean-up drops exactly the entries filed for the records held under the IDs that go.
theorem entries_foldl_dropRedeemed_of_distinct (gone : List Nat) (hd : c.Distinct) :
    (gone.foldl (dropRedeemed s) c).entries = c.entries.filter fun e => !filedFor s gone e := by
  induction gone generalizing c with
  | nil => simp [filedFor]
  | cons i rest ih =>
    rw [List.foldl_cons, ih (distinct_dropRedeemed hd i), entries_dropRedeemed_of_distinct hd,
      List.filter_filter]
    apply List.filter_congr
    rintro ⟨k, v⟩ _
    by_cases h1 : k = i
    · subst h1
      by_cases h2 : k ∈ rest <;> simp [filedFor, h2]
    · simp [filedFor, h1]

end Drop

/-! ## Retiring a current record -/

section Retire

variable {r : Resolver} {h : Handle} {first : Record}

-- An ID is among those `dependents` finds exactly when the record held there is in the teardown.
theorem mem_dependents_iff_held (hk : r.mounts.Keyed) (hfirst : r.mounts.get? first.mount.id = some first)
    {k : Nat} {c : Record} (hc : r.mounts.get? k = some c) :
    k ∈ dependents r.mounts.values first ↔ Teardown r.mounts.values first c := by
  have hcv : c ∈ r.mounts.values := mem_values_of_get? hk hc
  have hid : c.mount.id = k := hk.id_of_get? hc
  rw [mem_dependents hk.nodup_ids (mem_values_of_get? hk hfirst)]
  constructor
  · rintro ⟨c', hc', hc'id⟩
    have hcc : c' = c :=
      List.inj_on_of_nodup_map hk.nodup_ids (hc'.mem (mem_values_of_get? hk hfirst)) hcv
        (hc'id.trans hid.symm)
    exact hcc ▸ hc'
  · intro ht
    exact ⟨c, ht, hid⟩

theorem get?_retire_eq_some_iff (hk : r.mounts.Keyed) (hget : r.mounts.get? h.id = some first)
    (hst : first.stamp = h.stamp) (k : Nat) (c : Record) :
    (r.retire h).mounts.get? k = some c ↔
      r.mounts.get? k = some c ∧ ¬ Teardown r.mounts.values first c := by
  have hfirst : r.mounts.get? first.mount.id = some first := by
    rw [hk.id_of_get? hget]
    exact hget
  rw [get?_retire hk hget hst]
  constructor
  · intro hkc
    split at hkc
    · cases hkc
    · rename_i hout
      exact ⟨hkc, fun ht => hout ((mem_dependents_iff_held hk hfirst hkc).2 ht)⟩
  · rintro ⟨hkc, hnot⟩
    rw [if_neg fun hin => hnot ((mem_dependents_iff_held hk hfirst hkc).1 hin)]
    exact hkc

-- An entry is filed for a record that leaves exactly when it is the key and handle of a record
-- in the teardown.
theorem filedFor_dependents_iff (hk : r.mounts.Keyed) (hfirst : r.mounts.get? first.mount.id = some first)
    (e : Nat × Handle) :
    filedFor r.mounts (dependents r.mounts.values first) e = true ↔
      ∃ c, Teardown r.mounts.values first c ∧ e = (c.mount.id, c.handle) := by
  simp only [filedFor, Bool.and_eq_true, decide_eq_true_eq, beq_iff_eq]
  constructor
  · rintro ⟨hin, hfiled⟩
    obtain ⟨c, hc, hch⟩ := Option.map_eq_some_iff.1 hfiled
    refine ⟨c, (mem_dependents_iff_held hk hfirst hc).1 hin, ?_⟩
    rw [hk.id_of_get? hc, hch]
  · rintro ⟨c, ht, rfl⟩
    have hc : r.mounts.get? c.mount.id = some c :=
      hk.mem_values_iff.1 (ht.mem (mem_values_of_get? hk hfirst))
    exact ⟨(mem_dependents_iff_held hk hfirst hc).2 ht, by simp [hc]⟩

theorem entries_retire_of_distinct (hk : r.mounts.Keyed) (hget : r.mounts.get? h.id = some first)
    (hst : first.stamp = h.stamp) (hd : r.redemption.Distinct) :
    (r.retire h).redemption.entries =
      r.redemption.entries.filter fun e => !filedFor r.mounts (dependents r.mounts.values first) e := by
  rw [retire_of_current hk hget hst]
  exact entries_foldl_dropRedeemed_of_distinct _ hd

-- Retiring changes the store and the entries of the redemption cache, and nothing else.
theorem retire_eq_entries (r : Resolver) (h : Handle) :
    r.retire h = { r with
      mounts := (r.retire h).mounts
      redemption := { r.redemption with entries := (r.retire h).redemption.entries } } := by
  -- an LRU map is its capacity and its entries
  have hlru : ∀ c c' : Lru Nat Handle, c'.capacity = c.capacity → c' = { c with entries := c'.entries } := by
    rintro ⟨_, _⟩ ⟨_, _⟩ hcap
    cases hcap
    rfl
  rw [← hlru r.redemption (r.retire h).redemption capacity_retire]
  exact retire_eta r h

end Retire

/-- Finalizing over any store that files each record under its own mount ID, with any parent
links and shared devices, and any redemption cache that files each key once. A handle that
no longer names the record held under its ID changes nothing. A handle that names the held
record `first` takes out of the store exactly the records of the least set that holds `first`
and is closed under the two rules of dependence (a held record whose parent is a member
joins; for an overlay member, every held record on its device joins), keeps every other
record as it was, drops from the redemption cache exactly the entries filed for the records
that leave, keeps the other entries in their order, and changes nothing else. -/
theorem retire_takes_teardown {r : Resolver} (hk : r.mounts.Keyed) (hd : r.redemption.Distinct)
    (h : Handle) :
    (r.isCurrent h = false → r.retire h = r) ∧
    ∀ first, r.mounts.get? h.id = some first → first.stamp = h.stamp →
      (∀ k c, (r.retire h).mounts.get? k = some c ↔
        r.mounts.get? k = some c ∧ ¬ Teardown r.mounts.values first c) ∧
      (∀ e, e ∈ (r.retire h).redemption.entries ↔
        e ∈ r.redemption.entries ∧ ¬ ∃ c, Teardown r.mounts.values first c ∧ e = (c.mount.id, c.handle)) ∧
      (r.retire h).redemption.entries.Sublist r.redemption.entries ∧
      r.retire h = { r with
        mounts := (r.retire h).mounts
        redemption := { r.redemption with entries := (r.retire h).redemption.entries } } := by
  refine ⟨retire_of_not_current, fun first hget hst => ?_⟩
  have hfirst : r.mounts.get? first.mount.id = some first := by
    rw [hk.id_of_get? hget]
    exact hget
  have hentries := entries_retire_of_distinct hk hget hst hd
  refine ⟨get?_retire_eq_some_iff hk hget hst, fun e => ?_, ?_, retire_eq_entries r h⟩
  · rw [hentries, List.mem_filter, ← filedFor_dependents_iff hk hfirst e]
    simp
  · rw [hentries]
    exact List.filter_sublist

/-- Two records that are each other's parent, an overlay and a record on its device, and a
redemption entry for the second record. -/
def cycleSample : Resolver :=
  { Resolver.initial with
    mounts := ⟨[(1, ⟨{ id := 1, parent := 2 }, 0⟩), (2, ⟨{ id := 2, parent := 1 }, 1⟩),
      (3, ⟨{ id := 3, device := 7, fsType := "overlay" }, 2⟩), (4, ⟨{ id := 4, device := 7 }, 3⟩)]⟩
    redemption := { capacity := 1024, entries := [(2, ⟨2, 1⟩)] } }

theorem retire_takes_teardown_cycle :
    cycleSample.mounts.Keyed ∧ cycleSample.redemption.Distinct ∧
    (cycleSample.isCurrent ⟨1, 0⟩ = false → cycleSample.retire ⟨1, 0⟩ = cycleSample) ∧
    ∀ first, cycleSample.mounts.get? 1 = some first → first.stamp = 0 →
      (∀ k c, (cycleSample.retire ⟨1, 0⟩).mounts.get? k = some c ↔
        cycleSample.mounts.get? k = some c ∧ ¬ Teardown cycleSample.mounts.values first c) ∧
      (∀ e, e ∈ (cycleSample.retire ⟨1, 0⟩).redemption.entries ↔
        e ∈ cycleSample.redemption.entries ∧
          ¬ ∃ c, Teardown cycleSample.mounts.values first c ∧ e = (c.mount.id, c.handle)) ∧
      (cycleSample.retire ⟨1, 0⟩).redemption.entries.Sublist cycleSample.redemption.entries ∧
      cycleSample.retire ⟨1, 0⟩ = { cycleSample with
        mounts := (cycleSample.retire ⟨1, 0⟩).mounts
        redemption := { cycleSample.redemption with
          entries := (cycleSample.retire ⟨1, 0⟩).redemption.entries } } :=
  have hk : cycleSample.mounts.Keyed := ⟨by unfold Store.Distinct; decide, by decide⟩
  have hd : cycleSample.redemption.Distinct := by unfold Lru.Distinct; decide
  ⟨hk, hd, retire_takes_teardown hk hd ⟨1, 0⟩⟩

end Resolver

end MountIndex

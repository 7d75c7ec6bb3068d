import Mathlib.Data.Finset.Card
import MountIndex.Proofs.Reachable

/-!
# Redeemed records

Where an ID stands (`stateOf`) is read off three structures: the store, the redemption
cache and the delete queue. This module characterises each answer through them, and shows
what the redemption cache is in every reachable state: each entry names, by its stamp, the
very record the store holds under its key, the cache stays within its configured capacity,
and so no more IDs stand redeemed than that capacity. An eviction retires the record held
under the evicted key, which is the record the evicted entry names, together with exactly
its teardown.
-/

namespace MountIndex

namespace Resolver

/-! ## Where an ID stands -/

section States

variable {r : Resolver} {id : Nat}

theorem stateOf_of_get? {g : Record} (hg : r.mounts.get? id = some g) :
    r.stateOf id =
      if r.redemption.peek? id = some g.handle then .redeemed
      else if ∃ q ∈ r.queue, q.handle = g.handle then .pendingDelete
      else .live := by
  unfold stateOf
  rw [hg]
  simp

theorem stateOf_eq_unknown_iff : r.stateOf id = .unknown ↔ r.mounts.get? id = none := by
  cases hg : r.mounts.get? id with
  | none => simp [stateOf, hg]
  | some g =>
    rw [stateOf_of_get? hg]
    split_ifs <;> simp

theorem stateOf_eq_redeemed_iff :
    r.stateOf id = .redeemed ↔ ∃ g, r.mounts.get? id = some g ∧ r.redemption.peek? id = some g.handle := by
  cases hg : r.mounts.get? id with
  | none => simp [stateOf, hg]
  | some g =>
    rw [stateOf_of_get? hg]
    split_ifs with hp <;> simp [hp]

theorem stateOf_eq_pendingDelete_iff :
    r.stateOf id = .pendingDelete ↔ ∃ g, r.mounts.get? id = some g ∧
      r.redemption.peek? id ≠ some g.handle ∧ ∃ q ∈ r.queue, q.handle = g.handle := by
  cases hg : r.mounts.get? id with
  | none => simp [stateOf, hg]
  | some g =>
    rw [stateOf_of_get? hg]
    split_ifs with hp hq
    · simp [hp]
    · simpa [hp] using hq
    · simpa [hp] using hq

theorem stateOf_eq_live_iff :
    r.stateOf id = .live ↔ ∃ g, r.mounts.get? id = some g ∧
      r.redemption.peek? id ≠ some g.handle ∧ ∀ q ∈ r.queue, q.handle ≠ g.handle := by
  cases hg : r.mounts.get? id with
  | none => simp [stateOf, hg]
  | some g =>
    rw [stateOf_of_get? hg]
    split_ifs with hp hq
    · simp [hp]
    · simpa [hp] using hq
    · simpa [hp] using hq

end States

/-! ## The redemption cache of a sound state -/

section Cache

variable {r : Resolver}

-- An entry is keyed by the ID of the record it names, and that record is the one held there.
theorem Sound.entry_names_holder (hs : r.Sound) {e : Nat × Handle} (he : e ∈ r.redemption.entries) :
    e.2.id = e.1 ∧ ∃ g, r.mounts.get? e.1 = some g ∧ g.handle = e.2 := by
  obtain ⟨g, hg, hv⟩ := hs.filed e he
  refine ⟨?_, g, hg, hv.symm⟩
  rw [hv, hs.handle_of_get? hg]

theorem Sound.size_le_capacity (hs : r.Sound) : r.redemption.size ≤ r.config.redemptionCapacity :=
  hs.capacity ▸ hs.bounded

-- The IDs standing redeemed are keys of the redemption cache, so there are no more of them
-- than entries.
theorem card_redeemed_le_size {ids : Finset Nat} (hids : ∀ id ∈ ids, r.stateOf id = .redeemed) :
    ids.card ≤ r.redemption.size := by
  have hsub : ids ⊆ (r.redemption.entries.map (·.1)).toFinset := by
    intro id hid
    obtain ⟨g, -, hp⟩ := stateOf_eq_redeemed_iff.1 (hids id hid)
    rw [List.mem_toFinset]
    exact List.mem_map.2 ⟨_, Lru.mem_of_peek?_eq_some hp, rfl⟩
  calc ids.card
      ≤ (r.redemption.entries.map (·.1)).toFinset.card := Finset.card_le_card hsub
    _ ≤ (r.redemption.entries.map (·.1)).length := List.toFinset_card_le _
    _ = r.redemption.size := List.length_map _

-- The entry a redemption evicts names the record held under its key, and the redemption
-- finalizes exactly that record's teardown.
theorem Sound.evict (hs : r.Sound) {h : Handle} {k : Nat} {e : Handle}
    (hev : (r.redemption.insert h.id h).2 = some (k, e)) :
    ∃ g, r.mounts.get? k = some g ∧ g.handle = e ∧
      ∀ c, r.mounts.get? c.mount.id = some c →
        ((r.redeem h).mounts.get? c.mount.id = none ↔ Teardown r.mounts.values g c) := by
  obtain ⟨hmem, -⟩ := Lru.evicted_mem hs.roomy hev
  obtain ⟨hid, g, hg, hge⟩ := hs.entry_names_holder hmem
  refine ⟨g, hg, hge, fun c hc => ?_⟩
  -- the redemption retires the evicted handle in a state with the same store
  have hredeem : r.redeem h =
      ({ r with redemption := (r.redemption.insert h.id h).1 } : Resolver).retire e := by
    rw [redeem_eq]
    simp only [hev]
  have hget : r.mounts.get? e.id = some g := by
    rw [show e.id = k from hid]
    exact hg
  have hk : ({ r with redemption := (r.redemption.insert h.id h).1 } : Resolver).mounts.Keyed :=
    hs.keyed
  rw [hredeem]
  exact retire_drops_iff hk hget (congrArg Handle.stamp hge) hc

end Cache

/-- In every reachable state each redemption entry is keyed by the mount ID of the record it
names and names the record the store holds there; the cache holds at most the configured
number of entries, so at most that many IDs stand redeemed. In every sound state (the
reachable ones and those a drain of the delete queue passes through) an eviction names the
record held under its key and finalizes exactly that record's teardown. -/
theorem redemption_coherent :
    (∀ r : Resolver, Reachable r →
      r.Sound ∧
      (∀ e ∈ r.redemption.entries, e.2.id = e.1 ∧ ∃ g, r.mounts.get? e.1 = some g ∧ g.handle = e.2) ∧
      r.redemption.size ≤ r.config.redemptionCapacity ∧
      ∀ ids : Finset Nat, (∀ id ∈ ids, r.stateOf id = .redeemed) →
        ids.card ≤ r.config.redemptionCapacity) ∧
    (∀ s : Resolver, s.Sound → ∀ h k e,
      (s.redemption.insert h.id h).2 = some (k, e) →
      ∃ g, s.mounts.get? k = some g ∧ g.handle = e ∧
        ∀ c, s.mounts.get? c.mount.id = some c →
          ((s.redeem h).mounts.get? c.mount.id = none ↔ Teardown s.mounts.values g c)) := by
  refine ⟨fun r hr => ?_, fun s hs h k e hev => hs.evict hev⟩
  have hs := hr.sound
  refine ⟨hs, fun e he => hs.entry_names_holder he, hs.size_le_capacity, fun ids hids => ?_⟩
  exact (card_redeemed_le_size hids).trans hs.size_le_capacity

theorem redemption_coherent_drained :
    Sample.drained.redemption.entries = [(24, ⟨24, 4⟩)] ∧
      (∃ g, Sample.drained.mounts.get? 24 = some g ∧ g.handle = ⟨24, 4⟩) ∧
      Sample.drained.redemption.size ≤ 1 ∧
      (Sample.drained.redemption.insert 23 ⟨23, 3⟩).2 = some (24, ⟨24, 4⟩) ∧
      (Sample.drained.redeem ⟨23, 3⟩).mounts.get? 24 = none := by
  have hentries : Sample.drained.redemption.entries = [(24, ⟨24, 4⟩)] := by decide +kernel
  have hevict : (Sample.drained.redemption.insert 23 ⟨23, 3⟩).2 = some (24, ⟨24, 4⟩) := by
    decide +kernel
  obtain ⟨⟨hs, hnames, hsize, -⟩, hevicts⟩ := redemption_coherent
    |>.imp (fun h => h _ Sample.drained_reachable) (fun h => h _ Sample.drained_reachable.sound)
  obtain ⟨-, hheld⟩ := hnames (24, ⟨24, 4⟩) (by rw [hentries]; exact List.mem_singleton_self _)
  -- redeeming the waiting record evicts the entry, and the record it names goes
  obtain ⟨g, hg, -, hiff⟩ := hevicts ⟨23, 3⟩ 24 ⟨24, 4⟩ hevict
  have hid : g.mount.id = 24 := hs.keyed.id_of_get? hg
  refine ⟨hentries, hheld, hsize.trans_eq (by decide +kernel), hevict, ?_⟩
  rw [← hid]
  exact (hiff g (hid ▸ hg)).2 .self

end Resolver

end MountIndex

import MountIndex.Proofs.Memo

/-!
# Cache hits

In every reachable state the kernel floor lies at or below every held mount ID: an insert
lowers the floor to its own ID when that is lower, loading the init process's table lowers it
to the lowest ID held, and nothing raises it (`PathsOk.floor`). So a held non-zero ID always
passes validation, and a lookup of it is answered from the cache alone: it gives the held
record, reads no mount table, leaves the limiter and every counter but the cache hits alone,
and moves the ID's redemption entry, if the cache files one, to the most recently used end.
-/

namespace MountIndex

namespace Lru

variable {α : Type}

-- Touching a filed key moves its entry to the most recently used end; the other entries keep
-- their order.
theorem touch_entries {c : Lru Nat α} {k : Nat} {v : α} (hp : c.peek? k = some v) :
    (c.touch k).1.entries = c.entries.filter (·.1 != k) ++ [(k, v)] := by
  unfold touch
  rw [hp]

theorem contains_iff_isSome_peek? {c : Lru Nat α} {k : Nat} :
    c.contains k = true ↔ (c.peek? k).isSome := by
  rw [isSome_peek?_iff]
  simp [contains]

end Lru

namespace Resolver

variable {r : Resolver}

theorem lookup_of_get? {id : Nat} {g : Record} (hg : r.mounts.get? id = some g) :
    r.lookup id = .ok g.mount := by
  unfold lookup
  rw [hg]

-- Under a sound state a key the redemption cache files names the record held there, so the
-- touch moves that record's handle to the end.
theorem Sound.touch_held (hs : r.Sound) {id : Nat} {g : Record} (hg : r.mounts.get? id = some g)
    (hc : r.redemption.contains id = true) :
    (r.redemption.touch id).1.entries =
      r.redemption.entries.filter (·.1 != id) ++ [(id, g.handle)] := by
  obtain ⟨v, hv⟩ := Option.isSome_iff_exists.1 (Lru.contains_iff_isSome_peek?.1 hc)
  obtain ⟨g', hg', rfl⟩ := hs.peek?_eq hv
  rw [hg] at hg'
  cases hg'
  exact Lru.touch_entries hv

/-- In every reachable state the kernel floor lies at or below every held mount ID, so a held
non-zero ID passes validation. A lookup of such an ID, for an event of any process in any
container, answers the held record itself; the cache it leaves differs only in one more cache
hit and, when the redemption cache files the ID, in that entry, the held record's, having moved
to the most recently used end with the others in their order: no mount table is read and the
limiter is not asked. The root and the filesystem type of the ID are answered the same way. -/
theorem cache_hit_answers (hr : Reachable r) :
    (∀ k g, r.mounts.get? k = some g → r.floor ≤ k) ∧
    ∀ id g, r.mounts.get? id = some g → id ≠ 0 →
      r.validate id = .ok () ∧
      ∀ pid container now,
        r.resolveMount id pid container now =
          ({ r with
              redemption :=
                if r.redemption.contains id then (r.redemption.touch id).1 else r.redemption
              counters := { r.counters with cacheHits := r.counters.cacheHits + 1 } },
            .ok g.mount) ∧
        (r.redemption.contains id = true →
          (r.resolveMount id pid container now).1.redemption.entries =
            r.redemption.entries.filter (·.1 != id) ++ [(id, g.handle)]) ∧
        r.resolveRoot id pid container now =
          ((r.resolveMount id pid container now).1, .ok g.mount.root) ∧
        r.resolveFs id pid container now =
          ((r.resolveMount id pid container now).1, .ok g.mount.fsName) := by
  obtain ⟨U, hU⟩ := hr.tracked
  obtain ⟨hs, hp⟩ := hU.sound_pathsOk
  refine ⟨hp.floor, fun id g hg h0 => ?_⟩
  have hv := validate_of_floor h0 (hp.floor id g hg)
  have hhit : ∀ pid container now, r.resolveMount id pid container now = _ :=
    fun pid container now => resolveWith_of_found hv (by rw [lookup_of_get? hg])
  refine ⟨hv, fun pid container now => ⟨hhit pid container now, fun hc => ?_, ?_, ?_⟩⟩
  · rw [hhit, if_pos hc]
    exact hs.touch_held hg hc
  · unfold resolveRoot
    rw [hhit]
    rfl
  · unfold resolveFs
    rw [hhit]
    rfl

theorem cache_hit_answers_redeemed :
    Sample.drained.resolveMount 24 7 "" 0 =
        ({ Sample.drained with
            redemption := (Sample.drained.redemption.touch 24).1
            counters := { Sample.drained.counters with
              cacheHits := Sample.drained.counters.cacheHits + 1 } }, .ok Sample.tmp) ∧
      (Sample.drained.resolveMount 24 7 "" 0).1.redemption.entries = [(24, ⟨24, 4⟩)] ∧
      Sample.drained.resolveFs 24 7 "" 0 =
        ((Sample.drained.resolveMount 24 7 "" 0).1, .ok "tmpfs") := by
  obtain ⟨-, hheld⟩ := cache_hit_answers Sample.drained_reachable
  -- the redeemed tmpfs is still held, and filed in the redemption cache
  have hc : Sample.drained.redemption.contains 24 = true := by decide +kernel
  obtain ⟨-, hlookup⟩ := hheld 24 ⟨Sample.tmp, 4⟩ (by decide +kernel) (by decide)
  obtain ⟨heq, hentries, -, hfs⟩ := hlookup 7 "" 0
  rw [if_pos hc] at heq
  exact ⟨heq, (hentries hc).trans (by decide +kernel), hfs⟩

end Resolver

end MountIndex

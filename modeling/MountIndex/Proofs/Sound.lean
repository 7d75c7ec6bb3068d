import MountIndex.Proofs.Retire

/-!
# Sound cache states

`Sound` collects what every state of a cache satisfies: records are filed under their own
mount ID, every redemption entry names the record held under its key, the redemption cache
stays within its capacity, and every stamp in use, held or queued, is below the next one.
The last fact is what makes a handle name one record for good: a record inserted later gets
a stamp no handle carries yet.

This file shows that retiring, inserting, redeeming, draining the delete queue and filing a
delete request keep a state sound.
-/

namespace MountIndex

/-- `g'` is `g`, or `g` with a path remembered. -/
def Record.Later (g g' : Record) : Prop :=
  g' = g ∨ ∃ p, g' = { g with mount := g.mount.remember p }

theorem Mount.remember_remember (m : Mount) (p q : String) :
    (m.remember p).remember q = m.remember p := by
  unfold Mount.remember
  cases hm : m.path <;> simp [hm]

namespace Record

theorem Later.refl (g : Record) : g.Later g := Or.inl rfl

theorem Later.handle {g g' : Record} (h : g.Later g') : g'.handle = g.handle := by
  rcases h with rfl | ⟨p, rfl⟩
  · rfl
  · simp only [Record.handle, Mount.id_remember]

theorem Later.trans {g g' g'' : Record} (h1 : g.Later g') (h2 : g'.Later g'') : g.Later g'' := by
  rcases h1 with rfl | ⟨p, rfl⟩
  · exact h2
  · rcases h2 with rfl | ⟨q, rfl⟩
    · exact Or.inr ⟨p, rfl⟩
    · exact Or.inr ⟨p, by simp [Mount.remember_remember]⟩

end Record

namespace Resolver

/-- What every state of a cache satisfies. -/
structure Sound (r : Resolver) : Prop where
  keyed : r.mounts.Keyed
  filed : r.Filed
  roomy : 0 < r.redemption.capacity
  capacity : r.redemption.capacity = r.config.redemptionCapacity
  bounded : r.redemption.size ≤ r.redemption.capacity
  stamped : ∀ k g, r.mounts.get? k = some g → g.stamp < r.nextStamp
  queued : ∀ q ∈ r.queue, q.handle.stamp < r.nextStamp

section Basics

variable {r : Resolver}

theorem Sound.handle_of_get? (hs : r.Sound) {k : Nat} {g : Record} (hg : r.mounts.get? k = some g) :
    g.handle = ⟨k, g.stamp⟩ := by
  simp [Record.handle, hs.keyed.id_of_get? hg]

-- A current handle is the handle of the record held under its ID.
theorem Sound.eq_handle_of_current (hs : r.Sound) {h : Handle} (hc : r.isCurrent h = true) :
    ∃ g, r.mounts.get? h.id = some g ∧ g.handle = h := by
  obtain ⟨g, hg, hst⟩ := isCurrent_iff.1 hc
  refine ⟨g, hg, ?_⟩
  rw [hs.handle_of_get? hg, hst]

theorem isCurrent_handle (hk : r.mounts.Keyed) {k : Nat} {g : Record}
    (hg : r.mounts.get? k = some g) : r.isCurrent g.handle = true := by
  apply isCurrent_iff.2
  refine ⟨g, ?_, rfl⟩
  simp only [Record.handle]
  rw [hk.id_of_get? hg]
  exact hg

-- Under a sound state a redemption entry of a key is the handle of the record held there.
theorem Sound.peek?_eq (hs : r.Sound) {k : Nat} {v : Handle} (hp : r.redemption.peek? k = some v) :
    ∃ g, r.mounts.get? k = some g ∧ v = g.handle :=
  hs.filed _ (Lru.mem_of_peek?_eq_some hp)

theorem Sound.peek?_eq_none_of_free (hs : r.Sound) {k : Nat} (hk : r.mounts.get? k = none) :
    r.redemption.peek? k = none := by
  cases hp : r.redemption.peek? k with
  | none => rfl
  | some v =>
    obtain ⟨g, hg, -⟩ := hs.peek?_eq hp
    rw [hk] at hg
    cases hg

end Basics

/-! ## Retiring and inserting -/

section Place

variable {r : Resolver}

theorem get?_of_get?_retire {h : Handle} {k : Nat} {g : Record}
    (hg : (r.retire h).mounts.get? k = some g) : r.mounts.get? k = some g :=
  (shrinks_retire r h).get?_eq_some hg

theorem mem_of_mem_retire {h : Handle} {e : Nat × Handle}
    (he : e ∈ (r.retire h).redemption.entries) : e ∈ r.redemption.entries :=
  (shrinks_retire r h).entries_sublist.subset he

theorem Sound.retire (hs : r.Sound) (h : Handle) : (r.retire h).Sound where
  keyed := keyed_retire hs.keyed h
  filed := filed_retire hs.keyed hs.filed h
  roomy := by rw [capacity_retire]; exact hs.roomy
  capacity := by rw [capacity_retire, retire_config]; exact hs.capacity
  bounded := by
    rw [capacity_retire]
    exact Nat.le_trans (size_retire_le r h) hs.bounded
  stamped := by
    intro k g hg
    rw [retire_nextStamp]
    exact hs.stamped k g (get?_of_get?_retire hg)
  queued := by
    rw [retire_queue, retire_nextStamp]
    exact hs.queued

-- Dropping one redemption entry keeps a state sound.
theorem Sound.eraseRedemption (hs : r.Sound) (k : Nat) :
    ({ r with redemption := (r.redemption.erase k).1 } : Resolver).Sound where
  keyed := hs.keyed
  filed := fun e he => hs.filed e (List.mem_filter.1 he).1
  roomy := hs.roomy
  capacity := hs.capacity
  bounded := Nat.le_trans (Lru.size_erase_le _ _) hs.bounded
  stamped := hs.stamped
  queued := hs.queued

-- A record put under an ID that no redemption entry uses, with the next stamp, keeps a state
-- sound.
theorem Sound.insertFresh (hs : r.Sound) {k : Nat} {m : Mount} (hm : m.id = k)
    (hk : ∀ e ∈ r.redemption.entries, e.1 ≠ k) (floor : Nat) :
    ({ r with
        mounts := r.mounts.insert k ⟨m, r.nextStamp⟩
        nextStamp := r.nextStamp + 1
        floor := floor } : Resolver).Sound where
  keyed := Store.keyed_insert hs.keyed hm
  filed := by
    intro e he
    obtain ⟨g, hg, hv⟩ := hs.filed e he
    refine ⟨g, ?_, hv⟩
    simp only [Store.get?_insert, if_neg (hk e he)]
    exact hg
  roomy := hs.roomy
  capacity := hs.capacity
  bounded := hs.bounded
  stamped := by
    intro j g hg
    simp only [Store.get?_insert] at hg
    split at hg
    · cases hg
      exact Nat.lt_succ_self _
    · exact Nat.lt_succ_of_lt (hs.stamped j g hg)
  queued := fun q hq => Nat.lt_succ_of_lt (hs.queued q hq)

theorem place_of_free {m : Mount} (hfree : r.mounts.get? m.id = none) :
    r.place m = { r with
      mounts := r.mounts.insert m.id ⟨m.normalize, r.nextStamp⟩
      nextStamp := r.nextStamp + 1
      floor := if r.floor > m.id then m.id else r.floor } := by
  unfold place
  rw [hfree]

theorem place_of_held {m : Mount} {prev : Record} (hprev : r.mounts.get? m.id = some prev) :
    r.place m =
      let r₁ := ({ r with redemption := (r.redemption.erase m.id).1 } : Resolver).retire prev.handle
      { r₁ with
        mounts := r₁.mounts.insert m.id ⟨m.normalize, r.nextStamp⟩
        nextStamp := r.nextStamp + 1
        floor := if r.floor > m.id then m.id else r.floor } := by
  unfold place
  rw [hprev]
  simp

theorem Sound.place (hs : r.Sound) (m : Mount) : (r.place m).Sound := by
  cases hprev : r.mounts.get? m.id with
  | none =>
    rw [place_of_free hprev]
    refine hs.insertFresh (Mount.id_normalize m) ?_ _
    intro e he hek
    obtain ⟨g, hg, -⟩ := hs.filed e he
    rw [hek, hprev] at hg
    cases hg
  | some prev =>
    rw [place_of_held hprev]
    have h₀ := hs.eraseRedemption m.id
    have h₁ := h₀.retire prev.handle
    have hs' := h₁.insertFresh (Mount.id_normalize m) ?_ (if r.floor > m.id then m.id else r.floor)
    · simpa using hs'
    · intro e he
      have he₀ := mem_of_mem_retire he
      simpa using (List.mem_filter.1 he₀).2

end Place

/-! ## Redeeming, draining the queue, filing delete requests -/

section Queue

variable {r : Resolver} {h : Handle}

theorem Sound.withQueue (hs : r.Sound) (qs : List Request)
    (hq : ∀ q ∈ qs, q.handle.stamp < r.nextStamp) : ({ r with queue := qs } : Resolver).Sound :=
  { hs with queued := hq }

theorem redeem_eq (r : Resolver) (h : Handle) :
    r.redeem h =
      match (r.redemption.insert h.id h).2 with
      | some (_, e) => ({ r with redemption := (r.redemption.insert h.id h).1 } : Resolver).retire e
      | none => { r with redemption := (r.redemption.insert h.id h).1 } := rfl

@[simp] theorem redeem_nextStamp : (r.redeem h).nextStamp = r.nextStamp := by
  rw [redeem_eq]
  split <;> simp

@[simp] theorem redeem_queue : (r.redeem h).queue = r.queue := by
  rw [redeem_eq]
  split <;> simp

@[simp] theorem redeem_config : (r.redeem h).config = r.config := by
  rw [redeem_eq]
  split <;> simp

@[simp] theorem redeem_floor : (r.redeem h).floor = r.floor := by
  rw [redeem_eq]
  split <;> simp

-- Putting a current record into the redemption cache keeps a state sound.
theorem Sound.redemptionInsert (hs : r.Sound) (hc : r.isCurrent h = true) :
    ({ r with redemption := (r.redemption.insert h.id h).1 } : Resolver).Sound where
  keyed := hs.keyed
  filed := by
    intro e he
    rcases Lru.mem_insert he with rfl | ⟨he, -⟩
    · obtain ⟨g, hg, hgh⟩ := hs.eq_handle_of_current hc
      exact ⟨g, hg, hgh.symm⟩
    · exact hs.filed e he
  roomy := by simpa using hs.roomy
  capacity := by simpa using hs.capacity
  bounded := by simpa using Lru.size_insert_le _ h.id h hs.bounded
  stamped := hs.stamped
  queued := hs.queued

theorem Sound.redeem (hs : r.Sound) (hc : r.isCurrent h = true) : (r.redeem h).Sound := by
  rw [redeem_eq]
  split
  · exact (hs.redemptionInsert hc).retire _
  · exact hs.redemptionInsert hc

-- Draining due requests keeps a state sound, whatever the requests still queued.
theorem Sound.dequeueGo (now : Nat) :
    ∀ (qs : List Request) (r : Resolver) (n : Nat), r.Sound →
      (∀ q ∈ qs, q.handle.stamp < r.nextStamp) → (dequeue.go now r qs n).1.Sound
  | [], r, n, hs, _ => hs.withQueue [] (by simp)
  | q :: rest, r, n, hs, hq => by
    have hrest : ∀ q' ∈ rest, q'.handle.stamp < r.nextStamp :=
      fun q' hq' => hq q' (List.mem_cons_of_mem _ hq')
    have hs' := hs.withQueue rest hrest
    unfold dequeue.go
    split
    · dsimp only
      split
      · rename_i _ hc
        exact Sound.dequeueGo now rest _ (n + 1) (hs'.redeem hc) (by simpa using hrest)
      · exact Sound.dequeueGo now rest _ n hs' hrest
    · exact hs.withQueue (q :: rest) hq

theorem Sound.dequeue (hs : r.Sound) (now : Nat) : (r.dequeue now).1.Sound :=
  Sound.dequeueGo now r.queue r 0 hs hs.queued

theorem deleteAt_eq {id now : Nat} {r' : Resolver} (h : r.deleteAt id now = .ok r') :
    ∃ g, r.mounts.get? id = some g ∧
      r' = { r with queue := r.queue ++ [⟨g.handle, now + r.config.deleteDelay.nanos⟩] } := by
  unfold deleteAt at h
  split at h
  · rename_i g hg
    cases h
    exact ⟨g, hg, rfl⟩
  · cases h

theorem Sound.deleteAt (hs : r.Sound) {id now : Nat} {r' : Resolver} (h : r.deleteAt id now = .ok r') :
    r'.Sound := by
  obtain ⟨g, hg, rfl⟩ := deleteAt_eq h
  apply hs.withQueue
  intro q hq
  rcases List.mem_append.1 hq with hq | hq
  · exact hs.queued q hq
  · rw [List.mem_singleton.1 hq]
    exact hs.stamped _ _ hg

end Queue

end Resolver

end MountIndex

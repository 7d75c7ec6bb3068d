import MountIndex.Proofs.Removal

/-!
# The lifecycle of a mount ID

Where an ID stands (`stateOf`) is read off the store, the redemption cache and the delete
queue. One operation moves an ID only along the edges of `Moves`: a lookup that reads mount
tables brings an unknown ID to life, an insert makes its own ID live whatever stood there, a
delete request makes a live ID wait, a drain of the queue redeems a waiting ID, and an ID falls
back to unknown only when its record is in the teardown of a record that an insert or a drain
finalizes. So a redeemed ID never waits again, a live ID is never redeemed at once, and only
an insert of the ID itself brings a waiting or redeemed ID back to life.

Under a sound state the redemption entry of a held ID names its record, so where a held ID
stands hangs on two bits (`MountState.ofHeld`): whether the cache files the ID, and whether a
delete request names the record. Each operation is read through what it does to them.
-/

namespace MountIndex

/-- Where a held record stands: redeemed when the redemption cache files its ID, waiting when
a delete request names it, live otherwise. -/
def MountState.ofHeld (filed requested : Bool) : MountState :=
  if filed then .redeemed else if requested then .pendingDelete else .live

/-- The moves one operation may make to where an ID stands, read in the state `r` it runs on. -/
inductive Moves (r : Resolver) : Op → Nat → MountState → MountState → Prop
  | stay {op id s} : Moves r op id s s
  -- a lookup merges what the mount tables list under IDs it did not know
  | fetched {op id} : op.Fetches → Moves r op id .unknown .live
  | inserted {m s} : m.id ≠ 0 → Moves r (.insert m) m.id s .live
  | deleted {id now} : Moves r (.deleteAt id now) id .live .pendingDelete
  | redeemed {now id} : Moves r (.dequeue now) id .pendingDelete .redeemed
  -- the record held under the ID goes with the teardown of a record the operation finalizes
  | finalized {op id s g c} : s ≠ .unknown → r.mounts.get? id = some c → g ∈ op.finalized r →
      Teardown r.mounts.values g c → Moves r op id s .unknown

namespace Moves

variable {r : Resolver} {op : Op} {id : Nat} {s s' : MountState}

theorem op_of_finalized {g : Record} (hg : g ∈ op.finalized r) :
    (∃ m, op = .insert m) ∨ ∃ now, op = .dequeue now := by
  unfold Op.finalized at hg
  split at hg
  · exact .inl ⟨_, rfl⟩
  · exact .inr ⟨_, rfl⟩
  · simp at hg

-- An ID becomes unknown only through an insert or a drain of the queue.
theorem to_unknown (h : Moves r op id s .unknown) (hs : s ≠ .unknown) :
    (∃ m, op = .insert m) ∨ ∃ now, op = .dequeue now := by
  cases h with
  | stay => exact absurd rfl hs
  | finalized _ _ hg _ => exact op_of_finalized hg

-- A delete request leaves a redeemed ID redeemed: it finalizes nothing.
theorem deleteAt_of_redeemed {id' now : Nat} (h : Moves r (.deleteAt id' now) id .redeemed s') :
    s' = .redeemed := by
  cases h with
  | stay => rfl
  | finalized _ _ hg _ => simp [Op.finalized] at hg

theorem live_ne_redeemed (h : Moves r op id .live s') : s' ≠ .redeemed := by
  cases h <;> simp

theorem redeemed_ne_pendingDelete (h : Moves r op id .redeemed s') : s' ≠ .pendingDelete := by
  cases h <;> simp

-- Only an insert of the ID itself brings a waiting or redeemed ID back to life.
theorem insert_of_revived (h : Moves r op id s .live) (hs : s = .pendingDelete ∨ s = .redeemed) :
    ∃ m, op = .insert m ∧ m.id = id := by
  cases h with
  | stay => simp at hs
  | fetched _ => simp at hs
  | inserted _ => exact ⟨_, rfl, rfl⟩

-- A drain files the IDs of the requests it takes and leaves the others queued.
theorem ofHeld_dequeue {now : Nat} (filed taken left : Bool) :
    Moves r (.dequeue now) id (MountState.ofHeld filed (taken || left))
      (MountState.ofHeld (filed || taken) left) := by
  cases filed with
  | true => exact .stay
  | false =>
    cases taken with
    | true => exact .redeemed
    | false => exact .stay

-- A delete request for a held ID makes it wait, unless the cache files it.
theorem ofHeld_deleteAt {now : Nat} (filed requested : Bool) :
    Moves r (.deleteAt id now) id (MountState.ofHeld filed requested)
      (MountState.ofHeld filed (requested || true)) := by
  cases filed with
  | true => exact .stay
  | false =>
    cases requested with
    | true => exact .stay
    | false => exact .deleted

end Moves

namespace Resolver

/-! ## Where a held ID stands -/

section Held

variable {r : Resolver} {id : Nat}

-- Under a sound state a redemption entry of a held ID names its record, so only whether
-- there is one counts.
theorem Sound.stateOf_eq (hs : r.Sound) {c : Record} (hc : r.mounts.get? id = some c) :
    r.stateOf id =
      MountState.ofHeld (r.redemption.peek? id).isSome (r.queue.any (·.handle == c.handle)) := by
  unfold stateOf MountState.ofHeld
  rw [hc]
  cases hp : r.redemption.peek? id with
  | none => simp
  | some v =>
    obtain ⟨g, hg, rfl⟩ := hs.peek?_eq hp
    rw [hc] at hg
    cases hg
    simp

-- A record newer than every delete request, with no redemption entry under its ID, is live.
theorem stateOf_fresh {c : Record} (hc : r.mounts.get? id = some c)
    (hp : r.redemption.peek? id = none) (hq : ∀ q ∈ r.queue, q.handle.stamp < c.stamp) :
    r.stateOf id = .live := by
  refine stateOf_eq_live_iff.2 ⟨c, hc, by rw [hp]; simp, fun q hmem heq => ?_⟩
  have hlt := hq q hmem
  rw [heq] at hlt
  exact Nat.lt_irrefl _ hlt

-- An ID held neither before an operation nor after it stays unknown.
theorem moves_of_free {r' : Resolver} {op : Op} (hc : r.mounts.get? id = none)
    (hc' : r'.mounts.get? id = none) : Moves r op id (r.stateOf id) (r'.stateOf id) := by
  rw [stateOf_eq_unknown_iff.2 hc, stateOf_eq_unknown_iff.2 hc']
  exact .stay

end Held

/-! ## Lookups, delete requests, inserts -/

section Steps

variable {r : Resolver}

-- A lookup leaves where every known ID stands, and brings an unknown ID only to life: what it
-- adds is newer than every request, and the cache files no unknown ID.
theorem Sound.stateOf_grows (hs : r.Sound) {r' : Resolver} (hg : Grows r r') (id : Nat) :
    r'.stateOf id = r.stateOf id ∨ (r.stateOf id = .unknown ∧ r'.stateOf id = .live) := by
  cases hc : r.mounts.get? id with
  | none =>
    cases hc' : r'.mounts.get? id with
    | none => exact .inl (by rw [stateOf_eq_unknown_iff.2 hc, stateOf_eq_unknown_iff.2 hc'])
    | some c' =>
      refine .inr ⟨stateOf_eq_unknown_iff.2 hc, stateOf_fresh hc' ?_ fun q hq => ?_⟩
      · rw [hg.peek]
        exact hs.peek?_eq_none_of_free hc
      · rw [hg.queue] at hq
        exact Nat.lt_of_lt_of_le (hs.queued q hq) (hg.fresh id c' hc' hc)
  | some c =>
    obtain ⟨c', hc', hl⟩ := hg.keeps id c hc
    left
    rw [stateOf_of_get? hc, stateOf_of_get? hc', hl.handle, hg.peek, hg.queue]

-- A delete request moves only its own ID, and that only from live to waiting.
theorem Sound.moves_deleteAt (hs : r.Sound) {id' now : Nat} {r' : Resolver}
    (h : r.deleteAt id' now = .ok r') (id : Nat) :
    Moves r (.deleteAt id' now) id (r.stateOf id) (r'.stateOf id) := by
  obtain ⟨g, hg, hr'⟩ := deleteAt_eq h
  have hm : r'.mounts = r.mounts := by rw [hr']
  cases hc : r.mounts.get? id with
  | none =>
    exact moves_of_free hc (by rw [hm]; exact hc)
  | some c =>
    have hc' : r'.mounts.get? id = some c := by rw [hm]; exact hc
    rw [hs.stateOf_eq hc, (hs.deleteAt h).stateOf_eq hc', hr']
    simp only [List.any_append, List.any_cons, List.any_nil, Bool.or_false]
    by_cases hid : id = id'
    · subst hid
      rw [hg] at hc
      cases hc
      rw [beq_self_eq_true]
      exact Moves.ofHeld_deleteAt _ _
    · -- the request names the record under another ID
      have hne : (g.handle == c.handle) = false := by
        apply beq_eq_false_iff_ne.2
        intro heq
        have hids := congrArg Handle.id heq
        simp only [Record.handle, hs.keyed.id_of_get? hg, hs.keyed.id_of_get? hc] at hids
        exact hid hids.symm
      rw [hne, Bool.or_false]
      exact .stay

@[simp] theorem place_queue (r : Resolver) (m : Mount) : (r.place m).queue = r.queue := by
  unfold place
  split <;> simp

theorem get?_place_self (r : Resolver) (m : Mount) :
    (r.place m).mounts.get? m.id = some ⟨m.normalize, r.nextStamp⟩ := by
  unfold place
  split <;> simp

-- Away from its own ID an insert only takes records away.
theorem get?_place_of_ne {m : Mount} {k : Nat} (hk : k ≠ m.id) {g : Record}
    (h : (r.place m).mounts.get? k = some g) : r.mounts.get? k = some g := by
  cases hprev : r.mounts.get? m.id with
  | none =>
    rw [place_of_free hprev] at h
    simpa [hk] using h
  | some prev =>
    rw [place_of_held hprev] at h
    simp only [Store.get?_insert, if_neg hk] at h
    have h' := get?_of_get?_retire h
    exact h'

-- An insert leaves the redemption entry of every other ID whose record stays.
theorem Sound.isSome_peek?_place (hs : r.Sound) (m : Mount) {k : Nat} (hk : k ≠ m.id)
    (hheld : (r.place m).mounts.get? k ≠ none) :
    ((r.place m).redemption.peek? k).isSome = (r.redemption.peek? k).isSome := by
  cases hprev : r.mounts.get? m.id with
  | none => rw [place_of_free hprev]
  | some prev =>
    rw [place_of_held hprev] at hheld ⊢
    simp only [Store.get?_insert, if_neg hk] at hheld
    dsimp only
    rw [isSome_peek?_retire (hs.eraseRedemption m.id).keyed (hs.eraseRedemption m.id).filed hheld]
    simp [Lru.peek?_erase, hk]

-- The ID an insert fills has no redemption entry left: the previous holder's entry is dropped.
theorem Sound.peek?_place_self (hs : r.Sound) (m : Mount) :
    (r.place m).redemption.peek? m.id = none := by
  cases hprev : r.mounts.get? m.id with
  | none =>
    rw [place_of_free hprev]
    exact hs.peek?_eq_none_of_free hprev
  | some prev =>
    rw [place_of_held hprev]
    dsimp only
    apply Lru.peek?_eq_none_iff.2
    intro e he
    have he₀ := mem_of_mem_retire he
    simpa using (List.mem_filter.1 he₀).2

-- The record an insert puts under its ID is live: it is newer than every request.
theorem Sound.stateOf_place (hs : r.Sound) (m : Mount) : (r.place m).stateOf m.id = .live := by
  refine stateOf_fresh (get?_place_self r m) (hs.peek?_place_self m) fun q hq => ?_
  rw [place_queue] at hq
  exact hs.queued q hq

-- An ID whose record an operation takes away moves along the teardown of a record the
-- operation finalizes.
theorem Sound.moves_of_gone (hs : r.Sound) (op : Op) {id : Nat} {c : Record}
    (hc : r.mounts.get? id = some c) (hgone : (op.run r).mounts.get? id = none) :
    Moves r op id (r.stateOf id) ((op.run r).stateOf id) := by
  have hid : c.mount.id = id := hs.keyed.id_of_get? hc
  have hc' : r.mounts.get? c.mount.id = some c := by rw [hid]; exact hc
  have hremoved : r.Removed (op.run r) c := ⟨hc', by simp [isCurrent, Record.handle, hid, hgone]⟩
  obtain ⟨g, hg, ht⟩ := (hs.removed_run_iff op hc').1 hremoved
  rw [stateOf_eq_unknown_iff.2 hgone]
  exact .finalized (by rw [Ne, stateOf_eq_unknown_iff, hc]; simp) hc hg ht

theorem Sound.moves_insert (hs : r.Sound) {m : Mount} (h0 : m.id ≠ 0) (id : Nat) :
    Moves r (.insert m) id (r.stateOf id) (((Op.insert m).run r).stateOf id) := by
  have hrun : (Op.insert m).run r = r.place m := by rw [run_insert, if_neg h0]
  by_cases hid : id = m.id
  · rw [hid, hrun, hs.stateOf_place m]
    exact .inserted h0
  cases hc' : ((Op.insert m).run r).mounts.get? id with
  | none =>
    cases hc : r.mounts.get? id with
    | none => exact moves_of_free hc hc'
    | some c => exact hs.moves_of_gone _ hc hc'
  | some c =>
    -- another ID keeps its record, its redemption entry and its requests
    rw [hrun] at hc' ⊢
    have hc := get?_place_of_ne hid hc'
    rw [hs.stateOf_eq hc, (hs.place m).stateOf_eq hc',
      hs.isSome_peek?_place m hid (by rw [hc']; simp), place_queue]
    exact .stay

end Steps

/-! ## Draining the delete queue -/

section Drain

variable {r : Resolver} {h : Handle}

-- Redeeming a current handle files its ID; an ID whose record stays keeps its entry, as the
-- entry evicted names a record that goes.
theorem Sound.isSome_peek?_redeem (hs : r.Sound) (hc : r.isCurrent h = true) {c : Record}
    (hheld : (r.redeem h).mounts.get? c.mount.id = some c) :
    ((r.redeem h).redemption.peek? c.mount.id).isSome =
      ((r.redemption.peek? c.mount.id).isSome || h == c.handle) := by
  have hcr : r.mounts.get? c.mount.id = some c := (hs.drops_redeem h).sub _ _ hheld
  -- the handle names c exactly when it is filed under c's ID, as it is current
  have hname : (c.mount.id == h.id) = (h == c.handle) := by
    obtain ⟨g, hg, hgh⟩ := hs.eq_handle_of_current hc
    apply Bool.eq_iff_iff.2
    simp only [beq_iff_eq]
    constructor
    · intro hid
      rw [← hid, hcr] at hg
      cases hg
      exact hgh.symm
    · rintro rfl
      rfl
  rw [← hname]
  cases hev : (r.redemption.insert h.id h).2 with
  | none =>
    simp only [redeem_eq, hev]
    exact Lru.isSome_peek?_insert hs.roomy (by simp [hev])
  | some ke =>
    obtain ⟨k, e⟩ := ke
    obtain ⟨g, hg, -, hgone⟩ := hs.evict hev
    -- the evicted key is not c's: its record goes with the eviction, and c stays
    have hk : k ≠ c.mount.id := by
      rintro rfl
      rw [hcr] at hg
      cases hg
      have hnone := (hgone c hcr).2 .self
      rw [hheld] at hnone
      cases hnone
    simp only [redeem_eq, hev] at hheld ⊢
    rw [isSome_peek?_retire (hs.redemptionInsert hc).keyed (hs.redemptionInsert hc).filed (by rw [hheld]; simp)]
    refine Lru.isSome_peek?_insert hs.roomy fun e' he' => ?_
    rw [hev] at he'
    cases he'
    exact hk

-- A drain leaves a tail of the requests it is given queued, and a record it keeps is filed
-- exactly when it was, or when a request it took names it. The induction follows the
-- requests; each redemption is one step of `isSome_peek?_redeem`.
theorem Sound.dequeueGo_files (now : Nat) :
    ∀ (qs : List Request) (r : Resolver) (n : Nat), r.Sound →
      (∀ q ∈ qs, q.handle.stamp < r.nextStamp) →
      ∃ done, qs = done ++ (dequeue.go now r qs n).1.queue ∧
        ∀ c, (dequeue.go now r qs n).1.mounts.get? c.mount.id = some c →
          ((dequeue.go now r qs n).1.redemption.peek? c.mount.id).isSome =
            ((r.redemption.peek? c.mount.id).isSome || done.any (·.handle == c.handle))
  | [], r, n, _, _ => ⟨[], rfl, fun c _ => by simp [dequeue.go]⟩
  | q :: rest, r, n, hs, hq => by
    have hrest : ∀ q' ∈ rest, q'.handle.stamp < r.nextStamp :=
      fun q' hq' => hq q' (List.mem_cons_of_mem _ hq')
    have hs' := hs.withQueue rest hrest
    by_cases hdue : q.due ≤ now
    · simp only [dequeue.go, if_pos hdue]
      by_cases hc : ({ r with queue := rest } : Resolver).isCurrent q.handle = true
      · simp only [if_pos hc]
        have hrest' : ∀ q' ∈ rest,
            q'.handle.stamp < (({ r with queue := rest } : Resolver).redeem q.handle).nextStamp := by
          simpa using hrest
        obtain ⟨done, hdone, hfiles⟩ :=
          Sound.dequeueGo_files now rest _ (n + 1) (hs'.redeem hc) hrest'
        have d := Sound.drops_dequeueGo now rest _ (n + 1) (hs'.redeem hc) hrest'
        refine ⟨q :: done, by rw [List.cons_append, ← hdone], fun c hc' => ?_⟩
        rw [hfiles c hc', hs'.isSome_peek?_redeem hc (d.sub _ _ hc')]
        simp only [List.any_cons, Bool.or_assoc]
      · simp only [if_neg hc]
        obtain ⟨done, hdone, hfiles⟩ := Sound.dequeueGo_files now rest _ n hs' hrest
        have d := Sound.drops_dequeueGo now rest _ n hs' hrest
        refine ⟨q :: done, by rw [List.cons_append, ← hdone], fun c hc' => ?_⟩
        -- a request that is not current names no record held
        have hne : (q.handle == c.handle) = false := by
          apply beq_eq_false_iff_ne.2
          intro hqc
          apply hc
          rw [hqc]
          exact isCurrent_handle hs'.keyed (d.sub _ _ hc')
        rw [hfiles c hc']
        simp [List.any_cons, hne]
    · simp only [dequeue.go, if_neg hdue]
      exact ⟨[], rfl, fun c _ => by simp⟩

-- A drain redeems waiting IDs and otherwise only takes the teardowns of what it evicts.
theorem Sound.moves_dequeue (hs : r.Sound) (now id : Nat) :
    Moves r (.dequeue now) id (r.stateOf id) ((r.dequeue now).1.stateOf id) := by
  cases hc : r.mounts.get? id with
  | none =>
    exact moves_of_free hc ((hs.drops_dequeue now).none_of_none hc)
  | some c =>
    cases hc' : (r.dequeue now).1.mounts.get? id with
    | none => exact hs.moves_of_gone (.dequeue now) hc hc'
    | some c' =>
      have hid : c.mount.id = id := hs.keyed.id_of_get? hc
      subst hid
      have hcc : c' = c := (hs.drops_dequeue now).eq_of_held hc hc'
      subst hcc
      obtain ⟨done, hdone, hfiles⟩ := Sound.dequeueGo_files now r.queue r 0 hs hs.queued
      -- the queue was the requests the drain took, then those it left
      have hany : r.queue.any (·.handle == c'.handle) =
          (done.any (·.handle == c'.handle) ||
            (r.dequeue now).1.queue.any (·.handle == c'.handle)) := by
        rw [← List.any_append]
        exact congrArg (List.any · _) hdone
      have hf : ((r.dequeue now).1.redemption.peek? c'.mount.id).isSome = _ := hfiles c' hc'
      rw [hs.stateOf_eq hc, (hs.dequeue now).stateOf_eq hc', hany, hf]
      exact Moves.ofHeld_dequeue _ _ _

end Drain

/-! ## Every operation -/

variable {r : Resolver}

-- Each operation on a sound state moves every ID along an edge of its lifecycle.
theorem Sound.moves (hs : r.Sound) (op : Op) (id : Nat) :
    Moves r op id (r.stateOf id) ((op.run r).stateOf id) := by
  -- the lookups add only records of IDs they did not know
  have lookup : op.Fetches → Moves r op id (r.stateOf id) ((op.run r).stateOf id) := by
    intro hf
    rcases hs.stateOf_grows (hs.keeps_of_fetches hf).2 id with h | ⟨h₁, h₂⟩
    · rw [h]
      exact .stay
    · rw [h₁, h₂]
      exact .fetched hf
  cases op with
  | insert m =>
    by_cases h0 : m.id = 0
    · rw [run_insert, if_pos h0]
      exact .stay
    · exact hs.moves_insert h0 id
  | deleteAt id' now =>
    simp only [Op.run]
    split
    · rename_i r' h
      exact hs.moves_deleteAt h id
    · exact .stay
  | dequeue now => exact hs.moves_dequeue now id
  | resolveMount _ _ _ _ | resolvePath _ _ _ _ | resolveRoot _ _ _ _ | resolveFs _ _ _ _
  | syncCache _ =>
    exact lookup trivial
  | sendStats =>
    have h : (Op.sendStats.run r).stateOf id = r.stateOf id := by
      simp only [Op.run, sendStats_fst]
      rfl
    rw [h]
    exact .stay
  | environment proc workloads => exact .stay

/-- In every reachable state each operation moves each mount ID along an edge of its
lifecycle: from unknown to live by a lookup that reads mount tables, from any state to live by
an insert of the ID, whose record is then live, from live to waiting by a delete request for
the ID, from waiting to redeemed by a drain of the delete queue, and to unknown only when the
ID's record is in the teardown of a record that an insert or a drain finalizes. So a delete
request leaves a redeemed ID redeemed, no live ID is redeemed at once, a redeemed ID never
waits again, and only an insert of the ID itself brings a waiting or redeemed ID back to
life. -/
theorem stateOf_lifecycle (hr : Reachable r) :
    (∀ (op : Op) (id : Nat), Moves r op id (r.stateOf id) ((op.run r).stateOf id)) ∧
    (∀ m : Mount, m.id ≠ 0 → ((Op.insert m).run r).stateOf m.id = .live) ∧
    (∀ (op : Op) (id : Nat), r.stateOf id ≠ .unknown → (op.run r).stateOf id = .unknown →
      (∃ m, op = .insert m) ∨ ∃ now, op = .dequeue now) ∧
    (∀ id id' now : Nat, r.stateOf id = .redeemed →
      ((Op.deleteAt id' now).run r).stateOf id = .redeemed) ∧
    (∀ (op : Op) (id : Nat), r.stateOf id = .live → (op.run r).stateOf id ≠ .redeemed) ∧
    (∀ (op : Op) (id : Nat), r.stateOf id = .redeemed →
      (op.run r).stateOf id ≠ .pendingDelete) ∧
    (∀ (op : Op) (id : Nat), (r.stateOf id = .pendingDelete ∨ r.stateOf id = .redeemed) →
      (op.run r).stateOf id = .live → ∃ m, op = .insert m ∧ m.id = id) := by
  have hs := hr.sound
  refine ⟨hs.moves, fun m h0 => ?_, fun op id hne hun => ?_, fun id id' now hred => ?_,
    fun op id hlive => ?_, fun op id hred => ?_, fun op id hst hlive => ?_⟩
  · rw [run_insert, if_neg h0]
    exact hs.stateOf_place m
  · have h := hs.moves op id
    rw [hun] at h
    exact h.to_unknown hne
  · have h := hs.moves (.deleteAt id' now) id
    rw [hred] at h
    exact h.deleteAt_of_redeemed
  · have h := hs.moves op id
    rw [hlive] at h
    exact h.live_ne_redeemed
  · have h := hs.moves op id
    rw [hred] at h
    exact h.redeemed_ne_pendingDelete
  · have h := hs.moves op id
    rw [hlive] at h
    exact h.insert_of_revived hst

theorem stateOf_lifecycle_drained :
    Sample.drained.stateOf 24 = .redeemed ∧ Sample.drained.stateOf 23 = .pendingDelete ∧
      ((Op.deleteAt 24 6000000000).run Sample.drained).stateOf 24 = .redeemed ∧
      (∀ op : Op, (op.run Sample.drained).stateOf 24 ≠ .pendingDelete) ∧
      (∀ op : Op, (op.run Sample.drained).stateOf 23 = .live → ∃ m, op = .insert m ∧ m.id = 23) ∧
      Moves Sample.drained (.dequeue 6000000000) 23 .pendingDelete
        (((Op.dequeue 6000000000).run Sample.drained).stateOf 23) := by
  obtain ⟨hmoves, -, -, hdel, -, hred, hrevive⟩ := stateOf_lifecycle Sample.drained_reachable
  have h24 : Sample.drained.stateOf 24 = .redeemed := by decide +kernel
  have h23 : Sample.drained.stateOf 23 = .pendingDelete := by decide +kernel
  exact ⟨h24, h23, hdel 24 24 _ h24, fun op => hred op 24 h24, fun op => hrevive op 23 (.inl h23),
    h23 ▸ hmoves (.dequeue 6000000000) 23⟩

end Resolver

end MountIndex

import MountIndex.Proofs.Redemption

/-!
# Records leave only with their teardowns

A record leaves the store only when it is finalized, and then every record that depends on
it goes too. `Store.Drops s s' roots` says that `s'` keeps the records of `s` it holds
unchanged and has lost exactly the teardowns of `roots`; it composes, so the drain of the
delete queue, a run of redemptions that each retire what the redemption cache evicts, is one
such step with the evicted records as its roots (`evictions`).

For each operation, the records it takes away are exactly the teardowns of the records it
finalizes (`Op.finalized`): the previous holder of a reused ID for an insert, the evicted
records for a drain, none for any other operation. A union of teardowns is closed under
dependence, so no operation leaves a record whose parent, or whose overlay, went.
-/

namespace MountIndex

namespace Store

/-- `s'` holds only records of `s`, unchanged, and has lost exactly the teardowns (in `s`)
of `roots`, records of `s`. -/
structure Drops (s s' : Store Record) (roots : List Record) : Prop where
  sub : ∀ k g, s'.get? k = some g → s.get? k = some g
  held : ∀ g ∈ roots, s.get? g.mount.id = some g
  gone : ∀ c, s.get? c.mount.id = some c →
    (s'.get? c.mount.id = none ↔ ∃ g ∈ roots, Teardown s.values g c)

namespace Drops

variable {s s' s'' : Store Record} {R R' : List Record}

theorem refl (s : Store Record) : Drops s s [] where
  sub _ _ h := h
  held _ h := absurd h List.not_mem_nil
  gone c hc := by simp [hc]

theorem none_of_none (d : Drops s s' R) {k : Nat} (h : s.get? k = none) : s'.get? k = none := by
  cases h' : s'.get? k with
  | none => rfl
  | some g =>
    rw [d.sub k g h'] at h
    cases h

theorem eq_of_held (d : Drops s s' R) {c g : Record} (hc : s.get? c.mount.id = some c)
    (hg : s'.get? c.mount.id = some g) : g = c := by
  have h := d.sub _ _ hg
  rw [hc] at h
  exact (Option.some.inj h).symm

-- What a step takes away is closed under dependence.
theorem gone_closed (d : Drops s s' R) (hk : s.Keyed) {p x : Record}
    (hp : s.get? p.mount.id = some p) (hgone : s'.get? p.mount.id = none)
    (hx : s.get? x.mount.id = some x) (hdep : x.DependsOn p) : s'.get? x.mount.id = none := by
  obtain ⟨g, hg, ht⟩ := (d.gone p hp).1 hgone
  exact (d.gone x hx).2 ⟨g, hg, .dep ht (hk.mem_values_iff.2 hx) hdep⟩

section Values

variable (d : Drops s s' R) (hk : s.Keyed) (hk' : s'.Keyed)
include d hk hk'

theorem values_sub : ∀ x ∈ s'.values, x ∈ s.values := fun _ hx =>
  hk.mem_values_iff.2 (d.sub _ _ (hk'.mem_values_iff.1 hx))

theorem values_closed :
    ∀ p x, p ∈ s.values → p ∉ s'.values → x ∈ s.values → x.DependsOn p → x ∉ s'.values := by
  intro p x hp hp' hx hdep hx'
  have hpnone : s'.get? p.mount.id = none := by
    cases h : s'.get? p.mount.id with
    | none => rfl
    | some g =>
      rw [d.eq_of_held (hk.mem_values_iff.1 hp) h] at h
      exact absurd (hk'.mem_values_iff.2 h) hp'
  have hxnone := d.gone_closed hk (hk.mem_values_iff.1 hp) hpnone (hk.mem_values_iff.1 hx) hdep
  rw [hk'.mem_values_iff.1 hx'] at hxnone
  cases hxnone

end Values

-- Two steps make one, with the roots of both: a teardown of the second step, taken in the
-- smaller store, is the same as in the first, since what the first took went with all its
-- dependents.
theorem trans (hk : s.Keyed) (hk' : s'.Keyed) (d : Drops s s' R) (d' : Drops s' s'' R') :
    Drops s s'' (R ++ R') where
  sub k g h := d.sub k g (d'.sub k g h)
  held g hg := by
    rcases List.mem_append.1 hg with hg | hg
    · exact d.held g hg
    · exact d.sub _ _ (d'.held g hg)
  gone c hc := by
    constructor
    · intro hnone
      cases h' : s'.get? c.mount.id with
      | none =>
        obtain ⟨g, hg, ht⟩ := (d.gone c hc).1 h'
        exact ⟨g, List.mem_append_left _ hg, ht⟩
      | some c' =>
        rw [d.eq_of_held hc h'] at h'
        obtain ⟨g, hg, ht⟩ := (d'.gone c h').1 hnone
        exact ⟨g, List.mem_append_right _ hg, ht.mono (d.values_sub hk hk')⟩
    · rintro ⟨g, hg, ht⟩
      cases h' : s'.get? c.mount.id with
      | none => exact d'.none_of_none h'
      | some c' =>
        rw [d.eq_of_held hc h'] at h'
        rcases List.mem_append.1 hg with hg | hg
        · rw [(d.gone c hc).2 ⟨g, hg, ht⟩] at h'
          cases h'
        · have hgs : g ∈ s'.values := hk'.mem_values_iff.2 (d'.held g hg)
          have ht' := ht.restrict (d.values_sub hk hk') (d.values_closed hk hk') hgs
            (hk'.mem_values_iff.2 h')
          exact (d'.gone c h').2 ⟨g, hg, ht'⟩

end Drops

end Store

namespace Resolver

/-! ## Retiring, redeeming, draining -/

section Steps

variable {r : Resolver}

theorem drops_retire {h : Handle} {g : Record} (hk : r.mounts.Keyed)
    (hget : r.mounts.get? h.id = some g) (hst : g.stamp = h.stamp) :
    r.mounts.Drops (r.retire h).mounts [g] where
  sub _ _ hg := get?_of_get?_retire hg
  held g' hg' := by
    rw [List.mem_singleton.1 hg', hk.id_of_get? hget]
    exact hget
  gone c hc := by
    rw [retire_drops_iff hk hget hst hc]
    simp

/-- The record a redemption evicts, if any: the one held under the key that the redemption
cache hands back. -/
def evictedBy (r : Resolver) (h : Handle) : Option Record :=
  (r.redemption.insert h.id h).2.bind fun e => r.mounts.get? e.1

theorem Sound.drops_redeem (hs : r.Sound) (h : Handle) :
    r.mounts.Drops (r.redeem h).mounts (r.evictedBy h).toList := by
  rw [redeem_eq]
  unfold evictedBy
  split
  · rename_i k e hev
    obtain ⟨hmem, -⟩ := Lru.evicted_mem hs.roomy hev
    obtain ⟨hid, g, hg, hge⟩ := hs.entry_names_holder hmem
    have hget : r.mounts.get? e.id = some g := by
      rw [show e.id = k from hid]
      exact hg
    have hk : ({ r with redemption := (r.redemption.insert h.id h).1 } : Resolver).mounts.Keyed :=
      hs.keyed
    simp only [hev, Option.bind_some, hg, Option.toList_some]
    exact drops_retire hk hget (congrArg Handle.stamp hge)
  · rename_i hev
    simp only [hev, Option.bind_none, Option.toList_none]
    exact Store.Drops.refl _

/-- The records a drain of the delete requests `qs` evicts from the redemption cache, in the
order it evicts them. -/
def evictions (now : Nat) : Resolver → List Request → List Record
  | _, [] => []
  | r, q :: rest =>
    if q.due ≤ now then
      let s : Resolver := { r with queue := rest }
      if s.isCurrent q.handle then (s.evictedBy q.handle).toList ++ evictions now (s.redeem q.handle) rest
      else evictions now s rest
    else []

-- A drain takes away exactly the teardowns of the records it evicts; the induction follows
-- the requests, and each redemption is one `Drops` step.
theorem Sound.drops_dequeueGo (now : Nat) :
    ∀ (qs : List Request) (r : Resolver) (n : Nat), r.Sound →
      (∀ q ∈ qs, q.handle.stamp < r.nextStamp) →
      r.mounts.Drops (dequeue.go now r qs n).1.mounts (evictions now r qs)
  | [], r, n, _, _ => Store.Drops.refl r.mounts
  | q :: rest, r, n, hs, hq => by
    have hrest : ∀ q' ∈ rest, q'.handle.stamp < r.nextStamp :=
      fun q' hq' => hq q' (List.mem_cons_of_mem _ hq')
    have hs' := hs.withQueue rest hrest
    by_cases hdue : q.due ≤ now
    · simp only [dequeue.go, evictions, if_pos hdue]
      by_cases hc : ({ r with queue := rest } : Resolver).isCurrent q.handle = true
      · simp only [if_pos hc]
        have d₁ := hs'.drops_redeem q.handle
        have d₂ := Sound.drops_dequeueGo now rest _ (n + 1) (hs'.redeem hc) (by simpa using hrest)
        exact d₁.trans hs.keyed (hs'.redeem hc).keyed d₂
      · simp only [if_neg hc]
        exact Sound.drops_dequeueGo now rest _ n hs' hrest
    · simp only [dequeue.go, evictions, if_neg hdue]
      exact Store.Drops.refl r.mounts

theorem Sound.drops_dequeue (hs : r.Sound) (now : Nat) :
    r.mounts.Drops (r.dequeue now).1.mounts (evictions now r r.queue) :=
  hs.drops_dequeueGo now r.queue r 0 hs.queued

end Steps

/-! ## What an operation takes away -/

/-- The records of `r` that `r'` no longer holds: held in `r`, and not current in `r'`. -/
def Removed (r r' : Resolver) (c : Record) : Prop :=
  r.mounts.get? c.mount.id = some c ∧ r'.isCurrent c.handle = false

section Removal

variable {r r' : Resolver} {c : Record}

theorem removed_iff_of_drops {R : List Record} (d : r.mounts.Drops r'.mounts R)
    (hc : r.mounts.get? c.mount.id = some c) :
    r.Removed r' c ↔ ∃ g ∈ R, Teardown r.mounts.values g c := by
  rw [← d.gone c hc]
  unfold Removed isCurrent
  simp only [Record.handle, hc, true_and]
  cases hg : r'.mounts.get? c.mount.id with
  | none => simp
  | some g =>
    rw [d.eq_of_held hc hg]
    simp

-- A record kept, perhaps with its path remembered, is still current.
theorem Grows.not_removed (hs' : r'.Sound) (hg : Grows r r') : ¬ r.Removed r' c := by
  rintro ⟨hc, hcur⟩
  obtain ⟨g', hg', hl⟩ := hg.keeps _ _ hc
  have h := isCurrent_handle hs'.keyed hg'
  rw [hl.handle, hcur] at h
  cases h

-- An insert under a held ID takes away exactly the teardown of the previous holder: it is
-- retired first, and the new record under the ID has a stamp no earlier record has.
theorem Sound.removed_place_iff (hs : r.Sound) (m : Mount) (hc : r.mounts.get? c.mount.id = some c) :
    r.Removed (r.place m) c ↔ ∃ g ∈ (r.mounts.get? m.id).toList, Teardown r.mounts.values g c := by
  cases hprev : r.mounts.get? m.id with
  | none =>
    simp only [Option.toList_none, List.not_mem_nil, false_and, exists_false, iff_false]
    exact (Keeps.placeFree hs hprev).2.not_removed (Keeps.placeFree hs hprev).1
  | some prev =>
    rw [place_of_held hprev]
    set r₁ := ({ r with redemption := (r.redemption.erase m.id).1 } : Resolver).retire prev.handle
    have hk : ({ r with redemption := (r.redemption.erase m.id).1 } : Resolver).mounts.Keyed :=
      hs.keyed
    have hget : r.mounts.get? prev.handle.id = some prev := by
      rw [show prev.handle.id = m.id from hs.keyed.id_of_get? hprev]
      exact hprev
    have d : r.mounts.Drops r₁.mounts [prev] := drops_retire hk hget rfl
    rw [Option.toList_some, ← removed_iff_of_drops d hc]
    unfold Removed isCurrent
    simp only [Record.handle, hc, true_and, Store.get?_insert]
    split_ifs with hid
    · -- the record under the reused ID is the previous holder, and the new one is newer
      have hcp : c = prev := by
        rw [hid, hprev] at hc
        exact (Option.some.inj hc).symm
      have hlt := hs.stamped _ _ hprev
      rw [← hcp] at hlt
      have hnone : r₁.mounts.get? c.mount.id = none :=
        (d.gone c hc).2 ⟨prev, List.mem_singleton_self _, by rw [hcp]; exact .self⟩
      rw [hnone]
      simp [Nat.ne_of_gt hlt]
    · rfl

end Removal

end Resolver

/-- The records an operation finalizes, each with its teardown: the previous holder of the
ID an insert reuses, and the records a drain of the delete queue evicts from the redemption
cache. -/
def Op.finalized : Op → Resolver → List Record
  | .insert m, r => if m.id = 0 then [] else (r.mounts.get? m.id).toList
  | .dequeue now, r => Resolver.evictions now r r.queue
  | _, _ => []

namespace Resolver

variable {r : Resolver}

theorem Sound.removed_run_iff (hs : r.Sound) (op : Op) {c : Record}
    (hc : r.mounts.get? c.mount.id = some c) :
    r.Removed (op.run r) c ↔ ∃ g ∈ op.finalized r, Teardown r.mounts.values g c := by
  -- the lookups only add records and remember paths
  have lookup : op.Fetches → op.finalized r = [] → (r.Removed (op.run r) c ↔
      ∃ g ∈ op.finalized r, Teardown r.mounts.values g c) := by
    intro hf hnil
    have hk := hs.keeps_of_fetches hf
    rw [hnil]
    simpa using hk.2.not_removed hk.1
  cases op with
  | insert m =>
    rw [run_insert]
    simp only [Op.finalized]
    split_ifs with h0
    · exact removed_iff_of_drops (Store.Drops.refl r.mounts) hc
    · exact hs.removed_place_iff m hc
  | deleteAt id now =>
    simp only [Op.run]
    split
    · rename_i r' h
      obtain ⟨g, -, rfl⟩ := deleteAt_eq h
      exact removed_iff_of_drops (Store.Drops.refl r.mounts) hc
    · exact removed_iff_of_drops (Store.Drops.refl r.mounts) hc
  | dequeue now => exact removed_iff_of_drops (hs.drops_dequeue now) hc
  | resolveMount _ _ _ _ | resolvePath _ _ _ _ | resolveRoot _ _ _ _ | resolveFs _ _ _ _
  | syncCache _ =>
    exact lookup trivial rfl
  | sendStats =>
    rw [show Op.sendStats.run r = r.sendStats.1 from rfl, sendStats_fst]
    exact removed_iff_of_drops (Store.Drops.refl r.mounts) hc
  | environment proc workloads => exact removed_iff_of_drops (Store.Drops.refl r.mounts) hc

-- A union of teardowns is closed under dependence.
theorem removed_closed {r' : Resolver} {R : List Record} (hk : r.mounts.Keyed)
    (hiff : ∀ c, r.mounts.get? c.mount.id = some c →
      (r.Removed r' c ↔ ∃ g ∈ R, Teardown r.mounts.values g c))
    {a c : Record} (ha : r.Removed r' a) (hc : r.mounts.get? c.mount.id = some c)
    (hdep : c.DependsOn a) : r.Removed r' c := by
  obtain ⟨g, hg, ht⟩ := (hiff a ha.1).1 ha
  exact (hiff c hc).2 ⟨g, hg, .dep ht (hk.mem_values_iff.2 hc) hdep⟩

/-- An operation on a reachable cache takes away exactly the teardowns of the records it
finalizes: the previous holder of an ID that an insert reuses, the records a drain of the
delete queue evicts from the redemption cache, and nothing for any other operation. So what
goes is closed under dependence: with a record go the records whose parent it is and, when
it is an overlay, the records on its device. -/
theorem removal_by_finalization {r : Resolver} (hr : Reachable r) (op : Op) :
    (∀ c, r.mounts.get? c.mount.id = some c →
      (r.Removed (op.run r) c ↔ ∃ g ∈ op.finalized r, Teardown r.mounts.values g c)) ∧
    ∀ a c, r.Removed (op.run r) a → r.mounts.get? c.mount.id = some c →
      c.mount.parent = a.mount.id ∨ (a.mount.fsType = "overlay" ∧ c.mount.device = a.mount.device) →
      r.Removed (op.run r) c := by
  have hs := hr.sound
  refine ⟨fun c hc => hs.removed_run_iff op hc, fun a c ha hc hdep => ?_⟩
  have hdep' : c.DependsOn a := by
    simpa [Record.DependsOn, Mount.isOverlay] using hdep
  exact removed_closed hs.keyed (fun c hc => hs.removed_run_iff op hc) ha hc hdep'

theorem removal_by_finalization_remount :
    Sample.mounted.Removed ((Op.insert { Sample.overlay with device := 51 }).run Sample.mounted)
        ⟨Sample.overlay, 1⟩ ∧
      Sample.mounted.Removed ((Op.insert { Sample.overlay with device := 51 }).run Sample.mounted)
        ⟨Sample.procfs, 2⟩ ∧
      Sample.mounted.Removed ((Op.insert { Sample.overlay with device := 51 }).run Sample.mounted)
        ⟨Sample.lower, 3⟩ := by
  obtain ⟨hiff, hclosed⟩ :=
    removal_by_finalization Sample.mounted_reachable (.insert { Sample.overlay with device := 51 })
  -- mounting again under the overlay's ID finalizes the overlay's record
  have hfin : (Op.insert { Sample.overlay with device := 51 }).finalized Sample.mounted =
      [⟨Sample.overlay, 1⟩] := by decide +kernel
  have hoverlay := (hiff ⟨Sample.overlay, 1⟩ (by decide +kernel)).2
    ⟨_, by rw [hfin]; exact List.mem_singleton_self _, .self⟩
  -- with it go the proc filesystem mounted under it and the mount on its device
  exact ⟨hoverlay, hclosed _ _ hoverlay (by decide +kernel) (.inl rfl),
    hclosed _ _ hoverlay (by decide +kernel) (.inr ⟨rfl, rfl⟩)⟩

end Resolver

end MountIndex

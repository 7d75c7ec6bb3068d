import MountIndex.Proofs.Sound
import MountIndex.Resolver.Resolve
import MountIndex.Resolver.Stats

/-!
# Lookups only add

Answering a lookup never takes a record away. Merging a mount table only adds records under
IDs that have none, walking a parent chain only remembers paths, a hit only reorders the
redemption cache, and the counters and the limiter are not part of what a record's life
depends on. `Grows r r'` says this: every record of `r` is still held in `r'`, at most with a
path remembered, a record that is new sits under a free ID with a fresh stamp, the
redemption cache answers every peek alike and the delete queue is the same.
-/

namespace MountIndex

namespace Resolver

/-- `r'` keeps everything of `r` that a record's life depends on, and may hold new records. -/
structure Grows (r r' : Resolver) : Prop where
  keeps : ∀ k g, r.mounts.get? k = some g → ∃ g', r'.mounts.get? k = some g' ∧ g.Later g'
  fresh : ∀ k g', r'.mounts.get? k = some g' → r.mounts.get? k = none → r.nextStamp ≤ g'.stamp
  nextStamp : r.nextStamp ≤ r'.nextStamp
  peek : ∀ k, r'.redemption.peek? k = r.redemption.peek? k
  queue : r'.queue = r.queue

namespace Grows

theorem refl (r : Resolver) : Grows r r where
  keeps := fun _ g hg => ⟨g, hg, Record.Later.refl g⟩
  fresh := fun _ _ hg hn => by rw [hg] at hn; cases hn
  nextStamp := Nat.le_refl _
  peek := fun _ => rfl
  queue := rfl

theorem trans {r s t : Resolver} (h₁ : Grows r s) (h₂ : Grows s t) : Grows r t where
  keeps := by
    intro k g hg
    obtain ⟨g', hg', hl⟩ := h₁.keeps k g hg
    obtain ⟨g'', hg'', hl'⟩ := h₂.keeps k g' hg'
    exact ⟨g'', hg'', hl.trans hl'⟩
  fresh := by
    intro k g'' hg'' hn
    cases hs : s.mounts.get? k with
    | none => exact Nat.le_trans h₁.nextStamp (h₂.fresh k g'' hg'' hs)
    | some g' =>
      obtain ⟨g₂, hg₂, hl⟩ := h₂.keeps k g' hs
      rw [hg''] at hg₂
      cases hg₂
      have hst : g''.stamp = g'.stamp := congrArg Handle.stamp hl.handle
      rw [hst]
      exact h₁.fresh k g' hs hn
  nextStamp := Nat.le_trans h₁.nextStamp h₂.nextStamp
  peek := fun k => (h₂.peek k).trans (h₁.peek k)
  queue := h₂.queue.trans h₁.queue

-- A change that leaves the store, the redemption cache, the queue and the stamps alone.
theorem of_eq {r r' : Resolver} (hm : r'.mounts = r.mounts) (hc : r'.redemption = r.redemption)
    (hq : r'.queue = r.queue) (hn : r'.nextStamp = r.nextStamp) : Grows r r' := by
  obtain ⟨keeps, fresh, -, peek, queue⟩ := refl r
  exact ⟨by rw [hm]; exact keeps, by rw [hm]; exact fresh, Nat.le_of_eq hn.symm,
    by rw [hc]; exact peek, by rw [hq]⟩

end Grows

theorem Sound.of_eq {r r' : Resolver} (hs : r.Sound) (hm : r'.mounts = r.mounts)
    (hc : r'.redemption = r.redemption) (hq : r'.queue = r.queue)
    (hn : r'.nextStamp = r.nextStamp) (hcfg : r'.config = r.config) : r'.Sound where
  keyed := hm ▸ hs.keyed
  filed := by
    unfold Filed
    rw [hc, hm]
    exact hs.filed
  roomy := hc ▸ hs.roomy
  capacity := by rw [hc, hcfg]; exact hs.capacity
  bounded := hc ▸ hs.bounded
  stamped := by rw [hm, hn]; exact hs.stamped
  queued := by rw [hq, hn]; exact hs.queued

/-- `r'` is sound and grows from `r`: what every lookup step keeps. -/
def Keeps (r r' : Resolver) : Prop := r'.Sound ∧ Grows r r'

theorem Keeps.refl {r : Resolver} (hs : r.Sound) : Keeps r r := ⟨hs, Grows.refl r⟩

theorem Keeps.trans {r s t : Resolver} (h₁ : Keeps r s) (h₂ : Keeps s t) : Keeps r t :=
  ⟨h₂.1, h₁.2.trans h₂.2⟩

theorem Keeps.of_eq {r r' : Resolver} (hs : r.Sound) (hm : r'.mounts = r.mounts)
    (hc : r'.redemption = r.redemption) (hq : r'.queue = r.queue)
    (hn : r'.nextStamp = r.nextStamp) (hcfg : r'.config = r.config) : Keeps r r' :=
  ⟨hs.of_eq hm hc hq hn hcfg, Grows.of_eq hm hc hq hn⟩

/-! ## Each lookup step keeps a sound state and only grows it -/

section Steps

variable {r : Resolver}

theorem Keeps.placeFree (hs : r.Sound) {m : Mount} (hfree : r.mounts.get? m.id = none) :
    Keeps r (r.place m) := by
  refine ⟨hs.place m, ?_⟩
  rw [place_of_free hfree]
  refine ⟨?_, ?_, Nat.le_succ _, fun _ => rfl, rfl⟩
  · intro k g hg
    have hne : k ≠ m.id := by
      rintro rfl
      rw [hfree] at hg
      cases hg
    exact ⟨g, by simp [Store.get?_insert, hne, hg], Record.Later.refl g⟩
  · intro k g' hg' hn
    simp only [Store.get?_insert] at hg'
    split at hg'
    · cases hg'
      exact Nat.le_refl _
    · rw [hg'] at hn
      cases hn

-- A merge relates a state to the one it leaves by any transitive relation that placing an entry
-- of the table under a free ID satisfies: merging a mount table puts records only under IDs that
-- have none.
theorem merge_rel (R : Resolver → Resolver → Prop) (Inv : Resolver → Prop)
    (refl : ∀ s, Inv s → R s s) (trans : ∀ {s t u}, R s t → R t u → R s u)
    (inv : ∀ {s t}, R s t → Inv t)
    (place : ∀ s (e : Table.Entry), Inv s → s.mounts.get? e.mountId = none → R s (s.place e.toMount))
    (hr : Inv r) (entries : List Table.Entry) : R r (r.merge entries).1 := by
  unfold Resolver.merge
  suffices h : ∀ (acc : Resolver × Nat), R r acc.1 →
      R r (entries.foldl (fun (acc : Resolver × Nat) e =>
        if acc.1.mounts.contains e.mountId then acc else (acc.1.place e.toMount, acc.2 + 1)) acc).1 from
    h (r, 0) (refl r hr)
  induction entries with
  | nil => exact fun _ h => h
  | cons e rest ih =>
    intro acc hacc
    rw [List.foldl_cons]
    apply ih
    split
    · exact hacc
    · rename_i hc
      have hfree : acc.1.mounts.get? e.mountId = none := by simpa [Store.contains] using hc
      exact trans hacc (place acc.1 e (inv hacc) hfree)

-- Reading the candidates' tables relates a state to the one it leaves by any transitive
-- relation that logging a read and merging a table satisfy.
theorem syncPids_rel (R : Resolver → Resolver → Prop) (Inv : Resolver → Prop)
    (refl : ∀ s, Inv s → R s s) (trans : ∀ {s t u}, R s t → R t u → R s u)
    (inv : ∀ {s t}, R s t → Inv t) (proc : ∀ s (p : Proc), Inv s → R s { s with proc := p })
    (merge : ∀ s entries, Inv s → R s (s.merge entries).1)
    (hr : Inv r) (pids : List Nat) : R r (r.syncPids pids).1 := by
  unfold Resolver.syncPids
  suffices h : ∀ (pids : List Nat) (s : Resolver) (last : Option MountError), Inv s →
      R s (syncPids.go s pids last).1 from h pids r none hr
  intro pids
  induction pids with
  | nil => exact fun s _ hs => refl s hs
  | cons pid rest ih =>
    intro s last hs
    unfold syncPids.go
    dsimp only
    have h₀ := proc s (s.proc.readTable pid).1 hs
    split
    · exact trans h₀ (merge _ _ (inv h₀))
    · exact trans h₀ (ih _ _ (inv h₀))

theorem Keeps.merge (hs : r.Sound) (entries : List Table.Entry) : Keeps r (r.merge entries).1 :=
  merge_rel Keeps Sound (fun _ hs => Keeps.refl hs) Keeps.trans (fun h => h.1)
    (fun _ _ hs hfree => Keeps.placeFree hs hfree) hs entries

theorem Keeps.remember (hs : r.Sound) (id : Nat) (p : String) : Keeps r (r.remember id p) := by
  have hget : ∀ k, (r.remember id p).mounts.get? k =
      if k = id then (r.mounts.get? k).map fun g => { g with mount := g.mount.remember p }
      else r.mounts.get? k := fun k => Store.get?_modify _ _ _ _
  refine ⟨?_, ?_⟩
  · refine ⟨@Store.keyed_modify r.mounts hs.keyed id (fun g => { g with mount := g.mount.remember p })
      (fun g => Mount.id_remember g.mount p), ?_, hs.roomy,
      hs.capacity, hs.bounded, ?_, hs.queued⟩
    · intro e he
      obtain ⟨g, hg, hv⟩ := hs.filed e he
      by_cases hk : e.1 = id
      · refine ⟨{ g with mount := g.mount.remember p }, by rw [hget, if_pos hk, hg]; rfl, ?_⟩
        rw [hv]
        simp [Record.handle, Mount.id_remember]
      · exact ⟨g, by simp [hget, hk, hg], hv⟩
    · intro k g hg
      rw [hget] at hg
      split at hg
      · obtain ⟨g₀, hg₀, rfl⟩ := Option.map_eq_some_iff.1 hg
        exact hs.stamped k g₀ hg₀
      · exact hs.stamped k g hg
  · refine ⟨?_, ?_, Nat.le_refl _, fun _ => rfl, rfl⟩
    · intro k g hg
      by_cases hk : k = id
      · exact ⟨{ g with mount := g.mount.remember p }, by rw [hget, if_pos hk, hg]; rfl,
          Or.inr ⟨p, rfl⟩⟩
      · exact ⟨g, by simp [hget, hk, hg], Record.Later.refl g⟩
    · intro k g' hg' hn
      rw [hget] at hg'
      split at hg' <;> simp [hn] at hg'

theorem Keeps.descend (hs : r.Sound) (base : String) (chain : List Mount) :
    Keeps r (r.descend base chain).1 := by
  induction chain generalizing r base with
  | nil => exact Keeps.refl hs
  | cons m rest ih =>
    unfold Resolver.descend
    dsimp only
    split
    · exact Keeps.refl hs
    · have h₁ := Keeps.remember hs m.id (Path.join base m.mountPoint)
      exact h₁.trans (ih h₁.1 _)

theorem Keeps.mountPath (hs : r.Sound) (id : Nat) : Keeps r (r.mountPath id).1 := by
  unfold Resolver.mountPath
  split
  · exact Keeps.descend hs _ _
  · exact Keeps.refl hs

theorem Keeps.touch (hs : r.Sound) (id : Nat) :
    Keeps r { r with redemption := (r.redemption.touch id).1 } := by
  obtain ⟨keeps, fresh, -, -, -⟩ := Grows.refl r
  refine ⟨⟨hs.keyed, ?_, by simpa using hs.roomy, by simpa using hs.capacity, ?_, hs.stamped,
    hs.queued⟩, ⟨keeps, fresh, Nat.le_refl _, fun k => Lru.peek?_touch _ _ k, rfl⟩⟩
  · intro e he
    exact hs.filed e (Lru.mem_of_mem_touch he)
  · simpa using Nat.le_trans (Lru.size_touch_le r.redemption id) hs.bounded

theorem Keeps.syncPids (hs : r.Sound) (pids : List Nat) : Keeps r (r.syncPids pids).1 :=
  syncPids_rel Keeps Sound (fun _ hs => Keeps.refl hs) Keeps.trans (fun h => h.1)
    (fun _ _ hs => Keeps.of_eq hs rfl rfl rfl rfl rfl) (fun _ entries hs => Keeps.merge hs entries) hs pids

theorem Keeps.syncCache (hs : r.Sound) (pid : Nat) : Keeps r (r.syncCache pid).1 := by
  have h₁ := Keeps.syncPids hs [pid]
  unfold Resolver.syncCache
  dsimp only
  split
  · refine h₁.trans ?_
    unfold refreshFloor
    split
    · split
      · exact Keeps.of_eq h₁.1 rfl rfl rfl rfl rfl
      · exact Keeps.refl h₁.1
    · exact Keeps.refl h₁.1
  · exact h₁

theorem Keeps.fallbackFailed (hs : r.Sound) (id now : Nat) : Keeps r (r.fallbackFailed id now) :=
  Keeps.of_eq hs rfl rfl rfl rfl rfl

-- Sending the statistics resets the counters and the limiter's tallies, whatever the sink does.
theorem sendStats_fst (r : Resolver) :
    r.sendStats.1 = { r with counters := {}, limiter := r.limiter.takeStats.1 } := by
  unfold Resolver.sendStats
  dsimp only
  split
  · rfl
  · rfl
  · split
    · split <;> rfl
    · rfl

theorem Keeps.sendStats (hs : r.Sound) : Keeps r r.sendStats.1 := by
  rw [sendStats_fst]
  exact Keeps.of_eq hs rfl rfl rfl rfl rfl

-- A lookup relates a state to the one it leaves by any transitive relation that each of its
-- steps satisfies: the search of the store, the counters and the limiter, the reordering of
-- the redemption cache on a hit, and the reading of mount tables.
theorem resolveWith_rel {α : Type} (R : Resolver → Resolver → Prop) (Inv : Resolver → Prop)
    (refl : ∀ s, Inv s → R s s) (trans : ∀ {s t u}, R s t → R t u → R s u)
    (inv : ∀ {s t}, R s t → Inv t)
    (quiet : ∀ s (l : Limiter) (c : Counters), Inv s → R s { s with limiter := l, counters := c })
    (touch : ∀ s k, Inv s → R s { s with redemption := (s.redemption.touch k).1 })
    (sync : ∀ s pids, Inv s → R s (s.syncPids pids).1)
    (find : Resolver → Resolver × Except MountError α) (hfind : ∀ s, Inv s → R s (find s).1)
    (hr : Inv r) (id pid : Nat) (container : String) (now : Nat) :
    R r (r.resolveWith id pid container now find).1 := by
  have hfound : ∀ s s' res, Inv s → find s = (s', res) → R s s' := by
    intro s s' res hs h
    simpa [h] using hfind s hs
  have hsync : ∀ s s' pids res, Inv s → s.syncPids pids = (s', res) → R s s' := by
    intro s s' pids res hs h
    simpa [h] using sync s pids hs
  have hcount : ∀ s (c : Counters), Inv s → R s { s with counters := c } :=
    fun s c hs => quiet s s.limiter c hs
  unfold Resolver.resolveWith
  split
  · exact refl r hr
  · split
    next r₁ v heq =>
      have h₁ := hfound r r₁ _ hr heq
      dsimp only
      split
      · have h₂ := touch r₁ id (inv h₁)
        exact trans h₁ (trans h₂ (hcount _ _ (inv h₂)))
      · exact trans h₁ (hcount _ _ (inv h₁))
    next r₁ _ heq =>
      have h₁ := hfound r r₁ _ hr heq
      -- until the mount tables are read only the counters and the limiter change
      have hc : ∀ l c, R r₁ { r₁ with limiter := l, counters := c } :=
        fun l c => quiet r₁ l c (inv h₁)
      dsimp only
      split
      · exact trans h₁ (hcount _ _ (inv h₁))
      · split
        · exact trans h₁ (hc _ _)
        · split
          · exact trans h₁ (trans (hc _ _) (quiet _ _ _ (inv (hc _ _))))
          · split
            next r₄ e heq₄ =>
              have h₄ := hsync _ _ _ _ (inv (hc _ _)) heq₄
              exact trans h₁ (trans (hc _ _) (trans h₄ (quiet _ _ _ (inv h₄))))
            next r₄ n heq₄ =>
              have h₄ := hsync _ _ _ _ (inv (hc _ _)) heq₄
              split
              next r₅ v heq₅ =>
                have h₅ := hfound r₄ r₅ _ (inv h₄) heq₅
                exact trans h₁ (trans (hc _ _) (trans h₄ (trans h₅ (hcount _ _ (inv h₅)))))
              next r₅ e heq₅ =>
                have h₅ := hfound r₄ r₅ _ (inv h₄) heq₅
                exact trans h₁ (trans (hc _ _) (trans h₄ (trans h₅ (hcount _ _ (inv h₅)))))
    next r₁ e _ heq =>
      exact hfound r r₁ _ hr heq

-- A lookup whose search of the store answers at once is a hit: after the search it touches
-- the ID's redemption entry and counts a cache hit, and nothing else changes.
theorem resolveWith_of_found {α : Type} {id pid : Nat} {container : String} {now : Nat}
    {find : Resolver → Resolver × Except MountError α} {r₁ : Resolver} {v : α}
    (hv : r.validate id = .ok ()) (hf : find r = (r₁, .ok v)) :
    r.resolveWith id pid container now find =
      ({ r₁ with
          redemption := if r₁.redemption.contains id then (r₁.redemption.touch id).1 else r₁.redemption
          counters := { r₁.counters with cacheHits := r₁.counters.cacheHits + 1 } }, .ok v) := by
  unfold resolveWith
  rw [hv, hf]
  by_cases hc : r₁.redemption.contains id <;> simp [hc]

-- A lookup keeps a sound state and only grows it, whenever its search of the store does.
theorem Keeps.resolveWith {α : Type} (hs : r.Sound) (id pid : Nat) (container : String)
    (now : Nat) (find : Resolver → Resolver × Except MountError α)
    (hfind : ∀ s, s.Sound → Keeps s (find s).1) :
    Keeps r (r.resolveWith id pid container now find).1 :=
  resolveWith_rel Keeps Sound (fun _ hs => Keeps.refl hs) Keeps.trans (fun h => h.1)
    (fun _ _ _ hs => Keeps.of_eq hs rfl rfl rfl rfl rfl) (fun _ k hs => Keeps.touch hs k)
    (fun _ pids hs => Keeps.syncPids hs pids) find hfind hs id pid container now

theorem Keeps.resolveMount (hs : r.Sound) (id pid : Nat) (container : String) (now : Nat) :
    Keeps r (r.resolveMount id pid container now).1 :=
  Keeps.resolveWith hs id pid container now _ fun _ hs => Keeps.refl hs

theorem Keeps.resolvePath (hs : r.Sound) (id pid : Nat) (container : String) (now : Nat) :
    Keeps r (r.resolvePath id pid container now).1 :=
  Keeps.resolveWith hs id pid container now _ fun _ hs => Keeps.mountPath hs id

end Steps

end Resolver

end MountIndex

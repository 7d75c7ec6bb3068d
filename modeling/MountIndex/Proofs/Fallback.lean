import MountIndex.Proofs.Hit

/-!
# Fallback accounting

A lookup is counted in two places: the cache's counters (hits and misses answered from the
cache, hits and misses after reading mount tables) and the limiter's (fallbacks allowed and
dropped). `MissCount` says how one lookup that misses the cache is counted: the miss itself
always, then nothing more with fallback off; a dropped fallback when the limiter refuses; and
when it allows one, a procfs miss with one more charge to the limiter if no candidate's table
can be read, or else exactly one procfs hit or miss.

Only an allowed fallback counts a procfs hit or miss, and each counts exactly one; the store
operations touch neither counters nor limiter (`Quiet`), and a flush zeroes both. So in every
reachable state the procfs hits and misses add up to the fallbacks the limiter allowed.
-/

namespace MountIndex

namespace Limiter

variable (l : Limiter) (key now : Nat)

theorem stats_bucketAt : (l.bucketAt key now).1.stats = l.stats := rfl

-- A check counts an allowed or a dropped attempt, as it answers.
theorem stats_allow :
    (l.allow key now).1.stats =
      if (l.allow key now).2 then { l.stats with allowed := l.stats.allowed + 1 }
      else { l.stats with dropped := l.stats.dropped + 1 } := by
  unfold allow
  rcases hb : l.bucketAt key now with ⟨l', b⟩
  have hst : l'.stats = l.stats := by rw [← stats_bucketAt l key now, hb]
  by_cases ht : 0 < b.tokens <;> simp [ht, hst]

theorem stats_charge : (l.charge key now).stats = { l.stats with dropped := l.stats.dropped + 1 } :=
  rfl

end Limiter

namespace Proc

theorem readTable_fst (p : Proc) (pid : Nat) :
    (p.readTable pid).1 = { p with log := p.log.map (· ++ [pid]) } := by
  unfold readTable
  dsimp only
  split <;> rfl

-- What a read answers does not depend on the log of earlier reads.
theorem readTable_snd_readTable (p : Proc) (q pid : Nat) :
    ((p.readTable q).1.readTable pid).2 = (p.readTable pid).2 := by
  rw [readTable_fst]
  simp only [readTable, tablePath]
  split <;> rfl

end Proc

namespace Resolver

/-! ## Reading the tables of the candidates -/

section Sync

-- Reading ends in failure only when no candidate's table can be read.
theorem syncPids_go_error : ∀ (pids : List Nat) (r : Resolver) (last : Option MountError)
    (e : MountError), (syncPids.go r pids last).2 = .error e →
      ∀ p ∈ pids, ∀ T, (r.proc.readTable p).2 ≠ .ok T
  | [], _, _, _, _ => by simp
  | pid :: rest, r, last, e, h => by
    intro p hp T hT
    unfold syncPids.go at h
    rcases hread : r.proc.readTable pid with ⟨proc, res⟩
    rw [hread] at h
    cases res with
    | ok entries => cases h
    | error e' =>
      rcases List.mem_cons.1 hp with rfl | hp
      · rw [hread] at hT
        cases hT
      · refine syncPids_go_error rest _ _ e h p hp T ?_
        have hproc : proc = (r.proc.readTable pid).1 := by rw [hread]
        rw [hproc, Proc.readTable_snd_readTable]
        exact hT

-- Reading succeeds on a non-empty list of candidates only when one of their tables can be read.
theorem syncPids_go_ok : ∀ (pids : List Nat) (r : Resolver) (last : Option MountError) (n : Nat),
    (syncPids.go r pids last).2 = .ok n → pids ≠ [] →
      ∃ p ∈ pids, ∃ T, (r.proc.readTable p).2 = .ok T
  | [], _, _, _, _, hne => absurd rfl hne
  | pid :: rest, r, last, n, h, _ => by
    unfold syncPids.go at h
    rcases hread : r.proc.readTable pid with ⟨proc, res⟩
    rw [hread] at h
    cases res with
    | ok T => exact ⟨pid, List.mem_cons_self .., T, by rw [hread]⟩
    | error e =>
      -- the last candidate failing leaves its failure as the answer
      have hrest : rest ≠ [] := by
        rintro rfl
        cases h
      obtain ⟨p, hp, T, hT⟩ := syncPids_go_ok rest _ _ n h hrest
      have hproc : proc = (r.proc.readTable pid).1 := by rw [hread]
      rw [hproc, Proc.readTable_snd_readTable] at hT
      exact ⟨p, List.mem_cons_of_mem _ hp, T, hT⟩

end Sync

/-! ## Operations that leave the counters and the limiter alone -/

/-- `r'` has the counters and the limiter of `r`. -/
def Quiet (r r' : Resolver) : Prop :=
  r'.counters = r.counters ∧ r'.limiter = r.limiter

namespace Quiet

variable {r s t : Resolver}

theorem refl (r : Resolver) : Quiet r r := ⟨rfl, rfl⟩

theorem trans (h₁ : Quiet r s) (h₂ : Quiet s t) : Quiet r t :=
  ⟨h₂.1.trans h₁.1, h₂.2.trans h₁.2⟩

theorem retire (r : Resolver) (h : Handle) : Quiet r (r.retire h) := by
  rw [retire_eta]
  exact refl r

theorem place (r : Resolver) (m : Mount) : Quiet r (r.place m) := by
  cases hprev : r.mounts.get? m.id with
  | none =>
    rw [place_of_free hprev]
    exact refl r
  | some prev =>
    rw [place_of_held hprev]
    have h := retire ({ r with redemption := (r.redemption.erase m.id).1 } : Resolver) prev.handle
    exact ⟨h.1, h.2⟩

theorem merge (r : Resolver) (entries : List Table.Entry) : Quiet r (r.merge entries).1 :=
  merge_rel Quiet (fun _ => True) (fun s _ => refl s) trans (fun _ => trivial)
    (fun s e _ _ => place s e.toMount) trivial entries

theorem syncPids (r : Resolver) (pids : List Nat) : Quiet r (r.syncPids pids).1 :=
  syncPids_rel Quiet (fun _ => True) (fun s _ => refl s) trans (fun _ => trivial)
    (fun _ _ _ => ⟨rfl, rfl⟩) (fun s entries _ => merge s entries) trivial pids

theorem of_syncPids_eq {pids : List Nat} {r' : Resolver} {res : Except MountError Nat}
    (h : r.syncPids pids = (r', res)) : Quiet r r' := by
  have hq := syncPids r pids
  rw [h] at hq
  exact hq

theorem redeem (r : Resolver) (h : Handle) : Quiet r (r.redeem h) := by
  rw [redeem_eq]
  split
  · exact retire _ _
  · exact refl r

theorem dequeueGo (now : Nat) :
    ∀ (qs : List Request) (r : Resolver) (n : Nat), Quiet r (dequeue.go now r qs n).1
  | [], r, _ => refl r
  | q :: rest, r, n => by
    unfold dequeue.go
    split
    · dsimp only
      split
      · exact (redeem ({ r with queue := rest } : Resolver) q.handle).trans
          (dequeueGo now rest _ (n + 1))
      · exact dequeueGo now rest _ n
    · exact refl r

theorem descend (r : Resolver) (base : String) (chain : List Mount) :
    Quiet r (r.descend base chain).1 := by
  induction chain generalizing r base with
  | nil => exact refl r
  | cons m rest ih =>
    unfold Resolver.descend
    dsimp only
    split
    · exact refl r
    · exact ih _ _

theorem mountPath (r : Resolver) (id : Nat) : Quiet r (r.mountPath id).1 := by
  unfold Resolver.mountPath
  split
  · exact descend _ _ _
  · exact refl r

theorem refreshFloor (r : Resolver) : Quiet r r.refreshFloor := by
  unfold Resolver.refreshFloor
  split
  · split
    · exact refl r
    · exact refl r
  · exact refl r

theorem syncCache (r : Resolver) (pid : Nat) : Quiet r (r.syncCache pid).1 := by
  unfold Resolver.syncCache
  dsimp only
  split
  · exact (syncPids r [pid]).trans (refreshFloor _)
  · exact syncPids r [pid]

end Quiet

/-! ## How one miss is counted -/

/-- How a lookup of `id` at the instant `now`, for an event of process `pid` in `container`,
that missed the cache of `r` is counted: the counters `c` and the limiter `l` it leaves. -/
inductive MissCount (r : Resolver) (id pid : Nat) (container : String) (now : Nat) :
    Counters → Limiter → Prop
  /-- with fallback off only the miss counts, and the limiter is not asked -/
  | offline : r.config.useProcfs = false →
      MissCount r id pid container now { r.counters with cacheMiss := r.counters.cacheMiss + 1 }
        r.limiter
  /-- a fallback the limiter refuses counts as dropped there -/
  | throttled : r.config.useProcfs = true → (r.limiter.allow id now).2 = false →
      MissCount r id pid container now { r.counters with cacheMiss := r.counters.cacheMiss + 1 }
        (r.limiter.allow id now).1
  /-- an allowed fallback that can read no candidate's table (there may be none) is one procfs
  miss, and charges the limiter once more -/
  | unread : r.config.useProcfs = true → (r.limiter.allow id now).2 = true →
      (∀ p ∈ r.candidates pid container, ∀ T, (r.proc.readTable p).2 ≠ .ok T) →
      MissCount r id pid container now
        { r.counters with
          cacheMiss := r.counters.cacheMiss + 1, procMiss := r.counters.procMiss + 1 }
        ((r.limiter.allow id now).1.charge id now)
  /-- an allowed fallback that reads a table is one procfs hit or one procfs miss, and charges
  nothing more -/
  | read {c : Counters} : r.config.useProcfs = true → (r.limiter.allow id now).2 = true →
      (∃ p ∈ r.candidates pid container, ∃ T, (r.proc.readTable p).2 = .ok T) →
      (c = { r.counters with
              cacheMiss := r.counters.cacheMiss + 1, procHits := r.counters.procHits + 1 } ∨
       c = { r.counters with
              cacheMiss := r.counters.cacheMiss + 1, procMiss := r.counters.procMiss + 1 }) →
      MissCount r id pid container now c (r.limiter.allow id now).1

variable {r : Resolver}

-- A lookup whose search of the store finds no record under some ID is counted as `MissCount`
-- says, in the state the search leaves, provided no search touches the counters or the limiter.
theorem resolveWith_miss {α : Type} {id pid : Nat} {container : String} {now : Nat}
    {find : Resolver → Resolver × Except MountError α} (hquiet : ∀ s, Quiet s (find s).1)
    {r₁ : Resolver} {k : Nat} (hv : r.validate id = .ok ())
    (hf : find r = (r₁, .error (.notFound k))) :
    MissCount r₁ id pid container now (r.resolveWith id pid container now find).1.counters
      (r.resolveWith id pid container now find).1.limiter := by
  unfold resolveWith
  rw [hv, hf]
  dsimp only
  cases hp : r₁.config.useProcfs
  · simp only [Bool.not_false, if_true]
    exact .offline hp
  · simp only [Bool.not_true, Bool.false_eq_true, if_false]
    split
    · rename_i hna
      exact .throttled hp (by simpa using hna)
    · rename_i ha
      have ha' : (r₁.limiter.allow id now).2 = true := by simpa using ha
      split
      · rename_i hemp
        have hnil : r₁.candidates pid container = [] := List.isEmpty_iff.1 hemp
        exact .unread hp ha' (by simp [hnil])
      · rename_i hne
        have hne' : r₁.candidates pid container ≠ [] := fun h => hne (List.isEmpty_iff.2 h)
        split
        · rename_i r₃ e hsync
          have hunread := syncPids_go_error _ _ _ e (congrArg Prod.snd hsync)
          have h₃ := Quiet.of_syncPids_eq hsync
          have hc : r₃.counters = { r₁.counters with cacheMiss := r₁.counters.cacheMiss + 1 } := h₃.1
          have hl : r₃.limiter = (r₁.limiter.allow id now).1 := h₃.2
          dsimp only [fallbackFailed]
          rw [hc, hl]
          exact .unread hp ha' hunread
        · rename_i r₃ n hsync
          have hread := syncPids_go_ok _ _ _ n (congrArg Prod.snd hsync) hne'
          have h₃ := Quiet.of_syncPids_eq hsync
          split
          · rename_i r₅ v hfind
            have h₅ : Quiet r₃ r₅ := by simpa [hfind] using hquiet r₃
            have hc : r₅.counters = { r₁.counters with cacheMiss := r₁.counters.cacheMiss + 1 } :=
              h₅.1.trans h₃.1
            have hl : r₅.limiter = (r₁.limiter.allow id now).1 := h₅.2.trans h₃.2
            dsimp only
            rw [hc, hl]
            exact .read hp ha' hread (.inl rfl)
          · rename_i r₅ e hfind
            have h₅ : Quiet r₃ r₅ := by simpa [hfind] using hquiet r₃
            have hc : r₅.counters = { r₁.counters with cacheMiss := r₁.counters.cacheMiss + 1 } :=
              h₅.1.trans h₃.1
            have hl : r₅.limiter = (r₁.limiter.allow id now).1 := h₅.2.trans h₃.2
            dsimp only
            rw [hc, hl]
            exact .read hp ha' hread (.inr rfl)

-- A lookup that fails validation changes nothing.
theorem resolveWith_of_invalid {α : Type} {id pid : Nat} {container : String} {now : Nat}
    {find : Resolver → Resolver × Except MountError α} {e : MountError}
    (hv : r.validate id = .error e) : r.resolveWith id pid container now find = (r, .error e) := by
  unfold resolveWith
  rw [hv]

-- A search that fails otherwise than by a missing ID is answered as it is: no rescan cures it.
theorem resolveWith_of_error {α : Type} {id pid : Nat} {container : String} {now : Nat}
    {find : Resolver → Resolver × Except MountError α} {r₁ : Resolver} {e : MountError}
    (hv : r.validate id = .ok ()) (hf : find r = (r₁, .error e)) (he : ∀ k, e ≠ .notFound k) :
    r.resolveWith id pid container now find = (r₁, .error e) := by
  unfold resolveWith
  rw [hv, hf]
  cases e with
  | notFound k => exact absurd rfl (he k)
  | _ => rfl

theorem lookup_of_none {id : Nat} (hg : r.mounts.get? id = none) : r.lookup id = .error (.notFound id) := by
  unfold lookup
  rw [hg]

-- Joining mount points fails only with an empty path.
theorem joinAll_error {base : String} {chain : List Mount} {e : MountError}
    (h : joinAll base chain = .error e) : ∃ id, e = .pathEmpty id := by
  induction chain generalizing base with
  | nil => cases h
  | cons m rest ih =>
    unfold joinAll at h
    dsimp only at h
    split at h
    · cases h
      exact ⟨m.id, rfl⟩
    · exact ih h

-- A path lookup that misses an ID failed in the walk up, before remembering anything.
theorem mountPath_of_notFound {id k : Nat} (h : (r.mountPath id).2 = .error (.notFound k)) :
    r.mountPath id = (r, .error (.notFound k)) := by
  unfold mountPath at h ⊢
  cases hw : r.walk (r.mounts.size + 2) id [] [] with
  | ok bc =>
    obtain ⟨base, chain⟩ := bc
    rw [hw, descend_snd] at h
    obtain ⟨_, hid⟩ := joinAll_error h
    cases hid
  | error e =>
    rw [hw] at h
    simp only [Except.error.injEq] at h
    rw [h]

/-! ## The procfs hits and misses add up to the allowed fallbacks -/

/-- The procfs hits and misses add up to the fallbacks the limiter allowed. -/
def Tallied (r : Resolver) : Prop :=
  r.counters.procHits + r.counters.procMiss = r.limiter.stats.allowed

theorem Tallied.of_quiet {r' : Resolver} (h : r.Tallied) (hq : Quiet r r') : r'.Tallied := by
  unfold Tallied
  rw [hq.1, hq.2]
  exact h

-- Each way of counting a miss counts one procfs hit or miss exactly when it allows a fallback.
theorem MissCount.tallied {id pid : Nat} {container : String} {now : Nat} {c : Counters}
    {l : Limiter} (hm : MissCount r id pid container now c l) (h : r.Tallied) :
    c.procHits + c.procMiss = l.stats.allowed := by
  unfold Tallied at h
  cases hm with
  | offline => exact h
  | throttled _ ha =>
    rw [Limiter.stats_allow, ha]
    exact h
  | unread _ ha =>
    rw [Limiter.stats_charge, Limiter.stats_allow, ha]
    simp only [if_true]
    omega
  | read _ ha _ hc =>
    rw [Limiter.stats_allow, ha]
    rcases hc with rfl | rfl <;> simp only [if_true] <;> omega

theorem Tallied.resolveWith {α : Type} (h : r.Tallied)
    (find : Resolver → Resolver × Except MountError α) (hquiet : ∀ s, Quiet s (find s).1)
    (id pid : Nat) (container : String) (now : Nat) :
    (r.resolveWith id pid container now find).1.Tallied := by
  cases hv : r.validate id with
  | error e =>
    rw [resolveWith_of_invalid hv]
    exact h
  | ok u =>
    rcases hf : find r with ⟨r₁, res⟩
    have h₁ : r₁.Tallied := h.of_quiet (by simpa [hf] using hquiet r)
    cases res with
    | ok v =>
      rw [resolveWith_of_found hv hf]
      exact h₁
    | error e =>
      by_cases hnf : ∃ k, e = .notFound k
      · obtain ⟨k, rfl⟩ := hnf
        exact (resolveWith_miss hquiet hv hf).tallied h₁
      · rw [resolveWith_of_error hv hf fun k hk => hnf ⟨k, hk⟩]
        exact h₁

theorem Tallied.run (h : r.Tallied) (op : Op) : (op.run r).Tallied := by
  cases op with
  | insert m =>
    rw [run_insert]
    split
    · exact h
    · exact h.of_quiet (Quiet.place r m)
  | deleteAt id now =>
    simp only [Op.run]
    split
    · rename_i r' hd
      obtain ⟨g, -, rfl⟩ := deleteAt_eq hd
      exact h
    · exact h
  | dequeue now => exact h.of_quiet (Quiet.dequeueGo now r.queue r 0)
  | resolveMount id pid container now | resolveRoot id pid container now
  | resolveFs id pid container now =>
    exact h.resolveWith (fun s => (s, s.lookup id)) (fun s => Quiet.refl s) id pid container now
  | resolvePath id pid container now =>
    exact h.resolveWith (fun s => s.mountPath id) (fun s => Quiet.mountPath s id) id pid container
      now
  | syncCache pid => exact h.of_quiet (Quiet.syncCache r pid)
  | sendStats =>
    simp only [Op.run, sendStats_fst]
    rfl
  | environment proc workloads => exact h

theorem Limiter.stats_create {capacity burst : Nat} {period : Duration} {l : Limiter}
    (h : Limiter.create capacity period burst = .ok l) : l.stats = {} := by
  unfold Limiter.create at h
  split at h
  · cases h
  · cases h
    rfl

theorem tallied_create {config : Config} {workloads : Workloads} {proc : Proc} {sink : Sink}
    (h : Resolver.create config workloads proc sink = .ok r) : r.Tallied := by
  unfold Resolver.create at h
  cases hv : config.validate with
  | error e => simp [hv, bind, Except.bind] at h
  | ok c =>
    obtain ⟨rfl, hcap⟩ := validate_ok hv
    simp only [hv, bind, Except.bind, Lru.redemption, if_neg hcap] at h
    split at h
    · cases h
    · rename_i l hl
      cases h
      unfold Tallied
      rw [Limiter.stats_create hl]
      rfl

end Resolver

theorem Reachable.tallied {r : Resolver} (hr : Reachable r) : r.Tallied := by
  induction hr with
  | create hc => exact Resolver.tallied_create hc
  | step op _ ih => exact ih.run op

namespace Resolver

variable {r : Resolver}

/-- In every reachable state, the counters taken since the cache was created or last flushed
them, the procfs hits and misses add up to the fallbacks the limiter allowed. A lookup of a
mount, of its root or filesystem type, or of a path, that passes validation and misses an ID is
counted as `MissCount` says: one cache miss and no hit; with fallback on, exactly one check of
the limiter; when the check allows a fallback that reads no table (no candidate, or every read
fails), one procfs miss and one more charge to the limiter, which counts one more dropped
fallback; when it reads a table, exactly one procfs hit or one procfs miss and no further
charge. -/
theorem fallback_accounting (hr : Reachable r) :
    r.counters.procHits + r.counters.procMiss = r.limiter.stats.allowed ∧
    (∀ id pid container now, r.validate id = .ok () → r.mounts.get? id = none →
      MissCount r id pid container now (r.resolveMount id pid container now).1.counters
        (r.resolveMount id pid container now).1.limiter) ∧
    (∀ id pid container now k, r.validate id = .ok () →
      (r.mountPath id).2 = .error (.notFound k) →
      MissCount r id pid container now (r.resolvePath id pid container now).1.counters
        (r.resolvePath id pid container now).1.limiter) := by
  refine ⟨hr.tallied, fun id pid container now hv hg => ?_,
    fun id pid container now k hv hm => ?_⟩
  · exact resolveWith_miss (fun s => Quiet.refl s) hv (by rw [lookup_of_none hg])
  · exact resolveWith_miss (fun s => Quiet.mountPath s id) hv (mountPath_of_notFound hm)

theorem fallback_accounting_filed :
    Sample.filed.counters.procMiss = 1 ∧
      Sample.filed.counters.procHits + Sample.filed.counters.procMiss =
        Sample.filed.limiter.stats.allowed ∧
      MissCount Sample.filed 98 1 "" 1000000000
        (Sample.filed.resolveMount 98 1 "" 1000000000).1.counters
        (Sample.filed.resolveMount 98 1 "" 1000000000).1.limiter := by
  obtain ⟨htally, hmount, -⟩ := fallback_accounting Sample.filed_reachable
  -- the lookup of ID 99 fell back and read no table; ID 98 is free too
  exact ⟨by decide +kernel, htally,
    hmount 98 1 "" 1000000000 (by decide +kernel) (by decide +kernel)⟩

end Resolver

end MountIndex

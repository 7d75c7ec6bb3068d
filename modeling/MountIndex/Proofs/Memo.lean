import MountIndex.Proofs.Paths
import MountIndex.Proofs.Removal

/-!
# Found paths never go stale

A path a walk found is remembered for good, so it stays right only if the record it was
joined onto stays. It does: a record leaves only with its teardown, which takes every record
hanging from it, and an ID is reused only after its previous record was torn down. So in
every reachable state each found path is the join of the path of the very record it was
joined onto, and `mountPath` answers exactly what a fresh walk, trusting only the paths
records came with, finds.

`Tracked r U` is `Reachable r` with the stamps `U` of the records inserted without a path:
a record read from a mount table comes with its path, as may one inserted.
-/

namespace MountIndex

namespace Store.Drops

variable {s s' : Store Record} {R : List Record}

-- A record that stays keeps the record it hangs from.
theorem parent_kept (d : Drops s s' R) (hk : s.Keyed) {x : Nat} {c : Record}
    (hc : s.get? x = some c) (hc' : s'.get? x ≠ none) (hpar : s.get? c.mount.parent ≠ none) :
    s'.get? c.mount.parent ≠ none := by
  intro hnone
  obtain ⟨P, hP⟩ := Option.ne_none_iff_exists'.1 hpar
  have hPid : P.mount.id = c.mount.parent := hk.id_of_get? hP
  have hx : c.mount.id = x := hk.id_of_get? hc
  have hgone := d.gone_closed hk (by rw [hPid]; exact hP) (by rw [hPid]; exact hnone)
    (by rw [hx]; exact hc) (Or.inl hPid.symm)
  rw [hx] at hgone
  exact hc' hgone

end Store.Drops

namespace Resolver

section Steps

variable {r r' : Resolver} {U : List Nat}

theorem PathsOk.of_eq (h : r.PathsOk U) (hm : r'.mounts = r.mounts) (hf : r'.floor = r.floor)
    (hn : r.nextStamp ≤ r'.nextStamp) : r'.PathsOk U where
  floor k g hg := by rw [hf]; exact h.floor k g (hm ▸ hg)
  used t ht := Nat.lt_of_lt_of_le (h.used t ht) hn
  preset k g hg := h.preset k g (hm ▸ hg)
  found k g p hg hU hp := by
    rw [hm] at hg ⊢
    exact h.found k g p hg hU hp

-- Taking teardowns away keeps every found path: the record it hangs from stays with it.
theorem PathsOk.drops (hs : r.Sound) (h : r.PathsOk U) {R : List Record}
    (d : r.mounts.Drops r'.mounts R) (hf : r'.floor = r.floor) (hn : r.nextStamp ≤ r'.nextStamp) :
    r'.PathsOk U where
  floor k g hg := by rw [hf]; exact h.floor k g (d.sub k g hg)
  used t ht := Nat.lt_of_lt_of_le (h.used t ht) hn
  preset k g hg := h.preset k g (d.sub k g hg)
  found k g p hg hU hp := by
    have hg₀ := d.sub k g hg
    obtain ⟨⟨P, hP, hPr, heq⟩, hF⟩ := h.found k g p hg₀ hU hp
    have hkept := d.parent_kept hs.keyed hg₀ (by rw [hg]; exact Option.some_ne_none g)
      (by rw [hP]; exact Option.some_ne_none P)
    obtain ⟨P', hP'⟩ := Option.ne_none_iff_exists'.1 hkept
    have hPid : P.mount.id = g.mount.parent := hs.keyed.id_of_get? hP
    have hPP : P' = P := d.eq_of_held (by rw [hPid]; exact hP) (by rw [hPid]; exact hP')
    subst hPP
    refine ⟨⟨P', hP', hPr, heq⟩, hF.transfer (fun x c c' hc hc' => ?_) h.preset
      (fun _ _ _ => Iff.rfl) (fun x c hc hc' hpar => d.parent_kept hs.keyed hc hc' hpar)
      (by rw [hg]; exact Option.some_ne_none g)⟩
    rw [d.sub x c' hc'] at hc
    cases hc
    exact Record.Later.refl _

-- A record put under a free ID has a path it came with, or none yet.
theorem PathsOk.placeFree (hs : r.Sound) (h : r.PathsOk U) {m : Mount}
    (hfree : r.mounts.get? m.id = none) :
    (r.place m).PathsOk (if m.path = none then r.nextStamp :: U else U) := by
  set U' := if m.path = none then r.nextStamp :: U else U
  have hgrow := (Keeps.placeFree hs hfree).2
  -- the stamps of the records held before are in `U'` as in `U`
  have hU : ∀ k g, r.mounts.get? k = some g → (g.stamp ∈ U' ↔ g.stamp ∈ U) := by
    intro k g hg
    have hlt := hs.stamped k g hg
    by_cases hp : m.path = none
    · simp only [U', if_pos hp, List.mem_cons]
      exact ⟨fun h' => h'.resolve_left (Nat.ne_of_lt hlt), Or.inr⟩
    · simp only [U', if_neg hp]
  have hnew : r.nextStamp ∈ U' → m.path = none := by
    intro hin
    by_contra hp
    simp only [U', if_neg hp] at hin
    exact Nat.lt_irrefl _ (h.used _ hin)
  rw [place_of_free hfree] at hgrow ⊢
  refine ⟨fun k g hg => ?_, fun t ht => ?_, fun k g hg hgU => ?_, fun k g p hg hgU hp => ?_⟩
  · simp only [Store.get?_insert] at hg
    split at hg
    · rename_i hk
      rw [hk]
      dsimp only
      split <;> omega
    · have := h.floor k g hg
      dsimp only
      split <;> omega
  · have : t = r.nextStamp ∨ t ∈ U := by
      by_cases hp : m.path = none
      · simpa [U', if_pos hp] using ht
      · simp only [U', if_neg hp] at ht
        exact Or.inr ht
    rcases this with rfl | ht
    · exact Nat.lt_succ_self _
    · exact Nat.lt_succ_of_lt (h.used t ht)
  · simp only [Store.get?_insert] at hg
    split at hg
    · cases hg
      rw [Mount.path_normalize]
      cases hp : m.path with
      | none => exact absurd (by simp [U', hp]) hgU
      | some _ => rfl
    · exact h.preset k g hg (fun h' => hgU ((hU k g hg).2 h'))
  · simp only [Store.get?_insert] at hg
    split at hg
    · cases hg
      rw [Mount.path_normalize, hnew hgU] at hp
      cases hp
    · rename_i hk
      obtain ⟨⟨P, hP, hPr, heq⟩, hF⟩ := h.found k g p hg ((hU k g hg).1 hgU) hp
      have hPm : g.mount.parent ≠ m.id := by
        intro he
        rw [he, hfree] at hP
        cases hP
      refine ⟨⟨P, ?_, hPr, heq⟩, hF.of_grows hgrow h.preset hU⟩
      simp only [Store.get?_insert, if_neg hPm]
      exact hP

-- Inserting under a held ID first tears down the record held there, which leaves the ID free.
theorem place_of_held_eq {m : Mount} {prev : Record} (hs : r.Sound)
    (hprev : r.mounts.get? m.id = some prev) :
    r.place m = (({ r with redemption := (r.redemption.erase m.id).1 } : Resolver).retire
      prev.handle).place m := by
  set r₁ := ({ r with redemption := (r.redemption.erase m.id).1 } : Resolver).retire prev.handle
  have hk : ({ r with redemption := (r.redemption.erase m.id).1 } : Resolver).mounts.Keyed := hs.keyed
  have hget : r.mounts.get? prev.handle.id = some prev := by
    rw [show prev.handle.id = m.id from hs.keyed.id_of_get? hprev]
    exact hprev
  have d : r.mounts.Drops r₁.mounts [prev] := drops_retire hk hget rfl
  have hfree : r₁.mounts.get? m.id = none := by
    have hgone := (d.gone prev (by rw [hs.keyed.id_of_get? hprev]; exact hprev)).2
      ⟨prev, List.mem_singleton_self _, .self⟩
    rwa [hs.keyed.id_of_get? hprev] at hgone
  rw [place_of_held hprev, place_of_free hfree]
  simp [r₁]

theorem PathsOk.place (hs : r.Sound) (h : r.PathsOk U) (m : Mount) :
    (r.place m).PathsOk (if m.path = none then r.nextStamp :: U else U) := by
  cases hprev : r.mounts.get? m.id with
  | none => exact h.placeFree hs hprev
  | some prev =>
    rw [place_of_held_eq hs hprev]
    set r₀ : Resolver := { r with redemption := (r.redemption.erase m.id).1 }
    have hs₀ : r₀.Sound := hs.eraseRedemption m.id
    have hk : r₀.mounts.Keyed := hs.keyed
    have hget : r₀.mounts.get? prev.handle.id = some prev := by
      rw [show prev.handle.id = m.id from hs.keyed.id_of_get? hprev]
      exact hprev
    have d : r₀.mounts.Drops (r₀.retire prev.handle).mounts [prev] := drops_retire hk hget rfl
    have h₀ : r₀.PathsOk U := h.of_eq rfl rfl (Nat.le_refl _)
    have h₁ : (r₀.retire prev.handle).PathsOk U := h₀.drops hs₀ d (by simp) (by simp)
    have hfree : (r₀.retire prev.handle).mounts.get? m.id = none := by
      have hgone := (d.gone prev (by rw [hs.keyed.id_of_get? hprev]; exact hprev)).2
        ⟨prev, List.mem_singleton_self _, .self⟩
      rwa [hs.keyed.id_of_get? hprev] at hgone
    have h₂ := h₁.placeFree (hs₀.retire prev.handle) hfree
    simpa [r₀] using h₂

theorem PathsOk.merge (hs : r.Sound) (h : r.PathsOk U) (entries : List Table.Entry) :
    (r.merge entries).1.PathsOk U := by
  -- a record read from a mount table comes with its path, so it adds no stamp to `U`
  have place : ∀ (s : Resolver) (e : Table.Entry), s.Sound ∧ s.PathsOk U →
      s.mounts.get? e.mountId = none → (s.place e.toMount).Sound ∧ (s.place e.toMount).PathsOk U := by
    rintro s e ⟨hs, hp⟩ hfree
    have h' := hp.placeFree hs (m := e.toMount) hfree
    simp only [Table.Entry.toMount, reduceCtorEq, if_false] at h'
    exact ⟨(Keeps.placeFree hs hfree).1, h'⟩
  exact (merge_rel (fun _ t => t.Sound ∧ t.PathsOk U) (fun t => t.Sound ∧ t.PathsOk U)
    (fun _ h => h) (fun _ h => h) id place ⟨hs, h⟩ entries).2

theorem PathsOk.syncPids (hs : r.Sound) (h : r.PathsOk U) (pids : List Nat) :
    (r.syncPids pids).1.PathsOk U :=
  (syncPids_rel (fun _ t => t.Sound ∧ t.PathsOk U) (fun t => t.Sound ∧ t.PathsOk U)
    (fun _ h => h) (fun _ h => h) id
    (fun _ _ ⟨hs, hp⟩ => ⟨hs.of_eq rfl rfl rfl rfl rfl, hp.of_eq rfl rfl (Nat.le_refl _)⟩)
    (fun _ entries ⟨hs, hp⟩ => ⟨(Keeps.merge hs entries).1, hp.merge hs entries⟩) ⟨hs, h⟩ pids).2

-- Setting the kernel floor to the lowest ID held leaves no record below it.
theorem PathsOk.refreshFloor (hs : r.Sound) (h : r.PathsOk U) : r.refreshFloor.PathsOk U := by
  unfold Resolver.refreshFloor
  split
  · rename_i lowest hmin
    split
    · refine ⟨fun k g hg => ?_, h.used, h.preset, h.found⟩
      have hmem : g.mount.id ∈ r.mounts.values.map (·.mount.id) :=
        List.mem_map.2 ⟨g, mem_values_of_get? hs.keyed hg, rfl⟩
      rw [← hs.keyed.id_of_get? hg]
      exact (List.min?_eq_some_iff.1 hmin).2 _ hmem
    · exact h
  · exact h

theorem PathsOk.syncCache (hs : r.Sound) (h : r.PathsOk U) (pid : Nat) :
    (r.syncCache pid).1.PathsOk U := by
  have h₁ := h.syncPids hs [pid]
  have hs₁ := (Keeps.syncPids hs [pid]).1
  unfold Resolver.syncCache
  dsimp only
  split
  · exact h₁.refreshFloor hs₁
  · exact h₁

-- A lookup keeps every found path right whenever its search of the store does.
theorem PathsOk.resolveWith {α : Type} (hs : r.Sound) (h : r.PathsOk U) (id pid : Nat)
    (container : String) (now : Nat) (find : Resolver → Resolver × Except MountError α)
    (hkeeps : ∀ s, s.Sound → Keeps s (find s).1)
    (hfind : ∀ s, s.Sound → s.PathsOk U → (find s).1.PathsOk U) :
    (r.resolveWith id pid container now find).1.PathsOk U :=
  (resolveWith_rel (fun s t => Keeps s t ∧ (s.PathsOk U → t.PathsOk U)) Sound
    (fun _ hs => ⟨Keeps.refl hs, fun hp => hp⟩)
    (fun h₁ h₂ => ⟨h₁.1.trans h₂.1, fun hp => h₂.2 (h₁.2 hp)⟩) (fun h => h.1.1)
    (fun _ _ _ hs => ⟨Keeps.of_eq hs rfl rfl rfl rfl rfl, fun hp => hp.of_eq rfl rfl (Nat.le_refl _)⟩)
    (fun _ k hs => ⟨Keeps.touch hs k, fun hp => hp.of_eq rfl rfl (Nat.le_refl _)⟩)
    (fun _ pids hs => ⟨Keeps.syncPids hs pids, fun hp => hp.syncPids hs pids⟩)
    find (fun s hs => ⟨hkeeps s hs, hfind s hs⟩) hs id pid container now).2 h

theorem PathsOk.resolveMount (hs : r.Sound) (h : r.PathsOk U) (id pid : Nat) (container : String)
    (now : Nat) : (r.resolveMount id pid container now).1.PathsOk U :=
  h.resolveWith hs id pid container now _ (fun _ hs => Keeps.refl hs) (fun _ _ hp => hp)

theorem PathsOk.resolvePath (hs : r.Sound) (h : r.PathsOk U) (id pid : Nat) (container : String)
    (now : Nat) : (r.resolvePath id pid container now).1.PathsOk U :=
  h.resolveWith hs id pid container now _ (fun _ hs => Keeps.mountPath hs id)
    (fun _ hs hp => hp.mountPath hs id)

-- Draining the delete queue changes only the store, the redemption cache and the queue.
theorem dequeueGo_floor (now : Nat) : ∀ (qs : List Request) (r : Resolver) (n : Nat),
    (dequeue.go now r qs n).1.floor = r.floor ∧ (dequeue.go now r qs n).1.nextStamp = r.nextStamp
  | [], _, _ => ⟨rfl, rfl⟩
  | q :: rest, r, n => by
    unfold dequeue.go
    split
    · dsimp only
      split
      · obtain ⟨h₁, h₂⟩ := dequeueGo_floor now rest _ (n + 1)
        rw [h₁, h₂]
        simp
      · exact dequeueGo_floor now rest _ n
    · exact ⟨rfl, rfl⟩

theorem PathsOk.dequeue (hs : r.Sound) (h : r.PathsOk U) (now : Nat) : (r.dequeue now).1.PathsOk U :=
  h.drops hs (hs.drops_dequeue now) (dequeueGo_floor now r.queue r 0).1
    (Nat.le_of_eq (dequeueGo_floor now r.queue r 0).2.symm)

end Steps

end Resolver

/-- The stamp an operation gives a record inserted without a path. -/
def Op.unpathed : Op → Resolver → List Nat
  | .insert m, r => if m.id ≠ 0 ∧ m.path = none then [r.nextStamp] else []
  | _, _ => []

namespace Resolver

variable {r : Resolver} {U : List Nat}

theorem PathsOk.run (hs : r.Sound) (h : r.PathsOk U) (op : Op) :
    (op.run r).PathsOk (op.unpathed r ++ U) := by
  have same : ∀ r' : Resolver, r'.PathsOk U → r'.PathsOk ([] ++ U) := fun _ h => h
  cases op with
  | insert m =>
    rw [run_insert]
    simp only [Op.unpathed]
    by_cases h0 : m.id = 0
    · simpa [h0] using h
    · have hp := h.place hs m
      by_cases hnone : m.path = none <;> simpa [h0, hnone] using hp
  | deleteAt id now =>
    simp only [Op.run, Op.unpathed, List.nil_append]
    split
    · rename_i r' hd
      obtain ⟨g, -, rfl⟩ := deleteAt_eq hd
      exact h.of_eq rfl rfl (Nat.le_refl _)
    · exact h
  | dequeue now => exact same _ (h.dequeue hs now)
  | resolveMount id pid container now => exact same _ (h.resolveMount hs id pid container now)
  | resolvePath id pid container now => exact same _ (h.resolvePath hs id pid container now)
  | resolveRoot id pid container now =>
    rw [run_resolveRoot]
    exact same _ (h.resolveMount hs id pid container now)
  | resolveFs id pid container now =>
    rw [run_resolveFs]
    exact same _ (h.resolveMount hs id pid container now)
  | syncCache pid => exact same _ (h.syncCache hs pid)
  | sendStats =>
    simp only [Op.run, Op.unpathed, List.nil_append, sendStats_fst]
    exact h.of_eq rfl rfl (Nat.le_refl _)
  | environment proc workloads => exact same _ (h.of_eq rfl rfl (Nat.le_refl _))

theorem mounts_create {config : Config} {workloads : Workloads} {proc : Proc} {sink : Sink}
    (h : Resolver.create config workloads proc sink = .ok r) : r.mounts = {} := by
  unfold Resolver.create at h
  cases hv : config.validate with
  | error e => simp [hv, bind, Except.bind] at h
  | ok c =>
    obtain ⟨rfl, hcap⟩ := validate_ok hv
    simp only [hv, bind, Except.bind, Lru.redemption, if_neg hcap] at h
    split at h
    · cases h
    · cases h
      rfl

theorem pathsOk_create {config : Config} {workloads : Workloads} {proc : Proc} {sink : Sink}
    (h : Resolver.create config workloads proc sink = .ok r) : r.PathsOk [] := by
  have hm := mounts_create h
  refine ⟨fun k g hg => ?_, fun t ht => absurd ht List.not_mem_nil, fun k g hg => ?_,
    fun k g p hg => ?_⟩ <;> simp [hm] at hg

end Resolver

/-- The reachable states, each with the stamps of the records inserted without a path. -/
inductive Tracked : Resolver → List Nat → Prop
  | create {config : Config} {workloads : Workloads} {proc : Proc} {sink : Sink} {r : Resolver} :
      Resolver.create config workloads proc sink = .ok r → Tracked r []
  | step {r : Resolver} {U : List Nat} (op : Op) : Tracked r U → Tracked (op.run r) (op.unpathed r ++ U)

namespace Tracked

variable {r : Resolver} {U : List Nat}

theorem reachable (h : Tracked r U) : Reachable r := by
  induction h with
  | create hc => exact .create hc
  | step op _ ih => exact .step op ih

theorem sound_pathsOk (h : Tracked r U) : r.Sound ∧ r.PathsOk U := by
  induction h with
  | create hc => exact ⟨Resolver.sound_create hc, Resolver.pathsOk_create hc⟩
  | step op _ ih => exact ⟨ih.1.run op, ih.2.run ih.1 op⟩

end Tracked

theorem Reachable.tracked {r : Resolver} (h : Reachable r) : ∃ U, Tracked r U := by
  induction h with
  | create hc => exact ⟨[], .create hc⟩
  | step op _ ih =>
    obtain ⟨U, hU⟩ := ih
    exact ⟨_, .step op hU⟩

namespace Resolver

variable {r : Resolver} {U : List Nat}

-- A record that an operation keeps keeps the very record it hangs from: had that one gone,
-- its teardown would have taken this one too.
theorem Sound.parent_stays (hs : r.Sound) (op : Op) {m P : Record}
    (hm : r.mounts.get? m.mount.id = some m) (hP : r.mounts.get? m.mount.parent = some P)
    (hcur : (op.run r).isCurrent m.handle = true) :
    ∃ P', (op.run r).mounts.get? m.mount.parent = some P' ∧ P'.handle = P.handle := by
  have hPid : P.mount.id = m.mount.parent := hs.keyed.id_of_get? hP
  have hP' : r.mounts.get? P.mount.id = some P := by rw [hPid]; exact hP
  have hPcur : (op.run r).isCurrent P.handle = true := by
    by_contra hnot
    have hrem : r.Removed (op.run r) P := ⟨hP', by simpa using hnot⟩
    have hmrem := removed_closed hs.keyed (fun c hc => hs.removed_run_iff op hc) hrem hm
      (Or.inl hPid.symm)
    rw [hmrem.2] at hcur
    cases hcur
  obtain ⟨P', hP'', hh⟩ := (hs.run op).eq_handle_of_current hPcur
  exact ⟨P', by rw [← hPid]; exact hP'', hh⟩

-- A lookup of a path answers what the fresh walk finds, straight from the cache.
theorem PathsOk.resolvePath_of_fresh (h : r.PathsOk U) {id : Nat} {p : String}
    (hf : FreshPath r.mounts U id p) (pid : Nat) (container : String) (now : Nat) :
    (r.resolvePath id pid container now).2 = .ok p := by
  obtain ⟨h0, g, hg⟩ := hf.held
  have hv := validate_of_floor h0 (h.floor id g hg)
  have hm : (r.mountPath id).2 = .ok p := (mountPath_eq_ok_iff h id p).2 hf
  unfold Resolver.resolvePath
  rw [resolveWith_of_found hv (Prod.ext rfl hm)]

/-- In every reachable state, with `U` the stamps of the records inserted without a path: a
record whose path a walk found hangs from the record held under its parent's ID; its path is
the join of that record's path (or `/` for a root without one) onto its mount point, and no
operation that keeps the record puts another record under its parent's ID. The path
`mountPath` answers for an ID is exactly what a fresh walk finds, one that stops only at the
paths records came with and at root mounts; and a lookup of the path answers it too. -/
theorem found_paths_fresh (hr : Tracked r U) :
    (∀ m : Record, r.mounts.get? m.mount.id = some m → m.stamp ∈ U → ∀ p, m.mount.path = some p →
      ∃ P, r.mounts.get? m.mount.parent = some P ∧ (P.mount.path = none → P.mount.isRoot = true) ∧
        p = Path.join (P.mount.path.getD "/") m.mount.mountPoint ∧
        ∀ op : Op, (op.run r).isCurrent m.handle = true →
          ∃ P', (op.run r).mounts.get? m.mount.parent = some P' ∧ P'.handle = P.handle) ∧
    (∀ id p, (r.mountPath id).2 = .ok p ↔ FreshPath r.mounts U id p) ∧
    ∀ id p, FreshPath r.mounts U id p → ∀ pid container now,
      (r.resolvePath id pid container now).2 = .ok p := by
  obtain ⟨hs, h⟩ := hr.sound_pathsOk
  refine ⟨fun m hm hU p hp => ?_, mountPath_eq_ok_iff h, fun id p hf => h.resolvePath_of_fresh hf⟩
  obtain ⟨⟨P, hP, hPr, heq⟩, -⟩ := h.found _ m p hm hU hp
  exact ⟨P, hP, hPr, heq, fun op hcur => hs.parent_stays op hm hP hcur⟩

end Resolver

namespace Sample

theorem mounted_tracked : Tracked mounted [4, 3, 2, 1, 0] :=
  .step _ <| .step _ <| .step _ <| .step _ <| .step _ <| .create create_config

/-- The sample cache once the path of the proc filesystem under the overlay is looked up. -/
def walked : Resolver := (Op.resolvePath 22 1 "" 0).run mounted

end Sample

namespace Resolver

theorem found_paths_fresh_walked :
    ∃ g p, Sample.walked.mounts.get? 22 = some g ∧ g.stamp = 2 ∧ g.mount.path = some p ∧
      ∃ P, Sample.walked.mounts.get? 21 = some P ∧ (P.mount.path = none → P.mount.isRoot = true) ∧
        p = Path.join (P.mount.path.getD "/") "proc" ∧
        ∀ op : Op, (op.run Sample.walked).isCurrent g.handle = true →
          ∃ P', (op.run Sample.walked).mounts.get? 21 = some P' ∧ P'.handle = P.handle := by
  have ht : Tracked Sample.walked [4, 3, 2, 1, 0] := .step _ Sample.mounted_tracked
  have hs := ht.reachable.sound
  -- the walk leaves a path on the record under ID 22, inserted without one
  obtain ⟨g, hg⟩ : ∃ g, Sample.walked.mounts.get? 22 = some g :=
    Option.isSome_iff_exists.1 (by decide +kernel)
  have hfields : (g.stamp, g.mount.parent, g.mount.mountPoint) = (2, 21, "proc") := by
    have h : (Sample.walked.mounts.get? 22).map
        (fun g => (g.stamp, g.mount.parent, g.mount.mountPoint)) = some (2, 21, "proc") := by
      decide +kernel
    rw [hg] at h
    exact Option.some.inj h
  obtain ⟨p, hp⟩ : ∃ p, g.mount.path = some p := by
    have h : ((Sample.walked.mounts.get? 22).bind (·.mount.path)).isSome = true := by decide +kernel
    rw [hg] at h
    exact Option.isSome_iff_exists.1 h
  simp only [Prod.mk.injEq] at hfields
  obtain ⟨hstamp, hparent, hpoint⟩ := hfields
  have hid : g.mount.id = 22 := hs.keyed.id_of_get? hg
  obtain ⟨P, hP, hPr, hjoin, hstay⟩ :=
    (found_paths_fresh ht).1 g (hid ▸ hg) (by rw [hstamp]; decide) p hp
  rw [hparent] at hP hstay
  exact ⟨g, p, hg, hstamp, hp, P, hP, hPr, hpoint ▸ hjoin, hstay⟩

end Resolver

end MountIndex

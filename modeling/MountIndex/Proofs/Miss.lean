import MountIndex.Proofs.Fallback
import MountIndex.Proofs.Walk

/-!
Misses and the procfs fallback. A lookup that finds no record counts a miss; with fallback on
and the limiter allowing the mount ID, the mount tables of the candidate processes are read in
order up to the first that can be read, which alone is merged before the search runs again.
Main statement: `miss_reads_first_table`.
-/

namespace MountIndex

/-- The proc filesystem once the tables of `pids` have been read in order: only the log of
reads grows. -/
def Proc.afterReads (p : Proc) (pids : List Nat) : Proc := { p with log := p.log.map (· ++ pids) }

namespace Proc

theorem readTable_fst_afterReads (p : Proc) (pid : Nat) : (p.readTable pid).1 = p.afterReads [pid] :=
  readTable_fst p pid

theorem afterReads_afterReads (p : Proc) (a b : List Nat) :
    (p.afterReads a).afterReads b = p.afterReads (a ++ b) := by
  simp [afterReads, Option.map_map, Function.comp_def]

-- What a read answers does not depend on the log.
theorem readTable_afterReads (p : Proc) (a : List Nat) (pid : Nat) :
    ((p.afterReads a).readTable pid).2 = (p.readTable pid).2 := by
  simp only [readTable, afterReads, tablePath]
  split <;> rfl

-- Either no table of `pids` reads, or one is the first that does.
theorem unread_or_first_read (p : Proc) : ∀ pids : List Nat,
    (∀ q ∈ pids, ∀ T, (p.readTable q).2 ≠ .ok T) ∨
    ∃ pre q post T, pids = pre ++ q :: post ∧
      (∀ q' ∈ pre, ∀ T', (p.readTable q').2 ≠ .ok T') ∧ (p.readTable q).2 = .ok T
  | [] => .inl (by simp)
  | q :: rest => by
    cases hq : (p.readTable q).2 with
    | ok T => exact .inr ⟨[], q, rest, T, rfl, by simp, hq⟩
    | error e =>
      have hfail : ∀ T, (p.readTable q).2 ≠ .ok T := fun T h => by rw [hq] at h; cases h
      rcases unread_or_first_read p rest with hall | ⟨pre, q', post, T, rfl, hpre, hq'⟩
      · exact .inl (fun q' hq' => (List.mem_cons.1 hq').elim (· ▸ hfail) (hall q'))
      · refine .inr ⟨q :: pre, q', post, T, rfl, fun q'' hq'' => ?_, hq'⟩
        exact (List.mem_cons.1 hq'').elim (· ▸ hfail) (hpre q'')

end Proc

-- Dropping repeats keeps one copy of each member, in their order.
theorem eraseDups_nodup_sublist {α : Type} [BEq α] [LawfulBEq α] :
    ∀ l : List α, l.eraseDups.Nodup ∧ l.eraseDups.Sublist l
  | [] => by simp [List.eraseDups]
  | a :: as => by
    have ih := eraseDups_nodup_sublist (as.filter fun b => !b == a)
    have hsub : (as.filter fun b => !b == a).eraseDups.Sublist as := ih.2.trans List.filter_sublist
    rw [List.eraseDups_cons]
    refine ⟨List.nodup_cons.2 ⟨fun h => ?_, ih.1⟩, hsub.cons_cons a⟩
    have := List.mem_filter.1 (ih.2.subset h)
    simp at this
termination_by l => l.length
decreasing_by exact Nat.lt_succ_of_le (List.length_filter_le _ _)

namespace Resolver

variable {r : Resolver}

/-! ## The candidates -/

section Candidates

variable (r : Resolver) (pid : Nat) (container : String)

theorem candidates_nodup : (r.candidates pid container).Nodup :=
  (eraseDups_nodup_sublist _).1

theorem mem_candidates (q : Nat) :
    q ∈ r.candidates pid container ↔ q ≠ 0 ∧
      (q = pid ∨ q ∈ (r.workloads.find? container).getD (if container.isEmpty then [1] else [])) := by
  unfold candidates
  rw [List.mem_eraseDups, List.mem_filter, List.mem_cons]
  cases r.workloads.find? container <;> simp [and_comm]

theorem candidates_head (hpid : pid ≠ 0) : (r.candidates pid container).head? = some pid := by
  unfold candidates
  dsimp only
  rw [List.filter_cons_of_pos (by simpa using hpid), List.eraseDups_cons]
  rfl

end Candidates

/-! ## Reading the tables in order -/

section Sync

variable {s : Resolver} {q : Nat}

-- A table that cannot be read is logged and passed over.
theorem syncPids_go_skip {e : MountError} (rest : List Nat) (last : Option MountError)
    (h : (s.proc.readTable q).2 = .error e) :
    syncPids.go s (q :: rest) last = syncPids.go { s with proc := s.proc.afterReads [q] } rest (some e) := by
  rw [syncPids.go]
  rcases hread : s.proc.readTable q with ⟨proc, res⟩
  rw [hread] at h
  have hproc : proc = s.proc.afterReads [q] := by rw [← Proc.readTable_fst_afterReads, hread]
  subst h hproc
  rfl

-- The first table that reads is logged and merged, and reading stops there.
theorem syncPids_go_read {T : List Table.Entry} (rest : List Nat) (last : Option MountError)
    (h : (s.proc.readTable q).2 = .ok T) :
    syncPids.go s (q :: rest) last =
      ((({ s with proc := s.proc.afterReads [q] } : Resolver).merge T).1,
        .ok (({ s with proc := s.proc.afterReads [q] } : Resolver).merge T).2) := by
  rw [syncPids.go]
  rcases hread : s.proc.readTable q with ⟨proc, res⟩
  rw [hread] at h
  have hproc : proc = s.proc.afterReads [q] := by rw [← Proc.readTable_fst_afterReads, hread]
  subst h hproc
  rfl

-- Tables that cannot be read are passed over one after another; only their failures differ
-- in what is remembered, and the next read forgets it.
theorem syncPids_go_skipAll (rest : List Nat) : ∀ (pre : List Nat) (s : Resolver)
    (last : Option MountError), (∀ q ∈ pre, ∀ T, (s.proc.readTable q).2 ≠ .ok T) →
    ∃ last', syncPids.go s (pre ++ rest) last =
      syncPids.go { s with proc := s.proc.afterReads pre } rest last'
  | [], s, last, _ => ⟨last, by simp [Proc.afterReads]⟩
  | q :: pre, s, last, hpre => by
    cases hq : (s.proc.readTable q).2 with
    | ok T => exact absurd hq (hpre q (List.mem_cons_self ..) T)
    | error e =>
      have hpre' : ∀ q' ∈ pre, ∀ T, ((s.proc.afterReads [q]).readTable q').2 ≠ .ok T := by
        intro q' hq' T
        rw [Proc.readTable_afterReads]
        exact hpre q' (List.mem_cons_of_mem _ hq') T
      obtain ⟨last', h⟩ := syncPids_go_skipAll rest pre { s with proc := s.proc.afterReads [q] } (some e) hpre'
      refine ⟨last', ?_⟩
      rw [List.cons_append, syncPids_go_skip _ _ hq, h]
      simp only [Proc.afterReads_afterReads, List.singleton_append]

theorem syncPids_first_read {pre post : List Nat} {p : Nat} {T : List Table.Entry}
    (hpre : ∀ q ∈ pre, ∀ T', (s.proc.readTable q).2 ≠ .ok T') (hp : (s.proc.readTable p).2 = .ok T) :
    s.syncPids (pre ++ p :: post) =
      ((({ s with proc := s.proc.afterReads (pre ++ [p]) } : Resolver).merge T).1,
        .ok (({ s with proc := s.proc.afterReads (pre ++ [p]) } : Resolver).merge T).2) := by
  obtain ⟨last, h⟩ := syncPids_go_skipAll (p :: post) pre s none hpre
  have hp' : ((s.proc.afterReads pre).readTable p).2 = .ok T := by
    rw [Proc.readTable_afterReads]
    exact hp
  unfold syncPids
  rw [h, syncPids_go_read (s := { s with proc := s.proc.afterReads pre }) post last hp']
  simp only [Proc.afterReads_afterReads]

theorem syncPids_unread {pre : List Nat} {p : Nat} {e : MountError}
    (hpre : ∀ q ∈ pre, ∀ T, (s.proc.readTable q).2 ≠ .ok T) (hp : (s.proc.readTable p).2 = .error e) :
    s.syncPids (pre ++ [p]) = ({ s with proc := s.proc.afterReads (pre ++ [p]) }, .error e) := by
  obtain ⟨last, h⟩ := syncPids_go_skipAll [p] pre s none hpre
  have hp' : ((s.proc.afterReads pre).readTable p).2 = .error e := by
    rw [Proc.readTable_afterReads]
    exact hp
  unfold syncPids
  rw [h, syncPids_go_skip (s := { s with proc := s.proc.afterReads pre }) [] last hp']
  simp only [syncPids.go, Proc.afterReads_afterReads]

-- Reading a list of tables that is not empty ends one of two ways: no table reads, and the
-- failure of the last is the answer, or one is the first that reads, and it alone is merged.
theorem syncPids_cases (s : Resolver) {pids : List Nat} (hne : pids ≠ []) :
    (∃ pre p e, pids = pre ++ [p] ∧ (∀ q ∈ pre, ∀ T, (s.proc.readTable q).2 ≠ .ok T) ∧
      (s.proc.readTable p).2 = .error e ∧
      s.syncPids pids = ({ s with proc := s.proc.afterReads (pre ++ [p]) }, .error e)) ∨
    (∃ pre p post T, pids = pre ++ p :: post ∧ (∀ q ∈ pre, ∀ T', (s.proc.readTable q).2 ≠ .ok T') ∧
      (s.proc.readTable p).2 = .ok T ∧
      s.syncPids pids =
        ((({ s with proc := s.proc.afterReads (pre ++ [p]) } : Resolver).merge T).1,
          .ok (({ s with proc := s.proc.afterReads (pre ++ [p]) } : Resolver).merge T).2)) := by
  rcases Proc.unread_or_first_read s.proc pids with hall | ⟨pre, p, post, T, rfl, hpre, hp⟩
  · obtain ⟨pre, p, rfl⟩ : ∃ pre p, pids = pre ++ [p] := by
      rcases List.eq_nil_or_concat pids with h | ⟨pre, p, h⟩
      · exact absurd h hne
      · exact ⟨pre, p, by rw [h, List.concat_eq_append]⟩
    have hpre : ∀ q ∈ pre, ∀ T, (s.proc.readTable q).2 ≠ .ok T := fun q hq => hall q (by simp [hq])
    cases hp : (s.proc.readTable p).2 with
    | ok T => exact absurd hp (hall p (by simp) T)
    | error e => exact .inl ⟨pre, p, e, rfl, hpre, hp, syncPids_unread hpre hp⟩
  · exact .inr ⟨pre, p, post, T, rfl, hpre, hp, syncPids_first_read hpre hp⟩

end Sync

/-! ## What a miss leaves -/

/-- `r` with one more cache miss counted. -/
def missed (r : Resolver) : Resolver :=
  { r with counters := { r.counters with cacheMiss := r.counters.cacheMiss + 1 } }

/-- `r` with a miss counted and the limiter asked at `now` whether to fall back for `id`. -/
def asked (r : Resolver) (id now : Nat) : Resolver :=
  { r.missed with limiter := (r.limiter.allow id now).1 }

/-- What a lookup of `id` at `now` for an event of process `pid` in `container` leaves, `out`,
once its search `find` of `r` found no record. With fallback off, or the limiter refusing `id`, the
answer is `notFound id` and no table is read. Otherwise the candidates' tables are read in
order up to the first that can be read, which alone is merged, and the search of the merged
state answers; with no candidate the answer is `notFound id`, and with no table readable it is
the failure of the last. -/
inductive FallsBack {α : Type} (r : Resolver) (id pid : Nat) (container : String) (now : Nat)
    (find : Resolver → Resolver × Except MountError α) : Resolver × Except MountError α → Prop
  | offline : r.config.useProcfs = false →
      FallsBack r id pid container now find (r.missed, .error (.notFound id))
  | throttled : r.config.useProcfs = true → (r.limiter.allow id now).2 = false →
      FallsBack r id pid container now find (r.asked id now, .error (.notFound id))
  | noCandidate : r.config.useProcfs = true → (r.limiter.allow id now).2 = true →
      r.candidates pid container = [] →
      FallsBack r id pid container now find
        ((r.asked id now).fallbackFailed id now, .error (.notFound id))
  | unread {pre : List Nat} {p : Nat} {e : MountError} :
      r.config.useProcfs = true → (r.limiter.allow id now).2 = true →
      r.candidates pid container = pre ++ [p] →
      (∀ q ∈ pre, ∀ T, (r.proc.readTable q).2 ≠ .ok T) → (r.proc.readTable p).2 = .error e →
      FallsBack r id pid container now find
        ({ r.asked id now with proc := r.proc.afterReads (pre ++ [p]) }.fallbackFailed id now,
          .error e)
  | read {pre post : List Nat} {p : Nat} {T : List Table.Entry} {merged : Resolver}
      {out : Resolver × Except MountError α} :
      r.config.useProcfs = true → (r.limiter.allow id now).2 = true →
      r.candidates pid container = pre ++ p :: post →
      (∀ q ∈ pre, ∀ T', (r.proc.readTable q).2 ≠ .ok T') → (r.proc.readTable p).2 = .ok T →
      ({ r.asked id now with proc := r.proc.afterReads (pre ++ [p]) }.merge T).1 = merged →
      out.2 = (find merged).2 → out.1 = { (find merged).1 with counters := out.1.counters } →
      FallsBack r id pid container now find out

theorem resolveWith_fallsBack {α : Type} {id pid : Nat} {container : String} {now : Nat}
    {find : Resolver → Resolver × Except MountError α} {k : Nat}
    (hv : r.validate id = .ok ()) (hf : find r = (r, .error (.notFound k))) :
    FallsBack r id pid container now find (r.resolveWith id pid container now find) := by
  unfold resolveWith
  rw [hv, hf]
  dsimp only
  cases hp : r.config.useProcfs
  · simp only [Bool.not_false, if_true]
    exact .offline hp
  · simp only [Bool.not_true, Bool.false_eq_true, if_false]
    split
    · rename_i hna
      exact .throttled hp (by simpa using hna)
    · rename_i ha
      have ha' : (r.limiter.allow id now).2 = true := by simpa using ha
      split
      · rename_i hemp
        exact .noCandidate hp ha' (List.isEmpty_iff.1 hemp)
      · rename_i hne
        have hne' : r.candidates pid container ≠ [] := fun h => hne (List.isEmpty_iff.2 h)
        split
        · rename_i r₃ e hsync
          change (r.asked id now).syncPids (r.candidates pid container) = (r₃, .error e) at hsync
          rcases syncPids_cases (r.asked id now) hne' with
            ⟨pre, p, e', hc, hpre, hp', hs⟩ | ⟨_, _, _, _, -, -, -, hs⟩
          · rw [hs] at hsync
            simp only [Prod.mk.injEq, Except.error.injEq] at hsync
            obtain ⟨rfl, rfl⟩ := hsync
            exact .unread hp ha' hc hpre hp'
          · rw [hs] at hsync
            simp at hsync
        · rename_i r₃ n hsync
          change (r.asked id now).syncPids (r.candidates pid container) = (r₃, .ok n) at hsync
          rcases syncPids_cases (r.asked id now) hne' with
            ⟨_, _, _, -, -, -, hs⟩ | ⟨pre, p, post, T, hc, hpre, hread, hs⟩
          · rw [hs] at hsync
            simp at hsync
          · rw [hs] at hsync
            obtain ⟨hr₃, -⟩ := Prod.mk.inj hsync
            -- whatever the second search answers, it is the search of the merged state
            split
            · rename_i r₅ v hfind
              exact .read hp ha' hc hpre hread hr₃ (by rw [hfind]) (by rw [hfind])
            · rename_i r₅ e hfind
              exact .read hp ha' hc hpre hread hr₃ (by rw [hfind]) (by rw [hfind])

/-! ## Misses -/

/-- How a lookup goes when the store does not answer it. An invalid ID is refused with no other
effect; a search that fails otherwise than by a missing ID is answered as it failed, with no
table read and nothing counted; a search that misses falls back as `FallsBack` says, over the
candidates: the event's process, then the container's processes, or the init process for an
event outside any container, without 0 and without repeats. -/
theorem miss_reads_first_table (r : Resolver) (id pid : Nat) (container : String) (now : Nat) :
    ((r.candidates pid container).Nodup ∧
      (∀ q, q ∈ r.candidates pid container ↔ q ≠ 0 ∧
        (q = pid ∨ q ∈ (r.workloads.find? container).getD (if container.isEmpty then [1] else []))) ∧
      (pid ≠ 0 → (r.candidates pid container).head? = some pid)) ∧
    (id = 0 → r.resolveMount id pid container now = (r, .error .undefined) ∧
      r.resolvePath id pid container now = (r, .error .undefined)) ∧
    (id ≠ 0 → id < r.floor →
      r.resolveMount id pid container now = (r, .error (.belowFloor id r.floor)) ∧
      r.resolvePath id pid container now = (r, .error (.belowFloor id r.floor))) ∧
    (r.validate id = .ok () → ∀ e, (r.mountPath id).2 = .error e → (∀ k, e ≠ .notFound k) →
      r.resolvePath id pid container now = (r, .error e)) ∧
    (r.validate id = .ok () → r.mounts.get? id = none →
      FallsBack r id pid container now (fun s => (s, s.lookup id))
        (r.resolveMount id pid container now)) ∧
    (r.validate id = .ok () → ∀ k, (r.mountPath id).2 = .error (.notFound k) →
      FallsBack r id pid container now (fun s => s.mountPath id)
        (r.resolvePath id pid container now)) := by
  have hzero : id = 0 → r.validate id = .error .undefined := fun h => by simp [validate, h]
  have hfloor : id ≠ 0 → id < r.floor → r.validate id = .error (.belowFloor id r.floor) :=
    fun h₀ h => by simp [validate, h₀, h]
  refine ⟨⟨candidates_nodup r pid container, mem_candidates r pid container,
      candidates_head r pid container⟩,
    fun h => ⟨resolveWith_of_invalid (hzero h), resolveWith_of_invalid (hzero h)⟩,
    fun h₀ h => ⟨resolveWith_of_invalid (hfloor h₀ h), resolveWith_of_invalid (hfloor h₀ h)⟩,
    fun hv e he hne => resolveWith_of_error hv (Prod.ext (mountPath_error he) he) hne,
    fun hv hg => resolveWith_fallsBack hv (by rw [lookup_of_none hg]),
    fun hv k hk => resolveWith_fallsBack hv (mountPath_of_notFound hk)⟩

theorem miss_reads_first_table_initial :
    Resolver.initial.validate 7 = .ok () ∧ Resolver.initial.mounts.get? 7 = none ∧
    FallsBack Resolver.initial 7 9 "" 1 (fun s => (s, s.lookup 7))
      (Resolver.initial.resolveMount 7 9 "" 1) :=
  ⟨rfl, rfl, (miss_reads_first_table Resolver.initial 7 9 "" 1).2.2.2.2.1 rfl rfl⟩

end Resolver

end MountIndex

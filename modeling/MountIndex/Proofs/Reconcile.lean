import Mathlib.Data.Finset.Card
import MountIndex.Proofs.Fallback
import MountIndex.Proofs.Lifecycle
import MountIndex.Proofs.Lines
import MountIndex.Proofs.Utf8
import MountIndex.Resolver.Report

/-!
# Reconciling with a mount table

Reconciling the cache with a process's mount table first files a delete request for every live
record whose ID the table does not list (`deleteUnlisted`), then inserts every listed mount whose
ID is not live, in two passes over the table (`insertUnlive`). An insert under an ID that still
holds a record retires that record's teardown, which may take records inserted earlier in the
same pass; the second pass puts those back, and retires nothing itself. After the first pass
every listed ID is `Settled`, live or free, and an insert keeps every other ID settled; so the
second pass inserts only into free IDs, which takes nothing away, and leaves every listed ID
live.

`Inserted` is what the passes keep: an ID they did not insert holds the record it held, standing
where it stood, and an ID they inserted holds a record read from the table.
-/

namespace MountIndex

theorem Table.Entry.normalize_toMount (e : Table.Entry) : e.toMount.normalize = e.toMount := by
  simp [Mount.normalize, Table.Entry.toMount]

/-! ## Installed mount tables -/

-- A file reads back the bytes last written to its path.
theorem Files.read_write_self (fs : Files) (path : String) (bytes : List UInt8) :
    (fs.write path bytes).read path = .ok bytes := by
  unfold Files.read Files.write
  have hnone : fs.entries.find? (fun _ => false) = none := List.find?_eq_none.2 (by simp)
  simp [List.find?_append, hnone]

theorem Files.readText_write_self (fs : Files) (path : String) {bytes : List UInt8} {text : String}
    (hd : Text.Utf8.decodeStrict? bytes = some text) :
    (fs.write path bytes).readText path = .ok text := by
  unfold Files.readText
  rw [Files.read_write_self]
  simp only [bind, Except.bind, hd]
  rfl

-- A table installed as the bytes of a text reads as that text.
theorem Proc.readTable_setTable (p : Proc) (pid : Nat) (text : String) :
    ((p.setTable pid text.toUTF8.toList).readTable pid).2 = Table.read (p.tablePath pid) text := by
  have ht : (p.setTable pid text.toUTF8.toList).tablePath pid = p.tablePath pid := rfl
  have hr : (p.setTable pid text.toUTF8.toList).files.readText (p.tablePath pid) = .ok text :=
    Files.readText_write_self _ _ (Text.Utf8.decodeStrict?_toUTF8 text)
  unfold Proc.readTable
  dsimp only
  rw [ht, hr]

namespace Resolver

variable {r : Resolver}

/-! ## Where IDs stand when requests are filed and records inserted -/

section States

-- Requests that name none of a record leave where its ID stands.
theorem stateOf_append_queue {Q : List Request} {k : Nat} {g : Record}
    (hg : r.mounts.get? k = some g) (hQ : ∀ q ∈ Q, q.handle ≠ g.handle) :
    ({ r with queue := r.queue ++ Q } : Resolver).stateOf k = r.stateOf k := by
  have hq : (∃ q ∈ r.queue ++ Q, q.handle = g.handle) ↔ ∃ q ∈ r.queue, q.handle = g.handle := by
    constructor
    · rintro ⟨q, hq, hqg⟩
      rcases List.mem_append.1 hq with hq | hq
      · exact ⟨q, hq, hqg⟩
      · exact absurd hqg (hQ q hq)
    · rintro ⟨q, hq, hqg⟩
      exact ⟨q, List.mem_append_left _ hq, hqg⟩
  rw [stateOf_of_get? hg, stateOf_of_get? (r := { r with queue := r.queue ++ Q }) hg]
  simp only [hq]

-- A request for a live record makes its ID wait.
theorem stateOf_append_request {Q : List Request} {k : Nat} {g : Record}
    (hg : r.mounts.get? k = some g) (hlive : r.stateOf k = .live) (hQ : ∃ q ∈ Q, q.handle = g.handle) :
    ({ r with queue := r.queue ++ Q } : Resolver).stateOf k = .pendingDelete := by
  obtain ⟨g', hg', hpeek, -⟩ := stateOf_eq_live_iff.1 hlive
  rw [hg] at hg'
  cases hg'
  obtain ⟨q, hq, hqg⟩ := hQ
  apply stateOf_eq_pendingDelete_iff.2
  exact ⟨g, hg, hpeek, q, List.mem_append_right _ hq, hqg⟩

theorem place_proc (r : Resolver) (m : Mount) : (r.place m).proc = r.proc := by
  cases hprev : r.mounts.get? m.id with
  | none => rw [place_of_free hprev]
  | some prev =>
    rw [place_of_held hprev, retire_eta]

-- An ID that keeps its record through an insert of another ID stands where it stood.
theorem Sound.stateOf_place_of_ne (hs : r.Sound) (m : Mount) {k : Nat} (hk : k ≠ m.id)
    {c : Record} (hc' : (r.place m).mounts.get? k = some c) : (r.place m).stateOf k = r.stateOf k := by
  have hc := get?_place_of_ne hk hc'
  rw [hs.stateOf_eq hc, (hs.place m).stateOf_eq hc', hs.isSome_peek?_place m hk (by rw [hc']; simp),
    place_queue]

-- An insert into a free ID takes no record away.
theorem get?_place_of_free {m : Mount} (hfree : r.mounts.get? m.id = none) {k : Nat} (hk : k ≠ m.id) :
    (r.place m).mounts.get? k = r.mounts.get? k := by
  rw [place_of_free hfree]
  simp [Store.get?_insert, hk]

end States

/-! ## Filing delete requests for unlisted records -/

section Sweep

/-- Whether reconciling with a table listing `listed` sends a record of `r` to deletion: it is
live and its ID is not listed. -/
def Unlisted (r : Resolver) (listed : List Nat) (g : Record) : Bool :=
  !listed.contains g.mount.id && r.stateOf g.mount.id == .live

theorem unlisted_iff {listed : List Nat} {g : Record} :
    r.Unlisted listed g = true ↔ g.mount.id ∉ listed ∧ r.stateOf g.mount.id = .live := by
  simp [Unlisted]

/-- The delete request filed for a record at the instant `now`. -/
def requestFor (r : Resolver) (now : Nat) (g : Record) : Request :=
  ⟨g.handle, now + r.config.deleteDelay.nanos⟩

-- The sweep files, in order of mount ID, one request for each live record that is not listed,
-- and changes nothing else. The induction runs over the records still to visit; the requests
-- filed so far name none of them, so each still stands where it stood.
theorem deleteUnlisted_eq (hs : r.Sound) (listed : List Nat) (now : Nat) :
    r.deleteUnlisted listed now =
      ({ r with
          queue := r.queue ++ (r.mounts.values.filter (r.Unlisted listed)).map (r.requestFor now) },
        (r.mounts.values.filter (r.Unlisted listed)).length) := by
  unfold deleteUnlisted mountList
  rw [List.foldl_map]
  -- the fold's step, through what it does: it passes over a listed or non-live record and
  -- files a request for any other
  suffices h : ∀ F : Resolver × Nat → Record → Resolver × Nat,
      (∀ s n g, (listed.contains g.mount.id ∨ s.stateOf g.mount.id ≠ .live) → F (s, n) g = (s, n)) →
      (∀ s n g s', ¬ (listed.contains g.mount.id ∨ s.stateOf g.mount.id ≠ .live) →
        s.deleteAt g.mount.id now = .ok s' → F (s, n) g = (s', n + 1)) →
      ∀ (vs : List Record) (Q : List Request),
      (∀ g ∈ vs, r.mounts.get? g.mount.id = some g) → (vs.map (·.mount.id)).Nodup →
      (∀ q ∈ Q, ∀ g ∈ vs, q.handle ≠ g.handle) →
      vs.foldl F (({ r with queue := r.queue ++ Q } : Resolver), Q.length) =
        ({ r with queue := r.queue ++ Q ++ (vs.filter (r.Unlisted listed)).map (r.requestFor now) },
          Q.length + (vs.filter (r.Unlisted listed)).length) by
    have h₀ : ((r, 0) : Resolver × Nat) =
        (({ r with queue := r.queue ++ [] } : Resolver), ([] : List Request).length) := by
      rw [List.append_nil]
      rfl
    rw [h₀]
    refine (h _ ?_ ?_ r.mounts.values [] (fun g hg => (hs.keyed.mem_values_iff).1 hg)
      hs.keyed.nodup_ids (fun q hq => absurd hq List.not_mem_nil)).trans ?_
    · exact fun s n g hc => if_pos hc
    · intro s n g s' hc hd
      dsimp only
      rw [if_neg hc, hd]
    · simp only [List.append_nil, List.length_nil, Nat.zero_add]
  intro F hskip hfile vs
  induction vs with
  | nil => intro Q _ _ _; simp
  | cons g vs ih =>
    intro Q hheld hnd hQ
    have hg := hheld g List.mem_cons_self
    have hnd' := (List.nodup_cons.1 hnd)
    have hstate : ({ r with queue := r.queue ++ Q } : Resolver).stateOf g.mount.id =
        r.stateOf g.mount.id := stateOf_append_queue hg fun q hq => hQ q hq g List.mem_cons_self
    -- a request for `g` names no record still to visit: their IDs differ from `g`'s
    have hreq : ∀ g' ∈ vs, (r.requestFor now g).handle ≠ g'.handle := by
      intro g' hg' heq
      apply hnd'.1
      have hid := congrArg Handle.id heq
      simp only [requestFor, Record.handle] at hid
      exact List.mem_map.2 ⟨g', hg', hid.symm⟩
    rw [List.foldl_cons]
    by_cases hu : r.Unlisted listed g = true
    · have hcond : ¬ (listed.contains g.mount.id = true ∨
          ({ r with queue := r.queue ++ Q } : Resolver).stateOf g.mount.id ≠ .live) := by
        obtain ⟨hk, hl⟩ := unlisted_iff.1 hu
        rw [hstate, hl]
        simpa using hk
      have hdel : ({ r with queue := r.queue ++ Q } : Resolver).deleteAt g.mount.id now =
          .ok { r with queue := r.queue ++ (Q ++ [r.requestFor now g]) } := by
        simp [deleteAt, hg, requestFor]
      rw [hfile _ _ g _ hcond hdel]
      have h' := ih (Q ++ [r.requestFor now g]) (fun g' hg' => hheld g' (List.mem_cons_of_mem _ hg')) hnd'.2
        (by
          intro q hq g' hg'
          rcases List.mem_append.1 hq with hq | hq
          · exact hQ q hq g' (List.mem_cons_of_mem _ hg')
          · rw [List.mem_singleton.1 hq]
            exact hreq g' hg')
      rw [List.length_append, List.length_singleton] at h'
      rw [h', List.filter_cons_of_pos hu]
      simp only [List.map_cons, List.append_assoc, List.singleton_append, List.length_cons]
      rw [Nat.add_right_comm, Nat.add_assoc]
    · have hcond : listed.contains g.mount.id = true ∨
          ({ r with queue := r.queue ++ Q } : Resolver).stateOf g.mount.id ≠ .live := by
        rw [hstate]
        by_cases hl : listed.contains g.mount.id = true
        · exact .inl hl
        · exact .inr fun hlive => hu (unlisted_iff.2 ⟨by simpa using hl, hlive⟩)
      rw [hskip _ _ g hcond, List.filter_cons_of_neg hu]
      exact ih Q (fun g' hg' => hheld g' (List.mem_cons_of_mem _ hg')) hnd'.2
        fun q hq g' hg' => hQ q hq g' (List.mem_cons_of_mem _ hg')

-- After the sweep a held ID stands where it stood, except that one it sent to deletion waits.
theorem Sound.stateOf_sweep (hs : r.Sound) (listed : List Nat) (now : Nat) {k : Nat} {g : Record}
    (hg : r.mounts.get? k = some g) :
    (r.deleteUnlisted listed now).1.stateOf k = if r.Unlisted listed g then .pendingDelete else r.stateOf k := by
  have hid : g.mount.id = k := hs.keyed.id_of_get? hg
  have hgv : g ∈ r.mounts.values := mem_values_of_get? hs.keyed hg
  rw [deleteUnlisted_eq hs _ now]
  split
  · rename_i hu
    refine stateOf_append_request hg ?_ ⟨r.requestFor now g, List.mem_map_of_mem (List.mem_filter.2 ⟨hgv, hu⟩), rfl⟩
    rw [← hid]
    exact (unlisted_iff.1 hu).2
  · rename_i hu
    refine stateOf_append_queue hg fun q hq hqg => hu ?_
    obtain ⟨g', hg', rfl⟩ := List.mem_map.1 hq
    -- the request names a record held under `k`, so it names `g`
    have hsame : g' = g := by
      have hid' : g'.mount.id = k := by
        rw [← hid]
        exact congrArg Handle.id hqg
      have hheld := (hs.keyed.mem_values_iff).1 (List.mem_filter.1 hg').1
      rw [hid', hg] at hheld
      exact (Option.some.inj hheld).symm
    rw [← hsame]
    exact (List.mem_filter.1 hg').2

-- The sweep only files requests, for records the cache holds, so it keeps the cache sound.
theorem Sound.deleteUnlisted (hs : r.Sound) (listed : List Nat) (now : Nat) :
    (r.deleteUnlisted listed now).1.Sound := by
  rw [deleteUnlisted_eq hs _ now]
  refine hs.withQueue _ fun q hq => ?_
  rcases List.mem_append.1 hq with hq | hq
  · exact hs.queued q hq
  · obtain ⟨g, hg, rfl⟩ := List.mem_map.1 hq
    exact hs.stamped _ g ((hs.keyed.mem_values_iff).1 (List.mem_filter.1 hg).1)

-- The sweep counts the live records the table does not list.
theorem Sound.deleteUnlisted_count (hs : r.Sound) (listed : List Nat) (now : Nat) :
    (r.deleteUnlisted listed now).2 =
      (r.mountList.filter fun m => m.id ∉ listed ∧ r.stateOf m.id = .live).length := by
  rw [deleteUnlisted_eq hs _ now]
  unfold mountList
  rw [List.filter_map, List.length_map]
  dsimp only
  congr 1
  apply List.filter_congr
  intro g _
  rw [Bool.eq_iff_iff, unlisted_iff, Function.comp_apply, decide_eq_true_iff]

-- A listed ID stands after the sweep where it stood.
theorem Sound.stateOf_sweep_of_mem (hs : r.Sound) {listed : List Nat} (now : Nat) {k : Nat}
    (hk : k ∈ listed) :
    (r.deleteUnlisted listed now).1.stateOf k = r.stateOf k := by
  cases hg : r.mounts.get? k with
  | none =>
    have hg' : (r.deleteUnlisted listed now).1.mounts.get? k = none := by
      rw [deleteUnlisted_eq hs _ now]
      exact hg
    rw [stateOf_eq_unknown_iff.2 hg, stateOf_eq_unknown_iff.2 hg']
  | some g =>
    have hid : g.mount.id = k := hs.keyed.id_of_get? hg
    rw [hs.stateOf_sweep listed now hg, if_neg]
    intro hu
    exact (unlisted_iff.1 hu).1 (hid ▸ hk)

-- After the sweep a held ID that is not listed waits for deletion or is redeemed: it was live
-- and the sweep filed a request for it, or it was not live, and a held ID that is not live is
-- one of the two.
theorem Sound.waiting_of_sweep (hs : r.Sound) {listed : List Nat} (now : Nat) {k : Nat} {g : Record}
    (hg : r.mounts.get? k = some g) (hk : k ∉ listed) :
    (r.deleteUnlisted listed now).1.stateOf k = .pendingDelete ∨
      (r.deleteUnlisted listed now).1.stateOf k = .redeemed := by
  have hid : g.mount.id = k := hs.keyed.id_of_get? hg
  rw [hs.stateOf_sweep listed now hg]
  split
  · exact .inl rfl
  · rename_i hu
    have hnl : r.stateOf k ≠ .live := fun hl => hu (unlisted_iff.2 ⟨hid ▸ hk, hid ▸ hl⟩)
    have hnu : r.stateOf k ≠ .unknown := by
      rw [Ne, stateOf_eq_unknown_iff, hg]
      simp
    cases hsk : r.stateOf k with
    | unknown => exact absurd hsk hnu
    | live => exact absurd hsk hnl
    | pendingDelete => exact .inl rfl
    | redeemed => exact .inr rfl

-- With no live record left unlisted, the sweep does nothing.
theorem Sound.deleteUnlisted_of_waiting (hs : r.Sound) {listed : List Nat} (now : Nat)
    (h : ∀ k g, r.mounts.get? k = some g → k ∉ listed → r.stateOf k ≠ .live) :
    r.deleteUnlisted listed now = (r, 0) := by
  have hnil : r.mounts.values.filter (r.Unlisted listed) = [] := by
    apply List.filter_eq_nil_iff.2
    intro g hg hu
    obtain ⟨hk, hl⟩ := unlisted_iff.1 hu
    exact h _ g ((hs.keyed.mem_values_iff).1 hg) hk hl
  rw [deleteUnlisted_eq hs _ now, hnil, List.map_nil, List.append_nil]
  rfl

end Sweep

/-! ## The insert passes -/

section Passes

/-- An ID is settled when it is live or holds no record. -/
def Settled (r : Resolver) (k : Nat) : Prop := r.stateOf k = .live ∨ r.mounts.get? k = none

theorem place_nextStamp (r : Resolver) (m : Mount) : (r.place m).nextStamp = r.nextStamp + 1 := by
  unfold place
  split <;> simp

-- An insert keeps every settled ID settled: its own ID becomes live, and any other ID either
-- keeps its record, standing where it stood, or loses it.
theorem Sound.settled_place (hs : r.Sound) (m : Mount) {k : Nat} (h : r.Settled k) :
    (r.place m).Settled k := by
  by_cases hk : k = m.id
  · subst hk
    exact .inl (hs.stateOf_place m)
  · cases hc' : (r.place m).mounts.get? k with
    | none => exact .inr hc'
    | some c =>
      left
      rw [hs.stateOf_place_of_ne m hk hc']
      rcases h with h | h
      · exact h
      · rw [get?_place_of_ne hk hc'] at h
        cases h

-- An insert into a free ID keeps every live ID live.
theorem Sound.live_placeFree (hs : r.Sound) {m : Mount} (hfree : r.mounts.get? m.id = none) {k : Nat}
    (h : r.stateOf k = .live) : (r.place m).stateOf k = .live := by
  have hk : k ≠ m.id := by
    rintro rfl
    rw [stateOf_eq_unknown_iff.2 hfree] at h
    cases h
  obtain ⟨g, hg, -⟩ := stateOf_eq_live_iff.1 h
  rw [hs.stateOf_place_of_ne m hk (by rw [get?_place_of_free hfree hk]; exact hg)]
  exact h

theorem insertUnlive_cons {e : Table.Entry} (h0 : e.mountId ≠ 0) (s : Resolver)
    (rest : List Table.Entry) (ids : List Nat) :
    s.insertUnlive (e :: rest) ids =
      if s.stateOf e.mountId = .live then s.insertUnlive rest ids
      else (s.place e.toMount).insertUnlive rest
        (if ids.contains e.mountId then ids else ids ++ [e.mountId]) := by
  rw [insertUnlive]
  by_cases hl : s.stateOf e.mountId = .live
  · rw [if_neg (not_not.2 hl), if_pos hl]
  · rw [if_pos hl, if_neg hl, insert_eq, if_neg (show e.toMount.id ≠ 0 from h0)]

theorem mem_addId {ids : List Nat} {x k : Nat} :
    k ∈ (if ids.contains x then ids else ids ++ [x]) ↔ k ∈ ids ∨ k = x := by
  split
  · rename_i h
    have hx : x ∈ ids := by simpa using h
    constructor
    · exact .inl
    · rintro (hk | rfl)
      · exact hk
      · exact hx
  · simp

theorem nodup_addId {ids : List Nat} {x : Nat} (h : ids.Nodup) :
    (if ids.contains x then ids else ids ++ [x]).Nodup := by
  split
  · exact h
  · rename_i hx
    exact h.append (List.nodup_singleton x) (by simpa using hx)

/-- What the insert passes of a reconciliation with the table `T` keep, against the state `r₀`
they start from, with `ids` the IDs inserted so far. -/
structure Inserted (r₀ : Resolver) (T : List Table.Entry) (s : Resolver) (ids : List Nat) : Prop where
  sound : s.Sound
  /-- an ID not inserted holds the record it held, standing where it stood, or nothing -/
  kept : ∀ k, k ∉ ids → ∀ g, s.mounts.get? k = some g →
    r₀.mounts.get? k = some g ∧ s.stateOf k = r₀.stateOf k
  /-- an inserted ID holds a new record read from the table, or nothing -/
  fresh : ∀ k ∈ ids, ∀ g, s.mounts.get? k = some g →
    r₀.nextStamp ≤ g.stamp ∧ ∃ e ∈ T, e.mountId = k ∧ g.mount = e.toMount
  listed : ∀ k ∈ ids, ∃ e ∈ T, e.mountId = k
  nodup : ids.Nodup
  stamp : r₀.nextStamp ≤ s.nextStamp
  proc : s.proc = r₀.proc

variable {r₀ s : Resolver} {T : List Table.Entry} {ids : List Nat}

theorem Inserted.start (hs : r₀.Sound) : Inserted r₀ T r₀ [] where
  sound := hs
  kept _ _ _ hg := ⟨hg, rfl⟩
  fresh _ hk := absurd hk List.not_mem_nil
  listed _ hk := absurd hk List.not_mem_nil
  nodup := List.nodup_nil
  stamp := Nat.le_refl _
  proc := rfl

-- One insert of a listed entry keeps `Inserted`, with its ID counted.
theorem Inserted.place (h : Inserted r₀ T s ids) {e : Table.Entry} (he : e ∈ T) :
    Inserted r₀ T (s.place e.toMount) (if ids.contains e.mountId then ids else ids ++ [e.mountId]) where
  sound := h.sound.place _
  kept k hk g hg := by
    have hne : k ≠ e.mountId := fun hke => hk (mem_addId.2 (.inr hke))
    obtain ⟨h₁, h₂⟩ := h.kept k (fun hki => hk (mem_addId.2 (.inl hki))) g (get?_place_of_ne hne hg)
    exact ⟨h₁, (h.sound.stateOf_place_of_ne _ hne hg).trans h₂⟩
  fresh k hk g hg := by
    by_cases hke : k = e.mountId
    · subst hke
      have hg' : (s.place e.toMount).mounts.get? e.toMount.id = some g := hg
      rw [get?_place_self] at hg'
      cases hg'
      exact ⟨h.stamp, e, he, rfl, Table.Entry.normalize_toMount e⟩
    · exact h.fresh k ((mem_addId.1 hk).resolve_right hke) g (get?_place_of_ne hke hg)
  listed k hk := by
    rcases mem_addId.1 hk with hk | rfl
    · exact h.listed k hk
    · exact ⟨e, he, rfl⟩
  nodup := nodup_addId h.nodup
  stamp := by
    rw [place_nextStamp]
    exact Nat.le_succ_of_le h.stamp
  proc := (place_proc _ _).trans h.proc

-- A pass over listed entries keeps `Inserted`, and leaves each entry it visits settled, along
-- with every ID that was settled before it.
theorem Inserted.insertUnlive (h0 : ∀ e ∈ T, e.mountId ≠ 0) :
    ∀ (rest : List Table.Entry) (s : Resolver) (ids : List Nat), (∀ e ∈ rest, e ∈ T) →
      Inserted r₀ T s ids →
      ∃ s' ids', s.insertUnlive rest ids = (s', .ok ids') ∧ Inserted r₀ T s' ids' ∧
        (∀ e ∈ rest, s'.Settled e.mountId) ∧ ∀ k, s.Settled k → s'.Settled k
  | [], s, ids, _, h => ⟨s, ids, rfl, h, fun _ he => absurd he List.not_mem_nil, fun _ hk => hk⟩
  | e :: rest, s, ids, hT, h => by
    have heT := hT e List.mem_cons_self
    have hrest : ∀ e' ∈ rest, e' ∈ T := fun e' he' => hT e' (List.mem_cons_of_mem _ he')
    rw [insertUnlive_cons (h0 e heT)]
    split
    · rename_i hl
      obtain ⟨s', ids', heq, h', hset, hkeep⟩ := Inserted.insertUnlive h0 rest s ids hrest h
      refine ⟨s', ids', heq, h', fun e' he' => ?_, hkeep⟩
      rcases List.mem_cons.1 he' with rfl | he'
      · exact hkeep _ (.inl hl)
      · exact hset e' he'
    · obtain ⟨s', ids', heq, h', hset, hkeep⟩ :=
        Inserted.insertUnlive h0 rest _ _ hrest (h.place heT)
      refine ⟨s', ids', heq, h', fun e' he' => ?_, fun k hk => hkeep k (h.sound.settled_place _ hk)⟩
      rcases List.mem_cons.1 he' with rfl | he'
      · exact hkeep _ (.inl (h.sound.stateOf_place _))
      · exact hset e' he'

-- A pass over listed entries that are all settled inserts only into free IDs: it keeps every
-- live ID live and leaves every entry it visits live.
theorem Inserted.insertUnlive_settled (h0 : ∀ e ∈ T, e.mountId ≠ 0) :
    ∀ (rest : List Table.Entry) (s : Resolver) (ids : List Nat), (∀ e ∈ rest, e ∈ T) →
      Inserted r₀ T s ids → (∀ e ∈ rest, s.Settled e.mountId) →
      ∃ s' ids', s.insertUnlive rest ids = (s', .ok ids') ∧ Inserted r₀ T s' ids' ∧
        (∀ e ∈ rest, s'.stateOf e.mountId = .live) ∧ ∀ k, s.stateOf k = .live → s'.stateOf k = .live
  | [], s, ids, _, h, _ => ⟨s, ids, rfl, h, fun _ he => absurd he List.not_mem_nil, fun _ hk => hk⟩
  | e :: rest, s, ids, hT, h, hset => by
    have heT := hT e List.mem_cons_self
    have hrest : ∀ e' ∈ rest, e' ∈ T := fun e' he' => hT e' (List.mem_cons_of_mem _ he')
    rw [insertUnlive_cons (h0 e heT)]
    split
    · rename_i hl
      obtain ⟨s', ids', heq, h', hlive, hkeep⟩ := Inserted.insertUnlive_settled h0 rest s ids hrest h
        fun e' he' => hset e' (List.mem_cons_of_mem _ he')
      refine ⟨s', ids', heq, h', fun e' he' => ?_, hkeep⟩
      rcases List.mem_cons.1 he' with rfl | he'
      · exact hkeep _ hl
      · exact hlive e' he'
    · rename_i hl
      -- a settled ID that is not live holds no record
      have hfree : s.mounts.get? e.toMount.id = none := (hset e List.mem_cons_self).resolve_left hl
      obtain ⟨s', ids', heq, h', hlive, hkeep⟩ := Inserted.insertUnlive_settled h0 rest _ _ hrest
        (h.place heT) fun e' he' => h.sound.settled_place _ (hset e' (List.mem_cons_of_mem _ he'))
      refine ⟨s', ids', heq, h', fun e' he' => ?_,
        fun k hk => hkeep k (h.sound.live_placeFree hfree hk)⟩
      rcases List.mem_cons.1 he' with rfl | he'
      · exact hkeep _ (h.sound.stateOf_place _)
      · exact hlive e' he'

-- Once every listed ID is live, the IDs the passes inserted are the listed IDs whose record
-- changed: an inserted record is stamped after every record held before, and any other listed
-- ID holds the record it held.
theorem Inserted.mem_iff_changed (hs : r₀.Sound) (hI : Inserted r₀ T s ids)
    (hlive : ∀ e ∈ T, s.stateOf e.mountId = .live) {k : Nat} (hk : k ∈ T.map (·.mountId)) :
    k ∈ ids ↔ (s.mounts.get? k).map (·.handle) ≠ (r₀.mounts.get? k).map (·.handle) := by
  obtain ⟨e, he, rfl⟩ := List.mem_map.1 hk
  obtain ⟨g, hg, -⟩ := stateOf_eq_live_iff.1 (hlive e he)
  rw [hg]
  constructor
  · intro hki
    obtain ⟨hst, -⟩ := hI.fresh _ hki g hg
    cases hg₀ : r₀.mounts.get? e.mountId with
    | none => simp
    | some g₀ =>
      have hlt := hs.stamped _ g₀ hg₀
      intro heq
      have hstamp := congrArg Handle.stamp (Option.some.inj heq)
      simp only [Record.handle] at hstamp
      omega
  · intro hch
    by_contra hki
    obtain ⟨hg₀, -⟩ := hI.kept _ hki g hg
    exact hch (by rw [hg₀])

-- So the passes count the listed IDs whose record changed.
theorem Inserted.length_eq_card_changed (hs : r₀.Sound) (hI : Inserted r₀ T s ids)
    (hlive : ∀ e ∈ T, s.stateOf e.mountId = .live) :
    ids.length = ((T.map (·.mountId)).toFinset.filter fun k =>
      (s.mounts.get? k).map (·.handle) ≠ (r₀.mounts.get? k).map (·.handle)).card := by
  rw [← List.toFinset_card_of_nodup hI.nodup]
  congr 1
  ext k
  simp only [List.mem_toFinset, Finset.mem_filter]
  constructor
  · intro hk
    obtain ⟨e, he, rfl⟩ := hI.listed _ hk
    have hkT := List.mem_map_of_mem (f := Table.Entry.mountId) he
    exact ⟨hkT, (hI.mem_iff_changed hs hlive hkT).1 hk⟩
  · rintro ⟨hkT, hch⟩
    exact (hI.mem_iff_changed hs hlive hkT).2 hch

end Passes

/-! ## Reconciling -/

section Reconcile

-- A pass over entries that are all live inserts nothing.
theorem insertUnlive_of_live {s : Resolver} :
    ∀ (rest : List Table.Entry) (ids : List Nat), (∀ e ∈ rest, s.stateOf e.mountId = .live) →
      s.insertUnlive rest ids = (s, .ok ids)
  | [], _, _ => rfl
  | e :: rest, ids, h => by
    rw [insertUnlive, if_neg (not_not.2 (h e List.mem_cons_self))]
    exact insertUnlive_of_live rest ids fun e' he' => h e' (List.mem_cons_of_mem _ he')

-- Reconciling with a table that can be read is the sweep followed by the two passes.
theorem reconcile_of_passes {pid now : Nat} {T : List Table.Entry} {r₁ s₁ s₂ : Resolver} {n : Nat}
    {ids₁ ids₂ : List Nat} (hT : (r.proc.readTable pid).2 = .ok T)
    (h₁ : ({ r with proc := (r.proc.readTable pid).1 } : Resolver).deleteUnlisted
      (T.map (·.mountId)) now = (r₁, n))
    (h₂ : r₁.insertUnlive T [] = (s₁, .ok ids₁)) (h₃ : s₁.insertUnlive T ids₁ = (s₂, .ok ids₂)) :
    r.reconcile pid now = (s₂, .ok ⟨ids₂.length, n⟩) := by
  unfold reconcile
  rw [show r.proc.readTable pid = ((r.proc.readTable pid).1, .ok T) from Prod.ext rfl hT]
  dsimp only
  rw [h₁]
  dsimp only
  rw [h₂]
  dsimp only
  rw [h₃]

-- A cache already aligned with a readable table, every listed ID live and no other record
-- live, is left as it is by reconciling at any instant: only the source logs the read.
theorem Sound.reconcile_of_aligned (hs : r.Sound) {pid : Nat} (now : Nat) {T : List Table.Entry}
    (hT : (r.proc.readTable pid).2 = .ok T) (hlive : ∀ e ∈ T, r.stateOf e.mountId = .live)
    (hrest : ∀ k g, r.mounts.get? k = some g → k ∉ T.map (·.mountId) → r.stateOf k ≠ .live) :
    r.reconcile pid now = ({ r with proc := (r.proc.readTable pid).1 }, .ok ⟨0, 0⟩) := by
  let s : Resolver := { r with proc := (r.proc.readTable pid).1 }
  have hs' : s.Sound := hs.of_eq rfl rfl rfl rfl rfl
  have hpass : s.insertUnlive T [] = (s, .ok []) := insertUnlive_of_live T [] hlive
  exact reconcile_of_passes hT (hs'.deleteUnlisted_of_waiting now hrest) hpass hpass

/-- Reconciling a reachable cache with a mount table `T` that the process's source reads and
that lists no mount ID 0: afterwards every ID of `T` is live, held by a new record read from
`T` or by the record it held before, which was live then; every other record waits for deletion
or is redeemed; the count of removed records is the number of records that were live and are
not listed, and the count of added ones the number of distinct listed IDs whose record changed;
and reconciling again with the same table adds and removes nothing and changes nothing but the
source's log of reads. Two passes suffice whatever the order of `T` and whatever the first pass
tears down. -/
theorem reconcile_aligns (hr : Reachable r) {pid now : Nat} {T : List Table.Entry}
    (hT : (r.proc.readTable pid).2 = .ok T) (h0 : ∀ e ∈ T, e.mountId ≠ 0) :
    ∃ r' added removed, r.reconcile pid now = (r', .ok ⟨added, removed⟩) ∧
      (∀ e ∈ T, r'.stateOf e.mountId = .live ∧ ∃ g, r'.mounts.get? e.mountId = some g ∧
        ((r.nextStamp ≤ g.stamp ∧ ∃ e' ∈ T, e'.mountId = e.mountId ∧ g.mount = e'.toMount) ∨
          (r.mounts.get? e.mountId = some g ∧ r.stateOf e.mountId = .live))) ∧
      (∀ k g, r'.mounts.get? k = some g → k ∉ T.map (·.mountId) →
        r'.stateOf k = .pendingDelete ∨ r'.stateOf k = .redeemed) ∧
      removed = (r.mountList.filter fun m => m.id ∉ T.map (·.mountId) ∧ r.stateOf m.id = .live).length ∧
      added = ((T.map (·.mountId)).toFinset.filter fun k =>
        (r'.mounts.get? k).map (·.handle) ≠ (r.mounts.get? k).map (·.handle)).card ∧
      ∀ now', r'.reconcile pid now' =
        ({ r' with proc := (r'.proc.readTable pid).1 }, .ok ⟨0, 0⟩) := by
  have hs := hr.sound
  -- the cache once the table is read, and once the unlisted live records are sent to deletion
  let r₀ : Resolver := { r with proc := (r.proc.readTable pid).1 }
  have hs₀ : r₀.Sound := hs.of_eq rfl rfl rfl rfl rfl
  obtain ⟨r₁, n, hsweep⟩ : ∃ r₁ n, r₀.deleteUnlisted (T.map (·.mountId)) now = (r₁, n) :=
    ⟨_, _, rfl⟩
  have hr₁ := deleteUnlisted_eq hs₀ (T.map (·.mountId)) now
  rw [hsweep] at hr₁
  obtain ⟨hr₁, -⟩ := Prod.mk.inj hr₁
  have hswept : (r₀.deleteUnlisted (T.map (·.mountId)) now).1 = r₁ := by rw [hsweep]
  have hs₁ : r₁.Sound := hswept ▸ hs₀.deleteUnlisted (T.map (·.mountId)) now
  have hm₁ : r₁.mounts = r.mounts := by rw [hr₁]
  have hn₁ : r₁.nextStamp = r.nextStamp := by rw [hr₁]
  have hp₁ : r₁.proc = (r.proc.readTable pid).1 := by rw [hr₁]
  -- the two passes
  obtain ⟨s₁, ids₁, hpass₁, hI₁, hset₁, -⟩ :=
    Inserted.insertUnlive h0 T r₁ [] (fun e he => he) (Inserted.start hs₁)
  obtain ⟨s₂, ids₂, hpass₂, hI₂, hlive₂, -⟩ :=
    Inserted.insertUnlive_settled h0 T s₁ ids₁ (fun e he => he) hI₁ hset₁
  -- every record the passes did not insert under an unlisted ID waits for deletion or is
  -- redeemed, as the sweep left it
  have hrest : ∀ k g, s₂.mounts.get? k = some g → k ∉ T.map (·.mountId) →
      s₂.stateOf k = .pendingDelete ∨ s₂.stateOf k = .redeemed := by
    intro k g hg hk
    have hki : k ∉ ids₂ := by
      intro hki
      obtain ⟨e, he, rfl⟩ := hI₂.listed k hki
      exact hk (List.mem_map_of_mem he)
    obtain ⟨hg₁, hst⟩ := hI₂.kept k hki g hg
    rw [hst, ← hswept]
    exact hs₀.waiting_of_sweep now (hm₁ ▸ hg₁ : r.mounts.get? k = some g) hk
  refine ⟨s₂, ids₂.length, n, reconcile_of_passes hT hsweep hpass₁ hpass₂, fun e he => ?_,
    hrest, ?_, ?_, ?_⟩
  · -- every listed ID is live, held by a new record from the table or by its live record
    refine ⟨hlive₂ e he, ?_⟩
    obtain ⟨g, hg, -⟩ := stateOf_eq_live_iff.1 (hlive₂ e he)
    refine ⟨g, hg, ?_⟩
    by_cases hk : e.mountId ∈ ids₂
    · obtain ⟨hst, hT'⟩ := hI₂.fresh _ hk g hg
      exact .inl ⟨hn₁ ▸ hst, hT'⟩
    · obtain ⟨hg₁, hst⟩ := hI₂.kept _ hk g hg
      have hstay : r₁.stateOf e.mountId = r.stateOf e.mountId := by
        rw [← hswept]
        exact hs₀.stateOf_sweep_of_mem now (List.mem_map_of_mem he)
      exact .inr ⟨hm₁ ▸ hg₁, hstay ▸ hst ▸ hlive₂ e he⟩
  · -- the removed records are the live unlisted ones, which the sweep counts on the cache
    -- as it was
    have hcount := hs₀.deleteUnlisted_count (T.map (·.mountId)) now
    rw [hsweep] at hcount
    exact hcount
  · -- the added IDs are the listed IDs whose record changed
    rw [← hm₁]
    exact hI₂.length_eq_card_changed hs₁ hlive₂
  · -- reconciling again finds nothing to send to deletion and nothing to insert
    intro now'
    have hT₂ : (s₂.proc.readTable pid).2 = .ok T := by
      rw [hI₂.proc.trans hp₁, Proc.readTable_snd_readTable]
      exact hT
    refine hI₂.sound.reconcile_of_aligned now' hT₂ hlive₂ fun k g hg hk hl => ?_
    rcases hrest k g hg hk with h | h <;> rw [h] at hl <;> cases hl

end Reconcile

end Resolver

namespace Sample

/-- A mount table of process 1: the root mount, and a tmpfs on `/srv` that the sample cache does
not hold. -/
def table : String :=
  "20 1 8:1 / / rw - ext4 /dev/sda1 rw\n25 20 0:45 / /srv rw - tmpfs tmpfs rw\n"

def sda1 : Table.Entry where
  mountId := 20
  parentId := 1
  major := 8
  minor := 1
  root := "/"
  mountPoint := "/"
  options := "rw"
  optionalFields := []
  fsType := "ext4"
  source := "/dev/sda1"
  superOptions := "rw"

def srv : Table.Entry where
  mountId := 25
  parentId := 20
  major := 0
  minor := 45
  root := "/"
  mountPoint := "/srv"
  options := "rw"
  optionalFields := []
  fsType := "tmpfs"
  source := "tmpfs"
  superOptions := "rw"

theorem parse_table : Table.parse table = .ok [sda1, srv] := by
  have hsplit : table.toList.splitOnP (· == '\n') =
      ["20 1 8:1 / / rw - ext4 /dev/sda1 rw".toList,
        "25 20 0:45 / /srv rw - tmpfs tmpfs rw".toList] ++ [[]] := by
    decide +kernel
  rw [Table.parse, Table.lines_of_split hsplit]
  decide +kernel

/-- The drained sample cache once process 1 has that table. -/
def tabled : Resolver :=
  (Op.environment (({ root := "/proc" } : Proc).setTable 1 table.toUTF8.toList) .none).run drained

theorem tabled_reachable : Reachable tabled := .step _ drained_reachable

end Sample

namespace Resolver

theorem reconcile_aligns_table :
    ∃ r' added, Sample.tabled.reconcile 1 6000000000 = (r', .ok ⟨added, 2⟩) ∧
      r'.stateOf 20 = .live ∧ r'.stateOf 25 = .live ∧
      (∃ g, r'.mounts.get? 25 = some g ∧ g.mount = Sample.srv.toMount) ∧
      ∀ now', r'.reconcile 1 now' = ({ r' with proc := (r'.proc.readTable 1).1 }, .ok ⟨0, 0⟩) := by
  have hT : (Sample.tabled.proc.readTable 1).2 = .ok [Sample.sda1, Sample.srv] := by
    rw [show Sample.tabled.proc =
        ({ root := "/proc" } : Proc).setTable 1 Sample.table.toUTF8.toList from rfl,
      Proc.readTable_setTable, Table.read, Sample.parse_table]
  obtain ⟨r', added, removed, hrec, hlisted, -, hremoved, -, hagain⟩ :=
    @reconcile_aligns _ Sample.tabled_reachable 1 6000000000 _ hT (by decide)
  -- the overlay and the proc filesystem under it were live and are not listed
  have hcount : removed = 2 := by
    rw [hremoved, mountList, (((Store.values_perm _).map _).filter _).length_eq]
    decide +kernel
  obtain ⟨hroot, -⟩ := hlisted Sample.sda1 List.mem_cons_self
  obtain ⟨hsrv, g, hg, hfrom⟩ := hlisted Sample.srv (List.mem_cons_of_mem _ List.mem_cons_self)
  -- ID 25 held nothing before, so its record is the one read from the table
  have hnew : g.mount = Sample.srv.toMount := by
    rcases hfrom with ⟨-, e, he, hid, hgm⟩ | ⟨hold, -⟩
    · rcases List.mem_cons.1 he with rfl | he
      · cases hid
      · rw [List.mem_singleton.1 he] at hgm
        exact hgm
    · have hfree : Sample.tabled.mounts.get? Sample.srv.mountId = none := by decide +kernel
      rw [hfree] at hold
      cases hold
  exact ⟨r', added, hcount ▸ hrec, hroot, hsrv, ⟨g, hg, hnew⟩, hagain⟩

end Resolver

end MountIndex

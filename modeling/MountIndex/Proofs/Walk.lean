import MountIndex.Proofs.Paths
import MountIndex.Proofs.Reachable

/-!
# The walk up the parent chain, over any store

`mountPath id` walks up the parent links from `id` until it meets a record whose path is known
or a root mount, then joins the mount points of the records it passed onto that base, from the
outermost down, and each record it passed remembers the path found for it. This file says what
it does for every store that files each record under its own mount ID, whatever the parent
links look like: cycles, records that are their own parent, parents that are not held, IDs
below the kernel floor.

* The walk passes the records of the parent chain from `id` (`ParentChain`) that pass every
  check (`Passes`), no ID twice and no more records than the store holds, so it looks at one
  record more than it passes at most.
* It stops at the first ID of the chain where a check fails, and the first check that fails
  there, in the order the checks are made, gives the answer: an invalid ID its own error, a
  missing record `notFound` of that ID, a known path or a root mount the base, an ID met before
  `pathLoop` of it, and a parent 0 `undefined`.
* From a base the answer is the left fold of `Path.join` over the mount points of the passed
  records, outermost first (`Descent`). A join is empty only when both its sides are, so the
  only join that can come out empty is the first, of an empty base and an empty mount point,
  and that is `pathEmpty` of the outermost record.
* When a path is found every passed record remembers its own, and nothing else changes; when
  the walk fails nothing changes at all.
-/

namespace MountIndex

namespace Path

-- Cleaning never gives the empty path: a rooted path keeps its `/`, an empty one becomes `.`.
theorem clean_ne_empty (path : String) : clean path ≠ "" := by
  unfold clean
  dsimp only
  split
  · intro h
    have := congrArg String.length h
    simp at this
  · split
    · decide
    · rename_i hb
      intro h
      exact hb (String.isEmpty_iff.2 h)

theorem join_eq_empty_iff (parent child : String) :
    join parent child = "" ↔ parent = "" ∧ child = "" := by
  unfold join
  by_cases hp : parent = "" <;> by_cases hc : child = "" <;>
    simp [hp, hc, clean_ne_empty, String.isEmpty_iff]

end Path

/-- `chain` lists the records met going up the parent links from `id`, nearest first: each is
held under the ID the link before it leads to, and `x` is the ID the last link leads to. -/
inductive ParentChain (s : Store Record) : Nat → List Record → Nat → Prop
  | nil {id : Nat} : ParentChain s id [] id
  | cons {id x : Nat} {g : Record} {rest : List Record} : s.get? id = some g →
      ParentChain s g.mount.parent rest x → ParentChain s id (g :: rest) x

theorem ParentChain.held {s : Store Record} (hk : s.Keyed) {id x : Nat} {chain : List Record}
    (h : ParentChain s id chain x) : ∀ g ∈ chain, s.get? g.mount.id = some g := by
  induction h with
  | nil => simp
  | @cons k _ g _ hg _ ih =>
    intro g' hg'
    rcases List.mem_cons.1 hg' with rfl | hg'
    · rw [hk.id_of_get? hg]
      exact hg
    · exact ih g' hg'

namespace Resolver

/-- The walk goes on past a record: its ID is valid, it has no path, it is no root mount, and it
has a parent. -/
def Passes (r : Resolver) (g : Record) : Prop :=
  r.validate g.mount.id = .ok () ∧ g.mount.path = none ∧ g.mount.isRoot = false ∧ g.mount.parent ≠ 0

/-- What the way down from `base` along `down` (outermost first) leaves, `out`: either the first
join is empty, of an empty base and an empty mount point, and nothing changes; or the answer is
the left fold of `Path.join` over the mount points, each record of `down` remembers the fold up
to itself, and nothing else changes. -/
def Descent (r : Resolver) (base : String) (down : List Record)
    (out : Resolver × Except MountError String) : Prop :=
  (base = "" ∧ ∃ m rest, down = m :: rest ∧ m.mount.mountPoint = "" ∧
    out = (r, .error (.pathEmpty m.mount.id))) ∨
  ((base = "" → ∀ m ∈ down.head?, m.mount.mountPoint ≠ "") ∧
    out.2 = .ok ((down.map (·.mount.mountPoint)).foldl Path.join base) ∧
    out.1 = { r with mounts := out.1.mounts } ∧
    (∀ pre g post, down = pre ++ g :: post →
      out.1.mounts.get? g.mount.id = some { g with mount := { g.mount with
        path := some (((pre ++ [g]).map (·.mount.mountPoint)).foldl Path.join base) } }) ∧
    ∀ k ∉ down.map (·.mount.id), out.1.mounts.get? k = r.mounts.get? k)

/-! ## The way down -/

theorem remember_get? (r : Resolver) {k : Nat} {g : Record} (hg : r.mounts.get? k = some g)
    (hp : g.mount.path = none) (p : String) :
    (r.remember k p).mounts.get? k = some { g with mount := { g.mount with path := some p } } := by
  simp [remember, Store.get?_modify, hg, Mount.remember, hp]

-- The way down along held records without a path, no ID twice, is a `Descent`; the induction
-- follows the records, and only the first join can be empty since every later base is a
-- joined path.
theorem descend_descent : ∀ (down : List Record) (r : Resolver) (base : String),
    (∀ g ∈ down, r.mounts.get? g.mount.id = some g ∧ g.mount.path = none) →
    (down.map (·.mount.id)).Nodup → Descent r base down (r.descend base (down.map (·.mount)))
  | [], r, base, _, _ => by
    refine Or.inr ⟨fun _ m hm => by simp at hm, rfl, rfl, fun pre g post h => ?_, fun _ _ => rfl⟩
    simp at h
  | m :: rest, r, base, hheld, hnd => by
    obtain ⟨hm, hmp⟩ := hheld m List.mem_cons_self
    rw [List.map_cons, List.nodup_cons] at hnd
    simp only [List.map_cons, descend]
    by_cases hj : Path.join base m.mount.mountPoint = ""
    · obtain ⟨hb, hmpt⟩ := (Path.join_eq_empty_iff _ _).1 hj
      exact Or.inl ⟨hb, m, rest, rfl, hmpt, by simp [hj]⟩
    · rw [if_neg (by simpa [String.isEmpty_iff] using hj)]
      set j := Path.join base m.mount.mountPoint
      -- the records still to go down are untouched by remembering the first one's path
      have hother : ∀ k ≠ m.mount.id, (r.remember m.mount.id j).mounts.get? k = r.mounts.get? k :=
        fun k hk => by simp [remember, Store.get?_modify, hk]
      have hheld' : ∀ g ∈ rest, (r.remember m.mount.id j).mounts.get? g.mount.id = some g ∧
          g.mount.path = none := by
        intro g hg
        have hne : g.mount.id ≠ m.mount.id := fun he => hnd.1 (he ▸ List.mem_map_of_mem hg)
        rw [hother _ hne]
        exact hheld g (List.mem_cons_of_mem _ hg)
      rcases descend_descent rest _ j hheld' hnd.2 with ⟨hj0, -⟩ | ⟨-, hout, heta, hpaths, hframe⟩
      · exact absurd hj0 (fun h => hj h)
      · refine Or.inr ⟨fun hb m' hm' => ?_, by simpa using hout, ?_, fun pre g post hsplit => ?_,
          fun k hk => ?_⟩
        · cases hm'
          exact fun h => hj ((Path.join_eq_empty_iff _ _).2 ⟨hb, h⟩)
        · rw [heta]
          rfl
        · cases pre with
          | nil =>
            -- the outermost record remembers the first join
            obtain ⟨rfl, rfl⟩ := List.cons.inj hsplit
            rw [hframe _ hnd.1, remember_get? r hm hmp]
            rfl
          | cons m' pre =>
            obtain ⟨rfl, hrest⟩ := List.cons.inj hsplit
            rw [hpaths pre g post hrest]
            rfl
        · simp only [List.map_cons, List.mem_cons, not_or] at hk
          rw [hframe k hk.2, hother k hk.1]

-- Joining onto a non-empty base never comes out empty, so the way down from it succeeds.
theorem descend_ok_of_ne_empty : ∀ (ms : List Mount) (r : Resolver) (base : String), base ≠ "" →
    ∃ p, (r.descend base ms).2 = .ok p
  | [], _, base, _ => ⟨base, rfl⟩
  | m :: rest, r, base, hb => by
    have hj : Path.join base m.mountPoint ≠ "" := fun h => hb ((Path.join_eq_empty_iff _ _).1 h).1
    simp only [descend]
    rw [if_neg (by simpa [String.isEmpty_iff] using hj)]
    exact descend_ok_of_ne_empty rest _ _ hj

-- A way down that fails fails at its first join, before remembering anything.
theorem descend_error {ms : List Mount} {r : Resolver} {base : String} {e : MountError}
    (h : (r.descend base ms).2 = .error e) : (r.descend base ms).1 = r := by
  cases ms with
  | nil => cases h
  | cons m rest =>
    simp only [descend] at h ⊢
    by_cases hj : Path.join base m.mountPoint = ""
    · rw [if_pos (by simp [hj])]
    · rw [if_neg (by simpa [String.isEmpty_iff] using hj)] at h ⊢
      obtain ⟨p, hp⟩ := descend_ok_of_ne_empty rest _ _ hj
      rw [hp] at h
      cases h

-- A path lookup that fails, whatever the store, changes nothing.
theorem mountPath_error {r : Resolver} {id : Nat} {e : MountError} (h : (r.mountPath id).2 = .error e) :
    (r.mountPath id).1 = r := by
  unfold mountPath at h ⊢
  cases hw : r.walk (r.mounts.size + 2) id [] [] with
  | ok bc =>
    obtain ⟨base, chain⟩ := bc
    rw [hw] at h
    exact descend_error h
  | error e' => rfl

/-! ## The way up -/

section Up

variable {r : Resolver}

theorem walk_of_invalid {fuel id : Nat} {seen : List Nat} {acc : List Mount} {e : MountError}
    (hv : r.validate id = .error e) : r.walk (fuel + 1) id seen acc = .error e := by
  simp [walk, hv, bind, Except.bind]

theorem walk_of_none {fuel id : Nat} {seen : List Nat} {acc : List Mount}
    (hv : r.validate id = .ok ()) (hg : r.mounts.get? id = none) :
    r.walk (fuel + 1) id seen acc = .error (.notFound id) := by
  simp [walk, hv, lookup, hg, bind, Except.bind]

theorem walk_of_passes {fuel id : Nat} {seen : List Nat} {acc : List Mount} {g : Record}
    (hk : r.mounts.Keyed) (hg : r.mounts.get? id = some g) (hp : r.Passes g) (hnot : id ∉ seen) :
    r.walk (fuel + 1) id seen acc = r.walk fuel g.mount.parent (id :: seen) (g.mount :: acc) := by
  obtain ⟨hv, hpath, hroot, hpar⟩ := hp
  rw [hk.id_of_get? hg] at hv
  rw [walk_succ_of_get? hv hg, hpath]
  dsimp only
  rw [if_neg (by simp [hroot]), if_neg (by simpa using hnot), if_neg hpar]

-- Where the walk does not go on, the first check that fails answers.
theorem walk_of_stop (hk : r.mounts.Keyed) {fuel x : Nat} {seen : List Nat} {acc : List Mount}
    (hstop : ¬ ∃ g, r.mounts.get? x = some g ∧ r.Passes g ∧ x ∉ seen) :
    (∃ e, r.validate x = .error e ∧ r.walk (fuel + 1) x seen acc = .error e) ∨
    (r.validate x = .ok () ∧ r.mounts.get? x = none ∧
      r.walk (fuel + 1) x seen acc = .error (.notFound x)) ∨
    (∃ B, r.validate x = .ok () ∧ r.mounts.get? x = some B ∧ B.mount.path = none ∧
      B.mount.isRoot = false ∧
      ((x ∈ seen ∧ r.walk (fuel + 1) x seen acc = .error (.pathLoop x)) ∨
       (x ∉ seen ∧ B.mount.parent = 0 ∧ r.walk (fuel + 1) x seen acc = .error .undefined))) ∨
    (∃ B, r.validate x = .ok () ∧ r.mounts.get? x = some B ∧
      (B.mount.path.isSome ∨ B.mount.isRoot) ∧
      r.walk (fuel + 1) x seen acc = .ok (B.mount.path.getD "/", acc)) := by
  cases hv : r.validate x with
  | error e => exact Or.inl ⟨e, rfl, walk_of_invalid hv⟩
  | ok u =>
    cases hg : r.mounts.get? x with
    | none => exact Or.inr (Or.inl ⟨rfl, rfl, walk_of_none hv hg⟩)
    | some B =>
      right; right
      have hw : r.walk (fuel + 1) x seen acc = _ := walk_succ_of_get? hv hg
      cases hpath : B.mount.path with
      | some p =>
        rw [hpath] at hw
        exact Or.inr ⟨B, rfl, rfl, by simp [hpath], by simpa [hpath] using hw⟩
      | none =>
        rw [hpath] at hw
        dsimp only at hw
        by_cases hroot : B.mount.isRoot = true
        · rw [if_pos hroot] at hw
          exact Or.inr ⟨B, rfl, rfl, Or.inr hroot, by simpa [hpath] using hw⟩
        · have hroot' : B.mount.isRoot = false := by simpa using hroot
          rw [if_neg hroot] at hw
          refine Or.inl ⟨B, rfl, rfl, hpath, hroot', ?_⟩
          by_cases hseen : x ∈ seen
          · exact Or.inl ⟨hseen, by simpa [hseen] using hw⟩
          · -- a record that would pass is one the walk goes on past
            have hpar : B.mount.parent = 0 := by
              by_contra hpar
              exact hstop ⟨B, hg, ⟨by rw [hk.id_of_get? hg]; exact hv, hpath, hroot', hpar⟩, hseen⟩
            exact Or.inr ⟨hseen, hpar, by simpa [hseen, hpar] using hw⟩

-- From `id` the walk passes the records of the parent chain that pass, each ID once and
-- no more than it has records left to meet, and then goes on as from where the chain stops.
-- The induction is on the fuel; the number of held IDs not met yet drops at each record.
theorem walk_climb (hk : r.mounts.Keyed) : ∀ (fuel id : Nat) (seen : List Nat) (acc : List Mount),
    r.unwalked seen < fuel →
    ∃ chain x, ParentChain r.mounts id chain x ∧ chain.length ≤ r.unwalked seen ∧
      (chain.map (·.mount.id)).Nodup ∧ (∀ g ∈ chain, r.Passes g ∧ g.mount.id ∉ seen) ∧
      (¬ ∃ g, r.mounts.get? x = some g ∧ r.Passes g ∧
        x ∉ (chain.map (·.mount.id)).reverse ++ seen) ∧
      chain.length < fuel ∧
      r.walk fuel id seen acc = r.walk (fuel - chain.length) x
        ((chain.map (·.mount.id)).reverse ++ seen) ((chain.map (·.mount)).reverse ++ acc) := by
  intro fuel
  induction fuel with
  | zero => intro id seen acc h; omega
  | succ f ih =>
    intro id seen acc hlt
    by_cases hgo : ∃ g, r.mounts.get? id = some g ∧ r.Passes g ∧ id ∉ seen
    · obtain ⟨g, hg, hp, hnot⟩ := hgo
      have hid : g.mount.id = id := hk.id_of_get? hg
      have hdrop := unwalked_lt hg hnot
      obtain ⟨chain, x, hc, hlen, hnd, hall, hstop, hfuel, hw⟩ :=
        ih g.mount.parent (id :: seen) (g.mount :: acc) (by omega)
      refine ⟨g :: chain, x, .cons hg hc, by simp only [List.length_cons]; omega, ?_, ?_, ?_,
        by simp only [List.length_cons]; omega, ?_⟩
      · rw [List.map_cons, List.nodup_cons, hid]
        exact ⟨fun hin => by
          obtain ⟨g', hg', hg'id⟩ := List.mem_map.1 hin
          exact (hall g' hg').2 (hg'id ▸ List.mem_cons_self), hnd⟩
      · intro g' hg'
        rcases List.mem_cons.1 hg' with rfl | hg'
        · exact ⟨hp, hid ▸ hnot⟩
        · exact ⟨(hall g' hg').1, fun h => (hall g' hg').2 (List.mem_cons_of_mem _ h)⟩
      · simpa [hid] using hstop
      · rw [walk_of_passes hk hg hp hnot, hw]
        simp [hid, Nat.add_sub_add_right]
    · refine ⟨[], id, .nil, Nat.zero_le _, List.nodup_nil, by simp, by simpa using hgo,
        Nat.zero_lt_succ f, by simp⟩

theorem mountPath_of_walk_error {id : Nat} {e : MountError}
    (hw : r.walk (r.mounts.size + 2) id [] [] = .error e) : r.mountPath id = (r, .error e) := by
  unfold mountPath
  rw [hw]

theorem mountPath_of_walk_ok {id : Nat} {base : String} {ms : List Mount}
    (hw : r.walk (r.mounts.size + 2) id [] [] = .ok (base, ms)) : r.mountPath id = r.descend base ms := by
  unfold mountPath
  rw [hw]

end Up

/-- The walk for the path of a mount ID, over any store that files each record under its own
mount ID, with any parent links. Going up the parent chain from `id`, it passes the records
that are valid, held, without a path, no root mount, met for the first time and with a parent;
they are at most as many as the store holds. At the ID `x` where the chain stops, the first
check that fails answers: an invalid ID its error, a missing record `notFound x`, a record met
before `pathLoop x`, a parent 0 `undefined`, and in these cases nothing changes; a record with
a path or a root mount is the base, and from it the records passed are joined outermost first
as `Descent` says: the answer is the left fold of `Path.join` over their mount points, each
remembers its own path and nothing else changes, unless the first join is of an empty base
and an empty mount point, the only join that can be empty, which answers `pathEmpty` of the
outermost record and changes nothing. -/
theorem mountPath_climbs {r : Resolver} (hk : r.mounts.Keyed) (id : Nat) :
    ∃ chain x, ParentChain r.mounts id chain x ∧ chain.length ≤ r.mounts.size ∧
      (chain.map (·.mount.id)).Nodup ∧ (∀ g ∈ chain, r.Passes g) ∧
      ((∃ e, r.validate x = .error e ∧ r.mountPath id = (r, .error e)) ∨
       (r.validate x = .ok () ∧ r.mounts.get? x = none ∧
          r.mountPath id = (r, .error (.notFound x))) ∨
       (∃ B, r.validate x = .ok () ∧ r.mounts.get? x = some B ∧ B.mount.path = none ∧
          B.mount.isRoot = false ∧
          ((x ∈ chain.map (·.mount.id) ∧ r.mountPath id = (r, .error (.pathLoop x))) ∨
           (x ∉ chain.map (·.mount.id) ∧ B.mount.parent = 0 ∧
              r.mountPath id = (r, .error .undefined)))) ∨
       (∃ B, r.validate x = .ok () ∧ r.mounts.get? x = some B ∧
          (B.mount.path.isSome ∨ B.mount.isRoot) ∧
          Descent r (B.mount.path.getD "/") chain.reverse (r.mountPath id))) := by
  obtain ⟨chain, x, hc, hlen, hnd, hall, hstop, hfuel, hw⟩ :=
    walk_climb hk (r.mounts.size + 2) id [] [] (by rw [unwalked_nil]; omega)
  rw [unwalked_nil] at hlen
  simp only [List.append_nil] at hstop hw
  -- the walk has fuel left where the chain stops
  obtain ⟨k, hkfuel⟩ : ∃ k, r.mounts.size + 2 - chain.length = k + 1 :=
    ⟨r.mounts.size + 1 - chain.length, by omega⟩
  rw [hkfuel] at hw
  refine ⟨chain, x, hc, hlen, hnd, fun g hg => (hall g hg).1, ?_⟩
  rcases @walk_of_stop r hk k x _ (chain.map (·.mount)).reverse hstop with
    ⟨e, hv, hwe⟩ | ⟨hv, hg, hwe⟩ | ⟨B, hv, hg, hpath, hroot, hrest⟩ | ⟨B, hv, hg, hB, hwe⟩
  · exact Or.inl ⟨e, hv, mountPath_of_walk_error (hw.trans hwe)⟩
  · exact Or.inr (Or.inl ⟨hv, hg, mountPath_of_walk_error (hw.trans hwe)⟩)
  · refine Or.inr (Or.inr (Or.inl ⟨B, hv, hg, hpath, hroot, ?_⟩))
    rcases hrest with ⟨hseen, hwe⟩ | ⟨hseen, hpar, hwe⟩
    · exact Or.inl ⟨List.mem_reverse.1 hseen, mountPath_of_walk_error (hw.trans hwe)⟩
    · exact Or.inr ⟨fun h => hseen (List.mem_reverse.2 h), hpar,
        mountPath_of_walk_error (hw.trans hwe)⟩
  · refine Or.inr (Or.inr (Or.inr ⟨B, hv, hg, hB, ?_⟩))
    rw [mountPath_of_walk_ok (hw.trans hwe), ← List.map_reverse]
    refine descend_descent chain.reverse r _ (fun g hg => ?_) ?_
    · have hg' := List.mem_reverse.1 hg
      exact ⟨hc.held hk g hg', (hall g hg').1.2.1⟩
    · rw [List.map_reverse]
      exact List.nodup_reverse.2 hnd

/-- A root mount, a mount below it and one below that, and two mounts that are each other's
parent. -/
def pathSample : Resolver :=
  { Resolver.initial with
    mounts := ⟨[(1, ⟨{ id := 1, mountPoint := "/" }, 0⟩),
      (2, ⟨{ id := 2, parent := 1, mountPoint := "data" }, 1⟩),
      (3, ⟨{ id := 3, parent := 2, mountPoint := "cache" }, 2⟩),
      (5, ⟨{ id := 5, parent := 6, mountPoint := "a" }, 3⟩),
      (6, ⟨{ id := 6, parent := 5, mountPoint := "b" }, 4⟩)]⟩ }

theorem mountPath_climbs_sample :
    pathSample.mounts.Keyed ∧
    ∃ chain x, ParentChain pathSample.mounts 3 chain x ∧ chain.length ≤ pathSample.mounts.size ∧
      (chain.map (·.mount.id)).Nodup ∧ (∀ g ∈ chain, pathSample.Passes g) ∧
      ((∃ e, pathSample.validate x = .error e ∧ pathSample.mountPath 3 = (pathSample, .error e)) ∨
       (pathSample.validate x = .ok () ∧ pathSample.mounts.get? x = none ∧
          pathSample.mountPath 3 = (pathSample, .error (.notFound x))) ∨
       (∃ B, pathSample.validate x = .ok () ∧ pathSample.mounts.get? x = some B ∧
          B.mount.path = none ∧ B.mount.isRoot = false ∧
          ((x ∈ chain.map (·.mount.id) ∧ pathSample.mountPath 3 = (pathSample, .error (.pathLoop x))) ∨
           (x ∉ chain.map (·.mount.id) ∧ B.mount.parent = 0 ∧
              pathSample.mountPath 3 = (pathSample, .error .undefined)))) ∨
       (∃ B, pathSample.validate x = .ok () ∧ pathSample.mounts.get? x = some B ∧
          (B.mount.path.isSome ∨ B.mount.isRoot) ∧
          Descent pathSample (B.mount.path.getD "/") chain.reverse (pathSample.mountPath 3))) :=
  have hk : pathSample.mounts.Keyed := ⟨by unfold Store.Distinct; decide, by decide⟩
  ⟨hk, mountPath_climbs hk 3⟩

end Resolver

end MountIndex

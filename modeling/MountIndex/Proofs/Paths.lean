import Mathlib.Logic.Relation
import MountIndex.Proofs.Lookup

/-!
# Found paths and fresh walks

A walk for the path of a mount goes up through the parents and stops at the first record
whose path is known, or at a root mount; on the way back down it remembers the path found
for each record it passed. A path is known either because the record came with it (read
from a mount table, or inserted with one) or because an earlier walk found it.

`FreshPath s U id p` is what a walk finds that trusts only the paths records came with: it
stops only at such a path or at a root mount. `U` holds the stamps of the records inserted
without a path, the only ones a walk ever gives a path. `PathsOk` says that every found
path is what the fresh walk finds, and is the join of the path of the very record it hangs
from onto its mount point. Under it `mountPath` answers exactly what the fresh walk finds,
and keeps `PathsOk`.
-/

namespace MountIndex

theorem Mount.path_normalize (m : Mount) : m.normalize.path = m.path := by
  unfold Mount.normalize
  split <;> rfl

-- Remembering a path changes nothing but the path.
theorem Mount.remember_frame (m : Mount) (p : String) :
    (m.remember p).parent = m.parent ∧ (m.remember p).mountPoint = m.mountPoint := by
  unfold Mount.remember
  split <;> exact ⟨rfl, rfl⟩

theorem Mount.isSome_path_remember (m : Mount) (p : String) : (m.remember p).path.isSome := by
  unfold Mount.remember
  split
  · rename_i q hq
    rw [hq]
    rfl
  · rfl

theorem Record.Later.frame {g g' : Record} (h : g.Later g') :
    g'.stamp = g.stamp ∧ g'.mount.parent = g.mount.parent ∧
      g'.mount.mountPoint = g.mount.mountPoint ∧ g'.mount.isRoot = g.mount.isRoot := by
  rcases h with rfl | ⟨p, rfl⟩
  · exact ⟨rfl, rfl, rfl, rfl⟩
  · obtain ⟨hpar, hmp⟩ := Mount.remember_frame g.mount p
    exact ⟨rfl, hpar, hmp, by simp only [Mount.isRoot, hmp]⟩

theorem Record.Later.eq_of_isSome {g g' : Record} (h : g.Later g') (hp : g.mount.path.isSome) :
    g' = g := by
  rcases h with rfl | ⟨p, rfl⟩
  · rfl
  · obtain ⟨q, hq⟩ := Option.isSome_iff_exists.1 hp
    simp [Mount.remember, hq]

/-- The path a walk finds that trusts only the paths records came with. A record inserted
without a path (its stamp is in `U`) is a root, giving `/`, or joins its mount point onto the
path of its parent; any other record gives the path it came with. -/
inductive FreshPath (s : Store Record) (U : List Nat) : Nat → String → Prop
  | preset {id : Nat} {g : Record} {p : String} : id ≠ 0 → s.get? id = some g → g.stamp ∉ U →
      g.mount.path = some p → FreshPath s U id p
  | root {id : Nat} {g : Record} : id ≠ 0 → s.get? id = some g → g.stamp ∈ U →
      g.mount.isRoot = true → FreshPath s U id "/"
  | join {id : Nat} {g : Record} {p : String} : id ≠ 0 → s.get? id = some g → g.stamp ∈ U →
      g.mount.isRoot = false → FreshPath s U g.mount.parent p →
      Path.join p g.mount.mountPoint ≠ "" → FreshPath s U id (Path.join p g.mount.mountPoint)

/-- One step of a fresh walk: from a record inserted without a path, not a root, to its
parent. -/
def FreshStep (s : Store Record) (U : List Nat) (a b : Nat) : Prop :=
  ∃ g, s.get? a = some g ∧ g.stamp ∈ U ∧ g.mount.isRoot = false ∧ g.mount.parent = b

namespace FreshPath

variable {s s' : Store Record} {U U' : List Nat} {id : Nat} {p q : String}

theorem held (h : FreshPath s U id p) : id ≠ 0 ∧ ∃ g, s.get? id = some g := by
  cases h with
  | preset h0 hg => exact ⟨h0, _, hg⟩
  | root h0 hg => exact ⟨h0, _, hg⟩
  | join h0 hg => exact ⟨h0, _, hg⟩

theorem join_iff {g : Record} (h0 : id ≠ 0) (hg : s.get? id = some g) (hU : g.stamp ∈ U)
    (hr : g.mount.isRoot = false) :
    FreshPath s U id p ↔ ∃ p', FreshPath s U g.mount.parent p' ∧
      Path.join p' g.mount.mountPoint ≠ "" ∧ p = Path.join p' g.mount.mountPoint := by
  constructor
  · intro h
    cases h with
    | preset _ hg' hU' =>
      rw [hg] at hg'
      cases hg'
      exact absurd hU hU'
    | root _ hg' _ hr' =>
      rw [hg] at hg'
      cases hg'
      rw [hr] at hr'
      cases hr'
    | join _ hg' _ _ hp hne =>
      rw [hg] at hg'
      cases hg'
      exact ⟨_, hp, hne, rfl⟩
  · rintro ⟨p', hp', hne, rfl⟩
    exact .join h0 hg hU hr hp' hne

-- A fresh walk finds one path at most.
theorem unique (h : FreshPath s U id p) (h' : FreshPath s U id q) : p = q := by
  induction h generalizing q with
  | preset _ hg hU hp =>
    cases h' with
    | preset _ hg' _ hp' =>
      rw [hg] at hg'
      cases hg'
      rw [hp] at hp'
      exact Option.some.inj hp'
    | root _ hg' hU' => rw [hg] at hg'; cases hg'; exact absurd hU' hU
    | join _ hg' hU' => rw [hg] at hg'; cases hg'; exact absurd hU' hU
  | root h0 hg hU hr =>
    cases h' with
    | preset _ hg' hU' => rw [hg] at hg'; cases hg'; exact absurd hU hU'
    | root => rfl
    | join _ hg' _ hr' => rw [hg] at hg'; cases hg'; rw [hr] at hr'; cases hr'
  | join h0 hg hU hr _ _ ih =>
    obtain ⟨p', hp', -, rfl⟩ := (join_iff h0 hg hU hr).1 h'
    rw [ih hp']

-- The records a fresh walk passes never lead back to where it started.
theorem not_cycle (h : FreshPath s U id p) : ¬ Relation.TransGen (FreshStep s U) id id := by
  induction h with
  | preset _ hg hU =>
    intro hc
    obtain ⟨b, ⟨g', hg', hU', -⟩, -⟩ := Relation.TransGen.head'_iff.1 hc
    rw [hg] at hg'
    cases hg'
    exact hU hU'
  | root _ hg _ hr =>
    intro hc
    obtain ⟨b, ⟨g', hg', -, hr', -⟩, -⟩ := Relation.TransGen.head'_iff.1 hc
    rw [hg] at hg'
    cases hg'
    rw [hr] at hr'
    cases hr'
  | @join a g _ _ hg _ _ _ _ ih =>
    intro hc
    obtain ⟨b, ⟨g', hg', -, -, hb⟩, hrest⟩ := Relation.TransGen.head'_iff.1 hc
    rw [hg] at hg'
    cases hg'
    subst hb
    exact ih (Relation.TransGen.tail' hrest ⟨g, hg, by assumption, by assumption, rfl⟩)

-- A fresh walk finds the same path in a store that keeps the records it passes, at most
-- with paths remembered on records inserted without one.
theorem transfer
    (hfol : ∀ k g g', s.get? k = some g → s'.get? k = some g' → g.Later g')
    (hpre : ∀ k g, s.get? k = some g → g.stamp ∉ U → g.mount.path.isSome)
    (hU : ∀ k g, s.get? k = some g → (g.stamp ∈ U' ↔ g.stamp ∈ U))
    (hup : ∀ k g, s.get? k = some g → s'.get? k ≠ none → s.get? g.mount.parent ≠ none →
      s'.get? g.mount.parent ≠ none)
    (h : FreshPath s U id p) (hid : s'.get? id ≠ none) : FreshPath s' U' id p := by
  induction h with
  | @preset k g p h0 hg hgU hp =>
    obtain ⟨g', hg'⟩ := Option.ne_none_iff_exists'.1 hid
    have hl := hfol k g g' hg hg'
    rw [hl.eq_of_isSome (hpre k g hg hgU)] at hg'
    exact .preset h0 hg' (fun h' => hgU ((hU k g hg).1 h')) hp
  | @root k g h0 hg hgU hr =>
    obtain ⟨g', hg'⟩ := Option.ne_none_iff_exists'.1 hid
    obtain ⟨hst, -, -, hr'⟩ := (hfol k g g' hg hg').frame
    exact .root h0 hg' (by rw [hst]; exact (hU k g hg).2 hgU) (by rw [hr']; exact hr)
  | @join k g p h0 hg hgU hr hp hne ih =>
    obtain ⟨g', hg'⟩ := Option.ne_none_iff_exists'.1 hid
    obtain ⟨hst, hpar, hmp, hr'⟩ := (hfol k g g' hg hg').frame
    have hup' := hup k g hg hid (by
      obtain ⟨-, P, hP⟩ := hp.held
      rw [hP]
      exact Option.some_ne_none P)
    have h' := FreshPath.join h0 hg' (by rw [hst]; exact (hU k g hg).2 hgU) (by rw [hr']; exact hr)
      (by rw [hpar]; exact ih hup') (by rw [hmp]; exact hne)
    rwa [hmp] at h'

theorem of_grows {r r' : Resolver} (hg : Resolver.Grows r r')
    (hpre : ∀ k g, r.mounts.get? k = some g → g.stamp ∉ U → g.mount.path.isSome)
    (hU : ∀ k g, r.mounts.get? k = some g → (g.stamp ∈ U' ↔ g.stamp ∈ U))
    (h : FreshPath r.mounts U id p) : FreshPath r'.mounts U' id p := by
  -- every record is kept, so every record a fresh walk passes is
  have hkept : ∀ k, r.mounts.get? k ≠ none → r'.mounts.get? k ≠ none := by
    intro k hk
    obtain ⟨g, hg'⟩ := Option.ne_none_iff_exists'.1 hk
    obtain ⟨g', hg'', -⟩ := hg.keeps k g hg'
    rw [hg'']
    exact Option.some_ne_none g'
  refine h.transfer (fun k g g' h₁ h₂ => ?_) hpre hU (fun _ _ _ _ hpar => hkept _ hpar) ?_
  · obtain ⟨g'', h₃, hl⟩ := hg.keeps k g h₁
    rw [h₂] at h₃
    cases h₃
    exact hl
  · obtain ⟨-, g, hg'⟩ := h.held
    exact hkept id (by rw [hg']; exact Option.some_ne_none g)

end FreshPath

namespace Resolver

/-- What the paths of a cache's records are, given the stamps `U` of the records inserted
without a path. -/
structure PathsOk (r : Resolver) (U : List Nat) : Prop where
  /-- no record sits below the kernel floor -/
  floor : ∀ k g, r.mounts.get? k = some g → r.floor ≤ k
  /-- the stamps of `U` are in use -/
  used : ∀ t ∈ U, t < r.nextStamp
  /-- a record inserted with a path keeps it -/
  preset : ∀ k g, r.mounts.get? k = some g → g.stamp ∉ U → g.mount.path.isSome
  /-- a found path hangs from the record held under the parent's ID, and is what a fresh
  walk finds -/
  found : ∀ k g p, r.mounts.get? k = some g → g.stamp ∈ U → g.mount.path = some p →
    (∃ P, r.mounts.get? g.mount.parent = some P ∧ (P.mount.path = none → P.mount.isRoot = true) ∧
      p = Path.join (P.mount.path.getD "/") g.mount.mountPoint) ∧
    FreshPath r.mounts U k p

section Found

variable {r : Resolver} {U : List Nat}

-- A record with a path, or a root, gives a fresh walk that path, or `/`.
theorem PathsOk.fresh_stop (h : r.PathsOk U) {k : Nat} {P : Record} (h0 : k ≠ 0)
    (hP : r.mounts.get? k = some P) (hr : P.mount.path = none → P.mount.isRoot = true) :
    FreshPath r.mounts U k (P.mount.path.getD "/") := by
  by_cases hU : P.stamp ∈ U
  · cases hp : P.mount.path with
    | some p => exact (h.found k P p hP hU hp).2
    | none => exact .root h0 hP hU (hr hp)
  · obtain ⟨p, hp⟩ := Option.isSome_iff_exists.1 (h.preset k P hP hU)
    rw [hp]
    exact .preset h0 hP hU hp

theorem validate_of_floor {id : Nat} (h0 : id ≠ 0) (hf : r.floor ≤ id) : r.validate id = .ok () := by
  unfold validate
  rw [if_neg h0, if_neg (Nat.not_lt.2 hf)]

end Found

/-! ## The walk up -/

/-- The path that joining the mount points of `chain`, outermost first, onto `base` gives; a
join that comes out empty is refused. -/
def joinAll (base : String) : List Mount → Except MountError String
  | [] => .ok base
  | m :: rest =>
    let joined := Path.join base m.mountPoint
    if joined.isEmpty then .error (.pathEmpty m.id) else joinAll joined rest

theorem descend_snd (r : Resolver) (base : String) (chain : List Mount) :
    (r.descend base chain).2 = joinAll base chain := by
  induction chain generalizing r base with
  | nil => rfl
  | cons m rest ih =>
    unfold descend joinAll
    dsimp only
    split
    · rfl
    · exact ih _ _

theorem joinAll_cons (base : String) (m : Mount) (rest : List Mount) (q : String) :
    joinAll base (m :: rest) = .ok q ↔
      Path.join base m.mountPoint ≠ "" ∧ joinAll (Path.join base m.mountPoint) rest = .ok q := by
  rw [joinAll]
  split
  · rename_i he
    simp [String.isEmpty_iff.1 he]
  · rename_i he
    simp [String.isEmpty_eq_false_iff.1 (Bool.eq_false_iff.2 he)]

section Walk

variable {r : Resolver} {U : List Nat}

theorem walk_succ_of_get? {fuel id : Nat} {visited : List Nat} {chain : List Mount} {g : Record}
    (hv : r.validate id = .ok ()) (hg : r.mounts.get? id = some g) :
    r.walk (fuel + 1) id visited chain =
      match g.mount.path with
      | some p => .ok (p, chain)
      | none =>
        if g.mount.isRoot then .ok ("/", chain)
        else if visited.contains id then .error (.pathLoop id)
        else if g.mount.parent = 0 then .error .undefined
        else r.walk fuel g.mount.parent (id :: visited) (g.mount :: chain) := by
  -- the statement's match is its own, so the path is taken apart rather than compared
  cases hp : g.mount.path <;> simp only [walk, hv, lookup, hg, hp, bind, Except.bind, pure, Except.pure]

-- A walk up from `id` that ends gives back a base and the records passed, and joining them
-- gives what joining the records already passed gives onto the fresh path of `id`.
theorem walk_fresh (h : r.PathsOk U) :
    ∀ fuel id visited acc base out, r.walk fuel id visited acc = .ok (base, out) →
      ∀ q, joinAll base out = .ok q ↔ ∃ p, FreshPath r.mounts U id p ∧ joinAll p acc = .ok q := by
  intro fuel
  induction fuel with
  | zero => intro id visited acc base out hw; cases hw
  | succ fuel ih =>
    intro id visited acc base out hw q
    -- the walk ends only at a held record that passes the checks
    cases hv : r.validate id with
    | error e => simp [walk, hv, bind, Except.bind] at hw
    | ok u =>
      cases hg : r.mounts.get? id with
      | none => simp [walk, hv, lookup, hg, bind, Except.bind] at hw
      | some g =>
        have h0 : id ≠ 0 := by
          rintro rfl
          simp [validate] at hv
        rw [walk_succ_of_get? hv hg] at hw
        -- a stop gives the fresh path of `id` as the base
        have stop : ∀ b, FreshPath r.mounts U id b →
            (Except.ok (b, acc) : Except MountError (String × List Mount)) = .ok (base, out) →
            (joinAll base out = .ok q ↔ ∃ p, FreshPath r.mounts U id p ∧ joinAll p acc = .ok q) := by
          intro b hb hw
          cases hw
          constructor
          · exact fun hq => ⟨base, hb, hq⟩
          · rintro ⟨p, hp, hq⟩
            rwa [hb.unique hp]
        cases hpath : g.mount.path with
        | some p =>
          rw [hpath] at hw
          have hfresh := h.fresh_stop h0 hg (fun hn => by rw [hpath] at hn; cases hn)
          rw [hpath] at hfresh
          exact stop p hfresh hw
        | none =>
          rw [hpath] at hw
          have hU : g.stamp ∈ U := by
            by_contra hU
            have := h.preset id g hg hU
            rw [hpath] at this
            cases this
          dsimp only at hw
          split_ifs at hw with hr hvis hpar
          · exact stop "/" (.root h0 hg hU hr) hw
          · have hr' : g.mount.isRoot = false := by simpa using hr
            rw [ih _ _ _ _ _ hw q]
            constructor
            · rintro ⟨p', hp', hq⟩
              rw [joinAll_cons] at hq
              exact ⟨_, (FreshPath.join_iff h0 hg hU hr').2 ⟨p', hp', hq.1, rfl⟩, hq.2⟩
            · rintro ⟨p, hp, hq⟩
              obtain ⟨p', hp', hne, rfl⟩ := (FreshPath.join_iff h0 hg hU hr').1 hp
              exact ⟨p', hp', (joinAll_cons _ _ _ _).2 ⟨hne, hq⟩⟩

/-- The number of held records whose ID a walk has not passed yet. -/
def unwalked (r : Resolver) (visited : List Nat) : Nat :=
  (r.mounts.entries.filter fun e => e.1 ∉ visited).length

theorem unwalked_lt {visited : List Nat} {id : Nat} {g : Record} (hg : r.mounts.get? id = some g)
    (hid : id ∉ visited) : r.unwalked (id :: visited) < r.unwalked visited := by
  unfold unwalked
  have hfilter : (r.mounts.entries.filter fun e => e.1 ∉ id :: visited) =
      (r.mounts.entries.filter fun e => e.1 ∉ visited).filter fun e => e.1 ≠ id := by
    rw [List.filter_filter]
    congr 1
    funext e
    simp
  rw [hfilter]
  apply List.length_filter_lt_length_iff_exists.2
  refine ⟨(id, g), List.mem_filter.2 ⟨Store.mem_of_get?_eq_some hg, by simpa using hid⟩, by simp⟩

-- A walk up from `id` fails only where no fresh walk from `id` finds a path: a loop the walk
-- meets would be a loop of the fresh walk, and the fuel outlasts the held records.
theorem walk_error (h : r.PathsOk U) :
    ∀ fuel id visited acc e, r.walk fuel id visited acc = .error e → r.unwalked visited < fuel →
      (∀ v ∈ visited, Relation.TransGen (FreshStep r.mounts U) v id) →
      ∀ p, ¬ FreshPath r.mounts U id p := by
  intro fuel
  induction fuel with
  | zero => intro id visited acc e _ hlt; omega
  | succ fuel ih =>
    intro id visited acc e hw hlt hvis p hp
    obtain ⟨h0, g, hg⟩ := hp.held
    rw [walk_succ_of_get? (validate_of_floor h0 (h.floor id g hg)) hg] at hw
    cases hpath : g.mount.path with
    | some q =>
      rw [hpath] at hw
      cases hw
    | none =>
      rw [hpath] at hw
      have hU : g.stamp ∈ U := by
        by_contra hU
        have := h.preset id g hg hU
        rw [hpath] at this
        cases this
      dsimp only at hw
      split_ifs at hw with hr hv hpar
      · -- the walk came back to `id`
        have hid : id ∈ visited := by simpa using hv
        exact hp.not_cycle (hvis id hid)
      · have hr' : g.mount.isRoot = false := by simpa using hr
        obtain ⟨p', hp', -, -⟩ := (FreshPath.join_iff h0 hg hU hr').1 hp
        rw [hpar] at hp'
        exact hp'.held.1 rfl
      · have hr' : g.mount.isRoot = false := by simpa using hr
        have hid : id ∉ visited := by simpa using hv
        have hstep : FreshStep r.mounts U id g.mount.parent := ⟨g, hg, hU, hr', rfl⟩
        obtain ⟨p', hp', -, -⟩ := (FreshPath.join_iff h0 hg hU hr').1 hp
        refine ih _ _ _ _ hw (Nat.lt_of_lt_of_le (unwalked_lt hg hid) (by omega)) ?_ p' hp'
        intro v hv'
        rcases List.mem_cons.1 hv' with rfl | hv'
        · exact .single hstep
        · exact .tail (hvis v hv') hstep

theorem unwalked_nil (r : Resolver) : r.unwalked [] = r.mounts.size := by
  simp [unwalked, Store.size]

/-- The path `mountPath` answers is exactly the path a fresh walk finds. -/
theorem mountPath_eq_ok_iff (h : r.PathsOk U) (id : Nat) (p : String) :
    (r.mountPath id).2 = .ok p ↔ FreshPath r.mounts U id p := by
  unfold mountPath
  split
  · rename_i base out hw
    rw [descend_snd, walk_fresh h _ _ _ _ _ _ hw p]
    simp [joinAll]
  · rename_i e hw
    simp only [reduceCtorEq, false_iff]
    exact walk_error h _ _ _ _ _ hw (by rw [unwalked_nil]; omega) (by simp) p

end Walk

/-! ## The way back down -/

/-- A chain of records, outermost first, whose paths a walk is about to find: each is held
as it stands in the chain, was inserted without a path and has none yet, is neither a root
nor without a parent, and hangs from the one before it; no ID comes twice. -/
inductive Linked (s : Store Record) (U : List Nat) : List Mount → Prop
  | nil : Linked s U []
  | cons {m : Mount} {g : Record} {rest : List Mount} : m.id ≠ 0 → s.get? m.id = some g →
      g.mount = m → g.stamp ∈ U → m.path = none → m.isRoot = false → m.parent ≠ 0 →
      (∀ m' ∈ rest.head?, m'.parent = m.id) → m.id ∉ rest.map (·.id) → Linked s U rest →
      Linked s U (m :: rest)

theorem Linked.congr {s s' : Store Record} {U : List Nat} {chain : List Mount}
    (h : Linked s U chain) (heq : ∀ m ∈ chain, s'.get? m.id = s.get? m.id) : Linked s' U chain := by
  induction h with
  | nil => exact .nil
  | cons h0 hg hgm hU hp hr hpar hhead hnd _ ih =>
    refine .cons h0 ?_ hgm hU hp hr hpar hhead hnd (ih fun m hm => heq m (List.mem_cons_of_mem _ hm))
    rw [heq _ List.mem_cons_self]
    exact hg

section Descend

variable {r : Resolver} {U : List Nat}

-- A walk up hands back the records it passed as a linked chain whose outermost record hangs
-- from the record it stopped at, and the base is that record's path, or `/` for a root.
theorem walk_linked (hs : r.Sound) (h : r.PathsOk U) :
    ∀ fuel id visited acc base out, r.walk fuel id visited acc = .ok (base, out) →
      Linked r.mounts U acc → (∀ m ∈ acc.head?, m.parent = id) → (∀ m ∈ acc, m.id ∈ visited) →
      Linked r.mounts U out ∧ ∀ m ∈ out.head?, ∃ P, r.mounts.get? m.parent = some P ∧
        (P.mount.path = none → P.mount.isRoot = true) ∧ base = P.mount.path.getD "/" := by
  intro fuel
  induction fuel with
  | zero => intro id visited acc base out hw; cases hw
  | succ fuel ih =>
    intro id visited acc base out hw hl hhead hvis
    cases hv : r.validate id with
    | error e => simp [walk, hv, bind, Except.bind] at hw
    | ok u =>
      cases hg : r.mounts.get? id with
      | none => simp [walk, hv, lookup, hg, bind, Except.bind] at hw
      | some g =>
        have h0 : id ≠ 0 := by
          rintro rfl
          simp [validate] at hv
        rw [walk_succ_of_get? hv hg] at hw
        -- a stop hands back the chain so far, hanging from the record at `id`
        have stop : ∀ b, (g.mount.path = none → g.mount.isRoot = true) → b = g.mount.path.getD "/" →
            (Except.ok (b, acc) : Except MountError (String × List Mount)) = .ok (base, out) →
            Linked r.mounts U out ∧ ∀ m ∈ out.head?, ∃ P, r.mounts.get? m.parent = some P ∧
              (P.mount.path = none → P.mount.isRoot = true) ∧ base = P.mount.path.getD "/" := by
          intro b hr hb hw
          cases hw
          refine ⟨hl, fun m hm => ⟨g, ?_, hr, hb⟩⟩
          rw [hhead m hm]
          exact hg
        cases hpath : g.mount.path with
        | some p =>
          rw [hpath] at hw
          exact stop p (fun hn => by rw [hpath] at hn; cases hn) (by rw [hpath]; rfl) hw
        | none =>
          rw [hpath] at hw
          have hU : g.stamp ∈ U := by
            by_contra hU
            have := h.preset id g hg hU
            rw [hpath] at this
            cases this
          dsimp only at hw
          split_ifs at hw with hr hvis' hpar
          · exact stop "/" (fun _ => hr) (by rw [hpath]; rfl) hw
          · have hr' : g.mount.isRoot = false := by simpa using hr
            have hid : g.mount.id = id := hs.keyed.id_of_get? hg
            have hnot : id ∉ visited := by simpa using hvis'
            refine ih _ _ _ _ _ hw ?_ (by simp) ?_
            · refine .cons (by rw [hid]; exact h0) (by rw [hid]; exact hg) rfl hU hpath hr' hpar
                (fun m hm => by rw [hid]; exact hhead m hm) ?_ hl
              rw [hid]
              intro hmem
              obtain ⟨m, hm, hmid⟩ := List.mem_map.1 hmem
              exact hnot (hmid ▸ hvis m hm)
            · intro m hm
              rcases List.mem_cons.1 hm with rfl | hm
              · rw [hid]
                exact List.mem_cons_self
              · exact List.mem_cons_of_mem _ (hvis m hm)

-- Remembering for a record without a path the join of the path of the record it hangs from
-- onto its mount point keeps every found path what the fresh walk finds.
theorem PathsOk.remember (hs : r.Sound) (h : r.PathsOk U) {k : Nat} {g P : Record}
    (hk0 : k ≠ 0) (hg : r.mounts.get? k = some g) (hU : g.stamp ∈ U)
    (hnone : g.mount.path = none) (hroot : g.mount.isRoot = false) (hpar0 : g.mount.parent ≠ 0)
    (hP : r.mounts.get? g.mount.parent = some P) (hPr : P.mount.path = none → P.mount.isRoot = true)
    (hj : Path.join (P.mount.path.getD "/") g.mount.mountPoint ≠ "") :
    (r.remember k (Path.join (P.mount.path.getD "/") g.mount.mountPoint)).PathsOk U := by
  set j := Path.join (P.mount.path.getD "/") g.mount.mountPoint
  have hget : ∀ x, (r.remember k j).mounts.get? x =
      if x = k then (r.mounts.get? x).map fun g => { g with mount := g.mount.remember j }
      else r.mounts.get? x := fun x => Store.get?_modify _ _ _ _
  have hgrow := (Keeps.remember hs k j).2
  have hfresh : ∀ x q, FreshPath r.mounts U x q → FreshPath (r.remember k j).mounts U x q :=
    fun _ _ hq => hq.of_grows hgrow h.preset (fun _ _ _ => Iff.rfl)
  -- no found path hangs from the record at `k`: it has no path and is no root
  have hnotk : ∀ g₂ P₂ : Record, r.mounts.get? g₂.mount.parent = some P₂ →
      (P₂.mount.path = none → P₂.mount.isRoot = true) → g₂.mount.parent ≠ k := by
    rintro g₂ P₂ hP₂ hP₂r hk
    rw [hk, hg] at hP₂
    cases hP₂
    rw [hP₂r hnone] at hroot
    cases hroot
  have hg' : (r.remember k j).mounts.get? k = some { g with mount := g.mount.remember j } := by
    rw [hget, if_pos rfl, hg]
    rfl
  obtain ⟨hpar, hmp⟩ := Mount.remember_frame g.mount j
  refine ⟨fun x g₂ hx => ?_, h.used, fun x g₂ hx hU₂ => ?_, fun x g₂ p₂ hx hU₂ hp₂ => ?_⟩
  · -- the IDs held are the same
    rw [hget] at hx
    split at hx
    · rename_i hxk
      rw [hxk]
      exact h.floor k g hg
    · exact h.floor x g₂ hx
  · rw [hget] at hx
    split at hx
    · obtain ⟨g₀, -, rfl⟩ := Option.map_eq_some_iff.1 hx
      exact Mount.isSome_path_remember _ _
    · exact h.preset x g₂ hx hU₂
  · by_cases hxk : x = k
    · -- the record just given its path
      subst hxk
      rw [hg'] at hx
      cases hx
      have hpj : p₂ = j := by
        simpa [Mount.remember, hnone] using hp₂.symm
      subst hpj
      have hP' : (r.remember x (Path.join (P.mount.path.getD "/") g.mount.mountPoint)).mounts.get?
          g.mount.parent = some P := by
        rw [hget, if_neg (hnotk g P hP hPr)]
        exact hP
      refine ⟨⟨P, by rw [hpar]; exact hP', hPr, by rw [hmp]⟩, ?_⟩
      have hstop := hfresh _ _ (h.fresh_stop hpar0 hP hPr)
      have hjoin := FreshPath.join hk0 hg' hU (by simp only [Mount.isRoot, hmp]; exact hroot)
        (by rw [hpar]; exact hstop) (by rw [hmp]; exact hj)
      rwa [hmp] at hjoin
    · rw [hget, if_neg hxk] at hx
      obtain ⟨⟨P₂, hP₂, hP₂r, heq⟩, hF⟩ := h.found x g₂ p₂ hx hU₂ hp₂
      refine ⟨⟨P₂, ?_, hP₂r, heq⟩, hfresh _ _ hF⟩
      rw [hget, if_neg (hnotk g₂ P₂ hP₂ hP₂r)]
      exact hP₂

-- The way down gives each record of a linked chain the path the fresh walk finds for it.
theorem PathsOk.descend : ∀ (chain : List Mount) (r : Resolver) (base : String), r.Sound →
    r.PathsOk U → Linked r.mounts U chain →
    (∀ m ∈ chain.head?, ∃ P, r.mounts.get? m.parent = some P ∧
      (P.mount.path = none → P.mount.isRoot = true) ∧ base = P.mount.path.getD "/") →
    (r.descend base chain).1.PathsOk U
  | [], _, _, _, h, _, _ => h
  | m :: rest, r, base, hs, h, hl, hhead => by
    cases hl with
    | @cons _ g _ h0 hg hgm hU hnone hroot hpar0 hnext hnd hrest =>
    obtain ⟨P, hP, hPr, hbase⟩ := hhead m rfl
    subst hgm hbase
    unfold Resolver.descend
    dsimp only
    split
    · exact h
    · rename_i hne
      set j := Path.join (P.mount.path.getD "/") g.mount.mountPoint
      have hj : j ≠ "" := String.isEmpty_eq_false_iff.1 (Bool.eq_false_iff.2 hne)
      have h₁ := h.remember hs h0 hg hU hnone hroot hpar0 hP hPr hj
      have hs₁ := (Keeps.remember hs g.mount.id j).1
      refine PathsOk.descend rest _ j hs₁ h₁ (hrest.congr fun m' hm' => ?_) fun m' hm' => ?_
      · -- the rest of the chain is untouched
        have hne' : m'.id ≠ g.mount.id := fun he => hnd (List.mem_map.2 ⟨m', hm', he⟩)
        exact (Store.get?_modify _ _ _ _).trans (if_neg hne')
      · -- the next record hangs from the one just given its path
        refine ⟨{ g with mount := g.mount.remember j }, ?_, fun hn => ?_, ?_⟩
        · rw [hnext m' hm', Resolver.remember, Store.get?_modify, if_pos rfl, hg]
          rfl
        · have := Mount.isSome_path_remember g.mount j
          rw [hn] at this
          cases this
        · simp [Mount.remember, hnone]

theorem PathsOk.mountPath (hs : r.Sound) (h : r.PathsOk U) (id : Nat) : (r.mountPath id).1.PathsOk U := by
  unfold Resolver.mountPath
  split
  · rename_i base out hw
    obtain ⟨hl, hhead⟩ := walk_linked hs h _ _ _ _ _ _ hw .nil (by simp) (by simp)
    exact PathsOk.descend out r base hs h hl hhead
  · exact h

end Descend

end Resolver

end MountIndex

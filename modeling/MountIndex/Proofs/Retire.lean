import MountIndex.Proofs.Teardown

/-!
# Retiring a record: the walk and the teardown

`retire` tears a record down with the walk `finalizeGo`: a stack of records to visit and the
mount IDs seen so far. Each step of the walk only filters the store and the redemption cache
by key (`Shrinks`), so retiring changes nothing else, whatever the store holds.

Over a store that files each record under its own mount ID the walk takes exactly the
teardown of the record it starts from, in whatever order it visits it: it ends in
`r.taken ids` with `ids` the teardown's mount IDs (`finalizeGo_eq_taken`), and so in the state
that erasing the IDs `dependents` finds, one after the other, gives (`retire_of_current`). The
walk's invariant (`WalkInv`) is that of a worklist search: the IDs it has seen lie in the
teardown, and each dependent of a record it has taken is seen or still on the stack.
-/

namespace MountIndex

namespace Store

variable {α : Type}

/-- The entries of a store whose IDs `keep` accepts. -/
def keepIds (s : Store α) (keep : Nat → Bool) : Store α := ⟨s.entries.filter fun e => keep e.1⟩

theorem erase_eq_keepIds (s : Store α) (i : Nat) : s.erase i = s.keepIds (· != i) := rfl

@[simp] theorem keepIds_true (s : Store α) : s.keepIds (fun _ => true) = s := by
  simp [keepIds]

theorem keepIds_keepIds (s : Store α) (p q : Nat → Bool) :
    (s.keepIds p).keepIds q = s.keepIds fun k => q k && p k := by
  simp only [keepIds, List.filter_filter]

theorem get?_keepIds (s : Store α) (keep : Nat → Bool) (k : Nat) :
    (s.keepIds keep).get? k = if keep k then s.get? k else none := by
  unfold get? keepIds
  rw [List.find?_filter]
  split
  · -- the entries under `k` are kept, so the first of them is found either way
    rename_i hkeep
    congr 2
    funext e
    by_cases he : e.1 = k <;> simp [he, hkeep]
  · rename_i hkeep
    rw [List.find?_eq_none.2 fun e _ => by by_cases he : e.1 = k <;> simp [he, hkeep]]
    rfl

theorem keyed_keepIds {s : Store Record} (hk : s.Keyed) (keep : Nat → Bool) :
    (s.keepIds keep).Keyed :=
  ⟨(List.filter_sublist.map _).nodup hk.distinct, fun e he => hk.key e (List.mem_filter.1 he).1⟩

theorem mem_values_keepIds {s : Store Record} (hk : s.Keyed) (keep : Nat → Bool) {c : Record} :
    c ∈ (s.keepIds keep).values ↔ c ∈ s.values ∧ keep c.mount.id = true := by
  simp only [mem_values, keepIds, List.mem_filter]
  constructor
  · rintro ⟨k, hm, hkeep⟩
    rw [hk.key _ hm]
    exact ⟨⟨k, hm⟩, hkeep⟩
  · rintro ⟨⟨k, hm⟩, hkeep⟩
    rw [hk.key _ hm] at hkeep
    exact ⟨k, hm, hkeep⟩

theorem foldl_erase (s : Store α) (ids : List Nat) :
    ids.foldl erase s = s.keepIds fun k => !ids.contains k := by
  induction ids generalizing s with
  | nil => simp
  | cons i rest ih =>
    rw [List.foldl_cons, ih, erase_eq_keepIds, keepIds_keepIds]
    congr 1
    funext k
    by_cases hk : k = i <;> simp [hk]

end Store

namespace Lru

variable {α : Type}

/-- The entries of a cache whose keys `keep` accepts, in their order. -/
def keepKeys (c : Lru Nat α) (keep : Nat → Bool) : Lru Nat α :=
  { c with entries := c.entries.filter fun e => keep e.1 }

theorem erase_eq_keepKeys (c : Lru Nat α) (i : Nat) : (c.erase i).1 = c.keepKeys (· != i) := rfl

@[simp] theorem keepKeys_true (c : Lru Nat α) : c.keepKeys (fun _ => true) = c := by
  simp [keepKeys]

theorem keepKeys_keepKeys (c : Lru Nat α) (p q : Nat → Bool) :
    (c.keepKeys p).keepKeys q = c.keepKeys fun k => q k && p k := by
  simp only [keepKeys, List.filter_filter]

theorem peek?_keepKeys (c : Lru Nat α) (keep : Nat → Bool) (k : Nat) :
    (c.keepKeys keep).peek? k = if keep k then c.peek? k else none :=
  Store.get?_keepIds c.asStore keep k

end Lru

namespace Resolver

theorem isCurrent_iff {r : Resolver} {h : Handle} :
    r.isCurrent h = true ↔ ∃ g, r.mounts.get? h.id = some g ∧ g.stamp = h.stamp := by
  unfold isCurrent
  split <;> simp_all

/-! ## The walk only filters by key -/

/-- `r'` is `r` with its store and its redemption cache filtered by key, and nothing else
changed. -/
structure Shrinks (r r' : Resolver) : Prop where
  mounts : ∃ keep, r'.mounts = r.mounts.keepIds keep
  redemption : ∃ keep, r'.redemption = r.redemption.keepKeys keep
  rest : r' = { r with mounts := r'.mounts, redemption := r'.redemption }

namespace Shrinks

variable {r r' r'' : Resolver}

theorem refl (r : Resolver) : Shrinks r r :=
  ⟨⟨fun _ => true, (Store.keepIds_true _).symm⟩, ⟨fun _ => true, (Lru.keepKeys_true _).symm⟩, rfl⟩

theorem trans (h₁ : Shrinks r r') (h₂ : Shrinks r' r'') : Shrinks r r'' where
  mounts := by
    obtain ⟨p, hp⟩ := h₁.mounts
    obtain ⟨q, hq⟩ := h₂.mounts
    exact ⟨_, by rw [hq, hp, Store.keepIds_keepIds]⟩
  redemption := by
    obtain ⟨p, hp⟩ := h₁.redemption
    obtain ⟨q, hq⟩ := h₂.redemption
    exact ⟨_, by rw [hq, hp, Lru.keepKeys_keepKeys]⟩
  rest := by
    calc r'' = { r' with mounts := r''.mounts, redemption := r''.redemption } := h₂.rest
      _ = { r with mounts := r''.mounts, redemption := r''.redemption } := by rw [h₁.rest]

-- A step of the walk that takes a record erases its ID, and perhaps its redemption entry.
theorem take (r : Resolver) (i : Nat) (b : Bool) :
    Shrinks r { r with
      mounts := r.mounts.erase i
      redemption := if b then (r.redemption.erase i).1 else r.redemption } where
  mounts := ⟨_, Store.erase_eq_keepIds _ _⟩
  redemption := by
    cases b
    · exact ⟨_, (Lru.keepKeys_true _).symm⟩
    · exact ⟨_, Lru.erase_eq_keepKeys _ _⟩
  rest := rfl

theorem get?_eq_some (h : Shrinks r r') {k : Nat} {g : Record} (hg : r'.mounts.get? k = some g) :
    r.mounts.get? k = some g := by
  obtain ⟨keep, hkeep⟩ := h.mounts
  rw [hkeep, Store.get?_keepIds] at hg
  split at hg
  · exact hg
  · cases hg

theorem entries_sublist (h : Shrinks r r') :
    r'.redemption.entries.Sublist r.redemption.entries := by
  obtain ⟨keep, hkeep⟩ := h.redemption
  rw [hkeep]
  exact List.filter_sublist

theorem capacity (h : Shrinks r r') : r'.redemption.capacity = r.redemption.capacity := by
  obtain ⟨keep, hkeep⟩ := h.redemption
  rw [hkeep]
  rfl

end Shrinks

-- The induction follows the walk: a skip changes nothing, and a take is one `Shrinks` step.
theorem shrinks_finalizeGo (r : Resolver) (stack : List Record) (seen : List Nat) :
    Shrinks r (r.finalizeGo stack seen) := by
  fun_induction r.finalizeGo stack seen with
  | case1 r seen => exact .refl r
  | case2 r seen curr rest hseen ih => exact ih
  | case3 r seen curr rest hseen seen' hc mounts redemption children siblings ih =>
    exact (Shrinks.take r curr.mount.id _).trans ih
  | case4 r seen curr rest hseen seen' hc ih => exact ih

theorem shrinks_retire (r : Resolver) (h : Handle) : Shrinks r (r.retire h) := by
  unfold retire
  split
  · split
    · exact shrinks_finalizeGo r _ _
    · exact .refl r
  · exact .refl r

-- The walk reads and writes only the store and the redemption cache: run from any state that
-- holds the same two, it ends with the same two and leaves the rest of that state as it was.
-- The induction follows the walk; each step unfolds the same way on both sides.
theorem finalizeGo_frame (r : Resolver) (stack : List Record) (seen : List Nat) :
    ∀ r' : Resolver,
      ({ r' with mounts := r.mounts, redemption := r.redemption } : Resolver).finalizeGo
          stack seen =
        { r' with
          mounts := (r.finalizeGo stack seen).mounts
          redemption := (r.finalizeGo stack seen).redemption } := by
  fun_induction r.finalizeGo stack seen with
  | case1 r seen =>
    intro r'
    rw [finalizeGo.eq_1]
  | case2 r seen curr rest hseen ih =>
    intro r'
    rw [finalizeGo.eq_2, if_pos hseen]
    exact ih r'
  | case3 r seen curr rest hseen seen' hc mounts redemption children siblings ih =>
    intro r'
    have hc' : ({ r' with mounts := r.mounts, redemption := r.redemption } : Resolver).isCurrent
        curr.handle = true := hc
    rw [finalizeGo.eq_2, if_neg hseen]
    simp only [dif_pos hc']
    exact ih r'
  | case4 r seen curr rest hseen seen' hc ih =>
    intro r'
    have hc' : ¬({ r' with mounts := r.mounts, redemption := r.redemption } : Resolver).isCurrent
        curr.handle = true := hc
    rw [finalizeGo.eq_2, if_neg hseen]
    simp only [dif_neg hc']
    exact ih r'

theorem retire_frame (r r' : Resolver) (h : Handle) :
    ({ r' with mounts := r.mounts, redemption := r.redemption } : Resolver).retire h =
      { r' with mounts := (r.retire h).mounts, redemption := (r.retire h).redemption } := by
  unfold retire
  dsimp only
  split
  · split
    · exact finalizeGo_frame r _ _ r'
    · rfl
  · rfl

/-! ## What the walk takes -/

/-- Whether the redemption entry of an ID names the record the store holds under it. -/
def namesHeld (s : Store Record) (c : Lru Nat Handle) (k : Nat) : Bool :=
  (s.get? k).any fun g => c.peek? k == some g.handle

/-- The state without the records under `ids`, and without the redemption entries of those
IDs that name the records held there. -/
def taken (r : Resolver) (ids : List Nat) : Resolver :=
  { r with
    mounts := r.mounts.keepIds fun k => !ids.contains k
    redemption := r.redemption.keepKeys fun k =>
      !(ids.contains k && namesHeld r.mounts r.redemption k) }

theorem namesHeld_keepKeys (s : Store Record) (c : Lru Nat Handle) (keep : Nat → Bool) (k : Nat) :
    namesHeld s (c.keepKeys keep) k = (keep k && namesHeld s c k) := by
  unfold namesHeld
  rw [Lru.peek?_keepKeys]
  cases keep k
  · cases s.get? k <;> simp
  · rfl

theorem dropRedeemed_eq (s : Store Record) (c : Lru Nat Handle) (i : Nat) :
    dropRedeemed s c i = c.keepKeys fun k => !(k == i && namesHeld s c k) := by
  have hkeep : ∀ b : Bool, namesHeld s c i = b →
      (fun k => !(k == i && namesHeld s c k)) = fun k => if k = i then !b else true := by
    intro b hb
    funext k
    by_cases hk : k = i
    · subst hk
      simp [hb]
    · simp [hk]
  unfold dropRedeemed
  split
  · rename_i g hg
    by_cases hp : (c.peek? i == some g.handle) = true
    · rw [if_pos hp, hkeep true (by simp [namesHeld, hg, hp]), Lru.erase_eq_keepKeys]
      congr 1
      funext k
      by_cases hk : k = i <;> simp [hk]
    · rw [if_neg hp, hkeep false (by simpa [namesHeld, hg] using hp)]
      simp
  · rename_i hg
    rw [hkeep false (by simp [namesHeld, hg])]
    simp

-- The clean-up of the redemption cache, one ID after the other, drops the entries of the IDs
-- that name the records held there: an earlier step leaves the entries of the other IDs.
theorem foldl_dropRedeemed (s : Store Record) (c : Lru Nat Handle) (ids : List Nat) :
    ids.foldl (dropRedeemed s) c = c.keepKeys fun k => !(ids.contains k && namesHeld s c k) := by
  induction ids generalizing c with
  | nil => simp
  | cons i rest ih =>
    rw [List.foldl_cons, ih, dropRedeemed_eq, Lru.keepKeys_keepKeys]
    congr 1
    funext k
    rw [namesHeld_keepKeys]
    by_cases hk : k = i
    · subst hk
      cases namesHeld s c k <;> simp
    · have hne : (k == i) = false := by simpa using hk
      cases namesHeld s c k <;> simp [hne, hk]

theorem foldl_eq_taken (r : Resolver) (ids : List Nat) :
    ({ r with
        mounts := ids.foldl Store.erase r.mounts
        redemption := ids.foldl (dropRedeemed r.mounts) r.redemption } : Resolver) = r.taken ids := by
  rw [Store.foldl_erase, foldl_dropRedeemed]
  rfl

@[simp] theorem taken_nil (r : Resolver) : r.taken [] = r := by
  simp [taken]

theorem taken_congr (r : Resolver) {ids ids' : List Nat} (h : ∀ k, k ∈ ids ↔ k ∈ ids') :
    r.taken ids = r.taken ids' := by
  have hc : ∀ k, ids.contains k = ids'.contains k := by
    intro k
    rw [Bool.eq_iff_iff, List.contains_iff_mem, List.contains_iff_mem]
    exact h k
  simp only [taken, hc]

section Walk

variable {r₀ : Resolver} {first curr : Record} {seen : List Nat}

-- Taking a held record is one more step of the clean-up: from the state without the IDs seen
-- to the state without these and the record's ID.
theorem taken_take (hg : r₀.mounts.get? curr.mount.id = some curr) :
    ({ r₀.taken seen with
        mounts := (r₀.taken seen).mounts.erase curr.mount.id
        redemption :=
          if (r₀.taken seen).redemption.peek? curr.mount.id == some curr.handle then
            ((r₀.taken seen).redemption.erase curr.mount.id).1
          else (r₀.taken seen).redemption } : Resolver) = r₀.taken (curr.mount.id :: seen) := by
  -- the walk's update of the redemption cache is the clean-up step of the taken ID
  have hdrop : ∀ c : Lru Nat Handle,
      (if c.peek? curr.mount.id == some curr.handle then (c.erase curr.mount.id).1 else c) =
        dropRedeemed r₀.mounts c curr.mount.id := by
    intro c
    unfold dropRedeemed
    rw [hg]
  have hids : ∀ k, k ∈ curr.mount.id :: seen ↔ k ∈ seen ++ [curr.mount.id] := by
    simp [or_comm]
  rw [hdrop, ← foldl_eq_taken r₀ seen, taken_congr r₀ hids, ← foldl_eq_taken, List.foldl_append,
    List.foldl_append]
  rfl

/-- What the walk from `first` over `r₀` keeps: its state is `r₀` without the IDs it has seen;
the records on its stack and the IDs it has seen belong to the teardown of `first`; each
dependent of a record it has seen is seen or on the stack; and `first` is one or the other. -/
structure WalkInv (r₀ : Resolver) (first : Record) (r : Resolver) (stack : List Record)
    (seen : List Nat) : Prop where
  state : r = r₀.taken seen
  stacked : ∀ s ∈ stack, s ∈ r₀.mounts.values ∧ Teardown r₀.mounts.values first s
  sound : ∀ k ∈ seen, ∃ c, Teardown r₀.mounts.values first c ∧ c.mount.id = k
  closed : ∀ p ∈ r₀.mounts.values, p.mount.id ∈ seen →
    ∀ c ∈ r₀.mounts.values, c.DependsOn p → c.mount.id ∈ seen ∨ c ∈ stack
  start : first.mount.id ∈ seen ∨ first ∈ stack

theorem walkInv_start (hf : first ∈ r₀.mounts.values) : WalkInv r₀ first r₀ [first] [] where
  state := (taken_nil r₀).symm
  stacked s hs := by
    rw [List.mem_singleton.1 hs]
    exact ⟨hf, .self⟩
  sound k hk := absurd hk List.not_mem_nil
  closed p _ hp := absurd hp List.not_mem_nil
  start := .inr List.mem_cons_self

namespace WalkInv

variable {r : Resolver} {rest : List Record}

-- Popping a record whose ID was seen keeps the invariant: the record itself counts as seen.
theorem pop (hinv : WalkInv r₀ first r (curr :: rest) seen) (hs : curr.mount.id ∈ seen) :
    WalkInv r₀ first r rest seen where
  state := hinv.state
  stacked s hsr := hinv.stacked s (List.mem_cons_of_mem _ hsr)
  sound := hinv.sound
  closed p hp hps c hc hdep := by
    rcases hinv.closed p hp hps c hc hdep with hcs | hcs
    · exact .inl hcs
    · rcases List.mem_cons.1 hcs with rfl | hcr
      · exact .inl hs
      · exact .inr hcr
  start := by
    rcases hinv.start with hfs | hfs
    · exact .inl hfs
    · rcases List.mem_cons.1 hfs with rfl | hfr
      · exact .inl hs
      · exact .inr hfr

-- A popped record whose ID was not seen is still held, so the walk takes it.
theorem isCurrent (hk : r₀.mounts.Keyed) (hinv : WalkInv r₀ first r (curr :: rest) seen)
    (hs : curr.mount.id ∉ seen) : r.isCurrent curr.handle = true := by
  have hheld : r₀.mounts.get? curr.mount.id = some curr :=
    hk.mem_values_iff.1 (hinv.stacked curr List.mem_cons_self).1
  apply isCurrent_iff.2
  refine ⟨curr, ?_, rfl⟩
  rw [hinv.state]
  simp [taken, Store.get?_keepIds, Record.handle, hs, hheld]

-- Taking a record keeps the invariant once the records pushed are exactly its dependents
-- whose IDs are not seen.
theorem take (hk : r₀.mounts.Keyed) (hinv : WalkInv r₀ first r (curr :: rest) seen)
    (hs : curr.mount.id ∉ seen) {r' : Resolver} (hr' : r' = r₀.taken (curr.mount.id :: seen))
    {pushed : List Record}
    (hpushed : ∀ c, c ∈ pushed ↔
      c ∈ r₀.mounts.values ∧ c.DependsOn curr ∧ c.mount.id ∉ curr.mount.id :: seen) :
    WalkInv r₀ first r' (pushed ++ rest) (curr.mount.id :: seen) where
  state := hr'
  stacked s hsr := by
    have hcurr := hinv.stacked curr List.mem_cons_self
    rcases List.mem_append.1 hsr with hsp | hsr
    · obtain ⟨hsv, hdep, -⟩ := (hpushed s).1 hsp
      exact ⟨hsv, .dep hcurr.2 hsv hdep⟩
    · exact hinv.stacked s (List.mem_cons_of_mem _ hsr)
  sound k hk' := by
    rcases List.mem_cons.1 hk' with rfl | hks
    · exact ⟨curr, (hinv.stacked curr List.mem_cons_self).2, rfl⟩
    · exact hinv.sound k hks
  closed p hp hps c hc hdep := by
    by_cases hcs : c.mount.id ∈ curr.mount.id :: seen
    · exact .inl hcs
    right
    rcases List.mem_cons.1 hps with hpc | hps
    · -- `p` is the record taken, and `c` one of the dependents it pushed
      have hpcurr : p = curr :=
        List.inj_on_of_nodup_map hk.nodup_ids hp (hinv.stacked curr List.mem_cons_self).1 hpc
      subst hpcurr
      exact List.mem_append_left _ ((hpushed c).2 ⟨hc, hdep, hcs⟩)
    · rcases hinv.closed p hp hps c hc hdep with hcs' | hcr
      · exact absurd (List.mem_cons_of_mem _ hcs') hcs
      · rcases List.mem_cons.1 hcr with rfl | hcr
        · exact absurd List.mem_cons_self hcs
        · exact List.mem_append_right _ hcr
  start := by
    rcases hinv.start with hfs | hfs
    · exact .inl (List.mem_cons_of_mem _ hfs)
    · rcases List.mem_cons.1 hfs with rfl | hfr
      · exact .inl List.mem_cons_self
      · exact .inr (List.mem_append_right _ hfr)

-- With the stack empty the IDs seen are closed under dependence and hold `first`: they are
-- the teardown's IDs.
theorem mem_seen_iff (hf : first ∈ r₀.mounts.values) (hinv : WalkInv r₀ first r [] seen)
    (k : Nat) : k ∈ seen ↔ ∃ c, Teardown r₀.mounts.values first c ∧ c.mount.id = k := by
  refine ⟨hinv.sound k, ?_⟩
  rintro ⟨c, hc, rfl⟩
  induction hc with
  | self => exact hinv.start.resolve_right List.not_mem_nil
  | dep hp hcv hdep ih =>
    exact (hinv.closed _ (hp.mem hf) ih _ hcv hdep).resolve_right List.not_mem_nil

end WalkInv

-- The records a taken record pushes: those of the store that depend on it, with IDs not seen.
theorem mem_pushed {s : Store Record} (children siblings : List Record)
    (hch : children = s.values.filter fun c =>
      c.mount.parent == curr.mount.id && !seen.contains c.mount.id)
    (hsib : siblings = if curr.mount.isOverlay then
      s.values.filter fun c => c.mount.device == curr.mount.device && !seen.contains c.mount.id
      else [])
    (c : Record) :
    c ∈ (children ++ siblings).reverse ↔ c ∈ s.values ∧ c.DependsOn curr ∧ c.mount.id ∉ seen := by
  subst hch hsib
  rw [List.mem_reverse, List.mem_append]
  by_cases hov : curr.mount.isOverlay = true
  · simp [hov, Record.DependsOn]
    tauto
  · simp [hov, Record.DependsOn]

end Walk

-- The induction follows the walk, carrying `WalkInv`: a pop of a seen ID keeps it, a take
-- keeps it, and a popped record with an unseen ID is always held, so the walk never skips one.
theorem finalizeGo_eq_taken {r₀ : Resolver} {first : Record} (hk : r₀.mounts.Keyed)
    (hf : first ∈ r₀.mounts.values) (r : Resolver) (stack : List Record) (seen : List Nat) :
    WalkInv r₀ first r stack seen →
      ∃ ids, r.finalizeGo stack seen = r₀.taken ids ∧
        ∀ k, k ∈ ids ↔ ∃ c, Teardown r₀.mounts.values first c ∧ c.mount.id = k := by
  fun_induction r.finalizeGo stack seen with
  | case1 r seen =>
    intro hinv
    exact ⟨seen, hinv.state, hinv.mem_seen_iff hf⟩
  | case2 r seen curr rest hseen ih =>
    intro hinv
    exact ih (hinv.pop (by simpa using hseen))
  | case3 r seen curr rest hseen seen' hc mounts redemption children siblings ih =>
    intro hinv
    have hs : curr.mount.id ∉ seen := by simpa using hseen
    have hheld : r₀.mounts.get? curr.mount.id = some curr :=
      hk.mem_values_iff.1 (hinv.stacked curr List.mem_cons_self).1
    obtain rfl := hinv.state
    refine ih (hinv.take hk hs (taken_take hheld) fun c => ?_)
    -- the store the walk pushes from is the store without the IDs seen and the taken one
    have hmounts : mounts = r₀.mounts.keepIds fun k => (k != curr.mount.id) && !seen.contains k :=
      Store.keepIds_keepIds r₀.mounts (fun k => !seen.contains k) (· != curr.mount.id)
    rw [mem_pushed children siblings rfl rfl c, hmounts, Store.mem_values_keepIds hk,
      show seen' = curr.mount.id :: seen from rfl]
    by_cases hcs : c.mount.id ∈ curr.mount.id :: seen
    · simp [hcs]
    · have hne : c.mount.id ≠ curr.mount.id := fun h => hcs (h ▸ List.mem_cons_self)
      have hcs' : c.mount.id ∉ seen := fun h => hcs (List.mem_cons_of_mem _ h)
      simp [hne, hcs', hcs]
  | case4 r seen curr rest hseen seen' hc ih =>
    intro hinv
    exact absurd (hinv.isCurrent hk (by simpa using hseen)) hc

/-! ## Retiring a record -/

section Retire

variable {r : Resolver} {h : Handle} {rec : Record}

theorem mem_values_of_get? (hk : r.mounts.Keyed) {k : Nat} {g : Record}
    (hg : r.mounts.get? k = some g) : g ∈ r.mounts.values := by
  rw [hk.mem_values_iff, hk.id_of_get? hg]
  exact hg

-- Retiring a current record takes what erasing, one after the other, the IDs that `dependents`
-- finds takes: the walk and the search reach the same teardown.
theorem retire_of_current (hk : r.mounts.Keyed) (hget : r.mounts.get? h.id = some rec)
    (hst : rec.stamp = h.stamp) :
    r.retire h = { r with
      mounts := (dependents r.mounts.values rec).foldl Store.erase r.mounts
      redemption := (dependents r.mounts.values rec).foldl (dropRedeemed r.mounts) r.redemption } := by
  have hrec : rec ∈ r.mounts.values := mem_values_of_get? hk hget
  obtain ⟨ids, hwalk, hids⟩ := finalizeGo_eq_taken hk hrec r [rec] [] (walkInv_start hrec)
  unfold retire
  simp only [hget, hst, if_true]
  rw [hwalk, foldl_eq_taken]
  exact taken_congr r fun k => (hids k).trans (mem_dependents hk.nodup_ids hrec k).symm

theorem retire_of_not_current (hc : r.isCurrent h = false) : r.retire h = r := by
  unfold retire
  unfold isCurrent at hc
  split
  · rename_i g hg
    rw [hg] at hc
    have hne : g.stamp ≠ h.stamp := by simpa using hc
    rw [if_neg hne]
  · rfl

-- Retiring changes only the store and the redemption cache.
theorem retire_eta (r : Resolver) (h : Handle) :
    r.retire h = { r with mounts := (r.retire h).mounts, redemption := (r.retire h).redemption } :=
  (shrinks_retire r h).rest

@[simp] theorem retire_queue : (r.retire h).queue = r.queue := by rw [retire_eta]
@[simp] theorem retire_nextStamp : (r.retire h).nextStamp = r.nextStamp := by rw [retire_eta]
@[simp] theorem retire_floor : (r.retire h).floor = r.floor := by rw [retire_eta]
@[simp] theorem retire_config : (r.retire h).config = r.config := by rw [retire_eta]

@[simp] theorem capacity_retire : (r.retire h).redemption.capacity = r.redemption.capacity :=
  (shrinks_retire r h).capacity

-- One clean-up step drops every entry of its ID, as each names the record held there.
theorem entries_dropRedeemed (s : Store Record) (c : Lru Nat Handle) (i : Nat)
    (hc : ∀ e ∈ c.entries, e.1 = i → ∃ g, s.get? i = some g ∧ e.2 = g.handle) :
    (dropRedeemed s c i).entries = c.entries.filter (fun e => e.1 != i) := by
  have hnone : c.peek? i = none → c.entries.filter (fun e => e.1 != i) = c.entries := by
    intro hp
    rw [List.filter_eq_self]
    intro e he
    simpa using Lru.peek?_eq_none_iff.1 hp e he
  unfold dropRedeemed
  split
  · rename_i g hg
    cases hp : c.peek? i with
    | none =>
      rw [if_neg (by simp)]
      exact (hnone hp).symm
    | some v =>
      obtain ⟨g', hg', hv⟩ := hc (i, v) (Lru.mem_of_peek?_eq_some hp) rfl
      rw [hg] at hg'
      cases hg'
      simp only at hv
      simp [hv, Lru.erase]
  · rename_i hg
    have hp : c.peek? i = none := by
      apply Lru.peek?_eq_none_iff.2
      intro e he hei
      obtain ⟨g, hg', -⟩ := hc e he hei
      rw [hg] at hg'
      cases hg'
    rw [hnone hp]

-- The whole clean-up drops exactly the entries of the IDs that go.
theorem entries_foldl_dropRedeemed (s : Store Record) (gone : List Nat) (c : Lru Nat Handle)
    (hc : ∀ e ∈ c.entries, e.1 ∈ gone → ∃ g, s.get? e.1 = some g ∧ e.2 = g.handle) :
    (gone.foldl (dropRedeemed s) c).entries = c.entries.filter (fun e => e.1 ∉ gone) := by
  induction gone generalizing c with
  | nil => simp
  | cons i rest ih =>
    have hstep := entries_dropRedeemed s c i (fun e he hei => by
      obtain ⟨g, hg, hv⟩ := hc e he (hei ▸ List.mem_cons_self)
      exact ⟨g, hei ▸ hg, hv⟩)
    rw [List.foldl_cons, ih, hstep, List.filter_filter]
    · congr 1
      funext e
      by_cases h1 : e.1 = i <;> by_cases h2 : e.1 ∈ rest <;> simp [h1, h2]
    · intro e he hrest
      rw [hstep] at he
      exact hc e (List.mem_filter.1 he).1 (List.mem_cons_of_mem _ hrest)

-- What stays of the store when a record is retired: every record outside its teardown.
theorem get?_retire (hk : r.mounts.Keyed) (hget : r.mounts.get? h.id = some rec)
    (hst : rec.stamp = h.stamp) (k : Nat) :
    (r.retire h).mounts.get? k =
      if k ∈ dependents r.mounts.values rec then none else r.mounts.get? k := by
  rw [retire_of_current hk hget hst]
  exact Store.get?_foldl_erase _ _ _

theorem entries_retire (hk : r.mounts.Keyed) (hget : r.mounts.get? h.id = some rec)
    (hst : rec.stamp = h.stamp) (hf : r.Filed) :
    (r.retire h).redemption.entries =
      r.redemption.entries.filter (fun e => e.1 ∉ dependents r.mounts.values rec) := by
  rw [retire_of_current hk hget hst]
  exact entries_foldl_dropRedeemed _ _ _ (fun e he _ => hf e he)

-- A held record goes exactly when it belongs to the teardown of the retired one.
theorem retire_drops_iff (hk : r.mounts.Keyed) (hget : r.mounts.get? h.id = some rec)
    (hst : rec.stamp = h.stamp) {c : Record} (hc : r.mounts.get? c.mount.id = some c) :
    (r.retire h).mounts.get? c.mount.id = none ↔ Teardown r.mounts.values rec c := by
  have hrec : rec ∈ r.mounts.values := mem_values_of_get? hk hget
  have hcv : c ∈ r.mounts.values := mem_values_of_get? hk hc
  have hmem := mem_dependents hk.nodup_ids hrec c.mount.id
  rw [get?_retire hk hget hst]
  constructor
  · intro hnone
    split at hnone
    · rename_i hin
      obtain ⟨c', hc', hid⟩ := hmem.1 hin
      have hcc : c' = c := List.inj_on_of_nodup_map hk.nodup_ids (hc'.mem hrec) hcv hid
      exact hcc ▸ hc'
    · rw [hc] at hnone
      cases hnone
  · intro ht
    rw [if_pos (hmem.2 ⟨c, ht, rfl⟩)]

theorem keyed_retire (hk : r.mounts.Keyed) (h : Handle) : (r.retire h).mounts.Keyed := by
  obtain ⟨keep, hkeep⟩ := (shrinks_retire r h).mounts
  rw [hkeep]
  exact Store.keyed_keepIds hk keep

theorem filed_retire (hk : r.mounts.Keyed) (hf : r.Filed) (h : Handle) : (r.retire h).Filed := by
  cases hc : r.isCurrent h
  · rw [retire_of_not_current hc]
    exact hf
  · obtain ⟨g, hg, hst⟩ := isCurrent_iff.1 hc
    intro e he
    rw [entries_retire hk hg hst hf] at he
    obtain ⟨he, hgone⟩ := List.mem_filter.1 he
    obtain ⟨g', hg', hv⟩ := hf e he
    refine ⟨g', ?_, hv⟩
    rw [get?_retire hk hg hst, if_neg (by simpa using hgone)]
    exact hg'

theorem size_retire_le (r : Resolver) (h : Handle) :
    (r.retire h).redemption.size ≤ r.redemption.size :=
  (shrinks_retire r h).entries_sublist.length_le

-- Retiring keeps the redemption entry of every ID whose record stays.
theorem isSome_peek?_retire (hkd : r.mounts.Keyed) (hf : r.Filed) {k : Nat}
    (hk : (r.retire h).mounts.get? k ≠ none) :
    ((r.retire h).redemption.peek? k).isSome = (r.redemption.peek? k).isSome := by
  cases hc : r.isCurrent h
  · rw [retire_of_not_current hc]
  · obtain ⟨g, hg, hst⟩ := isCurrent_iff.1 hc
    -- the record under the key stays, so the teardown does not drop the ID
    have hstay : k ∉ dependents r.mounts.values g := by
      intro hin
      rw [get?_retire hkd hg hst, if_pos hin] at hk
      exact hk rfl
    apply Bool.eq_iff_iff.2
    simp only [Lru.isSome_peek?_iff, entries_retire hkd hg hst hf, List.mem_filter]
    constructor
    · rintro ⟨e, ⟨he, -⟩, hek⟩
      exact ⟨e, he, hek⟩
    · rintro ⟨e, he, rfl⟩
      exact ⟨e, ⟨he, by simpa using hstay⟩, rfl⟩

end Retire

end Resolver

end MountIndex

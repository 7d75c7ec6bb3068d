import Mathlib.Data.Finset.Card
import MountIndex.Proofs.RateBound

/-!
# The limiter's key space

The fallback limiter keeps its buckets in an LRU map keyed by mount ID. A call touches the
bucket of its key when the key is tracked, and otherwise adds a fresh one, which evicts the
least recently used key when the map is full (`Call.use`); spending a token never moves a key.
So the tracked keys behave as the keys of an LRU map run on the calls' keys (`recency_play`),
and the results on LRU maps give the key space's laws. Main statement:
`bounded_keys_no_starvation`.

* At most `capacity` keys are tracked.
* A call forgets a tracked key only by adding an untracked key to a full key space, and the key
  it forgets is the one whose last call lies furthest back (`forgets_oldest`). So a key survives
  while fewer than `capacity` other keys are called after its last call
  (`contains_play_of_few`).
* Every tracked bucket was last refilled at the time of a call on its key (`Stamped`), so an
  attempt finds a token whenever its key is untracked or every call on it lies a period or more
  back (`allow_of_due`), whatever the order of the timestamps.
-/

namespace MountIndex

namespace Lru

variable {α : Type}

/-- The keys of a map, least recently used first. -/
def keys (c : Lru Nat α) : List Nat := c.entries.map (·.1)

theorem contains_iff_mem_keys {c : Lru Nat α} {k : Nat} :
    c.contains k = true ↔ k ∈ c.keys := by
  simp [contains, keys]

theorem exists_mem_of_contains {c : Lru Nat α} {k : Nat} (h : c.contains k = true) :
    ∃ v, (k, v) ∈ c.entries := by
  obtain ⟨e, he, hek⟩ := isSome_peek?_iff.1 (contains_iff_isSome_peek?.1 h)
  exact ⟨e.2, hek ▸ he⟩

theorem Distinct.nodup_keys {c : Lru Nat α} (h : c.Distinct) : c.keys.Nodup := h

theorem keys_modify (c : Lru Nat α) (k : Nat) (f : α → α) : (c.modify k f).keys = c.keys := by
  unfold keys modify
  rw [List.map_map]
  congr 1
  funext e
  simp only [Function.comp_apply]
  split <;> rfl

theorem touch_of_contains_eq_false {c : Lru Nat α} {k : Nat} (h : c.contains k = false) :
    (c.touch k).1 = c := by
  have hnone : c.peek? k = none := by
    rw [← Bool.not_eq_true, contains_iff_isSome_peek?] at h
    simpa using h
  unfold touch
  rw [hnone]

-- Recency reads a map only through its keys and its capacity.
theorem Recency.of_keys {ops : List (Op α)} {c c' : Lru Nat α} (h : Recency ops c)
    (hk : c'.keys = c.keys) (hcap : c'.capacity = c.capacity) : Recency ops c' := by
  have hlen : c'.size = c.size := by
    have := congrArg List.length hk
    simpa [keys, size] using this
  refine ⟨?_, by rw [hlen, hcap]; exact h.bounded, ?_⟩
  · unfold Distinct
    rw [show c'.entries.map (·.1) = c'.keys from rfl, hk]
    exact h.distinct
  · have hord : c.keys.Pairwise fun a b => lastUse ops a < lastUse ops b :=
      List.pairwise_map.2 h.ordered
    rw [← hk] at hord
    exact (List.pairwise_map (f := Prod.fst)).1 hord

end Lru

namespace Bucket

theorem refilledAt_refill (b : Bucket) (now period burst : Nat) :
    (b.refill now period burst).refilledAt = now ∨
      (b.refill now period burst).refilledAt = b.refilledAt := by
  unfold refill
  split
  · exact .inl rfl
  · dsimp only
    split
    · exact .inr rfl
    · exact .inl rfl

-- A refill leaves a token in a bucket that was full, or that was refilled a period ago or more.
theorem tokens_refill_pos {b : Bucket} {now period burst : Nat} (hB : 0 < burst)
    (hP : 0 < period) (h : burst ≤ b.tokens ∨ b.refilledAt + period ≤ now) :
    0 < (b.refill now period burst).tokens := by
  unfold refill
  split
  · rename_i hfull
    exact Nat.lt_of_lt_of_le hB hfull
  · rename_i hlow
    have hdue : b.refilledAt + period ≤ now := h.resolve_left hlow
    have hone : 1 ≤ (now - b.refilledAt) / period := (Nat.le_div_iff_mul_le hP).2 (by omega)
    dsimp only
    rw [if_neg (by omega)]
    dsimp only
    unfold maxTokens
    omega

end Bucket

namespace Limiter

namespace Call

/-- How a call uses the key space: it touches its key when the key is tracked, and otherwise adds
a fresh bucket for it, evicting the least recently used key if there is no room. -/
def use (c : Call) (l : Limiter) : Lru.Op Bucket :=
  if l.buckets.contains c.key then .get c.key else .add c.key (l.refilled c.key c.time)

theorem uses_use (c : Call) (l : Limiter) (j : Nat) : (c.use l).uses j = (c.key == j) := by
  unfold use
  split <;> rfl

-- A call moves the keys as its use of the key space does: the bucket it spends from stays put.
theorem keys_apply (c : Call) {l : Limiter} (hd : l.buckets.Distinct)
    (hcap : 0 < l.buckets.capacity) :
    (c.apply l).1.buckets.keys = ((c.use l).apply l.buckets).1.keys := by
  rw [c.apply_buckets hd hcap, Lru.keys_modify, bucketAt_buckets]
  unfold use
  by_cases h : l.buckets.contains c.key = true
  · rw [if_pos (Lru.contains_iff_isSome_peek?.1 h), if_pos h, Lru.keys_modify]
    rfl
  · have h' : l.buckets.contains c.key = false := by simpa using h
    rw [if_neg (fun hs => h (Lru.contains_iff_isSome_peek?.2 hs)), if_neg h,
      Lru.touch_of_contains_eq_false h']
    rfl

end Call

@[simp] theorem play_nil (l : Limiter) : l.play [] = l := rfl

@[simp] theorem play_append_singleton (l : Limiter) (calls : List Call) (c : Call) :
    l.play (calls ++ [c]) = (c.apply (l.play calls)).1 := by
  simp [play]

/-- One past the position of the last call on `k` in `calls`; zero if none is on `k`. -/
def lastCall (calls : List Call) (k : Nat) : Nat :=
  calls.length - calls.reverse.findIdx (·.key == k)

theorem lastCall_append_singleton (calls : List Call) (c : Call) (k : Nat) :
    lastCall (calls ++ [c]) k = if c.key = k then calls.length + 1 else lastCall calls k := by
  unfold lastCall
  rw [List.reverse_append, List.reverse_singleton, List.singleton_append, List.findIdx_cons]
  by_cases h : c.key = k
  · simp [h]
  · simp [beq_eq_false_iff_ne.2 h, h]

theorem lastCall_le (calls : List Call) (k : Nat) : lastCall calls k ≤ calls.length :=
  Nat.sub_le _ _

theorem lastCall_append_of_forall_ne (calls : List Call) {later : List Call} {k : Nat}
    (h : ∀ d ∈ later, d.key ≠ k) : lastCall (calls ++ later) k = lastCall calls k := by
  induction later using List.reverseRecOn with
  | nil => rw [List.append_nil]
  | append_singleton later d ih =>
    rw [← List.append_assoc, lastCall_append_singleton, if_neg (h d (by simp)),
      ih fun d' hd' => h d' (by simp [hd'])]

/-! ## The key space along a run -/

section Run

variable {capacity burst : Nat} {period : Duration} {l₀ : Limiter}

theorem capacity_play (hl : create capacity period burst = .ok l₀) (calls : List Call) :
    (l₀.play calls).buckets.capacity = capacity := by
  induction calls using List.reverseRecOn with
  | nil => exact (eq_of_create hl).2.2 ▸ rfl
  | append_singleton calls c ih =>
    have hp := (sane_create hl).play calls
    rw [play_append_singleton, c.capacity_apply hp.distinct hp.capacity_pos, ih]

-- The tracked keys stand in the order of their last calls, least recent first: the calls use
-- the key space as the operations `ops` of an LRU map, each using its own key.
theorem recency_play (hl : create capacity period burst = .ok l₀) (calls : List Call) :
    ∃ ops : List (Lru.Op Bucket), ops.length = calls.length ∧
      (∀ k, Lru.lastUse ops k = lastCall calls k) ∧
      Lru.Recency ops (l₀.play calls).buckets := by
  induction calls using List.reverseRecOn with
  | nil =>
    obtain ⟨-, -, rfl⟩ := eq_of_create hl
    exact ⟨[], rfl, fun _ => rfl, by simp [Lru.Distinct], by simp [Lru.size], by simp⟩
  | append_singleton calls c ih =>
    obtain ⟨ops, hlen, hlast, hrec⟩ := ih
    have hp := (sane_create hl).play calls
    refine ⟨ops ++ [c.use (l₀.play calls)], by simp [hlen], fun k => ?_, ?_⟩
    · rw [Lru.lastUse_append_singleton, lastCall_append_singleton, Call.uses_use, hlast, hlen]
      by_cases h : c.key = k <;> simp [h]
    · rw [play_append_singleton]
      refine (hrec.apply (c.use _)).of_keys (c.keys_apply hp.distinct hp.capacity_pos) ?_
      rw [c.capacity_apply hp.distinct hp.capacity_pos, Lru.capacity_apply]

end Run

/-! ## Forgetting a key -/

/-- `k` is tracked, and its last call among `calls` lies further back than that of every other
tracked key. -/
def LeastRecent (calls : List Call) (l : Limiter) (k : Nat) : Prop :=
  l.buckets.contains k = true ∧
    ∀ j, l.buckets.contains j = true → j ≠ k → lastCall calls k < lastCall calls j

-- A call forgets a tracked key only by adding an untracked one to a full key space, and the key
-- it forgets is the one used longest ago.
theorem forgets_oldest {ops : List (Lru.Op Bucket)} {l : Limiter} (hs : l.Sane)
    (hr : Lru.Recency ops l.buckets) (c : Call) {k : Nat} (hk : l.buckets.contains k = true)
    (hout : (c.apply l).1.buckets.contains k = false) :
    l.buckets.contains c.key = false ∧ l.size = l.buckets.capacity ∧
      ∀ j, l.buckets.contains j = true → j ≠ k → Lru.lastUse ops k < Lru.lastUse ops j := by
  rw [← Bool.not_eq_true, Lru.contains_iff_mem_keys, c.keys_apply hs.distinct hs.capacity_pos,
    ← Lru.contains_iff_mem_keys] at hout
  obtain ⟨v, hkv⟩ := Lru.exists_mem_of_contains hk
  unfold Call.use at hout
  by_cases hc : l.buckets.contains c.key = true
  · -- touching a tracked key keeps every key
    rw [if_pos hc] at hout
    refine absurd ?_ hout
    rw [Lru.contains_iff_isSome_peek?]
    exact (Lru.peek?_touch l.buckets c.key k).symm ▸ Lru.contains_iff_isSome_peek?.1 hk
  · rw [if_neg hc] at hout
    have hck : k ≠ c.key := fun h => hc (h ▸ hk)
    -- so the add of the untracked key evicted the entry of `k`
    have hev : (l.buckets.insert c.key (l.refilled c.key c.time)).2 = some (k, v) := by
      by_contra hne
      refine hout (Lru.contains_iff_isSome_peek?.2 (Lru.isSome_peek?_iff.2 ⟨(k, v), ?_, rfl⟩))
      exact Lru.mem_insert_of_mem hkv hck hne
    obtain ⟨hnew, hfull⟩ := (Lru.insert_evicts_iff hr.distinct hr.bounded c.key
      (l.refilled c.key c.time)).1 (by rw [hev]; rfl)
    refine ⟨hnew, hfull, fun j hj hjk => ?_⟩
    obtain ⟨w, hjw⟩ := Lru.exists_mem_of_contains hj
    exact (Lru.evicted_oldest hr hs.capacity_pos hev).2 (j, w) hjw
      (fun h => hjk (congrArg Prod.fst h))

/-! ## Survival -/

section Survival

variable {capacity burst : Nat} {period : Duration} {l₀ : Limiter}

-- Every key called more recently than `k`, whose last call is `c`, is a key of a later call.
theorem mem_later_of_lastCall_lt {pre later : List Call} {c : Call} {k j : Nat} (hk : c.key = k)
    (hlater : ∀ d ∈ later, d.key ≠ k)
    (hlt : lastCall (pre ++ c :: later) k < lastCall (pre ++ c :: later) j) :
    j ∈ later.map Call.key := by
  rw [List.append_cons, lastCall_append_of_forall_ne _ hlater, lastCall_append_singleton,
    if_pos hk] at hlt
  by_contra hj
  have hne : ∀ d ∈ later, d.key ≠ j := fun d hd hdj => hj (List.mem_map.2 ⟨d, hd, hdj⟩)
  rw [lastCall_append_of_forall_ne _ hne] at hlt
  have hle := lastCall_le (pre ++ [c]) j
  simp only [List.length_append, List.length_singleton] at hle
  omega

-- The induction is on the calls after the last call on `k`: the first of them to forget `k`
-- would find a full key space of keys called since, and add yet another.
theorem contains_play_of_few (hl : create capacity period burst = .ok l₀) (pre : List Call)
    {c : Call} {k : Nat} (hk : c.key = k) (later : List Call)
    (hlater : ∀ d ∈ later, d.key ≠ k)
    (hfew : (later.map Call.key).toFinset.card < capacity) :
    (l₀.play (pre ++ c :: later)).buckets.contains k = true := by
  induction later using List.reverseRecOn with
  | nil =>
    have hp := (sane_create hl).play pre
    rw [List.append_cons, List.append_nil, play_append_singleton, Lru.contains_iff_isSome_peek?,
      ← hk, c.peek?_apply_self hp.distinct hp.capacity_pos]
    rfl
  | append_singleton later d ih =>
    have hsub : (later.map Call.key).toFinset ⊆ ((later ++ [d]).map Call.key).toFinset := by
      rw [List.map_append, List.toFinset_append]
      exact Finset.subset_union_left
    have hin := ih (fun d' hd' => hlater d' (by simp [hd']))
      (Nat.lt_of_le_of_lt (Finset.card_le_card hsub) hfew)
    set S := l₀.play (pre ++ c :: later)
    have hs : S.Sane := (sane_create hl).play _
    rw [show pre ++ c :: (later ++ [d]) = pre ++ c :: later ++ [d] by simp, play_append_singleton]
    by_contra hout
    obtain ⟨ops, -, hlast, hrec⟩ := recency_play hl (pre ++ c :: later)
    obtain ⟨hnew, hfull, hold⟩ := forgets_oldest hs hrec d hin (by simpa using hout)
    -- the other tracked keys were all called among `later`
    have hkeys : ∀ j ∈ S.buckets.keys.erase k, j ∈ later.map Call.key := by
      intro j hj
      obtain ⟨hjk, hjS⟩ := (hs.distinct.nodup_keys.mem_erase_iff).1 hj
      have hlt := hold j (Lru.contains_iff_mem_keys.2 hjS) hjk
      rw [hlast, hlast] at hlt
      exact mem_later_of_lastCall_lt hk (fun d' hd' => hlater d' (by simp [hd'])) hlt
    have hdk : d.key ∉ S.buckets.keys.erase k := fun h =>
      absurd (Lru.contains_iff_mem_keys.2 (List.mem_of_mem_erase h)) (by simp [hnew])
    have hlen : S.buckets.keys.length = capacity := by
      rw [← capacity_play hl (pre ++ c :: later), ← hfull]
      simp [Lru.keys, size, Lru.size]
    -- so with `d` the calls since the last call on `k` used `capacity` distinct keys
    have hcount : capacity ≤ ((later ++ [d]).map Call.key).toFinset.card := by
      calc capacity = (S.buckets.keys.erase k).length + 1 := by
            rw [List.length_erase_of_mem (Lru.contains_iff_mem_keys.1 hin), hlen]
            have := (sane_create hl).capacity_pos
            omega
        _ = (insert d.key (S.buckets.keys.erase k).toFinset).card := by
            rw [Finset.card_insert_of_notMem (by simpa using hdk),
              List.toFinset_card_of_nodup (hs.distinct.nodup_keys.erase k)]
        _ ≤ ((later ++ [d]).map Call.key).toFinset.card := by
            apply Finset.card_le_card
            intro x hx
            rcases Finset.mem_insert.1 hx with rfl | hx
            · simp
            · simp only [List.mem_toFinset, List.map_append, List.mem_append]
              exact .inl (hkeys x (List.mem_toFinset.1 hx))
    omega

end Survival

/-! ## No key starves -/

/-- Every tracked bucket was last refilled at the time of a call on its key. -/
def Stamped (calls : List Call) (l : Limiter) : Prop :=
  ∀ k b, l.buckets.peek? k = some b → ∃ c ∈ calls, c.key = k ∧ c.time = b.refilledAt

theorem Stamped.apply {calls : List Call} {l : Limiter} (hs : l.Sane) (h : Stamped calls l)
    (c : Call) :
    Stamped (calls ++ [c]) (c.apply l).1 := by
  intro j b hb
  by_cases hj : j = c.key
  · subst hj
    rw [c.peek?_apply_self hs.distinct hs.capacity_pos] at hb
    obtain rfl := Option.some.inj hb
    -- the refill stamps the call's time, or keeps the stamp of the bucket the call found
    unfold refilled
    rcases Bucket.refilledAt_refill ((l.buckets.peek? c.key).getD ⟨l.burst, c.time⟩) c.time
      l.period l.burst with hnow | hkeep
    · exact ⟨c, by simp, rfl, hnow.symm⟩
    · cases hp : l.buckets.peek? c.key with
      | none =>
        rw [hp] at hkeep
        exact ⟨c, by simp, rfl, hkeep.symm⟩
      | some b₀ =>
        rw [hp] at hkeep
        obtain ⟨d, hd, hdk, hdt⟩ := h c.key b₀ hp
        exact ⟨d, by simp [hd], hdk, hdt.trans hkeep.symm⟩
  · obtain ⟨d, hd, hdk, hdt⟩ := h j b (c.peek?_apply_of_ne hs.distinct hs.capacity_pos hj hb)
    exact ⟨d, by simp [hd], hdk, hdt⟩

theorem stamped_play {capacity burst : Nat} {period : Duration} {l₀ : Limiter}
    (hl : create capacity period burst = .ok l₀) (calls : List Call) :
    Stamped calls (l₀.play calls) := by
  induction calls using List.reverseRecOn with
  | nil =>
    obtain ⟨-, -, rfl⟩ := eq_of_create hl
    intro k b hb
    simp [Lru.peek?] at hb
  | append_singleton calls c ih =>
    rw [play_append_singleton]
    exact ih.apply ((sane_create hl).play calls) c

-- An attempt is allowed when its key is untracked, or when every call on it so far lies a
-- period or more back.
theorem allow_of_due {calls : List Call} {l : Limiter} (hs : l.Sane) (hB : 0 < l.burst)
    (hst : Stamped calls l) {k t : Nat}
    (hdue : l.buckets.contains k = false ∨
      ∀ c ∈ calls, c.key = k → c.time + l.period ≤ t) :
    (l.allow k t).2 = true := by
  rw [allow_snd, decide_eq_true_iff]
  unfold refilled
  cases hp : l.buckets.peek? k with
  | none => exact Bucket.tokens_refill_pos hB hs.period_pos (.inl (Nat.le_refl _))
  | some b =>
    obtain ⟨c, hc, hck, hct⟩ := hst k b hp
    rcases hdue with hout | hdue
    · exact absurd (Lru.contains_iff_isSome_peek?.2 (by rw [hp]; rfl)) (by simp [hout])
    · exact Bucket.tokens_refill_pos hB hs.period_pos (.inr (hct ▸ hdue c hc hck))

@[simp] theorem period_play (l : Limiter) (calls : List Call) :
    (l.play calls).period = l.period := by
  induction calls generalizing l with
  | nil => rfl
  | cons c rest ih => exact (ih _).trans (c.period_apply l)

theorem burst_pos_of_create {capacity burst : Nat} {period : Duration} {l : Limiter}
    (h : create capacity period burst = .ok l) : 0 < l.burst := by
  unfold create at h
  split at h
  · cases h
  · rename_i hok
    cases h
    exact Nat.pos_of_ne_zero fun hb => hok (.inr (.inr hb))

/-- The fallback limiter's key space from `create` on, over any calls at any timestamps. It
never tracks more than `capacity` keys. A call forgets a tracked key only when it adds an
untracked key to a full key space, and the key it forgets is the one whose last call lies
furthest back; so a key survives while fewer than `capacity` other keys are called after its
last call. An attempt for a key is allowed whenever the key is not tracked, and whenever every
call on the key so far lies a period or more back. -/
theorem bounded_keys_no_starvation {capacity burst : Nat} {period : Duration} {l₀ : Limiter}
    (hl : create capacity period burst = .ok l₀) :
    (∀ calls, (l₀.play calls).size ≤ capacity) ∧
      (∀ calls (c : Call) k, (l₀.play calls).buckets.contains k = true →
        (c.apply (l₀.play calls)).1.buckets.contains k = false →
        (l₀.play calls).buckets.contains c.key = false ∧ (l₀.play calls).size = capacity ∧
          LeastRecent calls (l₀.play calls) k) ∧
      (∀ pre (c : Call) later, (∀ d ∈ later, d.key ≠ c.key) →
        (later.map Call.key).toFinset.card < capacity →
        (l₀.play (pre ++ c :: later)).buckets.contains c.key = true) ∧
      ∀ calls k t, ((l₀.play calls).buckets.contains k = false ∨
          ∀ c ∈ calls, c.key = k → c.time + period.nanos ≤ t) →
        ((l₀.play calls).allow k t).2 = true := by
  obtain ⟨-, -, hl₀⟩ := eq_of_create hl
  refine ⟨fun calls => ?_, fun calls c k hk hout => ?_,
    fun pre c later hlater hfew => contains_play_of_few hl pre rfl later hlater hfew,
    fun calls k t hdue => ?_⟩
  · obtain ⟨ops, -, -, hrec⟩ := recency_play hl calls
    have hb := hrec.bounded
    rwa [capacity_play hl] at hb
  · have hs := (sane_create hl).play calls
    obtain ⟨ops, -, hlast, hrec⟩ := recency_play hl calls
    obtain ⟨hnew, hfull, hold⟩ := forgets_oldest hs hrec c hk hout
    refine ⟨hnew, by rw [hfull, capacity_play hl], hk, fun j hj hjk => ?_⟩
    have hlt := hold j hj hjk
    rwa [hlast, hlast] at hlt
  · have hs := (sane_create hl).play calls
    have hB : 0 < (l₀.play calls).burst := by
      rw [burst_play]
      exact burst_pos_of_create hl
    have hP : (l₀.play calls).period = period.nanos := by
      rw [period_play, hl₀]
    exact allow_of_due hs hB (stamped_play hl calls) (hP ▸ hdue)

-- With room for two keys, a third forgets the first, whose budget then starts over.
example : (({ buckets := { capacity := 2 }, period := 5000000000, burst := 1 } : Limiter).play
    [.allow 1 0, .allow 2 0, .allow 3 0]).size = 2 := by decide

theorem bounded_keys_no_starvation_forgotten :
    create 2 ⟨5000000000⟩ 1 = .ok { buckets := { capacity := 2 }, period := 5000000000, burst := 1 } ∧
      (({ buckets := { capacity := 2 }, period := 5000000000, burst := 1 } : Limiter).play
        [.allow 1 0, .allow 2 0, .allow 3 0]).buckets.contains 1 = false ∧
      ((({ buckets := { capacity := 2 }, period := 5000000000, burst := 1 } : Limiter).play
        [.allow 1 0, .allow 2 0, .allow 3 0]).allow 1 0).2 = true := by
  have hl : create 2 ⟨5000000000⟩ 1 =
      .ok { buckets := { capacity := 2 }, period := 5000000000, burst := 1 } := rfl
  have hout : (({ buckets := { capacity := 2 }, period := 5000000000, burst := 1 } : Limiter).play
      [.allow 1 0, .allow 2 0, .allow 3 0]).buckets.contains 1 = false := by decide
  exact ⟨hl, hout, (bounded_keys_no_starvation hl).2.2.2 _ 1 0 (.inl hout)⟩

end Limiter

end MountIndex

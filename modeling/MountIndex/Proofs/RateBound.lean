import MountIndex.Proofs.Recency

/-!
# The fallback limiter's rate bound

A bucket gains one token per whole period since its last refill, drops the remainder when it
refills, skips time when it is full, and a charge takes a token like an allowed attempt.
Main statement: `fallback_rate_bound`. From a limiter made by `create`, over any calls on any
keys with timestamps that never go back, the attempts allowed for a key within `[ta, tb]`, while
no call evicts the key, number at most `burst + (tb - ta) / period`. Whatever the timestamps, no
bucket ever holds more than `burst` tokens, and the 32-bit saturation in the refill never
changes its result.

The argument is amortised through the *reserve* of a bucket at `tb`: its tokens plus the whole
periods it would still gain by `tb`. A refill never raises the reserve, an admitted attempt
lowers it by one, and the first refill in the window starts it at most at
`burst + (tb - ta) / period`.
-/

namespace MountIndex

namespace Bucket

/-- The refill with unbounded arithmetic: one token per whole period since the last refill, up
to `burst`. -/
def refillExact (b : Bucket) (now period burst : Nat) : Bucket :=
  if b.tokens ≥ burst then { b with refilledAt := now }
  else
    let periods := (now - b.refilledAt) / period
    if periods = 0 then b
    else { tokens := min (b.tokens + periods) burst, refilledAt := now }

-- With a burst that fits the counter, neither saturation ever cuts the sum below the burst.
theorem refill_eq_refillExact (b : Bucket) (now period : Nat) {burst : Nat}
    (hB : burst ≤ maxTokens) : b.refill now period burst = b.refillExact now period burst := by
  unfold refill refillExact
  split
  · rfl
  · dsimp only
    split
    · rfl
    · congr 1
      omega

/-- A bucket less the token an attempt takes, if it has one. -/
def spend (b : Bucket) : Bucket := { b with tokens := b.tokens - 1 }

theorem spend_of_tokens_eq_zero {b : Bucket} (h : b.tokens = 0) : b.spend = b := by
  cases b
  simp_all [spend]

/-- The tokens a bucket holds and the whole periods it would still gain by `tb`. -/
def reserve (b : Bucket) (tb period : Nat) : Nat := b.tokens + (tb - b.refilledAt) / period

-- An attempt that takes a token lowers the reserve by exactly that token.
theorem reserve_spend (b : Bucket) (tb period : Nat) :
    b.spend.reserve tb period + (if 0 < b.tokens then 1 else 0) = b.reserve tb period := by
  unfold spend reserve
  split
  · dsimp only
    omega
  · dsimp only
    omega

section Refill

variable {b : Bucket} {now period burst tb : Nat}

theorem refilledAt_refill_le (hr : b.refilledAt ≤ now) :
    (b.refill now period burst).refilledAt ≤ now := by
  unfold refill
  split
  · exact Nat.le_refl _
  · dsimp only
    split
    · exact hr
    · exact Nat.le_refl _

theorem tokens_refill_le (hb : b.tokens ≤ burst) : (b.refill now period burst).tokens ≤ burst := by
  unfold refill
  split
  · exact hb
  · dsimp only
    split
    · exact hb
    · dsimp only
      omega

-- A refill never raises the reserve: the tokens it adds were counted as periods to come, and
-- the remainder it drops, or the time it skips when full, only lowers it.
theorem reserve_refill_le (hr : b.refilledAt ≤ now) (hnow : now ≤ tb) :
    (b.refill now period burst).reserve tb period ≤ b.reserve tb period := by
  unfold refill reserve
  split
  · have hskip : (tb - now) / period ≤ (tb - b.refilledAt) / period := Nat.div_le_div_right (by omega)
    dsimp only
    omega
  · dsimp only
    split
    · exact Nat.le_refl _
    · have hsplit : (now - b.refilledAt) / period + (tb - now) / period ≤
          (tb - b.refilledAt) / period := by
        have hsum : now - b.refilledAt + (tb - now) = tb - b.refilledAt := by omega
        rw [← hsum]
        exact Nat.div_add_div_le_add_div
      dsimp only
      omega

-- Refilled at `now` within the window, any bucket below the burst has a reserve of at most a
-- full bucket's: one not refilled lacks a token and is less than a period behind `now`.
theorem reserve_refill_le_window {ta : Nat} (hb : b.tokens ≤ burst) (hr : b.refilledAt ≤ now)
    (hta : ta ≤ now) (hP : 0 < period) :
    (b.refill now period burst).reserve tb period ≤ burst + (tb - ta) / period := by
  have hwin : (tb - now) / period ≤ (tb - ta) / period := Nat.div_le_div_right (by omega)
  unfold refill reserve
  split
  · dsimp only
    omega
  · dsimp only
    split
    · rename_i hfull hzero
      have hbehind : now - b.refilledAt < period := by
        rcases Nat.div_eq_zero_iff.1 hzero with h | h
        · omega
        · exact h
      have hone : (tb - b.refilledAt) / period ≤ (tb - ta) / period + 1 := by
        rw [← Nat.add_div_right _ hP]
        exact Nat.div_le_div_right (by omega)
      omega
    · dsimp only
      omega

end Refill

end Bucket

namespace Lru

variable {α : Type} {c : Lru Nat α}

theorem peek?_modify (c : Lru Nat α) (k j : Nat) (f : α → α) :
    (c.modify k f).peek? j = if j = k then (c.peek? j).map f else c.peek? j :=
  Store.get?_modify c.asStore k j f

theorem distinct_modify (hd : c.Distinct) (k : Nat) (f : α → α) : (c.modify k f).Distinct :=
  Store.distinct_modify (s := c.asStore) hd k f

-- Changing a key's value to itself changes nothing.
theorem modify_eq_self (hd : c.Distinct) {k : Nat} {v : α} {f : α → α} (hv : c.peek? k = some v)
    (hf : f v = v) : c.modify k f = c := by
  have hmap : c.entries.map (fun e => if e.1 == k then (e.1, f e.2) else e) = c.entries := by
    calc c.entries.map (fun e => if e.1 == k then (e.1, f e.2) else e)
        = c.entries.map id := List.map_congr_left fun e he => ?_
      _ = c.entries := List.map_id _
    by_cases hk : e.1 = k
    · -- the one entry of `k` holds `v`
      have he' : c.peek? k = some e.2 := (peek?_eq_some_iff hd).2 (by rw [← hk]; exact he)
      rw [hv, Option.some.injEq] at he'
      -- so `e` is `(k, v)`, which `f` leaves as it is
      obtain ⟨a, b⟩ := e
      simp only at hk he'
      subst hk he'
      simp [hf]
    · simp [hk]
  unfold modify
  rw [hmap]

-- An insert gives no other key a value it did not hold.
theorem peek?_insert_of_ne (hd : c.Distinct) {k j : Nat} (hjk : j ≠ k) {v w : α}
    (h : (c.insert k v).1.peek? j = some w) : c.peek? j = some w := by
  rcases mem_insert (mem_of_peek?_eq_some h) with hkv | ⟨hm, -⟩
  · exact absurd (congrArg Prod.fst hkv) hjk
  · exact (peek?_eq_some_iff hd).2 hm

end Lru

namespace Limiter

/-- The bucket an attempt for `key` at `now` works with: the one the limiter holds, or a full
one, refilled at `now`. -/
def refilled (l : Limiter) (key now : Nat) : Bucket :=
  ((l.buckets.peek? key).getD ⟨l.burst, now⟩).refill now l.period l.burst

/-! ## One call -/

section Bucket

variable {l : Limiter} {key now : Nat}

theorem bucketAt_snd : (l.bucketAt key now).2 = l.refilled key now := by
  unfold refilled
  rw [← Lru.touch_value]
  rfl

theorem bucketAt_buckets :
    (l.bucketAt key now).1.buckets =
      if (l.buckets.peek? key).isSome then (l.buckets.touch key).1.modify key fun _ => l.refilled key now
      else ((l.buckets.touch key).1.insert key (l.refilled key now)).1 := by
  unfold refilled
  rw [← Lru.touch_value]
  rfl

theorem distinct_touch (hd : l.buckets.Distinct) (key : Nat) : (l.buckets.touch key).1.Distinct :=
  Lru.distinct_apply hd (.get key)

theorem peek?_bucketAt_self (hd : l.buckets.Distinct) (hcap : 0 < l.buckets.capacity) :
    (l.bucketAt key now).1.buckets.peek? key = some (l.refilled key now) := by
  rw [bucketAt_buckets]
  split
  · rename_i hsome
    obtain ⟨b, hb⟩ := Option.isSome_iff_exists.1 hsome
    rw [Lru.peek?_modify, if_pos rfl, Lru.peek?_touch, hb]
    rfl
  · have hin := Lru.self_mem_insert (c := (l.buckets.touch key).1) (by simpa using hcap) key
      (l.refilled key now)
    exact (Lru.peek?_eq_some_iff (Lru.distinct_apply (distinct_touch hd key) (.add key _))).2 hin

-- Fetching a key's bucket gives no other key a bucket it did not hold.
theorem peek?_bucketAt_of_ne (hd : l.buckets.Distinct) {j : Nat} (hj : j ≠ key) {w : Bucket}
    (h : (l.bucketAt key now).1.buckets.peek? j = some w) : l.buckets.peek? j = some w := by
  rw [bucketAt_buckets] at h
  split at h
  · rwa [Lru.peek?_modify, if_neg hj, Lru.peek?_touch] at h
  · rw [← Lru.peek?_touch l.buckets key j]
    exact Lru.peek?_insert_of_ne (distinct_touch hd key) hj h

theorem distinct_bucketAt (hd : l.buckets.Distinct) : (l.bucketAt key now).1.buckets.Distinct := by
  rw [bucketAt_buckets]
  split
  · exact Lru.distinct_modify (distinct_touch hd key) key _
  · exact Lru.distinct_apply (distinct_touch hd key) (.add key _)

theorem capacity_bucketAt : (l.bucketAt key now).1.buckets.capacity = l.buckets.capacity := by
  rw [bucketAt_buckets]
  split
  · simp [Lru.modify]
  · simp

-- An attempt spends from its key's bucket: one refused for want of a token finds that bucket
-- empty, where spending changes nothing.
theorem allow_buckets (hd : l.buckets.Distinct) (hcap : 0 < l.buckets.capacity) :
    (l.allow key now).1.buckets = (l.bucketAt key now).1.buckets.modify key Bucket.spend := by
  have hself : (l.bucketAt key now).1.buckets.peek? key = some (l.bucketAt key now).2 := by
    rw [bucketAt_snd]
    exact peek?_bucketAt_self hd hcap
  have hdist : (l.bucketAt key now).1.buckets.Distinct := distinct_bucketAt hd
  unfold allow
  rcases h : l.bucketAt key now with ⟨l', b⟩
  rw [h] at hself hdist
  dsimp only at hself hdist ⊢
  split
  · rfl
  · rename_i hzero
    exact (Lru.modify_eq_self hdist hself (Bucket.spend_of_tokens_eq_zero (by omega))).symm

theorem allow_snd : (l.allow key now).2 = decide (0 < (l.refilled key now).tokens) := by
  rw [← bucketAt_snd]
  unfold allow
  rcases l.bucketAt key now with ⟨l', b⟩
  dsimp only
  split <;> simp_all

-- An attempt changes only the buckets and the counters.
theorem allow_fst :
    (l.allow key now).1 =
      { (l.bucketAt key now).1 with
        buckets := (l.allow key now).1.buckets
        stats := (l.allow key now).1.stats } := by
  unfold allow
  rcases l.bucketAt key now with ⟨l', b⟩
  dsimp only
  split <;> rfl

end Bucket

/-- A call to the limiter: an attempt, which it allows or not, or the charge of a failed one. -/
inductive Call where
  | allow (key now : Nat)
  | charge (key now : Nat)
  deriving DecidableEq

namespace Call

def key : Call → Nat
  | .allow k _ | .charge k _ => k

def time : Call → Nat
  | .allow _ t | .charge _ t => t

def isAllow : Call → Bool
  | .allow _ _ => true
  | .charge _ _ => false

/-- Whether the call's timestamp lies in `[ta, tb]`. -/
def within (c : Call) (ta tb : Nat) : Bool := decide (ta ≤ c.time) && decide (c.time ≤ tb)

/-- The limiter after the call, and whether it allowed an attempt. -/
def apply : Call → Limiter → Limiter × Bool
  | .allow key now, l => l.allow key now
  | .charge key now, l => (l.charge key now, false)

variable (c : Call) {l : Limiter}

@[simp] theorem within_eq_true {ta tb : Nat} : c.within ta tb = true ↔ ta ≤ c.time ∧ c.time ≤ tb := by
  simp [within]

theorem apply_snd (l : Limiter) :
    (c.apply l).2 = (c.isAllow && decide (0 < (l.refilled c.key c.time).tokens)) := by
  cases c with
  | allow key now => exact allow_snd
  | charge key now => rfl

@[simp] theorem period_apply (l : Limiter) : (c.apply l).1.period = l.period := by
  cases c with
  | allow key now =>
    show (l.allow key now).1.period = l.period
    rw [allow_fst]
    rfl
  | charge key now => rfl

@[simp] theorem burst_apply (l : Limiter) : (c.apply l).1.burst = l.burst := by
  cases c with
  | allow key now =>
    show (l.allow key now).1.burst = l.burst
    rw [allow_fst]
    rfl
  | charge key now => rfl

section Buckets

variable (hd : l.buckets.Distinct) (hcap : 0 < l.buckets.capacity)
include hd hcap

-- Every call fetches its key's bucket and spends from it.
theorem apply_buckets :
    (c.apply l).1.buckets = (l.bucketAt c.key c.time).1.buckets.modify c.key Bucket.spend := by
  cases c with
  | allow key now => exact allow_buckets hd hcap
  | charge key now => rfl

theorem capacity_apply : (c.apply l).1.buckets.capacity = l.buckets.capacity := by
  rw [c.apply_buckets hd hcap]
  exact capacity_bucketAt

theorem distinct_apply : (c.apply l).1.buckets.Distinct := by
  rw [c.apply_buckets hd hcap]
  exact Lru.distinct_modify (distinct_bucketAt hd) _ _

-- The call leaves its key the refilled bucket less a token, if it had one.
theorem peek?_apply_self : (c.apply l).1.buckets.peek? c.key = some (l.refilled c.key c.time).spend := by
  rw [c.apply_buckets hd hcap, Lru.peek?_modify, if_pos rfl, peek?_bucketAt_self hd hcap]
  rfl

-- A call gives no other key a bucket it did not hold.
theorem peek?_apply_of_ne {j : Nat} (hj : j ≠ c.key) {w : Bucket}
    (h : (c.apply l).1.buckets.peek? j = some w) : l.buckets.peek? j = some w := by
  rw [c.apply_buckets hd hcap, Lru.peek?_modify, if_neg hj] at h
  exact peek?_bucketAt_of_ne hd hj h

-- A call that does not evict another key leaves that key's bucket as it was.
theorem peek?_apply_of_keep {j : Nat} (hj : j ≠ c.key)
    (hkeep : l.buckets.contains j = true → (c.apply l).1.buckets.contains j = true) :
    (c.apply l).1.buckets.peek? j = l.buckets.peek? j := by
  cases h : (c.apply l).1.buckets.peek? j with
  | some w => exact (c.peek?_apply_of_ne hd hcap hj h).symm
  | none =>
    cases h' : l.buckets.peek? j with
    | none => rfl
    | some w =>
      have hafter := hkeep (Lru.contains_iff_isSome_peek?.2 (by simp [h']))
      rw [Lru.contains_iff_isSome_peek?, h] at hafter
      cases hafter

end Buckets

end Call

/-! ## Runs of calls -/

/-- The limiter after a sequence of calls. -/
def play (l : Limiter) (calls : List Call) : Limiter := calls.foldl (fun l c => (c.apply l).1) l

/-- How many attempts for `k` within `[ta, tb]` the calls allow. -/
def admitted (k ta tb : Nat) : Limiter → List Call → Nat
  | _, [] => 0
  | l, c :: rest =>
    (if c.within ta tb && c.key == k && (c.apply l).2 then 1 else 0) +
      admitted k ta tb (c.apply l).1 rest

/-- Whether a call within `[ta, tb]` evicts `k`: `k` is tracked before the call and not after. -/
def evictsIn (k ta tb : Nat) : Limiter → List Call → Bool
  | _, [] => false
  | l, c :: rest =>
    (c.within ta tb && l.buckets.contains k && !(c.apply l).1.buckets.contains k) ||
      evictsIn k ta tb (c.apply l).1 rest

/-- What a limiter made by `create` keeps through any calls at any times: each key has one
bucket, there is room for a key, the period is positive, and no bucket holds more tokens than
the burst. -/
structure Sane (l : Limiter) : Prop where
  distinct : l.buckets.Distinct
  capacity_pos : 0 < l.buckets.capacity
  period_pos : 0 < l.period
  tokens_le : ∀ k b, l.buckets.peek? k = some b → b.tokens ≤ l.burst

/-- Every bucket was last refilled at or before `t`. -/
def RefilledBy (l : Limiter) (t : Nat) : Prop :=
  ∀ k b, l.buckets.peek? k = some b → b.refilledAt ≤ t

section Invariants

variable {l : Limiter} {key now T : Nat}

theorem eq_of_create {capacity burst : Nat} {period : Duration} (h : create capacity period burst = .ok l) :
    0 < capacity ∧ 0 < period.nanos ∧ l = { buckets := { capacity }, period := period.nanos, burst } := by
  unfold create at h
  split at h
  · cases h
  · cases h
    exact ⟨by omega, by omega, rfl⟩

theorem sane_create {capacity burst : Nat} {period : Duration} (h : create capacity period burst = .ok l) :
    l.Sane := by
  obtain ⟨hcap, hperiod, rfl⟩ := eq_of_create h
  exact ⟨by simp [Lru.Distinct], hcap, hperiod, fun k b hb => by simp [Lru.peek?] at hb⟩

@[simp] theorem burst_play (l : Limiter) (calls : List Call) : (l.play calls).burst = l.burst := by
  induction calls generalizing l with
  | nil => rfl
  | cons c rest ih => exact (ih _).trans (c.burst_apply l)

theorem Sane.tokens_refilled (hs : l.Sane) : (l.refilled key now).tokens ≤ l.burst := by
  unfold refilled
  apply Bucket.tokens_refill_le
  cases h : l.buckets.peek? key with
  | none => exact Nat.le_refl _
  | some b => exact hs.tokens_le key b h

theorem Sane.apply (hs : l.Sane) (c : Call) : (c.apply l).1.Sane where
  distinct := c.distinct_apply hs.distinct hs.capacity_pos
  capacity_pos := by
    rw [c.capacity_apply hs.distinct hs.capacity_pos]
    exact hs.capacity_pos
  period_pos := by
    rw [c.period_apply]
    exact hs.period_pos
  tokens_le := by
    intro j b hb
    rw [c.burst_apply]
    by_cases hj : j = c.key
    · subst hj
      rw [c.peek?_apply_self hs.distinct hs.capacity_pos] at hb
      obtain rfl := Option.some.inj hb
      exact Nat.le_trans (Nat.sub_le _ _) hs.tokens_refilled
    · exact hs.tokens_le j b (c.peek?_apply_of_ne hs.distinct hs.capacity_pos hj hb)

theorem Sane.play (hs : l.Sane) (calls : List Call) : (l.play calls).Sane := by
  induction calls generalizing l with
  | nil => exact hs
  | cons c rest ih => exact ih (hs.apply c)

theorem refilledAt_refilled (hT : l.RefilledBy T) (hnow : T ≤ now) :
    (l.refilled key now).refilledAt ≤ now := by
  unfold refilled
  apply Bucket.refilledAt_refill_le
  cases h : l.buckets.peek? key with
  | none => exact Nat.le_refl _
  | some b => exact Nat.le_trans (hT key b h) hnow

theorem RefilledBy.apply (hs : l.Sane) (hT : l.RefilledBy T) {c : Call} (hc : T ≤ c.time) :
    (c.apply l).1.RefilledBy c.time := by
  intro j b hb
  by_cases hj : j = c.key
  · subst hj
    rw [c.peek?_apply_self hs.distinct hs.capacity_pos] at hb
    obtain rfl := Option.some.inj hb
    exact refilledAt_refilled hT hc
  · exact Nat.le_trans (hT j b (c.peek?_apply_of_ne hs.distinct hs.capacity_pos hj hb)) hc

end Invariants

/-! ## The window -/

section Window

variable {l : Limiter} {key now T : Nat}

theorem reserve_refilled_le_window {ta tb : Nat} (hs : l.Sane) (hT : l.RefilledBy T) (hnow : T ≤ now)
    (hta : ta ≤ now) : (l.refilled key now).reserve tb l.period ≤ l.burst + (tb - ta) / l.period := by
  unfold refilled
  cases h : l.buckets.peek? key with
  | none => exact Bucket.reserve_refill_le_window (Nat.le_refl _) (Nat.le_refl _) hta hs.period_pos
  | some b =>
    exact Bucket.reserve_refill_le_window (hs.tokens_le key b h) (Nat.le_trans (hT key b h) hnow) hta
      hs.period_pos

theorem reserve_refilled_le {b : Bucket} {tb : Nat} (hb : l.buckets.peek? key = some b)
    (hr : b.refilledAt ≤ now) (hnow : now ≤ tb) :
    (l.refilled key now).reserve tb l.period ≤ b.reserve tb l.period := by
  unfold refilled
  rw [hb]
  exact Bucket.reserve_refill_le hr hnow

/-- The window invariant for `k` over `[ta, tb]`, with `N` attempts admitted so far and the last
call at `T`: either none was admitted yet, or the window has begun and `k`'s bucket holds a
reserve that, with the `N` admitted attempts, fits the bound. -/
def Window (k ta tb N T : Nat) (l : Limiter) : Prop :=
  N = 0 ∨ ta ≤ T ∧ ∃ b, l.buckets.peek? k = some b ∧
    b.reserve tb l.period + N ≤ l.burst + (tb - ta) / l.period

variable {k ta tb N : Nat}

theorem Window.le_bound (hw : Window k ta tb N T l) : N ≤ l.burst + (tb - ta) / l.period := by
  rcases hw with rfl | ⟨-, b, -, hb⟩
  · exact Nat.zero_le _
  · omega

theorem Window.eq_zero_of_early (hw : Window k ta tb N T l) {t : Nat} (hT : T ≤ t) (ht : t < ta) :
    N = 0 :=
  hw.resolve_right fun ⟨hta, _⟩ => by omega

-- A call on `k` in the window: its refill starts the reserve or lowers it, and an admitted
-- attempt moves one token of it into the count.
theorem Window.step_self (hs : l.Sane) (hT : l.RefilledBy T) (hw : Window k ta tb N T l)
    {c : Call} (hk : c.key = k) (hc : T ≤ c.time) (hta : ta ≤ c.time) (htb : c.time ≤ tb) :
    Window k ta tb (N + if (c.apply l).2 then 1 else 0) c.time (c.apply l).1 := by
  subst hk
  have hstart : (l.refilled c.key c.time).reserve tb l.period + N ≤ l.burst + (tb - ta) / l.period := by
    rcases hw with rfl | ⟨-, b₀, hb₀, hle⟩
    · simpa using reserve_refilled_le_window hs hT hc hta
    · have hdown := reserve_refilled_le hb₀ (Nat.le_trans (hT _ _ hb₀) hc) htb
      omega
  have hspend := (l.refilled c.key c.time).reserve_spend tb l.period
  have hok : (if (c.apply l).2 then 1 else 0) ≤ if 0 < (l.refilled c.key c.time).tokens then 1 else 0 := by
    rw [c.apply_snd]
    by_cases ht : 0 < (l.refilled c.key c.time).tokens <;> cases c.isAllow <;> simp [ht]
  refine .inr ⟨hta, _, c.peek?_apply_self hs.distinct hs.capacity_pos, ?_⟩
  rw [c.period_apply, c.burst_apply]
  omega

-- A call on another key that does not evict `k` leaves `k`'s bucket, and the invariant, alone.
theorem Window.step_other (hs : l.Sane) (hw : Window k ta tb N T l) {c : Call} (hk : c.key ≠ k)
    (hc : T ≤ c.time) (hkeep : l.buckets.contains k = true → (c.apply l).1.buckets.contains k = true) :
    Window k ta tb N c.time (c.apply l).1 := by
  rcases hw with rfl | ⟨hta, b, hb, hle⟩
  · exact .inl rfl
  · refine .inr ⟨Nat.le_trans hta hc, b, ?_, ?_⟩
    · rw [c.peek?_apply_of_keep hs.distinct hs.capacity_pos (Ne.symm hk) hkeep]
      exact hb
    · rw [c.period_apply, c.burst_apply]
      exact hle

theorem admitted_of_late (l : Limiter) {calls : List Call} (hlate : ∀ c ∈ calls, tb < c.time) :
    admitted k ta tb l calls = 0 := by
  induction calls generalizing l with
  | nil => rfl
  | cons c rest ih =>
    have hout : c.within ta tb = false := by
      have hc := hlate c List.mem_cons_self
      simp only [← Bool.not_eq_true, Call.within_eq_true]
      omega
    rw [admitted, hout, ih _ fun c' hc' => hlate c' (List.mem_cons_of_mem c hc')]
    rfl

-- One call up to the end of the window: the invariant carries over, with the call counted.
-- Before the window nothing was admitted and the call does not count; in it, the call is on `k`
-- or on another key.
theorem Window.step (hs : l.Sane) (hT : l.RefilledBy T) (hw : Window k ta tb N T l) {c : Call}
    (hc : T ≤ c.time) (htb : c.time ≤ tb)
    (hkeep : (c.within ta tb && l.buckets.contains k && !(c.apply l).1.buckets.contains k) = false) :
    Window k ta tb (N + if c.within ta tb && c.key == k && (c.apply l).2 then 1 else 0) c.time
      (c.apply l).1 := by
  by_cases hta : ta ≤ c.time
  · have hin : c.within ta tb = true := (c.within_eq_true).2 ⟨hta, htb⟩
    by_cases hk : c.key = k
    · simp only [hin, hk, beq_self_eq_true, Bool.true_and]
      exact hw.step_self hs hT hk hc hta htb
    · have hkeep_k : l.buckets.contains k = true → (c.apply l).1.buckets.contains k = true := by
        intro hold
        simpa [hin, hold] using hkeep
      simp only [hin, beq_eq_false_iff_ne.2 hk, Bool.true_and, Bool.false_and, Bool.false_eq_true,
        if_false, Nat.add_zero]
      exact hw.step_other hs hk hc hkeep_k
  · have hout : c.within ta tb = false := by
      simp only [← Bool.not_eq_true, Call.within_eq_true]
      omega
    simp only [hout, Bool.false_and, Bool.false_eq_true, if_false, Nat.add_zero,
      hw.eq_zero_of_early hc (Nat.lt_of_not_le hta)]
    exact .inl rfl

-- The run from any point: the calls still to come add at most what the window invariant leaves
-- room for. The induction is on the calls, through `Window.step` up to the end of the window.
theorem admitted_le_of_window (calls : List Call) :
    ∀ (l : Limiter) (T N : Nat), l.Sane → l.RefilledBy T → (∀ c ∈ calls, T ≤ c.time) →
      calls.Pairwise (fun a b => a.time ≤ b.time) → evictsIn k ta tb l calls = false →
      Window k ta tb N T l → N + admitted k ta tb l calls ≤ l.burst + (tb - ta) / l.period := by
  induction calls with
  | nil =>
    intro l T N _ _ _ _ _ hw
    exact hw.le_bound
  | cons c rest ih =>
    intro l T N hs hT htime hsorted hkeep hw
    have hc : T ≤ c.time := htime c List.mem_cons_self
    obtain ⟨hafter, hsorted'⟩ := List.pairwise_cons.1 hsorted
    simp only [evictsIn, Bool.or_eq_false_iff] at hkeep
    by_cases hlate : tb < c.time
    · -- every call from here on falls after the window
      have hzero : admitted k ta tb l (c :: rest) = 0 := by
        refine admitted_of_late l fun c' hc' => ?_
        rcases List.mem_cons.1 hc' with rfl | hc'
        · exact hlate
        · exact Nat.lt_of_lt_of_le hlate (hafter c' hc')
      rw [hzero]
      exact hw.le_bound
    · have hw' := hw.step hs hT hc (Nat.le_of_not_lt hlate) hkeep.1
      have hrun := ih _ c.time _ (hs.apply c) (hT.apply hs hc) hafter hsorted' hkeep.2 hw'
      rw [c.period_apply, c.burst_apply] at hrun
      rw [admitted]
      omega

end Window

/-- The fallback limiter's guarantees from `create` on. At any timestamps no bucket holds more
than `burst` tokens, and with a burst that fits the 32-bit counter the saturating refill is the
exact one, however many periods have passed. Over calls whose timestamps never go back, the
attempts allowed for a key within `[ta, tb]`, while no call there evicts the key, number at most
`burst + (tb - ta) / period`. -/
theorem fallback_rate_bound {capacity burst : Nat} {period : Duration} {l₀ : Limiter}
    (hl : create capacity period burst = .ok l₀) :
    (∀ (calls : List Call), ∀ e ∈ (l₀.play calls).buckets.entries, e.2.tokens ≤ burst) ∧
      (burst ≤ Bucket.maxTokens → ∀ (b : Bucket) (now : Nat),
        b.refill now period.nanos burst = b.refillExact now period.nanos burst) ∧
      ∀ (calls : List Call), calls.Pairwise (fun a b => a.time ≤ b.time) → ∀ k ta tb,
        evictsIn k ta tb l₀ calls = false →
        admitted k ta tb l₀ calls ≤ burst + (tb - ta) / period.nanos := by
  have hs := sane_create hl
  obtain ⟨-, -, rfl⟩ := eq_of_create hl
  refine ⟨fun calls e he => ?_, fun hB b now => b.refill_eq_refillExact now period.nanos hB,
    fun calls hsorted k ta tb hkeep => ?_⟩
  · have hp := hs.play calls
    have hle := hp.tokens_le e.1 e.2 ((Lru.peek?_eq_some_iff hp.distinct).2 he)
    rwa [burst_play] at hle
  · have hrun := admitted_le_of_window calls _ 0 0 hs (fun k b hb => by simp [Lru.peek?] at hb)
      (fun c _ => Nat.zero_le _) hsorted hkeep (.inl rfl)
    simpa using hrun

-- One attempt per period with a burst of one: the bound is met exactly.
example : admitted 7 0 5000000000 { buckets := { capacity := 64 }, period := 5000000000, burst := 1 }
    [.allow 7 0, .allow 7 1000000000, .allow 7 5000000000] = 2 := by decide

theorem fallback_rate_bound_sample :
    create 64 ⟨5000000000⟩ 1 = .ok { buckets := { capacity := 64 }, period := 5000000000, burst := 1 } ∧
      admitted 7 0 5000000000 { buckets := { capacity := 64 }, period := 5000000000, burst := 1 }
        [.allow 7 0, .allow 7 1000000000, .allow 7 5000000000] ≤ 1 + (5000000000 - 0) / 5000000000 := by
  have hl : create 64 ⟨5000000000⟩ 1 =
      .ok { buckets := { capacity := 64 }, period := 5000000000, burst := 1 } := rfl
  exact ⟨hl, (fallback_rate_bound hl).2.2 _ (by decide) 7 0 5000000000 (by decide)⟩

end Limiter

end MountIndex

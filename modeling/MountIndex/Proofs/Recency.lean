import Mathlib.Data.List.Induction
import MountIndex.Proofs.Hit

/-!
# The redemption cache is least-recently-used

The redemption cache is an LRU map keyed by mount ID, kept as a list from the least to the most
recently used entry. This file runs it on any sequence of its operations (`Op`) from a freshly
created cache and relates what it holds to the history of the sequence. Main statement:
`redemption_cache_is_lru`.

* Keys are distinct and never more than the capacity.
* The entries stand in the order of the last add or get of their keys (`lastUse`), so the
  entry an add evicts is the one used longest ago.
* An add makes its entry the most recently used one and evicts exactly when its key is new and
  the cache is full; a get answers the key's value and moves it to the back; a peek answers the
  same value and changes nothing; a remove takes out one key and keeps the order of the rest.
* A key holds a value exactly when the value was added by the last add of the key and since
  then the key was neither removed nor evicted.
-/

namespace MountIndex

namespace Lru

variable {α : Type}

/-! ## Operations and histories -/

/-- An operation on an LRU map keyed by mount ID. -/
inductive Op (α : Type) where
  | add (k : Nat) (v : α)
  | get (k : Nat)
  | peek (k : Nat)
  | remove (k : Nat)
  | contains (k : Nat)
  | len

/-- What an operation answers: the entry an add evicted, a value, a membership flag or the
number of entries. -/
inductive Reply (α : Type) where
  | evicted (e : Option (Nat × α))
  | value (v : Option α)
  | flag (b : Bool)
  | count (n : Nat)

namespace Op

/-- The map after an operation, and what the operation answers. -/
def apply : Op α → Lru Nat α → Lru Nat α × Reply α
  | .add k v, c => ((c.insert k v).1, .evicted (c.insert k v).2)
  | .get k, c => ((c.touch k).1, .value (c.touch k).2)
  | .peek k, c => (c, .value (c.peek? k))
  | .remove k, c => ((c.erase k).1, .value (c.erase k).2)
  | .contains k, c => (c, .flag (c.contains k))
  | .len, c => (c, .count c.size)

/-- Whether an operation makes a key the most recently used one: an add or a get of it. -/
def uses : Op α → Nat → Bool
  | .add k _, j => k == j
  | .get k, j => k == j
  | _, _ => false

/-- Whether an operation sets or clears the entry of a key: an add or a remove of it. -/
def changes : Op α → Nat → Bool
  | .add k _, j => k == j
  | .remove k, j => k == j
  | _, _ => false

/-- Whether an operation, applied to `c`, evicts the entry of key `k`. -/
def Evicts (op : Op α) (c : Lru Nat α) (k : Nat) : Prop :=
  ∃ w, (op.apply c).2 = .evicted (some (k, w))

end Op

/-- The map after a sequence of operations. -/
def run (c : Lru Nat α) (ops : List (Op α)) : Lru Nat α :=
  ops.foldl (fun c op => (op.apply c).1) c

/-- Whether running `ops` from `c` evicts the entry of key `k` at some step. -/
def EvictsIn (k : Nat) : Lru Nat α → List (Op α) → Prop
  | _, [] => False
  | c, op :: ops => op.Evicts c k ∨ EvictsIn k (op.apply c).1 ops

/-- One past the position of the last operation of `ops` that uses `k`; zero if none does. -/
def lastUse (ops : List (Op α)) (k : Nat) : Nat :=
  ops.length - ops.reverse.findIdx (·.uses k)

@[simp] theorem run_nil (c : Lru Nat α) : c.run [] = c := rfl

@[simp] theorem run_append_singleton (c : Lru Nat α) (ops : List (Op α)) (op : Op α) :
    c.run (ops ++ [op]) = (op.apply (c.run ops)).1 := by
  simp [run]

theorem run_append (c : Lru Nat α) (a b : List (Op α)) : c.run (a ++ b) = (c.run a).run b := by
  simp [run, List.foldl_append]

theorem evictsIn_append_singleton (k : Nat) (c : Lru Nat α) (ops : List (Op α)) (op : Op α) :
    EvictsIn k c (ops ++ [op]) ↔ EvictsIn k c ops ∨ op.Evicts (c.run ops) k := by
  induction ops generalizing c with
  | nil => simp [EvictsIn]
  | cons o ops ih =>
    simp only [List.cons_append, EvictsIn, ih]
    simp [run, or_assoc]

theorem lastUse_le (ops : List (Op α)) (k : Nat) : lastUse ops k ≤ ops.length :=
  Nat.sub_le _ _

theorem lastUse_append_singleton (ops : List (Op α)) (op : Op α) (k : Nat) :
    lastUse (ops ++ [op]) k = if op.uses k then ops.length + 1 else lastUse ops k := by
  unfold lastUse
  rw [List.reverse_append, List.reverse_singleton, List.singleton_append, List.findIdx_cons]
  cases op.uses k <;> simp

/-! ## Entries after one operation -/

section Entries

variable {c : Lru Nat α}

/-- No key is filed twice and the entries stand in the order of their keys' last uses by `ops`. -/
structure Recency (ops : List (Op α)) (c : Lru Nat α) : Prop where
  distinct : c.Distinct
  bounded : c.size ≤ c.capacity
  ordered : c.entries.Pairwise fun a b => lastUse ops a.1 < lastUse ops b.1

-- The list an add or a touch builds: the entries of the other keys, then the key's own.
theorem distinct_moveBack (hd : c.Distinct) (k : Nat) (v : α) :
    ((c.entries.filter (·.1 != k) ++ [(k, v)]).map (·.1)).Nodup := by
  rw [List.map_append, List.nodup_append]
  refine ⟨(hd.sublist (List.filter_sublist.map _)), by simp, ?_⟩
  intro a ha b hb
  simp only [List.map_cons, List.map_nil, List.mem_singleton] at hb
  obtain ⟨e, he, rfl⟩ := List.mem_map.1 ha
  subst hb
  simpa using (List.mem_filter.1 he).2

-- After a use of `k`, moving `k`'s entry to the back keeps the entries in the order of their
-- last uses: the other keys keep theirs, and `k`'s is the newest.
theorem ordered_moveBack {ops : List (Op α)} {op : Op α} {k : Nat} (huse : ∀ j, op.uses j = (k == j))
    (ho : c.entries.Pairwise fun a b => lastUse ops a.1 < lastUse ops b.1) (v : α) :
    (c.entries.filter (·.1 != k) ++ [(k, v)]).Pairwise
      fun a b => lastUse (ops ++ [op]) a.1 < lastUse (ops ++ [op]) b.1 := by
  have hsame : ∀ e ∈ c.entries.filter (·.1 != k), lastUse (ops ++ [op]) e.1 = lastUse ops e.1 := by
    intro e he
    have hk : e.1 ≠ k := by simpa using (List.mem_filter.1 he).2
    have hne : (k == e.1) = false := beq_eq_false_iff_ne.2 (Ne.symm hk)
    rw [lastUse_append_singleton, huse, hne, if_neg Bool.false_ne_true]
  have hnew : lastUse (ops ++ [op]) k = ops.length + 1 := by
    rw [lastUse_append_singleton, huse, beq_self_eq_true, if_pos rfl]
  rw [List.pairwise_append]
  refine ⟨?_, List.pairwise_singleton _ _, ?_⟩
  · refine (List.pairwise_filter.2 (ho.imp_of_mem fun ha hb h _ _ => ?_))
    rw [hsame _ (List.mem_filter.2 ⟨ha, ‹_›⟩), hsame _ (List.mem_filter.2 ⟨hb, ‹_›⟩)]
    exact h
  · intro a ha b hb
    rw [List.mem_singleton.1 hb, hnew, hsame a ha]
    exact Nat.lt_succ_of_le (lastUse_le ops a.1)

-- Away from the keys an operation uses, the order of last uses is the one before it.
theorem ordered_of_unused {ops : List (Op α)} {op : Op α} {l : List (Nat × α)}
    (hl : l.Pairwise fun a b => lastUse ops a.1 < lastUse ops b.1) (hu : ∀ e ∈ l, op.uses e.1 = false) :
    l.Pairwise fun a b => lastUse (ops ++ [op]) a.1 < lastUse (ops ++ [op]) b.1 := by
  refine hl.imp_of_mem fun ha hb h => ?_
  rw [lastUse_append_singleton, lastUse_append_singleton, hu _ ha, hu _ hb]
  exact h

theorem insert_sublist (c : Lru Nat α) (k : Nat) (v : α) :
    (c.insert k v).1.entries.Sublist (c.entries.filter (·.1 != k) ++ [(k, v)]) := by
  rw [insert_def]
  split
  · exact List.drop_sublist _ _
  · exact List.Sublist.refl _

theorem touch_sublist (c : Lru Nat α) (k : Nat) :
    (∃ v, (c.touch k).1.entries.Sublist (c.entries.filter (·.1 != k) ++ [(k, v)])) ∨
      ((c.touch k).1 = c ∧ ∀ e ∈ c.entries, e.1 ≠ k) := by
  cases hp : c.peek? k with
  | some v => exact .inl ⟨v, by rw [touch_entries hp]⟩
  | none =>
    refine .inr ⟨by simp [touch, hp], peek?_eq_none_iff.1 hp⟩

-- Every operation keeps the keys distinct.
theorem distinct_apply (hd : c.Distinct) (op : Op α) : (op.apply c).1.Distinct := by
  cases op with
  | add k v => exact (distinct_moveBack hd k v).sublist ((insert_sublist c k v).map _)
  | get k =>
    rcases touch_sublist c k with ⟨v, hsub⟩ | ⟨heq, -⟩
    · exact (distinct_moveBack hd k v).sublist (hsub.map _)
    · simp only [Op.apply, heq]
      exact hd
  | remove k => exact hd.sublist (List.filter_sublist.map _)
  | peek _ | contains _ | len => exact hd

-- Every operation keeps the keys within the capacity and in the order of their last uses.
theorem Recency.apply {ops : List (Op α)} (h : Recency ops c) (op : Op α) :
    Recency (ops ++ [op]) (op.apply c).1 := by
  refine ⟨distinct_apply h.distinct op, ?_, ?_⟩
  · cases op with
    | add k v => simpa [Op.apply] using size_insert_le c k v h.bounded
    | get k => simpa [Op.apply] using (size_touch_le c k).trans h.bounded
    | remove k => simpa [Op.apply] using (size_erase_le c k).trans h.bounded
    | peek _ | contains _ | len => exact h.bounded
  · cases op with
    | add k v => exact (ordered_moveBack (fun _ => rfl) h.ordered v).sublist (insert_sublist c k v)
    | get k =>
      rcases touch_sublist c k with ⟨v, hsub⟩ | ⟨heq, hout⟩
      · exact (ordered_moveBack (fun _ => rfl) h.ordered v).sublist hsub
      · simp only [Op.apply, heq]
        exact ordered_of_unused h.ordered fun e he => beq_eq_false_iff_ne.2 (Ne.symm (hout e he))
    | remove k => exact ordered_of_unused (h.ordered.sublist List.filter_sublist) fun _ _ => rfl
    | peek _ | contains _ | len => exact ordered_of_unused h.ordered fun _ _ => rfl

-- With distinct keys, the entries of other keys are all but the one of `k`, if it is filed.
theorem length_filter_ne_key {l : List (Nat × α)} (hd : (l.map (·.1)).Nodup) (k : Nat) :
    (l.filter (·.1 != k)).length + (if l.any (·.1 == k) then 1 else 0) = l.length := by
  induction l with
  | nil => rfl
  | cons e l ih =>
    rw [List.map_cons, List.nodup_cons] at hd
    by_cases he : e.1 = k
    · have hout : ∀ x ∈ l, (x.1 != k) = true := by
        intro x hx
        have hxk : x.1 ≠ k := fun h => hd.1 (List.mem_map.2 ⟨x, hx, h.trans he.symm⟩)
        simpa using hxk
      rw [List.filter_cons_of_neg (by simp [he]), List.filter_eq_self.2 hout]
      simp [he]
    · rw [List.filter_cons_of_pos (by simpa using he)]
      have hek : (e.1 == k) = false := beq_eq_false_iff_ne.2 he
      have ih' := ih hd.2
      simp only [List.any_cons, hek, Bool.false_or, List.length_cons]
      omega

end Entries

/-! ## What each operation does -/

section Answers

variable {c : Lru Nat α}

-- An add leaves its entry the most recently used one.
theorem insert_last (hcap : 0 < c.capacity) (k : Nat) (v : α) :
    (c.insert k v).1.entries.getLast? = some (k, v) := by
  rw [insert_def]
  split
  · rename_i hlen
    rw [List.getLast?_drop, if_neg (by omega)]
    simp
  · simp

-- An add evicts exactly when its key is new and the cache is full.
theorem insert_evicts_iff (hd : c.Distinct) (hb : c.size ≤ c.capacity) (k : Nat) (v : α) :
    (c.insert k v).2.isSome ↔ (c.contains k = false ∧ c.size = c.capacity) := by
  have hlen := length_filter_ne_key hd k
  unfold contains size at *
  rw [insert_def]
  split
  · rename_i hover
    rw [List.length_append, List.length_singleton] at hover
    have hsome : ((c.entries.filter (·.1 != k) ++ [(k, v)]).head?).isSome := by simp
    cases hk : c.entries.any (·.1 == k)
    · simp only [hk, Bool.false_eq_true, if_false, Nat.add_zero] at hlen
      simp only [hsome, true_iff, true_and]
      omega
    · simp only [hk, if_true] at hlen
      simp only [Bool.true_eq_false, false_and, iff_false]
      omega
  · rename_i hroom
    rw [List.length_append, List.length_singleton] at hroom
    simp only [Option.isSome_none, Bool.false_eq_true, false_iff, not_and]
    intro hk
    simp only [hk, Bool.false_eq_true, if_false, Nat.add_zero] at hlen
    omega

-- The entry an add evicts is the oldest entry: every other was used later.
theorem evicted_oldest {ops : List (Op α)} (h : Recency ops c) (hcap : 0 < c.capacity) {k : Nat}
    {v : α} {e : Nat × α} (hev : (c.insert k v).2 = some e) :
    e ∈ c.entries ∧ ∀ e' ∈ c.entries, e' ≠ e → lastUse ops e.1 < lastUse ops e'.1 := by
  have hnew : c.contains k = false := ((insert_evicts_iff h.distinct h.bounded k v).1 (by simp [hev])).1
  have hout : ∀ x ∈ c.entries, (x.1 != k) = true := by
    intro x hx
    simpa using List.any_eq_false.1 hnew x hx
  obtain ⟨hmem, -⟩ := evicted_mem hcap hev
  rw [insert_def, List.filter_eq_self.2 hout] at hev
  split at hev
  · obtain ⟨first, rest, hfr⟩ := List.exists_cons_of_ne_nil (List.ne_nil_of_mem hmem)
    rw [hfr, List.cons_append, List.head?_cons, Option.some.injEq] at hev
    subst hev
    have hord := h.ordered
    rw [hfr, List.pairwise_cons] at hord
    refine ⟨hmem, fun e' he' hne => hord.1 e' ?_⟩
    rw [hfr] at he'
    exact (List.mem_cons.1 he').resolve_left hne
  · cases hev

-- A get answers the value of its key and moves it to the back.
theorem touch_value (c : Lru Nat α) (k : Nat) : (c.touch k).2 = c.peek? k := by
  unfold touch
  split <;> simp_all

theorem touch_last {k : Nat} {v : α} (hp : c.peek? k = some v) :
    (c.touch k).1.entries.getLast? = some (k, v) := by
  rw [touch_entries hp]
  simp

-- A remove takes out the one key and keeps the order of the others.
theorem erase_keys (hd : c.Distinct) (k : Nat) :
    (c.erase k).1.entries.map (·.1) = (c.entries.map (·.1)).erase k := by
  unfold erase
  rw [hd.erase_eq_filter, List.filter_map]
  simp [Function.comp_def]

-- The entry an add evicts leaves the map: with distinct keys it stood there once.
theorem evicted_not_mem (hd : c.Distinct) {k : Nat} {v : α} {e : Nat × α}
    (hev : (c.insert k v).2 = some e) : e ∉ (c.insert k v).1.entries := by
  have hnd := (distinct_moveBack hd k v).of_map
  rw [insert_def] at hev ⊢
  split at hev
  · rename_i hover
    rw [if_pos hover]
    obtain ⟨first, rest, hfr⟩ := List.exists_cons_of_ne_nil (by simp :
      c.entries.filter (·.1 != k) ++ [(k, v)] ≠ [])
    rw [hfr, List.head?_cons, Option.some.injEq] at hev
    subst hev
    rw [hfr] at hnd ⊢
    exact (List.nodup_cons.1 hnd).1
  · cases hev

end Answers

/-! ## Keys and their values along a run -/

section Presence

variable {c : Lru Nat α}

theorem evicts_add_iff {j k : Nat} {w : α} :
    (Op.add j w).Evicts c k ↔ ∃ w', (c.insert j w).2 = some (k, w') := by
  simp [Op.Evicts, Op.apply]

-- After one operation a key holds a value exactly when the operation added it, or the key held
-- it before and the operation neither added, removed nor evicted it.
theorem peek?_apply (hd : c.Distinct) (hcap : 0 < c.capacity) (op : Op α) (k : Nat) (v : α) :
    (op.apply c).1.peek? k = some v ↔
      op = .add k v ∨ (c.peek? k = some v ∧ op.changes k = false ∧ ¬ op.Evicts c k) := by
  have hd' := distinct_apply hd op
  cases op with
  | add j w =>
    by_cases hjk : j = k
    · subst hjk
      have hself : (c.insert j w).1.peek? j = some w :=
        (peek?_eq_some_iff hd').2 (self_mem_insert hcap j w)
      simp [Op.apply, hself, Op.changes]
    · have hch : (Op.add j w : Op α).changes k = false := beq_eq_false_iff_ne.2 hjk
      simp only [Op.apply] at hd' ⊢
      rw [evicts_add_iff, peek?_eq_some_iff hd', peek?_eq_some_iff hd, hch]
      constructor
      · intro hm
        rcases mem_insert hm with h | ⟨hm', -⟩
        · exact absurd (congrArg Prod.fst h).symm hjk
        · refine .inr ⟨hm', rfl, ?_⟩
          rintro ⟨w', hw'⟩
          -- the evicted entry of `k` is the one holding `v`, and it left
          have hw'm := (evicted_mem hcap hw').1
          have hv : w' = v := by
            have h₁ := (peek?_eq_some_iff hd).2 hw'm
            rw [(peek?_eq_some_iff hd).2 hm'] at h₁
            exact (Option.some.inj h₁).symm
          subst hv
          exact evicted_not_mem hd hw' hm
      · rintro (h | ⟨hm, -, hev⟩)
        · cases h
          exact absurd rfl hjk
        · exact mem_insert_of_mem hm (Ne.symm hjk) fun h => hev ⟨v, h⟩
  | get j => simp [Op.apply, Op.changes, Op.Evicts, peek?_touch]
  | remove j =>
    by_cases hjk : j = k
    · subst hjk
      simp [Op.apply, Op.changes, peek?_erase]
    · simp [Op.apply, Op.changes, Op.Evicts, peek?_erase, Ne.symm hjk, hjk]
  | peek _ | contains _ | len => simp [Op.apply, Op.changes, Op.Evicts]

/-- `k` holds `v` by the history `ops` run from `c₀`: the last add of `k` added `v`, and since
then `k` was neither removed nor evicted. -/
def AddedSince (c₀ : Lru Nat α) (ops : List (Op α)) (k : Nat) (v : α) : Prop :=
  ∃ pre post, ops = pre ++ .add k v :: post ∧ (∀ op ∈ post, op.changes k = false) ∧
    ¬ EvictsIn k (c₀.run (pre ++ [.add k v])) post

theorem not_addedSince_nil (c₀ : Lru Nat α) (k : Nat) (v : α) : ¬ AddedSince c₀ [] k v := by
  rintro ⟨pre, post, h, -⟩
  simp at h

-- One more operation: the key was added by it, or was added before and the operation neither
-- added, removed nor evicted it.
theorem addedSince_append_singleton (c₀ : Lru Nat α) (ops : List (Op α)) (op : Op α) (k : Nat)
    (v : α) :
    AddedSince c₀ (ops ++ [op]) k v ↔
      op = .add k v ∨ (AddedSince c₀ ops k v ∧ op.changes k = false ∧ ¬ op.Evicts (c₀.run ops) k) := by
  constructor
  · rintro ⟨pre, post, heq, hch, hev⟩
    rcases List.eq_nil_or_concat' post with rfl | ⟨post', x, rfl⟩
    · -- the add is the last operation
      have h := (List.append_inj' heq rfl).2
      simp only [List.cons.injEq, and_true] at h
      exact .inl h
    · have heq' : ops ++ [op] = (pre ++ .add k v :: post') ++ [x] := by simp [heq]
      obtain ⟨hops, hx⟩ := List.append_inj' heq' rfl
      simp only [List.cons.injEq, and_true] at hx
      subst hx
      rw [evictsIn_append_singleton, not_or] at hev
      refine .inr ⟨⟨pre, post', hops, fun o ho => hch o (by simp [ho]), hev.1⟩,
        hch op (by simp), ?_⟩
      rw [hops, List.append_cons pre, run_append]
      exact hev.2
  · rintro (rfl | ⟨⟨pre, post, rfl, hch, hev⟩, hop, hnot⟩)
    · exact ⟨ops, [], rfl, by simp, by simp [EvictsIn]⟩
    · refine ⟨pre, post ++ [op], by simp, fun o ho => ?_, ?_⟩
      · rcases List.mem_append.1 ho with ho | ho
        · exact hch o ho
        · rw [List.mem_singleton.1 ho]
          exact hop
      · rw [evictsIn_append_singleton, not_or, ← run_append, ← List.append_cons]
        exact ⟨hev, hnot⟩

theorem capacity_apply (c : Lru Nat α) (op : Op α) : (op.apply c).1.capacity = c.capacity := by
  cases op <;> simp [Op.apply]

theorem capacity_run (c : Lru Nat α) (ops : List (Op α)) : (c.run ops).capacity = c.capacity := by
  induction ops using List.reverseRecOn with
  | nil => rfl
  | append_singleton ops op ih => rw [run_append_singleton, capacity_apply, ih]

-- A run from an empty map keeps its keys distinct, within the capacity and in the order of
-- their last uses.
theorem recency_run {c₀ : Lru Nat α} (h0 : c₀.entries = []) (ops : List (Op α)) :
    Recency ops (c₀.run ops) := by
  induction ops using List.reverseRecOn with
  | nil => exact ⟨by simp [Distinct, h0], by simp [size, h0], by simp [h0]⟩
  | append_singleton ops op ih =>
    rw [run_append_singleton]
    exact ih.apply op

-- A key holds a value after a run exactly when the history added it and kept it since.
theorem peek?_run_iff {c₀ : Lru Nat α} (hcap : 0 < c₀.capacity) (h0 : c₀.entries = [])
    (ops : List (Op α)) (k : Nat) (v : α) :
    (c₀.run ops).peek? k = some v ↔ AddedSince c₀ ops k v := by
  induction ops using List.reverseRecOn with
  | nil => simp [peek?, h0, not_addedSince_nil]
  | append_singleton ops op ih =>
    have hcap' : 0 < (c₀.run ops).capacity := by rwa [capacity_run]
    rw [run_append_singleton, peek?_apply (recency_run h0 ops).distinct hcap', ih,
      addedSince_append_singleton]

end Presence

/-! ## The cache as a whole -/

section Whole

variable {c : Lru Nat α}

/-- How the operations answer on a map `c` reached by the history `ops`. -/
structure Answers (ops : List (Op α)) (c : Lru Nat α) : Prop where
  /-- an add leaves its entry the most recently used one -/
  add_last : ∀ k v, (c.insert k v).1.entries.getLast? = some (k, v)
  /-- an add evicts exactly when its key is new and the map is full -/
  add_evicts : ∀ k v, (c.insert k v).2.isSome ↔ (c.contains k = false ∧ c.size = c.capacity)
  /-- and it evicts the entry whose last add or get lies furthest back -/
  add_oldest : ∀ k v e, (c.insert k v).2 = some e →
    e ∈ c.entries ∧ ∀ e' ∈ c.entries, e' ≠ e → lastUse ops e.1 < lastUse ops e'.1
  /-- a get answers the key's value and moves the key to the most recently used end -/
  get_value : ∀ k, (c.touch k).2 = c.peek? k
  get_last : ∀ k v, c.peek? k = some v → (c.touch k).1.entries.getLast? = some (k, v)
  /-- a peek answers what a get would and leaves the map as it is -/
  peek_same : ∀ k, (Op.peek k).apply c = (c, .value (c.touch k).2)
  /-- a remove takes out its key and keeps the order of the others -/
  remove_keys : ∀ k, (c.erase k).1.entries.map (·.1) = (c.entries.map (·.1)).erase k

theorem Recency.answers {ops : List (Op α)} (h : Recency ops c) (hcap : 0 < c.capacity) :
    Answers ops c where
  add_last := insert_last hcap
  add_evicts := insert_evicts_iff h.distinct h.bounded
  add_oldest _ _ _ hev := evicted_oldest h hcap hev
  get_value := touch_value c
  get_last _ _ hp := touch_last hp
  peek_same k := by rw [touch_value]; rfl
  remove_keys := erase_keys h.distinct

theorem redemption_eq_ok {n : Nat} {c₀ : Lru Nat α} (h : Lru.redemption n = .ok c₀) :
    c₀.entries = [] ∧ c₀.capacity = n ∧ 0 < n := by
  unfold Lru.redemption at h
  split at h
  · cases h
  · rename_i hn
    cases h
    exact ⟨rfl, rfl, Nat.pos_of_ne_zero hn⟩

/-- A redemption cache, however created, run on any sequence of operations: its capacity stays,
its keys stay distinct and within the capacity, its entries stand in the order of their keys'
last adds and gets, each operation answers as an LRU map does, and a key holds a value exactly
when its last add added that value and it was neither removed nor evicted since. -/
theorem redemption_cache_is_lru {n : Nat} {c₀ : Lru Nat α} (h : Lru.redemption n = .ok c₀)
    (ops : List (Op α)) :
    (c₀.run ops).capacity = n ∧ Recency ops (c₀.run ops) ∧ Answers ops (c₀.run ops) ∧
      ∀ k v, (c₀.run ops).peek? k = some v ↔ AddedSince c₀ ops k v := by
  obtain ⟨h0, hcap, hn⟩ := redemption_eq_ok h
  have hrun : (c₀.run ops).capacity = n := (capacity_run c₀ ops).trans hcap
  have hrec := recency_run h0 ops
  exact ⟨hrun, hrec, hrec.answers (hrun ▸ hn), peek?_run_iff (hcap ▸ hn) h0 ops⟩

-- A get refreshes its key: the next add into the full cache evicts the other entry.
example : ((({ capacity := 2 } : Lru Nat Nat).run [.add 1 10, .add 2 20, .get 1]).insert 3 30).2 =
    some (2, 20) := rfl

theorem redemption_cache_is_lru_sample :
    Lru.redemption 2 = .ok ({ capacity := 2 } : Lru Nat Nat) ∧
      (({ capacity := 2 } : Lru Nat Nat).run [.add 1 10, .add 2 20, .get 1, .add 3 30]).capacity = 2 ∧
      Recency [.add 1 10, .add 2 20, .get 1, .add 3 30]
        (({ capacity := 2 } : Lru Nat Nat).run [.add 1 10, .add 2 20, .get 1, .add 3 30]) ∧
      Answers [.add 1 10, .add 2 20, .get 1, .add 3 30]
        (({ capacity := 2 } : Lru Nat Nat).run [.add 1 10, .add 2 20, .get 1, .add 3 30]) ∧
      ∀ k v, (({ capacity := 2 } : Lru Nat Nat).run [.add 1 10, .add 2 20, .get 1, .add 3 30]).peek? k =
          some v ↔ AddedSince { capacity := 2 } [.add 1 10, .add 2 20, .get 1, .add 3 30] k v :=
  ⟨rfl, redemption_cache_is_lru rfl _⟩

end Whole

end Lru

end MountIndex

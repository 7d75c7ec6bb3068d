import MountIndex.MountMap
import MountIndex.Proofs.Recency

/-!
# The mount map is a finite map

The mount map keeps a record either in a slot of its array, for an ID below the dense limit, or
in its overflow map, and counts its records in a field of its own. Main statement:
`mount_map_refines_finite_map`. Run from the empty map on any sequence of inserts and removes,
with IDs on both sides of the dense limit, it answers as the finite map the sequence wrote: a
lookup gives the value last inserted under the ID and not removed since, an insert or a remove
hands back the value it replaced, the counter is the number of IDs held, the overflow count the
number of them at or above the limit, and iteration visits every record once, the slots in
increasing order of ID before the overflow map.

`entries` is the view the statements are read through: the records with their IDs, in the
order iteration visits them.
-/

namespace MountIndex

namespace MountMap

variable {α : Type}

/-! ## The slot array -/

/-- The filled slots of a slot list whose first slot has index `i`, each with its index. -/
def slots : Nat → List (Option α) → List (Nat × α)
  | _, [] => []
  | i, none :: rest => slots (i + 1) rest
  | i, some v :: rest => (i, v) :: slots (i + 1) rest

section Slots

theorem slots_map_snd (i : Nat) (l : List (Option α)) : (slots i l).map (·.2) = l.filterMap id := by
  induction l generalizing i with
  | nil => rfl
  | cons o rest ih => cases o <;> simp [slots, ih]

theorem length_slots (i : Nat) (l : List (Option α)) :
    (slots i l).length = l.countP Option.isSome := by
  induction l generalizing i with
  | nil => rfl
  | cons o rest ih => cases o <;> simp [slots, ih]

-- A filled slot is listed with its index, and only filled slots are.
theorem mem_slots (i : Nat) (l : List (Option α)) (k : Nat) (v : α) :
    (k, v) ∈ slots i l ↔ ∃ n, k = i + n ∧ l[n]? = some (some v) := by
  induction l generalizing i with
  | nil => simp [slots]
  | cons o rest ih =>
    constructor
    · intro h
      cases o with
      | none =>
        obtain ⟨n, rfl, hn⟩ := (ih (i + 1)).1 (by simpa [slots] using h)
        exact ⟨n + 1, by omega, by simpa using hn⟩
      | some w =>
        simp only [slots, List.mem_cons, Prod.mk.injEq] at h
        rcases h with ⟨rfl, rfl⟩ | h
        · exact ⟨0, rfl, rfl⟩
        · obtain ⟨n, rfl, hn⟩ := (ih (i + 1)).1 h
          exact ⟨n + 1, by omega, by simpa using hn⟩
    · rintro ⟨n, rfl, hn⟩
      cases n with
      | zero =>
        cases o with
        | none => simp at hn
        | some w =>
          simp only [List.getElem?_cons_zero, Option.some.injEq] at hn
          subst hn
          simp [slots]
      | succ n =>
        have h : (i + (n + 1), v) ∈ slots (i + 1) rest :=
          (ih (i + 1)).2 ⟨n, by omega, by simpa using hn⟩
        cases o <;> simp [slots, h]

theorem bounds_of_mem_slots {i : Nat} {l : List (Option α)} {e : Nat × α} (he : e ∈ slots i l) :
    i ≤ e.1 ∧ e.1 < i + l.length := by
  obtain ⟨n, hk, hn⟩ := (mem_slots i l e.1 e.2).1 he
  have hlt : n < l.length := (List.getElem?_eq_some_iff.1 hn).1
  omega

-- The slots are listed in increasing order of index.
theorem slots_pairwise (i : Nat) (l : List (Option α)) :
    (slots i l).Pairwise fun a b => a.1 < b.1 := by
  induction l generalizing i with
  | nil => exact List.Pairwise.nil
  | cons o rest ih =>
    cases o with
    | none => exact ih (i + 1)
    | some w =>
      refine List.Pairwise.cons (fun e he => ?_) (ih (i + 1))
      have := (bounds_of_mem_slots he).1
      omega

end Slots

/-! ## The two tiers -/

section Tiers

variable {m : MountMap α} {k : Nat}

-- Growing the slot array adds empty slots only.
theorem getElem?_reach (d : Array (Option α)) (k j : Nat) : (reach d k)[j]?.join = d[j]?.join := by
  unfold reach
  split
  · rw [Array.getElem?_append]
    split
    · rfl
    · rename_i hj
      rw [Array.getElem?_eq_none (Nat.le_of_not_lt hj), Array.getElem?_replicate]
      split <;> rfl
  · rfl

theorem lt_size_reach (d : Array (Option α)) (k : Nat) : k < (reach d k).size := by
  unfold reach
  split
  · simp only [Array.size_append, Array.size_replicate]
    omega
  · omega

theorem size_reach_le {d : Array (Option α)} {k : Nat} (hd : d.size ≤ Store.denseLimit)
    (hk : k < Store.denseLimit) : (reach d k).size ≤ Store.denseLimit := by
  unfold reach
  split
  · simp only [Array.size_append, Array.size_replicate]
    omega
  · exact hd

theorem countP_reach (d : Array (Option α)) (k : Nat) :
    (reach d k).toList.countP Option.isSome = d.toList.countP Option.isSome := by
  unfold reach
  split
  · simp [Array.toList_append, List.countP_append, List.countP_replicate]
  · rfl

theorem insert_snd (m : MountMap α) (k : Nat) (v : α) : (m.insert k v).2 = m.get? k := by
  unfold insert get?
  split
  · exact getElem?_reach m.dense k k
  · rfl

theorem remove_snd (m : MountMap α) (k : Nat) : (m.remove k).2 = m.get? k := by
  unfold remove get?
  split <;> rfl

theorem insert_fst_of_dense (m : MountMap α) {k : Nat} (hk : k < Store.denseLimit) (v : α) :
    (m.insert k v).1 =
      { m with
        dense := (reach m.dense k).setIfInBounds k (some v)
        len := if (m.get? k).isNone then m.len + 1 else m.len } := by
  rw [← insert_snd m k v]
  simp [insert, hk]

theorem insert_fst_of_overflow (m : MountMap α) {k : Nat} (hk : ¬ k < Store.denseLimit) (v : α) :
    (m.insert k v).1 =
      { m with
        overflow := m.overflow.insert k v
        len := if (m.get? k).isNone then m.len + 1 else m.len } := by
  rw [← insert_snd m k v]
  simp [insert, hk]

theorem remove_fst_of_dense (m : MountMap α) {k : Nat} (hk : k < Store.denseLimit) :
    (m.remove k).1 =
      { m with
        dense := m.dense.setIfInBounds k none
        len := if (m.get? k).isSome then m.len - 1 else m.len } := by
  rw [← remove_snd]
  simp [remove, hk]

theorem remove_fst_of_overflow (m : MountMap α) {k : Nat} (hk : ¬ k < Store.denseLimit) :
    (m.remove k).1 =
      { m with
        overflow := m.overflow.erase k
        len := if (m.get? k).isSome then m.len - 1 else m.len } := by
  rw [← remove_snd]
  simp [remove, hk]

-- A lookup after an insert finds the inserted value under its ID and the old value elsewhere.
theorem get?_insert (m : MountMap α) (k : Nat) (v : α) (j : Nat) :
    (m.insert k v).1.get? j = if j = k then some v else m.get? j := by
  by_cases hk : k < Store.denseLimit
  · rw [insert_fst_of_dense m hk]
    unfold get?
    by_cases hj : j < Store.denseLimit
    · by_cases hjk : j = k
      · subst hjk
        simp [hj, lt_size_reach]
      · simp [hj, hjk, Ne.symm hjk, getElem?_reach]
    · have hjk : j ≠ k := by omega
      simp [hj, hjk]
  · rw [insert_fst_of_overflow m hk]
    unfold get?
    by_cases hj : j < Store.denseLimit
    · have hjk : j ≠ k := by omega
      simp [hj, hjk]
    · simp [hj, Store.get?_insert]

-- A lookup after a remove finds nothing under its ID and the old value elsewhere.
theorem get?_remove (m : MountMap α) (k : Nat) (j : Nat) :
    (m.remove k).1.get? j = if j = k then none else m.get? j := by
  by_cases hk : k < Store.denseLimit
  · rw [remove_fst_of_dense m hk]
    unfold get?
    by_cases hj : j < Store.denseLimit
    · by_cases hjk : j = k
      · subst hjk
        by_cases hd : j < m.dense.size <;> simp [hj, hd]
      · simp [hj, hjk, Ne.symm hjk]
    · have hjk : j ≠ k := by omega
      simp [hj, hjk]
  · rw [remove_fst_of_overflow m hk]
    unfold get?
    by_cases hj : j < Store.denseLimit
    · have hjk : j ≠ k := by omega
      simp [hj, hjk]
    · simp [hj, Store.get?_erase]

end Tiers

/-! ## Well-formed maps -/

/-- What every map built by inserts and removes satisfies: the slot array stays within the
dense limit, the overflow map holds only IDs at or above it, each once, and the counter is the
number of filled slots and overflow entries. -/
structure WF (m : MountMap α) : Prop where
  dense_size : m.dense.size ≤ Store.denseLimit
  overflow_keys : ∀ e ∈ m.overflow.entries, Store.denseLimit ≤ e.1
  distinct : m.overflow.Distinct
  len_eq : m.len = m.dense.toList.countP Option.isSome + m.overflow.size

section WF

variable {m : MountMap α}

theorem wf_empty : ({} : MountMap α).WF :=
  ⟨by simp [Store.denseLimit], by simp, by simp [Store.Distinct], rfl⟩

theorem get?_of_dense {k : Nat} (hk : k < Store.denseLimit) : m.get? k = m.dense[k]?.join := by
  simp [get?, hk]

theorem get?_of_overflow {k : Nat} (hk : ¬ k < Store.denseLimit) : m.get? k = m.overflow.get? k := by
  simp [get?, hk]

-- With distinct IDs, a store holds an ID exactly when one of its entries has it.
theorem any_eq_isSome_get? {s : Store α} (k : Nat) : s.entries.any (·.1 == k) = (s.get? k).isSome := by
  cases hg : s.get? k with
  | none =>
    simp only [Option.isSome_none, List.any_eq_false, beq_iff_eq]
    exact Store.get?_eq_none_iff.1 hg
  | some w =>
    simp only [Option.isSome_some, List.any_eq_true, beq_iff_eq]
    exact ⟨(k, w), Store.mem_of_get?_eq_some hg, rfl⟩

-- Removing an ID shrinks a store by one exactly when the ID was held.
theorem size_store_erase {s : Store α} (hd : s.Distinct) (k : Nat) :
    (s.erase k).size + (if (s.get? k).isSome then 1 else 0) = s.size := by
  rw [← any_eq_isSome_get?]
  exact Lru.length_filter_ne_key hd k

-- Putting a value under an ID grows a store by one exactly when the ID was free.
theorem size_store_insert {s : Store α} (hd : s.Distinct) (k : Nat) (v : α) :
    (s.insert k v).size + (if (s.get? k).isSome then 1 else 0) = s.size + 1 := by
  have h := size_store_erase hd k
  simp only [Store.size, Store.insert, List.length_cons] at h ⊢
  omega

-- Setting a slot changes the number of filled slots by what the slot held and what it holds now.
theorem countP_setIfInBounds (d : Array (Option α)) {k : Nat} (hk : k < d.size) (o : Option α) :
    (d.setIfInBounds k o).toList.countP Option.isSome + (if (d[k]?.join).isSome then 1 else 0) =
      d.toList.countP Option.isSome + (if o.isSome then 1 else 0) := by
  have hk' : k < d.toList.length := by simpa using hk
  rw [Array.toList_setIfInBounds, List.countP_set hk', Array.getElem?_eq_getElem hk, Option.join_some,
    Array.getElem_toList]
  by_cases hs : d[k].isSome
  · have hpos : 0 < d.toList.countP Option.isSome :=
      List.countP_pos_iff.2 ⟨d[k], Array.getElem_mem_toList hk, hs⟩
    simp only [hs, if_true]
    omega
  · simp [hs]

theorem WF.insert (hw : m.WF) (k : Nat) (v : α) : (m.insert k v).1.WF := by
  have hlen := hw.len_eq
  by_cases hk : k < Store.denseLimit
  · rw [insert_fst_of_dense m hk]
    have hcount := countP_setIfInBounds (reach m.dense k) (lt_size_reach m.dense k) (some v)
    rw [getElem?_reach, countP_reach, ← get?_of_dense hk] at hcount
    refine ⟨?_, hw.overflow_keys, hw.distinct, ?_⟩
    · rw [Array.size_setIfInBounds]
      exact size_reach_le hw.dense_size hk
    · cases h : m.get? k <;> simp only [h, Option.isSome_none, Option.isSome_some, Option.isNone_none,
        Option.isNone_some, Bool.false_eq_true, ↓reduceIte] at hcount ⊢ <;> omega
  · rw [insert_fst_of_overflow m hk]
    have hsize := size_store_insert hw.distinct k v
    rw [← get?_of_overflow hk] at hsize
    refine ⟨hw.dense_size, fun e he => ?_, Store.distinct_insert hw.distinct k v, ?_⟩
    · simp only [Store.insert, Store.erase, List.mem_cons, List.mem_filter] at he
      rcases he with rfl | ⟨he, -⟩
      · exact Nat.le_of_not_lt hk
      · exact hw.overflow_keys e he
    · cases h : m.get? k <;> simp only [h, Option.isSome_none, Option.isSome_some, Option.isNone_none,
        Option.isNone_some, Bool.false_eq_true, ↓reduceIte] at hsize ⊢ <;> omega

theorem WF.remove (hw : m.WF) (k : Nat) : (m.remove k).1.WF := by
  have hlen := hw.len_eq
  by_cases hk : k < Store.denseLimit
  · rw [remove_fst_of_dense m hk]
    -- Removing an ID past the end of the slot array leaves the array as it is.
    have hcount : (m.dense.setIfInBounds k none).toList.countP Option.isSome +
        (if (m.get? k).isSome then 1 else 0) = m.dense.toList.countP Option.isSome := by
      rw [get?_of_dense hk]
      by_cases hd : k < m.dense.size
      · simpa using countP_setIfInBounds m.dense hd none
      · have hd' : m.dense.size ≤ k := Nat.le_of_not_lt hd
        simp [Array.setIfInBounds_eq_of_size_le hd', Array.getElem?_eq_none hd']
    refine ⟨?_, hw.overflow_keys, hw.distinct, ?_⟩
    · rw [Array.size_setIfInBounds]
      exact hw.dense_size
    · cases h : m.get? k <;> simp only [h, Option.isSome_none, Option.isSome_some,
        Bool.false_eq_true, ↓reduceIte] at hcount ⊢ <;> omega
  · rw [remove_fst_of_overflow m hk]
    have hsize := size_store_erase hw.distinct k
    rw [← get?_of_overflow hk] at hsize
    refine ⟨hw.dense_size, fun e he => ?_, Store.distinct_erase hw.distinct k, ?_⟩
    · exact hw.overflow_keys e (List.mem_filter.1 he).1
    · cases h : m.get? k <;> simp only [h, Option.isSome_none, Option.isSome_some,
        Bool.false_eq_true, ↓reduceIte] at hsize ⊢ <;> omega

end WF

/-! ## The records in visiting order -/

/-- The records with their IDs, in the order iteration visits them: the filled slots by
increasing ID, then the overflow map. -/
def entries (m : MountMap α) : List (Nat × α) := slots 0 m.dense.toList ++ m.overflow.entries

theorem iter_eq_entries (m : MountMap α) : m.iter = m.entries.map (·.2) := by
  simp [iter, entries, slots_map_snd]

section Entries

variable {m : MountMap α}

theorem WF.slot_lt {e : Nat × α} (hw : m.WF) (he : e ∈ slots 0 m.dense.toList) :
    e.1 < Store.denseLimit := by
  have hlt := (bounds_of_mem_slots he).2
  have hsize := hw.dense_size
  simp only [Nat.zero_add, Array.length_toList] at hlt
  omega

theorem WF.mem_entries (hw : m.WF) (k : Nat) (v : α) : (k, v) ∈ m.entries ↔ m.get? k = some v := by
  rw [entries, List.mem_append, mem_slots, ← Store.get?_eq_some_iff hw.distinct]
  by_cases hk : k < Store.denseLimit
  · -- An ID below the limit is never in the overflow map.
    have hover : m.overflow.get? k ≠ some v := fun h =>
      absurd (hw.overflow_keys _ (Store.mem_of_get?_eq_some h)) (Nat.not_le_of_lt hk)
    simp [get?_of_dense hk, hover, Option.join_eq_some_iff]
  · -- An ID at or above the limit never has a slot.
    have hslot : m.dense[k]? ≠ some (some v) := fun hn =>
      hk (hw.slot_lt ((mem_slots 0 _ _ v).2 ⟨k, (Nat.zero_add k).symm, by simpa using hn⟩))
    simp [get?_of_overflow hk, hslot]

theorem WF.nodup_keys (hw : m.WF) : (m.entries.map (·.1)).Nodup := by
  rw [entries, List.map_append, List.nodup_append]
  refine ⟨?_, hw.distinct, ?_⟩
  · -- Slot IDs increase strictly, so none repeats.
    exact (List.pairwise_map.2 (slots_pairwise 0 _)).imp Nat.ne_of_lt
  · intro a ha b hb
    obtain ⟨e, he, rfl⟩ := List.mem_map.1 ha
    obtain ⟨f, hf, rfl⟩ := List.mem_map.1 hb
    have hlt := hw.slot_lt he
    have hle := hw.overflow_keys f hf
    omega

theorem WF.len_eq_length (hw : m.WF) : m.len = m.entries.length := by
  simp [entries, length_slots, hw.len_eq, Store.size]

theorem WF.overflowLen_eq (hw : m.WF) :
    m.overflowLen = (m.entries.filter fun e => Store.denseLimit ≤ e.1).length := by
  have hlow : (slots 0 m.dense.toList).filter (fun e => Store.denseLimit ≤ e.1) = [] :=
    List.filter_eq_nil_iff.2 fun e he => by simpa using hw.slot_lt he
  have hhigh : m.overflow.entries.filter (fun e => Store.denseLimit ≤ e.1) = m.overflow.entries :=
    List.filter_eq_self.2 fun e he => by simpa using hw.overflow_keys e he
  rw [entries, List.filter_append, hlow, hhigh, List.nil_append]
  rfl

theorem WF.isEmpty_iff (hw : m.WF) : m.isEmpty = true ↔ ∀ k, m.get? k = none := by
  rw [isEmpty, beq_iff_eq, hw.len_eq_length, List.length_eq_zero_iff, List.eq_nil_iff_forall_not_mem]
  constructor
  · intro h k
    cases hk : m.get? k with
    | none => rfl
    | some v => exact absurd ((hw.mem_entries k v).2 hk) (h _)
  · rintro h ⟨k, v⟩ he
    exact absurd ((hw.mem_entries k v).1 he) (by simp [h k])

theorem WF.entries_split (hw : m.WF) :
    ∃ low high, m.entries = low ++ high ∧ low.Pairwise (fun a b => a.1 < b.1) ∧
      (∀ e ∈ low, e.1 < Store.denseLimit) ∧ ∀ e ∈ high, Store.denseLimit ≤ e.1 :=
  ⟨_, _, rfl, slots_pairwise 0 _, fun _ he => hw.slot_lt he, hw.overflow_keys⟩

end Entries

/-! ## Visiting with early exit -/

/-- One visit of `forEach`, skipped once the visitor has asked to stop. -/
def visitUntil {β : Type} (visit : β → α → β × Bool) (acc : β × Bool) (x : α) : β × Bool :=
  if acc.2 then acc else visit acc.1 x

section Visit

variable {β : Type} (visit : β → α → β × Bool)

theorem foldl_visitUntil_stopped (l : List α) (b : β) : l.foldl (visitUntil visit) (b, true) = (b, true) := by
  induction l with
  | nil => rfl
  | cons x rest ih => simpa [visitUntil] using ih

theorem forEach_go_eq (l : List α) (b : β) :
    forEach.go visit l b = (l.foldl (visitUntil visit) (b, false)).1 := by
  induction l generalizing b with
  | nil => rfl
  | cons x rest ih =>
    rw [forEach.go, List.foldl_cons]
    cases h : visit b x with
    | mk b' stop =>
      cases stop with
      | false => simpa [visitUntil, h] using ih b'
      | true => simp [visitUntil, h, foldl_visitUntil_stopped]

/-- `forEach` visits the records in the order of `iter`, threading its state, and makes no
visit after the first that asks to stop. -/
theorem forEach_eq (m : MountMap α) (init : β) :
    m.forEach init visit = (m.iter.foldl (visitUntil visit) (init, false)).1 :=
  forEach_go_eq visit m.iter init

end Visit

/-! ## Runs of writes -/

/-- A write to the map. Lookups change nothing, so a run of the map is its writes. -/
inductive Op (α : Type) where
  | insert (k : Nat) (v : α)
  | remove (k : Nat)

/-- The map after one write. -/
def Op.apply : Op α → MountMap α → MountMap α
  | .insert k v, m => (m.insert k v).1
  | .remove k, m => (m.remove k).1

/-- What a write leaves under an ID: `some` of the new content if it writes that ID, `none` if
it leaves the ID alone. -/
def Op.writes : Op α → Nat → Option (Option α)
  | .insert k v, j => if j = k then some (some v) else none
  | .remove k, j => if j = k then some none else none

/-- The map after a sequence of writes. -/
def run (m : MountMap α) (ops : List (Op α)) : MountMap α := ops.foldl (fun m op => op.apply m) m

/-- The finite map a sequence of writes describes: under each ID, the content of the last write
to it, and nothing if there is none. -/
def lastWrite (ops : List (Op α)) (k : Nat) : Option α := (ops.reverse.findSome? (·.writes k)).join

section Run

theorem run_append_singleton (m : MountMap α) (ops : List (Op α)) (op : Op α) :
    m.run (ops ++ [op]) = op.apply (m.run ops) := by
  simp [run, List.foldl_append]

theorem lastWrite_append_singleton (ops : List (Op α)) (op : Op α) (k : Nat) :
    lastWrite (ops ++ [op]) k = (op.writes k).getD (lastWrite ops k) := by
  unfold lastWrite
  rw [List.reverse_append, List.reverse_singleton, List.singleton_append, List.findSome?_cons]
  cases op.writes k <;> rfl

-- One write changes the lookup of the ID it writes and no other.
theorem get?_apply (op : Op α) (m : MountMap α) (j : Nat) :
    (op.apply m).get? j = (op.writes j).getD (m.get? j) := by
  cases op with
  | insert k v => by_cases hj : j = k <;> simp [Op.apply, Op.writes, get?_insert, hj]
  | remove k => by_cases hj : j = k <;> simp [Op.apply, Op.writes, get?_remove, hj]

theorem WF.apply {m : MountMap α} (hw : m.WF) (op : Op α) : (op.apply m).WF := by
  cases op with
  | insert k v => exact hw.insert k v
  | remove k => exact hw.remove k

theorem wf_run (ops : List (Op α)) : (({} : MountMap α).run ops).WF := by
  induction ops using List.reverseRecOn with
  | nil => exact wf_empty
  | append_singleton ops op ih =>
    rw [run_append_singleton]
    exact ih.apply op

theorem get?_run (ops : List (Op α)) (k : Nat) :
    (({} : MountMap α).run ops).get? k = lastWrite ops k := by
  induction ops using List.reverseRecOn with
  | nil => simp [run, lastWrite, get?, Store.get?]
  | append_singleton ops op ih => rw [run_append_singleton, get?_apply, ih, lastWrite_append_singleton]

end Run

/-- The map `m` answers as the finite map the writes `ops` describe: lookups and membership
read it, inserts and removes hand back what they replace, `entries` lists its records once
each, the counters count them, and iteration and `forEach` visit them in order, slots by
increasing ID before the overflow map. -/
structure Refines (ops : List (Op α)) (m : MountMap α) : Prop where
  get : ∀ k, m.get? k = lastWrite ops k
  contains : ∀ k, m.contains k = (lastWrite ops k).isSome
  insert_prev : ∀ k v, (m.insert k v).2 = lastWrite ops k
  remove_prev : ∀ k, (m.remove k).2 = lastWrite ops k
  mem_entries : ∀ k v, (k, v) ∈ m.entries ↔ lastWrite ops k = some v
  nodup : (m.entries.map (·.1)).Nodup
  len : m.len = m.entries.length
  isEmpty : m.isEmpty = true ↔ ∀ k, lastWrite ops k = none
  overflowLen : m.overflowLen = (m.entries.filter fun e => Store.denseLimit ≤ e.1).length
  iter : m.iter = m.entries.map (·.2)
  order : ∃ low high, m.entries = low ++ high ∧ low.Pairwise (fun a b => a.1 < b.1) ∧
    (∀ e ∈ low, e.1 < Store.denseLimit) ∧ ∀ e ∈ high, Store.denseLimit ≤ e.1
  forEach : ∀ {β : Type} (init : β) (visit : β → α → β × Bool),
    m.forEach init visit = (m.iter.foldl (visitUntil visit) (init, false)).1

/-- Run from the empty map, on any writes with IDs on either side of the dense limit, the
mount map is the finite map those writes describe. -/
theorem mount_map_refines_finite_map (ops : List (Op α)) : Refines ops (({} : MountMap α).run ops) := by
  have hw := wf_run ops
  have hget := get?_run ops
  refine ⟨hget, fun k => by rw [contains, hget], fun k v => by rw [insert_snd, hget],
    fun k => by rw [remove_snd, hget], fun k v => by rw [hw.mem_entries, hget], hw.nodup_keys,
    hw.len_eq_length, ?_, hw.overflowLen_eq, iter_eq_entries _, hw.entries_split,
    fun init visit => forEach_eq visit _ init⟩
  simp only [hw.isEmpty_iff, hget]

-- A replaced record is counted once, in the overflow map as in the slots.
example : ((({} : MountMap Nat).run [.insert 3 1, .insert 5000 2, .insert 5000 3]).len,
    (({} : MountMap Nat).run [.insert 3 1, .insert 5000 2, .insert 5000 3]).overflowLen) =
    (2, 1) := by decide

end MountMap

end MountIndex

import MountIndex.Resolver.Basic

/-!
# Stores and LRU maps, entry by entry

The mount store and the redemption cache are lists of entries, and their lookups read the
first entry filed under a key. Once no key is filed twice a lookup is plain membership, and
every operation can be followed entry by entry. A store of records is `Keyed` when, moreover,
each record is filed under its own mount ID.
-/

namespace MountIndex

namespace Store

variable {α : Type}

/-- No ID is filed twice. -/
def Distinct (s : Store α) : Prop := (s.entries.map (·.1)).Nodup

theorem mem_of_get?_eq_some {s : Store α} {k : Nat} {v : α} (h : s.get? k = some v) :
    (k, v) ∈ s.entries := by
  unfold get? at h
  obtain ⟨⟨k', v'⟩, he, hv⟩ := Option.map_eq_some_iff.1 h
  have hk : k' = k := by simpa using List.find?_some he
  subst hk hv
  exact List.mem_of_find?_eq_some he

theorem get?_eq_some_of_mem {s : Store α} {k : Nat} {v : α} (hd : s.Distinct)
    (h : (k, v) ∈ s.entries) : s.get? k = some v := by
  obtain ⟨entries⟩ := s
  unfold Distinct at hd
  unfold get?
  simp only at hd h ⊢
  induction entries with
  | nil => simp at h
  | cons e rest ih =>
    obtain ⟨k', v'⟩ := e
    rw [List.map_cons, List.nodup_cons] at hd
    rcases List.mem_cons.1 h with h | h
    · cases h
      simp
    · have hne : k' ≠ k := by
        rintro rfl
        exact hd.1 (List.mem_map.2 ⟨_, h, rfl⟩)
      simp [hne, ih hd.2 h]

theorem get?_eq_some_iff {s : Store α} {k : Nat} {v : α} (hd : s.Distinct) :
    s.get? k = some v ↔ (k, v) ∈ s.entries :=
  ⟨mem_of_get?_eq_some, get?_eq_some_of_mem hd⟩

theorem get?_eq_none_iff {s : Store α} {k : Nat} : s.get? k = none ↔ ∀ e ∈ s.entries, e.1 ≠ k := by
  simp [get?, List.find?_eq_none]

theorem mem_values {s : Store α} {v : α} : v ∈ s.values ↔ ∃ k, (k, v) ∈ s.entries := by
  simp [values, toList]

-- The values are the stored values, sorted by ID.
theorem values_perm (s : Store α) : s.values.Perm (s.entries.map (·.2)) :=
  (List.mergeSort_perm _ _).map _

@[simp] theorem entries_modify (s : Store α) (id : Nat) (f : α → α) :
    (s.modify id f).entries.map (·.1) = s.entries.map (·.1) := by
  simp [modify, Function.comp_def, apply_ite]

theorem distinct_erase {s : Store α} (hd : s.Distinct) (id : Nat) : (s.erase id).Distinct :=
  hd.sublist ((List.filter_sublist).map _)

theorem distinct_insert {s : Store α} (hd : s.Distinct) (id : Nat) (v : α) :
    (s.insert id v).Distinct := by
  unfold Distinct insert
  rw [List.map_cons, List.nodup_cons]
  refine ⟨?_, distinct_erase hd id⟩
  simp [erase]

theorem distinct_modify {s : Store α} (hd : s.Distinct) (id : Nat) (f : α → α) :
    (s.modify id f).Distinct := by
  unfold Distinct
  rw [entries_modify]
  exact hd

-- Erasing a list of IDs one after another clears exactly those IDs.
theorem get?_foldl_erase (ids : List Nat) (s : Store α) (k : Nat) :
    (ids.foldl erase s).get? k = if k ∈ ids then none else s.get? k := by
  induction ids generalizing s with
  | nil => simp
  | cons i rest ih =>
    rw [List.foldl_cons, ih, get?_erase]
    by_cases hk : k = i <;> simp [hk]

/-- Every record is filed under its own mount ID, and no ID twice. -/
structure Keyed (s : Store Record) : Prop where
  distinct : s.Distinct
  key : ∀ e ∈ s.entries, e.2.mount.id = e.1

namespace Keyed

variable {s : Store Record}

theorem id_of_get? (hk : s.Keyed) {k : Nat} {rec : Record} (h : s.get? k = some rec) :
    rec.mount.id = k :=
  hk.key _ (mem_of_get?_eq_some h)

theorem mem_values_iff (hk : s.Keyed) {rec : Record} :
    rec ∈ s.values ↔ s.get? rec.mount.id = some rec := by
  rw [mem_values]
  constructor
  · rintro ⟨k, hm⟩
    have hid : rec.mount.id = k := hk.key _ hm
    rw [hid]
    exact get?_eq_some_of_mem hk.distinct hm
  · intro h
    exact ⟨_, mem_of_get?_eq_some h⟩

theorem nodup_ids (hk : s.Keyed) : (s.values.map (·.mount.id)).Nodup := by
  have hmap : s.values.map (·.mount.id) = s.toList.map (·.1) := by
    unfold values
    rw [List.map_map]
    apply List.map_congr_left
    intro e he
    exact hk.key e (by simpa [toList] using he)
  rw [hmap]
  exact (List.mergeSort_perm _ _).map _ |>.nodup_iff.2 hk.distinct

end Keyed

theorem keyed_erase {s : Store Record} (hk : s.Keyed) (id : Nat) : (s.erase id).Keyed :=
  ⟨distinct_erase hk.distinct id, fun e he => hk.key e ((List.mem_filter.1 he).1)⟩

theorem keyed_foldl_erase (ids : List Nat) {s : Store Record} (hk : s.Keyed) :
    (ids.foldl erase s).Keyed := by
  induction ids generalizing s with
  | nil => exact hk
  | cons i rest ih => exact ih (keyed_erase hk i)

theorem keyed_insert {s : Store Record} (hk : s.Keyed) {id : Nat} {rec : Record}
    (hid : rec.mount.id = id) : (s.insert id rec).Keyed := by
  refine ⟨distinct_insert hk.distinct id rec, ?_⟩
  intro e he
  rcases List.mem_cons.1 he with rfl | he
  · exact hid
  · exact hk.key e ((List.mem_filter.1 he).1)

theorem keyed_modify {s : Store Record} (hk : s.Keyed) (id : Nat) {f : Record → Record}
    (hf : ∀ rec, (f rec).mount.id = rec.mount.id) : (s.modify id f).Keyed := by
  refine ⟨distinct_modify hk.distinct id f, ?_⟩
  intro e he
  simp only [modify, List.mem_map] at he
  obtain ⟨e', he', rfl⟩ := he
  split
  · rw [hf]; exact hk.key e' he'
  · exact hk.key e' he'

end Store

namespace Lru

variable {α : Type}

/-- No key is filed twice. -/
def Distinct (c : Lru Nat α) : Prop := (c.entries.map (·.1)).Nodup

/-- The entries of a cache read as a store: a peek is a store lookup. -/
def asStore (c : Lru Nat α) : Store α := ⟨c.entries⟩

theorem mem_of_peek?_eq_some {c : Lru Nat α} {k : Nat} {v : α} (h : c.peek? k = some v) :
    (k, v) ∈ c.entries :=
  Store.mem_of_get?_eq_some (show c.asStore.get? k = some v from h)

theorem peek?_eq_some_iff {c : Lru Nat α} {k : Nat} {v : α} (hd : c.Distinct) :
    c.peek? k = some v ↔ (k, v) ∈ c.entries :=
  Store.get?_eq_some_iff (show c.asStore.Distinct from hd)

theorem peek?_eq_none_iff {c : Lru Nat α} {k : Nat} : c.peek? k = none ↔ ∀ e ∈ c.entries, e.1 ≠ k :=
  @Store.get?_eq_none_iff α c.asStore k

theorem isSome_peek?_iff {c : Lru Nat α} {k : Nat} :
    (c.peek? k).isSome ↔ ∃ e ∈ c.entries, e.1 = k := by
  rw [Option.isSome_iff_ne_none, Ne, peek?_eq_none_iff]
  simp

theorem peek?_erase (c : Lru Nat α) (k j : Nat) :
    (c.erase k).1.peek? j = if j = k then none else c.peek? j :=
  Store.get?_erase c.asStore k j

theorem size_erase_le (c : Lru Nat α) (k : Nat) : (c.erase k).1.size ≤ c.size :=
  List.length_filter_le _ _

@[simp] theorem capacity_erase (c : Lru Nat α) (k : Nat) : (c.erase k).1.capacity = c.capacity :=
  rfl

-- A touch only moves the entry of its key to the back: every peek reads the same.
theorem peek?_touch (c : Lru Nat α) (k j : Nat) : (c.touch k).1.peek? j = c.peek? j := by
  unfold touch
  split
  · rename_i v hv
    unfold peek? at hv ⊢
    rw [List.find?_append]
    by_cases hj : j = k
    · subst hj
      have hnone : (c.entries.filter (·.1 != j)).find? (·.1 == j) = none := by
        apply List.find?_eq_none.2
        intro x hx
        simp only [List.mem_filter, bne_iff_ne, ne_eq] at hx
        simpa using hx.2
      rw [hnone, hv]
      simp
    · have hsame : (c.entries.filter (·.1 != k)).find? (·.1 == j) = c.entries.find? (·.1 == j) := by
        rw [List.find?_filter]
        congr 1
        funext a
        by_cases ha : a.1 = j
        · simp [ha, hj]
        · simp [ha]
      have hne : ((k, v).1 == j) = false := by simpa using Ne.symm hj
      rw [hsame]
      simp [hne]
  · rfl

theorem mem_of_mem_touch {c : Lru Nat α} {k : Nat} {e : Nat × α}
    (he : e ∈ (c.touch k).1.entries) : e ∈ c.entries := by
  unfold touch at he
  split at he
  · rename_i v hv
    rcases List.mem_append.1 he with he | he
    · exact (List.mem_filter.1 he).1
    · rw [List.mem_singleton.1 he]
      exact mem_of_peek?_eq_some hv
  · exact he

theorem size_touch_le (c : Lru Nat α) (k : Nat) : (c.touch k).1.size ≤ c.size := by
  unfold touch size
  split
  · rename_i v hv
    have hkv := mem_of_peek?_eq_some hv
    have hlt : (c.entries.filter (·.1 != k)).length < c.entries.length :=
      List.length_filter_lt_length_iff_exists.2 ⟨(k, v), hkv, by simp⟩
    simp only [List.length_append, List.length_singleton]
    omega
  · exact Nat.le_refl _

@[simp] theorem capacity_touch (c : Lru Nat α) (k : Nat) : (c.touch k).1.capacity = c.capacity := by
  unfold touch
  split <;> rfl

theorem insert_def (c : Lru Nat α) (k : Nat) (v : α) :
    c.insert k v =
      if (c.entries.filter (·.1 != k) ++ [(k, v)]).length > c.capacity then
        ({ c with entries := (c.entries.filter (·.1 != k) ++ [(k, v)]).drop 1 },
          (c.entries.filter (·.1 != k) ++ [(k, v)]).head?)
      else ({ c with entries := c.entries.filter (·.1 != k) ++ [(k, v)] }, none) := rfl

-- What an insert keeps: the new entry and entries of other keys, less the evicted head.
theorem mem_insert {c : Lru Nat α} {k : Nat} {v : α} {e : Nat × α}
    (h : e ∈ (c.insert k v).1.entries) : e = (k, v) ∨ (e ∈ c.entries ∧ e.1 ≠ k) := by
  have hes : e ∈ c.entries.filter (·.1 != k) ++ [(k, v)] := by
    rw [insert_def] at h
    split at h
    · exact List.mem_of_mem_drop h
    · exact h
  simp only [List.mem_append, List.mem_filter, List.mem_singleton, bne_iff_ne, ne_eq] at hes
  rcases hes with ⟨he, hk⟩ | rfl
  · exact Or.inr ⟨he, hk⟩
  · exact Or.inl rfl

-- With room for one entry, the evicted entry is the oldest entry of another key.
theorem evicted_mem {c : Lru Nat α} {k : Nat} {v : α} {e : Nat × α} (hcap : 0 < c.capacity)
    (h : (c.insert k v).2 = some e) : e ∈ c.entries ∧ e.1 ≠ k := by
  rw [insert_def] at h
  split at h
  · rename_i hlen
    obtain ⟨t, ht⟩ := List.head?_eq_some_iff.1 h
    have hne : c.entries.filter (·.1 != k) ≠ [] := by
      intro hnil
      rw [hnil] at hlen
      simp at hlen
      omega
    obtain ⟨a, f, hf⟩ := List.exists_cons_of_ne_nil hne
    rw [hf, List.cons_append] at ht
    have hmem : e ∈ c.entries.filter (·.1 != k) := by
      rw [hf, (List.cons.inj ht).1]
      exact List.mem_cons_self
    simp only [List.mem_filter, bne_iff_ne, ne_eq] at hmem
    exact hmem
  · cases h

theorem mem_insert_of_mem {c : Lru Nat α} {k : Nat} {v : α} {e : Nat × α} (he : e ∈ c.entries)
    (hk : e.1 ≠ k) (hev : (c.insert k v).2 ≠ some e) : e ∈ (c.insert k v).1.entries := by
  have hes : e ∈ c.entries.filter (·.1 != k) ++ [(k, v)] := by
    simp only [List.mem_append, List.mem_filter, bne_iff_ne, ne_eq]
    exact Or.inl ⟨he, hk⟩
  rw [insert_def] at hev ⊢
  split
  · rename_i hlen
    rw [if_pos hlen] at hev
    obtain ⟨a, t, hat⟩ := List.exists_cons_of_ne_nil (List.ne_nil_of_mem hes)
    rw [hat] at hes hev ⊢
    rcases List.mem_cons.1 hes with rfl | ht
    · exact absurd rfl hev
    · exact ht
  · exact hes

theorem self_mem_insert {c : Lru Nat α} (hcap : 0 < c.capacity) (k : Nat) (v : α) :
    (k, v) ∈ (c.insert k v).1.entries := by
  rw [insert_def]
  split
  · rename_i hlen
    have hne : c.entries.filter (·.1 != k) ≠ [] := by
      intro hnil
      rw [hnil] at hlen
      simp at hlen
      omega
    obtain ⟨a, f, hf⟩ := List.exists_cons_of_ne_nil hne
    rw [hf]
    simp
  · simp

-- An insert files its key and keeps the key of every entry but the one it evicts.
theorem isSome_peek?_insert {c : Lru Nat α} {k j : Nat} {v : α} (hcap : 0 < c.capacity)
    (hev : ∀ e, (c.insert k v).2 = some e → e.1 ≠ j) :
    ((c.insert k v).1.peek? j).isSome = ((c.peek? j).isSome || j == k) := by
  apply Bool.eq_iff_iff.2
  simp only [Bool.or_eq_true, beq_iff_eq, isSome_peek?_iff]
  constructor
  · rintro ⟨e, he, rfl⟩
    rcases mem_insert he with rfl | ⟨he', -⟩
    · exact .inr rfl
    · exact .inl ⟨e, he', rfl⟩
  · rintro (⟨e, he, rfl⟩ | rfl)
    · by_cases hk : e.1 = k
      · exact ⟨(k, v), self_mem_insert hcap k v, hk.symm⟩
      · exact ⟨e, mem_insert_of_mem he hk fun h => hev e h rfl, rfl⟩
    · exact ⟨(_, v), self_mem_insert hcap _ v, rfl⟩

@[simp] theorem capacity_insert (c : Lru Nat α) (k : Nat) (v : α) :
    (c.insert k v).1.capacity = c.capacity := by
  rw [insert_def]
  split <;> rfl

end Lru

end MountIndex

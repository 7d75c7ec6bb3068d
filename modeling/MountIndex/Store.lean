/-!
A finite map from mount IDs to values, the shape in which the cache holds its mount records.
Each ID has at most one value; inserting under an ID replaces the value there and hands the
old one back. The view of a store is `get?`; every operation is stated through it.

IDs below `denseLimit` are the ones the kernel hands out first; `overflowCount` counts the
entries at or above it.
-/

namespace MountIndex

/-- A finite map from mount IDs to values, as a list of entries with distinct IDs, the most
recently inserted first. -/
structure Store (α : Type) where
  entries : List (Nat × α) := []
  deriving Inhabited

namespace Store

variable {α : Type}

/-- The value under an ID. -/
def get? (s : Store α) (id : Nat) : Option α :=
  (s.entries.find? (·.1 == id)).map (·.2)

/-- Whether an ID has a value. -/
def contains (s : Store α) (id : Nat) : Bool := (s.get? id).isSome

/-- Removes the value under an ID. -/
def erase (s : Store α) (id : Nat) : Store α :=
  ⟨s.entries.filter (·.1 != id)⟩

/-- Puts a value under an ID, replacing any value there. -/
def insert (s : Store α) (id : Nat) (v : α) : Store α :=
  ⟨(id, v) :: (s.erase id).entries⟩

/-- Replaces the value under an ID by `f` of it; other IDs keep theirs. -/
def modify (s : Store α) (id : Nat) (f : α → α) : Store α :=
  ⟨s.entries.map fun e => if e.1 == id then (e.1, f e.2) else e⟩

/-- The number of IDs with a value. -/
def size (s : Store α) : Nat := s.entries.length

/-- The IDs below this bound form the dense range. -/
def denseLimit : Nat := 4096

/-- The number of entries whose ID is at or above the dense range. -/
def overflowCount (s : Store α) : Nat := (s.entries.filter (·.1 ≥ denseLimit)).length

/-- The entries in increasing order of ID. -/
def toList (s : Store α) : List (Nat × α) :=
  s.entries.mergeSort fun a b => a.1 ≤ b.1

/-- The values in increasing order of ID. -/
def values (s : Store α) : List α := s.toList.map (·.2)

/-- Visits the entries in increasing order of ID, threading a state, until the visitor
asks to stop; gives the last state. -/
def visit {β : Type} (s : Store α) (init : β) (f : β → Nat × α → β × Bool) : β :=
  go s.toList init
where
  go : List (Nat × α) → β → β
    | [], b => b
    | e :: rest, b =>
      let (b, stop) := f b e
      if stop then b else go rest b

@[simp] theorem get?_empty (id : Nat) : (({} : Store α)).get? id = none := rfl

@[simp] theorem get?_erase (s : Store α) (id k : Nat) :
    (s.erase id).get? k = if k = id then none else s.get? k := by
  unfold get? erase
  induction s.entries with
  | nil => simp
  | cons e rest ih =>
    by_cases h1 : e.1 = id <;> by_cases h2 : e.1 = k <;> by_cases h3 : k = id <;>
      simp_all [List.filter_cons, List.find?_cons]

@[simp] theorem get?_insert (s : Store α) (id k : Nat) (v : α) :
    (s.insert id v).get? k = if k = id then some v else s.get? k := by
  by_cases hk : k = id
  · subst hk; simp [insert, get?]
  · have h := get?_erase s id k
    rw [if_neg hk] at h
    have hne : (id == k) = false := by simp; omega
    rw [if_neg hk, ← h]
    simp [get?, insert, List.find?_cons, hne]

-- Erasing an ID that has a value leaves a smaller store.
theorem size_erase_lt {s : Store α} {id : Nat} (h : s.contains id = true) :
    (s.erase id).size < s.size := by
  simp only [contains, get?, Option.isSome_map, List.find?_isSome] at h
  obtain ⟨e, he, hid⟩ := h
  exact List.length_filter_lt_length_iff_exists.2 ⟨e, he, by simpa using hid⟩

@[simp] theorem get?_modify (s : Store α) (id k : Nat) (f : α → α) :
    (s.modify id f).get? k = if k = id then (s.get? k).map f else s.get? k := by
  unfold get? modify
  induction s.entries with
  | nil => simp
  | cons e rest ih =>
    by_cases h1 : e.1 = id <;> by_cases h2 : e.1 = k <;> by_cases h3 : k = id <;>
      simp_all

end Store

end MountIndex

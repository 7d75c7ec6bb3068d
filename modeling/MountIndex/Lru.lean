/-!
A bounded map that remembers the order of use: entries are kept from the least recently
used to the most recently used, and inserting beyond the capacity evicts the least recently
used entry. Looking an entry up either touches it (it becomes the most recently used) or
peeks at it (the order stays).
-/

namespace MountIndex

/-- A map with at most `capacity` entries, least recently used first. -/
structure Lru (κ α : Type) where
  capacity : Nat
  entries : List (κ × α) := []
  deriving Inhabited

namespace Lru

variable {κ α : Type} [BEq κ]

/-- The value under a key, without touching it. -/
def peek? (c : Lru κ α) (k : κ) : Option α :=
  (c.entries.find? (·.1 == k)).map (·.2)

/-- Whether a key has an entry. -/
def contains (c : Lru κ α) (k : κ) : Bool := c.entries.any (·.1 == k)

/-- The number of entries. -/
def size (c : Lru κ α) : Nat := c.entries.length

/-- Removes the entry of a key, handing back its value. -/
def erase (c : Lru κ α) (k : κ) : Lru κ α × Option α :=
  ({ c with entries := c.entries.filter (·.1 != k) }, c.peek? k)

/-- Makes the entry of a key the most recently used one and hands back its value. -/
def touch (c : Lru κ α) (k : κ) : Lru κ α × Option α :=
  match c.peek? k with
  | some v => ({ c with entries := c.entries.filter (·.1 != k) ++ [(k, v)] }, some v)
  | none => (c, none)

/-- Puts a value under a key as the most recently used entry, replacing the key's entry;
if that leaves more entries than the capacity, the least recently used one is evicted and
handed back. -/
def insert (c : Lru κ α) (k : κ) (v : α) : Lru κ α × Option (κ × α) :=
  let entries := c.entries.filter (·.1 != k) ++ [(k, v)]
  if entries.length > c.capacity then
    ({ c with entries := entries.drop 1 }, entries.head?)
  else ({ c with entries }, none)

/-- Changes the value under a key in place, keeping the order. -/
def modify (c : Lru κ α) (k : κ) (f : α → α) : Lru κ α :=
  { c with entries := c.entries.map fun e => if e.1 == k then (e.1, f e.2) else e }

theorem size_insert_le (c : Lru κ α) (k : κ) (v : α) (h : c.size ≤ c.capacity) :
    (c.insert k v).1.size ≤ c.capacity := by
  unfold insert size at *
  dsimp only
  have : (c.entries.filter (·.1 != k)).length ≤ c.entries.length := List.length_filter_le _ _
  split <;> simp_all <;> omega

end Lru

end MountIndex

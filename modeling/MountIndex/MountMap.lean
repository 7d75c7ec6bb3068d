import MountIndex.Store

/-!
The mount map: records keyed by mount ID in two tiers. Kernel mount IDs are small and dense on
most hosts, so an ID below `Store.denseLimit` indexes a slot array, grown on demand up to the
highest such ID stored; a larger ID goes to an overflow map. A counter keeps the number of
records, and iteration visits the slots in order before the overflow map.
-/

namespace MountIndex

/-- Records keyed by mount ID: a slot for each ID below the dense limit, up to the highest one
stored, an overflow map for the others, and the number of records. -/
structure MountMap (α : Type) where
  dense : Array (Option α) := #[]
  overflow : Store α := {}
  len : Nat := 0
  deriving Inhabited

namespace MountMap

variable {α : Type}

/-- The record under an ID. -/
def get? (m : MountMap α) (id : Nat) : Option α :=
  if id < Store.denseLimit then m.dense[id]?.join else m.overflow.get? id

/-- Whether an ID has a record. -/
def contains (m : MountMap α) (id : Nat) : Bool := (m.get? id).isSome

/-- The slot array grown with empty slots, if it must be, to have a slot for `id`. -/
def reach (dense : Array (Option α)) (id : Nat) : Array (Option α) :=
  if dense.size ≤ id then dense ++ Array.replicate (id + 1 - dense.size) none else dense

/-- Stores a record under an ID and hands back the record it replaced; only a record under a
new ID is counted. A dense ID beyond the slot array first grows the array to reach it. -/
def insert (m : MountMap α) (id : Nat) (v : α) : MountMap α × Option α :=
  let stored : MountMap α × Option α :=
    if id < Store.denseLimit then
      let dense := reach m.dense id
      ({ m with dense := dense.setIfInBounds id (some v) }, dense[id]?.join)
    else ({ m with overflow := m.overflow.insert id v }, m.overflow.get? id)
  ({ stored.1 with len := if stored.2.isNone then m.len + 1 else m.len }, stored.2)

/-- Removes the record under an ID and hands it back; only a record that was there is
uncounted. -/
def remove (m : MountMap α) (id : Nat) : MountMap α × Option α :=
  let taken : MountMap α × Option α :=
    if id < Store.denseLimit then
      ({ m with dense := m.dense.setIfInBounds id none }, m.dense[id]?.join)
    else ({ m with overflow := m.overflow.erase id }, m.overflow.get? id)
  ({ taken.1 with len := if taken.2.isSome then m.len - 1 else m.len }, taken.2)

/-- Whether the map holds no record. -/
def isEmpty (m : MountMap α) : Bool := m.len == 0

/-- The number of records outside the slot array. -/
def overflowLen (m : MountMap α) : Nat := m.overflow.size

/-- The records, those in the slots first in the order of their IDs, then those of the
overflow map. -/
def iter (m : MountMap α) : List α :=
  m.dense.toList.filterMap id ++ m.overflow.entries.map (·.2)

/-- Visits the records in the order of `iter`, threading a state, until the visitor asks to
stop; gives the last state. -/
def forEach {β : Type} (m : MountMap α) (init : β) (visit : β → α → β × Bool) : β :=
  go m.iter init
where
  go : List α → β → β
    | [], b => b
    | v :: rest, b =>
      let next := visit b v
      if next.2 then next.1 else go rest next.1

end MountMap

end MountIndex

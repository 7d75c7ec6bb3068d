import MountIndex.Resolver.Basic

/-!
Retiring records. A retired record takes with it every record that depends on it: the
mounts whose parent it is and, for an overlay, every mount on the same device, and so on
from those. Retiring walks them with an explicit stack (`finalizeGo`), removing each from the
store and dropping its redemption entry; `dependents` finds the same records round by round.

A delete request that falls due moves its record, if still current, into the redemption
cache; a record the cache evicts is retired. Inserting a record under an ID that already
has one retires the old record first, with its dependents.
-/

namespace MountIndex

namespace Resolver

/-- The records that depend directly on `r`: those whose parent it is, and for an overlay,
those on the same device. -/
def directDependents (records : List Record) (r : Record) : List Record :=
  records.filter fun c =>
    c.mount.parent == r.mount.id || (r.mount.isOverlay && c.mount.device == r.mount.device)

/-- The mount IDs of `start` and of all records that depend on it, directly or through
others, among `records`, found breadth first: each round adds the dependents of the records
found in the round before; there are at most as many rounds as records. -/
def dependents (records : List Record) (start : Record) : List Nat :=
  go (records.length + 1) [start] [start.mount.id]
where
  go : Nat → List Record → List Nat → List Nat
    | 0, _, seen => seen
    | fuel + 1, frontier, seen =>
      let next := (frontier.flatMap (directDependents records)).filter fun c => !seen.contains c.mount.id
      let ids := (next.map (·.mount.id)).eraseDups
      if ids.isEmpty then seen
      else go fuel (records.filter fun c => ids.contains c.mount.id) (seen ++ ids)

theorem contains_of_isCurrent {r : Resolver} {h : Handle} (hc : r.isCurrent h = true) :
    r.mounts.contains h.id = true := by
  unfold isCurrent at hc
  unfold Store.contains
  split at hc
  · rename_i rec hrec
    rw [hrec]
    rfl
  · cases hc

/-- Tears records down with a stack of records to visit (its top first) and the mount IDs
seen so far. A popped record whose ID was seen, or that the store no longer holds, is
skipped. Otherwise it leaves the store, with its redemption entry if that entry names it,
and the records of the store that depend on it and whose IDs were not seen are pushed: its
children, then for an overlay every record on its device. Each record taken shrinks the
store, and each skip the stack. -/
def finalizeGo (r : Resolver) (stack : List Record) (seen : List Nat) : Resolver :=
  match stack with
  | [] => r
  | curr :: rest =>
    if seen.contains curr.mount.id then r.finalizeGo rest seen
    else
      let seen := curr.mount.id :: seen
      if _hc : r.isCurrent curr.handle then
        let mounts := r.mounts.erase curr.mount.id
        let redemption :=
          if r.redemption.peek? curr.mount.id == some curr.handle then
            (r.redemption.erase curr.mount.id).1
          else r.redemption
        let children := mounts.values.filter fun c =>
          c.mount.parent == curr.mount.id && !seen.contains c.mount.id
        let siblings :=
          if curr.mount.isOverlay then
            mounts.values.filter fun c =>
              c.mount.device == curr.mount.device && !seen.contains c.mount.id
          else []
        ({ r with mounts, redemption } : Resolver).finalizeGo
          ((children ++ siblings).reverse ++ rest) seen
      else r.finalizeGo rest seen
termination_by (r.mounts.size, stack.length)
decreasing_by
  · exact Prod.Lex.right _ (Nat.lt_succ_self _)
  · exact Prod.Lex.left _ _ (Store.size_erase_lt (contains_of_isCurrent _hc))
  · exact Prod.Lex.right _ (Nat.lt_succ_self _)

/-- Retires the record a handle names, with its dependents; a handle that is no longer
current retires nothing. -/
def retire (r : Resolver) (h : Handle) : Resolver :=
  match r.mounts.get? h.id with
  | some rec => if rec.stamp = h.stamp then r.finalizeGo [rec] [] else r
  | none => r

/-- Moves a record into the redemption cache; a record it evicts is retired. -/
def redeem (r : Resolver) (h : Handle) : Resolver :=
  let (cache, evicted) := r.redemption.insert h.id h
  let r := { r with redemption := cache }
  match evicted with
  | some (_, e) => r.retire e
  | none => r

/-- Takes the delete requests due at `now` off the front of the queue, redeeming the
records still current; gives how many were redeemed. -/
def dequeue (r : Resolver) (now : Nat) : Resolver × Nat :=
  go r r.queue 0
where
  go (r : Resolver) : List Request → Nat → Resolver × Nat
    | [], n => ({ r with queue := [] }, n)
    | q :: rest, n =>
      if q.due ≤ now then
        let r := { r with queue := rest }
        if r.isCurrent q.handle then go (r.redeem q.handle) rest (n + 1) else go r rest n
      else ({ r with queue := q :: rest }, n)

/-- Puts a record into the store, retiring the record that held its ID before (and dropping
that ID's redemption entry). The mount point is normalized, and the kernel floor follows
a lower ID once it is known. -/
def place (r : Resolver) (m : Mount) : Resolver :=
  let r := match r.mounts.get? m.id with
    | some prev => ({ r with redemption := (r.redemption.erase m.id).1 }).retire prev.handle
    | none => r
  { r with
    mounts := r.mounts.insert m.id ⟨m.normalize, r.nextStamp⟩
    nextStamp := r.nextStamp + 1
    floor := if r.floor > m.id then m.id else r.floor }

/-- Inserts a record; mount ID 0 is refused. -/
def insert (r : Resolver) (m : Mount) : Except MountError Resolver :=
  if m.id = 0 then .error .undefined else .ok (r.place m)

/-- Inserts the entries of a mount table whose IDs have no record yet; gives how many. -/
def merge (r : Resolver) (entries : List Table.Entry) : Resolver × Nat :=
  entries.foldl (fun (r, n) e =>
    if r.mounts.contains e.mountId then (r, n) else (r.place e.toMount, n + 1)) (r, 0)

/-- Files a delete request for the current record of a mount ID, due `deleteDelay` after
`now`. -/
def deleteAt (r : Resolver) (id : Nat) (now : Nat) : Except MountError Resolver :=
  match r.mounts.get? id with
  | some rec => .ok { r with queue := r.queue ++ [⟨rec.handle, now + r.config.deleteDelay.nanos⟩] }
  | none => .error (.notFound id)

/-- Lowers the kernel floor to the lowest current mount ID, or sets it if unknown. -/
def refreshFloor (r : Resolver) : Resolver :=
  match (r.mounts.values.map (·.mount.id)).min? with
  | some lowest => if r.floor = 0 ∨ lowest < r.floor then { r with floor := lowest } else r
  | none => r

end Resolver

end MountIndex

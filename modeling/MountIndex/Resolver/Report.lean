import MountIndex.Resolver.Resolve
import MountIndex.Device

/-!
Reports over the whole cache: one row per record for tables, and reconciling the cache
with a fresh mount table. Reconciling deletes each live record whose mount ID the table no
longer lists, then inserts every listed mount whose ID is not live, twice over, since
inserting a record under a reused ID retires the records that depend on the old one, and
the second pass puts those back.
-/

namespace MountIndex

/-- One row of a mount table report. -/
structure Row where
  id : Nat
  parent : Nat
  device : String
  fsType : String
  /-- the absolute path, `-` when it cannot be resolved -/
  path : String
  root : String
  state : String
  deriving Repr, DecidableEq, Inhabited

/-- A row for a record. -/
def Row.ofMount (m : Mount) (path : Option String) (state : MountState) : Row :=
  { id := m.id, parent := m.parent, device := Device.render m.device, fsType := m.fsName,
    path := path.getD "-", root := m.root, state := state.name }

/-- The outcome of reconciling: mounts inserted (counted once per ID) and live mounts sent
to deletion. -/
structure Reconciled where
  added : Nat
  removed : Nat
  deriving Repr, DecidableEq, Inhabited

namespace Resolver

/-- One row per record, in increasing order of mount ID, resolving each path for an event
of process `pid` at the instant `now`. -/
def rows (r : Resolver) (pid now : Nat) : Resolver × List Row :=
  r.mountList.foldl (fun (r, acc) m =>
    let (r, p) := r.resolvePath m.id pid "" now
    let row := Row.ofMount m (match p with | .ok s => some s | .error _ => none) (r.stateOf m.id)
    (r, acc ++ [row])) (r, [])

/-- Deletes, at the instant `now`, the live records whose IDs are not listed; gives how many. -/
def deleteUnlisted (r : Resolver) (listed : List Nat) (now : Nat) : Resolver × Nat :=
  r.mountList.foldl (fun (r, n) m =>
    if listed.contains m.id ∨ r.stateOf m.id ≠ .live then (r, n)
    else match r.deleteAt m.id now with
      | .ok r => (r, n + 1)
      | .error _ => (r, n)) (r, 0)

/-- Inserts the listed entries whose IDs are not live, collecting their IDs; an entry that
cannot be inserted stops the pass. -/
def insertUnlive (r : Resolver) : List Table.Entry → List Nat → Resolver × Except MountError (List Nat)
  | [], ids => (r, .ok ids)
  | e :: rest, ids =>
    if r.stateOf e.mountId ≠ .live then
      match r.insert e.toMount with
      | .ok r => r.insertUnlive rest (if ids.contains e.mountId then ids else ids ++ [e.mountId])
      | .error err => (r, .error err)
    else r.insertUnlive rest ids

/-- Reconciles the cache with the mount table of a process, at the instant `now`. -/
def reconcile (r : Resolver) (pid now : Nat) : Resolver × Except MountError Reconciled :=
  let (proc, res) := r.proc.readTable pid
  let r := { r with proc }
  match res with
  | .error e => (r, .error e)
  | .ok table =>
    let (r, removed) := r.deleteUnlisted (table.map (·.mountId)) now
    match r.insertUnlive table [] with
    | (r, .error e) => (r, .error e)
    | (r, .ok ids) =>
      match r.insertUnlive table ids with
      | (r, .error e) => (r, .error e)
      | (r, .ok ids) => (r, .ok ⟨ids.length, removed⟩)

end Resolver

end MountIndex

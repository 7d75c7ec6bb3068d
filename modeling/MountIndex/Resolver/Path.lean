import MountIndex.Resolver.Teardown
import MountIndex.Path

/-!
The absolute path of a mount. From the mount, the walk goes up through the parents until it
meets a record whose path is known or the root mount `/`; then the mount points of the
records walked are joined onto that base, from the outermost down, and each record
remembers the path found for it. The walk refuses an undefined or too low ID, an ID without
a record, a parent chain that comes back on itself, and a chain that ends at parent 0
without reaching the root; a joined path that comes out empty is refused too.
-/

namespace MountIndex

namespace Resolver

/-- Walks up from a mount ID: the base path and the records walked, outermost first. -/
def walk (r : Resolver) : Nat → Nat → List Nat → List Mount → Except MountError (String × List Mount)
  | 0, id, _, _ => .error (.pathLoop id)
  | fuel + 1, id, visited, chain => do
    r.validate id
    let m ← r.lookup id
    match m.path with
    | some p => pure (p, chain)
    | none =>
      if m.isRoot then pure ("/", chain)
      else if visited.contains id then .error (.pathLoop id)
      else if m.parent = 0 then .error .undefined
      else walk r fuel m.parent (id :: visited) (m :: chain)

/-- Records the path of a mount ID's current record, unless it already has one. -/
def remember (r : Resolver) (id : Nat) (p : String) : Resolver :=
  { r with mounts := r.mounts.modify id fun rec => { rec with mount := rec.mount.remember p } }

/-- Joins the mount points of the walked records onto the base, remembering each path. -/
def descend (r : Resolver) (base : String) : List Mount → Resolver × Except MountError String
  | [] => (r, .ok base)
  | m :: rest =>
    let joined := Path.join base m.mountPoint
    if joined.isEmpty then (r, .error (.pathEmpty m.id))
    else descend (r.remember m.id joined) joined rest

/-- The absolute path of a mount ID, remembered on the records it passes. -/
def mountPath (r : Resolver) (id : Nat) : Resolver × Except MountError String :=
  match r.walk (r.mounts.size + 2) id [] [] with
  | .ok (base, chain) => r.descend base chain
  | .error e => (r, .error e)

end Resolver

end MountIndex

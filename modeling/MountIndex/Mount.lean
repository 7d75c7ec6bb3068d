/-!
The mount record: what the kernel reports about one mount, and the absolute path of its
mount point once it is known. The path is either given with the record or computed later
from the chain of parents; once set it never changes.
-/

namespace MountIndex

/-- One mount of a process's mount table. `mountPoint` is relative to the parent mount,
except for the root mount, whose mount point is `/`, and for records that come with their
absolute `path`. -/
structure Mount where
  id : Nat
  parent : Nat := 0
  device : Nat := 0
  fsType : String := ""
  mountPoint : String := ""
  root : String := "/"
  path : Option String := none
  deriving Repr, DecidableEq, Inhabited

namespace Mount

/-- Name given to a filesystem whose type the kernel left empty. -/
def unknownFs : String := "unknown"

/-- The filesystem type, with `unknown` for an empty one. -/
def fsName (m : Mount) : String := if m.fsType.isEmpty then unknownFs else m.fsType

/-- Whether the mount is an overlay filesystem; the type must be exactly `overlay`. -/
def isOverlay (m : Mount) : Bool := m.fsType == "overlay"

/-- Whether the mount is mounted at `/`. -/
def isRoot (m : Mount) : Bool := m.mountPoint == "/"

/-- Records the absolute path unless one is already known: the first path stays. -/
def remember (m : Mount) (p : String) : Mount :=
  match m.path with
  | some _ => m
  | none => { m with path := some p }

/-- Mount points of event records are relative to the parent: without a known path, one
leading `/` is removed, except from the root mount point `/` itself. -/
def normalize (m : Mount) : Mount :=
  if m.path.isNone ∧ ¬ m.isRoot ∧ m.mountPoint.startsWith "/" then
    { m with mountPoint := String.ofList (m.mountPoint.toList.drop 1) }
  else m

@[simp] theorem id_normalize (m : Mount) : m.normalize.id = m.id := by
  unfold normalize; split <;> rfl

@[simp] theorem id_remember (m : Mount) (p : String) : (m.remember p).id = m.id := by
  unfold remember; split <;> rfl

end Mount

end MountIndex

import MountIndex.Lru
import MountIndex.Error

/-!
The redemption cache: the records most recently taken out of service, kept so that an event
that still names them can be answered. It is an LRU map keyed by mount ID that needs room for
at least one record.
-/

namespace MountIndex

/-- An empty redemption cache; a capacity of zero is refused. -/
def Lru.redemption {α : Type} (capacity : Nat) : Except MountError (Lru Nat α) :=
  if capacity = 0 then .error (.config .noCacheRoom) else .ok { capacity }

end MountIndex

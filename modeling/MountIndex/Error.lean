import MountIndex.Duration
import MountIndex.Table.Parse

/-!
Errors of the mount cache, each a cause with its own data, and the one function that words
them. Only the errors about a single mount ID (undefined, below the kernel floor, not found)
are recoverable: a later refresh of the cache may answer them.
-/

namespace MountIndex

/-- Why reading a file failed. -/
inductive IoFault where
  | notFound
  | isDirectory
  | notDirectory
  | invalidUtf8
  deriving Repr, DecidableEq, Inhabited

/-- The system's text for a failed read. -/
def IoFault.message : IoFault → String
  | .notFound => "No such file or directory (os error 2)"
  | .isDirectory => "Is a directory (os error 21)"
  | .notDirectory => "Not a directory (os error 20)"
  | .invalidUtf8 => "stream did not contain valid UTF-8"

/-- Why a configuration is refused. -/
inductive ConfigFault where
  /-- a setting that must be positive is zero -/
  | notPositive (setting : String)
  /-- a redemption cache without room -/
  | noCacheRoom
  /-- a fallback limiter with a zero parameter -/
  | limiter (capacity : Nat) (period : Duration) (burst : Nat)
  deriving Repr, DecidableEq, Inhabited

/-- The text of a refused configuration. -/
def ConfigFault.message : ConfigFault → String
  | .notPositive s => s ++ " must be greater than zero"
  | .noCacheRoom => "redemption cache capacity must be greater than zero"
  | .limiter c p b =>
    "invalid fallback limiter: capacity=" ++ toString c ++ " period=" ++ p.render ++
      " burst=" ++ toString b

/-- Errors of the mount cache. -/
inductive MountError where
  /-- mount ID 0, which the kernel never assigns -/
  | undefined
  /-- a mount ID below the lowest ID of the init mount table -/
  | belowFloor (id floor : Nat)
  /-- a mount ID that is not cached -/
  | notFound (id : Nat)
  /-- the chain of parents of a mount comes back to a mount already visited -/
  | pathLoop (id : Nat)
  /-- the path built for a mount is empty -/
  | pathEmpty (id : Nat)
  /-- a file could not be read -/
  | io (path : String) (fault : IoFault)
  /-- a line of a mount table does not fit its format -/
  | table (path : String) (line : Nat) (failure : Table.Failure)
  /-- the configuration is refused -/
  | config (fault : ConfigFault)
  /-- the configuration text could not be read; the reader's message -/
  | serialization (message : String)
  /-- the stats sink refused a sample of this metric -/
  | statsRejected (metric : String)
  deriving Repr, DecidableEq, Inhabited

namespace MountError

/-- The text of an error. -/
def message : MountError → String
  | .undefined => "undefined mount"
  | .belowFloor id floor => s!"mount {id} is below the kernel floor {floor}"
  | .notFound id => s!"mount {id} not found"
  | .pathLoop id => s!"mount path loop detected at mount {id}"
  | .pathEmpty id => s!"empty path computed for mount {id}"
  | .io path fault => "I/O error at " ++ path ++ ": " ++ fault.message
  | .table path line failure =>
    "malformed mountinfo at " ++ path ++ ":" ++ toString line ++ ": " ++ failure.render
  | .config fault => "invalid configuration: " ++ fault.message
  | .serialization m => "serialization error: " ++ m
  | .statsRejected metric => "stats error: sink rejected " ++ metric

/-- The causes below an error, outermost first: a failed read also names the system's
error, and a configuration text that could not be read names the reader's message. -/
def causes : MountError → List String
  | .io _ fault => [fault.message]
  | .serialization m => [m]
  | _ => []

/-- Whether a later refresh of the cache may answer the error. -/
def isRecoverable : MountError → Bool
  | .undefined | .belowFloor .. | .notFound _ => true
  | _ => false

end MountError

end MountIndex

import MountIndex.Store
import MountIndex.Redemption
import MountIndex.Limiter
import MountIndex.Proc
import MountIndex.Config.Basic

/-!
The state of a mount cache. Every record the cache holds carries a stamp, given when it is
inserted, so that two records under one mount ID are told apart: a handle names one record
by its ID and stamp. The redemption cache and the delete queue hold handles; a handle is
current while the store holds that very record under its ID.

A record's life: live in the store; pending deletion once a delete request for it waits in
the queue; redeemed once its request is due and it moved into the redemption cache; gone
when the cache evicts it, when its ID is reused, or when a record it depends on goes.
-/

namespace MountIndex

/-- A stored mount record and the stamp of its insertion. -/
structure Record where
  mount : Mount
  stamp : Nat
  deriving Repr, DecidableEq, Inhabited

/-- Names one stored record: its mount ID and the stamp of its insertion. -/
structure Handle where
  id : Nat
  stamp : Nat
  deriving Repr, DecidableEq, Inhabited

/-- The handle of a record. -/
def Record.handle (r : Record) : Handle := ⟨r.mount.id, r.stamp⟩

/-- A delete request: the record to retire and the instant (in nanoseconds) from which it is
due. -/
structure Request where
  handle : Handle
  due : Nat
  deriving Repr, DecidableEq, Inhabited

/-- Where a mount ID stands in the cache. -/
inductive MountState where
  | unknown
  | live
  | pendingDelete
  | redeemed
  deriving Repr, DecidableEq, Inhabited

/-- The name of a state. -/
def MountState.name : MountState → String
  | .unknown => "unknown"
  | .live => "live"
  | .pendingDelete => "pending-delete"
  | .redeemed => "redeemed"

/-- Counts of lookups answered from the cache and after reading mount tables. -/
structure Counters where
  cacheHits : Nat := 0
  cacheMiss : Nat := 0
  procHits : Nat := 0
  procMiss : Nat := 0
  deriving Repr, DecidableEq, Inhabited

/-- Where the processes of containers are known: nowhere, or a table from container ID to
process IDs (the empty container ID is never looked up). -/
inductive Workloads where
  | none
  | table (entries : List (String × List Nat))
  deriving Repr, Inhabited

namespace Workloads

/-- The processes of a container, if it is known. -/
def find? (w : Workloads) (container : String) : Option (List Nat) :=
  match w with
  | .none => Option.none
  | .table entries =>
    if container.isEmpty then Option.none else (entries.find? (·.1 == container)).map (·.2)

/-- Records the processes of a container, replacing what was known. -/
def set (w : Workloads) (container : String) (pids : List Nat) : Workloads :=
  match w with
  | .none => .none
  | .table entries => .table ((entries.filter (·.1 != container)) ++ [(container, pids)])

/-- Forgets a container; tells whether it was known. -/
def drop (w : Workloads) (container : String) : Workloads × Bool :=
  match w with
  | .none => (.none, false)
  | .table entries =>
    (.table (entries.filter (·.1 != container)), entries.any (·.1 == container))

end Workloads

/-- Where stats samples go: a sink that takes everything and keeps nothing, or one that
records them and refuses the sample at a given position (from one) of each flush. -/
inductive Sink where
  | discard
  | record (refuseAt : Option Nat)
  deriving Repr, Inhabited

/-- A mount cache. -/
structure Resolver where
  config : Config
  /-- the current records, by mount ID -/
  mounts : Store Record := {}
  /-- retired records that can still answer, least recently used first -/
  redemption : Lru Nat Handle
  /-- delete requests, oldest first -/
  queue : List Request := []
  /-- the lowest mount ID of the init mount table; 0 while unknown -/
  floor : Nat := 0
  limiter : Limiter
  counters : Counters := {}
  workloads : Workloads
  proc : Proc
  sink : Sink
  /-- the stamp for the next inserted record -/
  nextStamp : Nat := 0
  deriving Inhabited

namespace Resolver

/-- A mount cache with the given settings; they are checked first. -/
def create (config : Config) (workloads : Workloads) (proc : Proc) (sink : Sink) :
    Except MountError Resolver := do
  let config ← config.validate
  let redemption ← Lru.redemption config.redemptionCapacity
  let limiter ← Limiter.create config.limiterKeys config.limiterPeriod config.limiterBurst
  pure { config, redemption, limiter, workloads, proc, sink }

/-- Refuses mount ID 0 and IDs below the kernel floor. -/
def validate (r : Resolver) (id : Nat) : Except MountError Unit :=
  if id = 0 then .error .undefined
  else if id < r.floor then .error (.belowFloor id r.floor)
  else .ok ()

/-- Whether the store holds the record a handle names. -/
def isCurrent (r : Resolver) (h : Handle) : Bool :=
  match r.mounts.get? h.id with
  | some rec => rec.stamp == h.stamp
  | none => false

/-- The current record of a mount ID. -/
def lookup (r : Resolver) (id : Nat) : Except MountError Mount :=
  match r.mounts.get? id with
  | some rec => .ok rec.mount
  | none => .error (.notFound id)

/-- The number of current records. -/
def size (r : Resolver) : Nat := r.mounts.size

/-- The number of waiting delete requests. -/
def pending (r : Resolver) : Nat := r.queue.length

/-- The current records in increasing order of mount ID. -/
def mountList (r : Resolver) : List Mount := r.mounts.values.map (·.mount)

/-- Where a mount ID stands: its current record redeemed, waiting for deletion, or live. -/
def stateOf (r : Resolver) (id : Nat) : MountState :=
  match r.mounts.get? id with
  | none => .unknown
  | some rec =>
    if r.redemption.peek? id == some rec.handle then .redeemed
    else if r.queue.any (·.handle == rec.handle) then .pendingDelete
    else .live

/-- The processes whose mount tables may hold a mount that an event of process `pid` in
`container` names: the process itself, then the container's processes if it is known, or
the init process for a host process; without 0 and without repeats. -/
def candidates (r : Resolver) (pid : Nat) (container : String) : List Nat :=
  let more := match r.workloads.find? container with
    | some pids => pids
    | none => if container.isEmpty then [1] else []
  ((pid :: more).filter (· ≠ 0)).eraseDups

/-- The diagnostic text of the cache: its settings and its number of records. -/
def describe (r : Resolver) : String :=
  "Resolver \x7b config: " ++ r.config.describe ++ ", mounts: " ++ toString r.size ++ ", .. \x7d"

end Resolver

end MountIndex

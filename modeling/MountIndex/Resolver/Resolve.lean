import MountIndex.Resolver.Path

/-!
Answering a lookup. A lookup that the cache answers is a hit; if the record was in the
redemption cache it becomes its most recently used entry. A lookup that finds no record is
a miss: if fallback is enabled and the limiter allows this mount ID, the mount tables of the
candidate processes are read, the first that can be read is merged, and the lookup is tried
once more. Other failures (an invalid ID, a broken parent chain) are answered at once.

The limiter reads the wall clock: each lookup takes the instant `now` (nanoseconds) at which
it runs.
-/

namespace MountIndex

namespace Resolver

/-- Reads the mount table of the first candidate process whose table can be read and merges
it; with none readable, the last failure. No candidates merge nothing. -/
def syncPids (r : Resolver) (pids : List Nat) : Resolver × Except MountError Nat :=
  go r pids none
where
  go (r : Resolver) : List Nat → Option MountError → Resolver × Except MountError Nat
    | [], last => (r, match last with | some e => .error e | none => .ok 0)
    | pid :: rest, _ =>
      let (proc, res) := r.proc.readTable pid
      let r := { r with proc }
      match res with
      | .ok entries => let (r, n) := r.merge entries; (r, .ok n)
      | .error e => go r rest (some e)

/-- Loads the mount table of a process. Loading the init process's table also sets the
kernel floor, even when the table cannot be read. -/
def syncCache (r : Resolver) (pid : Nat) : Resolver × Except MountError Unit :=
  let (r, res) := r.syncPids [pid]
  let r := if pid = 1 then r.refreshFloor else r
  (r, res.map fun _ => ())

/-- Counts a fallback that found nothing at the instant `now`: a procfs miss, and a token of
the limiter. -/
def fallbackFailed (r : Resolver) (id now : Nat) : Resolver :=
  { r with
    counters := { r.counters with procMiss := r.counters.procMiss + 1 }
    limiter := r.limiter.charge id now }

/-- Answers a lookup of a mount ID for an event of process `pid` in `container`, at the
instant `now`. -/
def resolveWith {α : Type} (r : Resolver) (id pid : Nat) (container : String) (now : Nat)
    (find : Resolver → Resolver × Except MountError α) : Resolver × Except MountError α :=
  match r.validate id with
  | .error e => (r, .error e)
  | .ok () =>
    match find r with
    | (r, .ok v) =>
      let r := if r.redemption.contains id then { r with redemption := (r.redemption.touch id).1 } else r
      ({ r with counters := { r.counters with cacheHits := r.counters.cacheHits + 1 } }, .ok v)
    | (r, .error (.notFound _)) =>
      let r := { r with counters := { r.counters with cacheMiss := r.counters.cacheMiss + 1 } }
      if !r.config.useProcfs then (r, .error (.notFound id))
      else
        let (limiter, allowed) := r.limiter.allow id now
        let r := { r with limiter }
        if !allowed then (r, .error (.notFound id))
        else
          let pids := r.candidates pid container
          if pids.isEmpty then (r.fallbackFailed id now, .error (.notFound id))
          else
            match r.syncPids pids with
            | (r, .error e) => (r.fallbackFailed id now, .error e)
            | (r, .ok _) =>
              match find r with
              | (r, .ok v) =>
                ({ r with counters := { r.counters with procHits := r.counters.procHits + 1 } }, .ok v)
              | (r, .error e) =>
                ({ r with counters := { r.counters with procMiss := r.counters.procMiss + 1 } }, .error e)
    | (r, .error e) => (r, .error e)

/-- The record of a mount ID. -/
def resolveMount (r : Resolver) (id pid : Nat) (container : String) (now : Nat) :
    Resolver × Except MountError Mount :=
  r.resolveWith id pid container now fun r => (r, r.lookup id)

/-- The absolute path of a mount ID. -/
def resolvePath (r : Resolver) (id pid : Nat) (container : String) (now : Nat) :
    Resolver × Except MountError String :=
  r.resolveWith id pid container now fun r => r.mountPath id

/-- The root of a mount ID within its filesystem. -/
def resolveRoot (r : Resolver) (id pid : Nat) (container : String) (now : Nat) :
    Resolver × Except MountError String :=
  let (r, res) := r.resolveMount id pid container now
  (r, res.map (·.root))

/-- The filesystem type of a mount ID. -/
def resolveFs (r : Resolver) (id pid : Nat) (container : String) (now : Nat) :
    Resolver × Except MountError String :=
  let (r, res) := r.resolveMount id pid container now
  (r, res.map (·.fsName))

/-- The filesystem type of a mount ID, or `unknown` when it cannot be resolved. -/
def fsOrUnknown (r : Resolver) (id pid : Nat) (container : String) (now : Nat) :
    Resolver × String :=
  let (r, res) := r.resolveFs id pid container now
  (r, match res with | .ok s => s | .error _ => Mount.unknownFs)

end Resolver

end MountIndex

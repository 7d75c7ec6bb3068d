import MountIndex.Resolver.Teardown

/-!
# The maintenance sweep

A background task drains the delete queue of a resolver every `dequeueInterval`, from the
moment it first runs until a shutdown message arrives or the sender of the shutdown channel
goes away. Time is virtual: it moves only while the caller waits, and the task runs only
then, so the ticks fall exactly on `k × dequeueInterval` and the whole sweep is a pure
function of the instants the caller waits for.

A tick drains only the requests due by its instant, and a tick that finds the head of the
queue not yet due changes nothing; `Sweep.ticksUntil` therefore jumps from one tick that
drains something to the next, which keeps long waits cheap.
-/

namespace MountIndex

/-- A resolver with its maintenance task and the channel that stops it. -/
structure Sweep where
  resolver : Resolver
  /-- virtual nanoseconds since the start -/
  clock : Nat := 0
  /-- the instant of the next tick -/
  nextTick : Nat := 0
  /-- the task has not stopped yet -/
  running : Bool := true
  /-- a shutdown message waits for the task -/
  signalled : Bool := false
  /-- the sender of the shutdown channel still exists -/
  senderOpen : Bool := true
  /-- the caller still holds the task's handle -/
  joinable : Bool := true

/-- What sending a shutdown message answers. -/
inductive ShutdownReply where
  /-- sent; the number of receivers that will see it -/
  | receivers (n : Nat)
  /-- nobody listens any more: the task has stopped -/
  | closed
  /-- the sender was dropped before -/
  | noSender
  deriving Repr, DecidableEq

/-- What waiting for the task answers. -/
inductive JoinReply where
  | finished
  | timeout
  /-- the handle was already given up -/
  | noTask
  deriving Repr, DecidableEq

namespace Sweep

/-- Nanoseconds a join waits before giving up. -/
def joinLimit : Nat := 3600 * Duration.perSec

/-- Starts the task for a resolver at virtual instant 0. -/
def start (r : Resolver) : Sweep := { resolver := r }

/-- The tick period in nanoseconds. -/
def period (s : Sweep) : Nat := s.resolver.config.dequeueInterval.nanos

/-- Whether the task will stop the next time it runs. -/
def stopRequested (s : Sweep) : Bool := s.signalled || !s.senderOpen

/-- The first tick at or after the instant `t`. -/
def tickFrom (s : Sweep) (t : Nat) : Nat :=
  if t ≤ s.nextTick then s.nextTick
  else s.nextTick + (t - s.nextTick + s.period - 1) / s.period * s.period

/-- Runs the ticks due by the instant `t`, each draining the requests due at its own
instant. Every round drains at least the head of the queue, so the queue's length bounds
the rounds. -/
def ticksUntil (s : Sweep) (t : Nat) : Sweep :=
  go s (s.resolver.queue.length + 1)
where
  go (s : Sweep) : Nat → Sweep
    | 0 => s
    | fuel + 1 =>
      if !s.running || t < s.nextTick then s
      else
        let idle := { s with nextTick := s.tickFrom (t + 1) }
        match s.resolver.queue with
        | [] => idle
        | q :: _ =>
          let tick := s.tickFrom q.due
          if t < tick then idle
          else go { s with resolver := (s.resolver.dequeue tick).1, nextTick := tick + s.period } fuel

/-- Lets the task run: first at the current instant, where it may notice a stop request,
then up to the instant `t`. -/
def waitUntil (s : Sweep) (t : Nat) : Sweep :=
  let s := s.ticksUntil s.clock
  let s := if s.running && s.stopRequested then { s with running := false } else s
  { s.ticksUntil t with clock := max s.clock t }

/-- Sleeps for some milliseconds of virtual time. -/
def sleep (s : Sweep) (ms : Nat) : Sweep := s.waitUntil (s.clock + ms * 1000000)

/-- Yields once, letting the task run without moving the clock. -/
def yield (s : Sweep) : Sweep := s.waitUntil s.clock

/-- Whole milliseconds since the start. -/
def elapsedMillis (s : Sweep) : Nat := s.clock / 1000000

/-- Sends a shutdown message; the task sees it the next time it runs. -/
def shutdown (s : Sweep) : Sweep × ShutdownReply :=
  if !s.senderOpen then (s, .noSender)
  else if s.running then ({ s with signalled := true }, .receivers 1)
  else (s, .closed)

/-- Drops the sender, which also stops the task the next time it runs. -/
def dropSender (s : Sweep) : Sweep := { s with senderOpen := false }

/-- Waits for the task to stop, for at most `joinLimit`. The handle is given up either way. -/
def join (s : Sweep) : Sweep × JoinReply :=
  if !s.joinable then (s, .noTask)
  else
    let s := { s.yield with joinable := false }
    if !s.running then (s, .finished)
    else (s.waitUntil (s.clock + joinLimit), .timeout)

/-- Applies a change to the resolver. -/
def withResolver (s : Sweep) (f : Resolver → Resolver) : Sweep := { s with resolver := f s.resolver }

end Sweep

end MountIndex

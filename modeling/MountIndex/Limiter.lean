import MountIndex.Lru
import MountIndex.Error

/-!
The fallback limiter: a token bucket per mount ID that bounds how often a cache miss may
fall back to reading a mount table. Each bucket holds at most `burst` tokens and gains one
per whole `period` since it was last refilled; a full bucket counts as refilled now. The
limiter tracks at most `capacity` IDs and forgets the least recently used one to make room.
Time is in nanoseconds on one clock; a clock that goes backwards gains nothing.
-/

namespace MountIndex

/-- The tokens of one ID and when they were last refilled. -/
structure Bucket where
  tokens : Nat
  refilledAt : Nat
  deriving Repr, DecidableEq, Inhabited

/-- How many attempts were allowed and dropped since the counters were last taken. -/
structure LimiterStats where
  allowed : Nat := 0
  dropped : Nat := 0
  deriving Repr, DecidableEq, Inhabited

/-- A token bucket per mount ID, at most `capacity` IDs. -/
structure Limiter where
  buckets : Lru Nat Bucket
  period : Nat
  burst : Nat
  stats : LimiterStats := {}
  deriving Inhabited

namespace Bucket

/-- The largest count a 32-bit token counter holds. -/
def maxTokens : Nat := 4294967295

/-- Adds one token per whole period since the last refill, up to `burst`. The tokens are a
32-bit count: the number of periods gained saturates at `maxTokens`, and so does the sum. -/
def refill (b : Bucket) (now period burst : Nat) : Bucket :=
  if b.tokens ≥ burst then { b with refilledAt := now }
  else
    let periods := (now - b.refilledAt) / period
    if periods = 0 then b
    else
      let gained := min periods maxTokens
      { tokens := min (min (b.tokens + gained) maxTokens) burst, refilledAt := now }

end Bucket

namespace Limiter

/-- A limiter; a zero capacity, period or burst is refused. -/
def create (capacity : Nat) (period : Duration) (burst : Nat) : Except MountError Limiter :=
  if capacity = 0 ∨ period.nanos = 0 ∨ burst = 0 then
    .error (.config (.limiter capacity period burst))
  else .ok { buckets := { capacity }, period := period.nanos, burst }

/-- The number of tracked IDs. -/
def size (l : Limiter) : Nat := l.buckets.size

/-- The bucket of an ID, refilled at `now`, made the most recently used; an ID without a
bucket gets a full one, evicting the least recently used ID if the limiter is full. -/
def bucketAt (l : Limiter) (key now : Nat) : Limiter × Bucket :=
  let (buckets, found) := l.buckets.touch key
  let b := (found.getD ⟨l.burst, now⟩).refill now l.period l.burst
  let buckets := if found.isSome then buckets.modify key (fun _ => b) else (buckets.insert key b).1
  ({ l with buckets }, b)

/-- Whether an attempt for an ID may go ahead at `now`; an allowed attempt takes a token. -/
def allow (l : Limiter) (key now : Nat) : Limiter × Bool :=
  let (l, b) := l.bucketAt key now
  if b.tokens > 0 then
    ({ l with buckets := l.buckets.modify key (fun b => { b with tokens := b.tokens - 1 }),
              stats := { l.stats with allowed := l.stats.allowed + 1 } }, true)
  else ({ l with stats := { l.stats with dropped := l.stats.dropped + 1 } }, false)

/-- Counts a failed attempt for an ID at `now`: it takes a token if there is one and counts
as dropped. -/
def charge (l : Limiter) (key now : Nat) : Limiter :=
  let (l, _) := l.bucketAt key now
  { l with buckets := l.buckets.modify key (fun b => { b with tokens := b.tokens - 1 }),
           stats := { l.stats with dropped := l.stats.dropped + 1 } }

/-- Takes the counters, leaving them at zero. -/
def takeStats (l : Limiter) : Limiter × LimiterStats := ({ l with stats := {} }, l.stats)

end Limiter

end MountIndex

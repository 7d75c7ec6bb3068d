import MountIndex.Resolver.Basic

/-!
Flushing counters to a stats sink. A flush takes the lookup counters and the limiter's
counters (leaving them at zero, whatever the sink does) and sends seven samples in a fixed
order: hits and misses answered from the cache, hits and misses after reading mount tables,
fallbacks allowed and dropped, and the number of records as a gauge. The first sample the
sink refuses ends the flush.
-/

namespace MountIndex

/-- A sample is a count or a gauge. -/
inductive SampleKind where
  | count
  | gauge
  deriving Repr, DecidableEq, Inhabited

/-- One stats sample. -/
structure Sample where
  kind : SampleKind
  metric : String
  value : Nat
  tags : List String
  deriving Repr, DecidableEq, Inhabited

namespace Resolver

def hitsMetric : String := "mountscope.mount_resolver.hits"
def missMetric : String := "mountscope.mount_resolver.miss"
def sizeMetric : String := "mountscope.mount_resolver.cache_size"
def allowedMetric : String := "mountscope.mount_resolver.fallback.allowed"
def droppedMetric : String := "mountscope.mount_resolver.fallback.dropped"
def cacheTag : String := "resolution:cache"
def procTag : String := "resolution:procfs"

/-- Flushes the counters: the cache afterwards, the samples the sink recorded, and the
refusal that ended the flush, if any. -/
def sendStats (r : Resolver) : Resolver × List Sample × Option MountError :=
  let c := r.counters
  let (limiter, ls) := r.limiter.takeStats
  let r := { r with counters := {}, limiter }
  let samples : List Sample :=
    [⟨.count, hitsMetric, c.cacheHits, [cacheTag]⟩, ⟨.count, missMetric, c.cacheMiss, [cacheTag]⟩,
     ⟨.count, hitsMetric, c.procHits, [procTag]⟩, ⟨.count, missMetric, c.procMiss, [procTag]⟩,
     ⟨.count, allowedMetric, ls.allowed, []⟩, ⟨.count, droppedMetric, ls.dropped, []⟩,
     ⟨.gauge, sizeMetric, r.size, []⟩]
  match r.sink with
  | .discard => (r, [], none)
  | .record none => (r, samples, none)
  | .record (some n) =>
    match samples[n - 1]? with
    | some s => if n = 0 then (r, samples, none) else (r, samples.take (n - 1), some (.statsRejected s.metric))
    | none => (r, samples, none)

end Resolver

end MountIndex

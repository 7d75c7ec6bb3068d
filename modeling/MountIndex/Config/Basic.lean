import MountIndex.Error
import MountIndex.Text.Quoted

/-!
The settings of a mount cache, their defaults, and the checks a configuration must pass:
the redemption cache, the fallback limiter and the maintenance sweep all need positive
sizes and periods. The first failing check is reported, in the order of `validate`.
-/

namespace MountIndex

/-- The settings of a mount cache. -/
structure Config where
  /-- whether a cache miss may fall back to reading mount tables -/
  useProcfs : Bool := true
  /-- where the proc filesystem is mounted -/
  procRoot : String := "/proc"
  /-- how long a deleted record stays in service -/
  deleteDelay : Duration := Duration.ofSecs 5
  /-- how often due deletions are processed -/
  dequeueInterval : Duration := Duration.ofSecs 2
  /-- how many deleted records the redemption cache keeps -/
  redemptionCapacity : Nat := 1024
  /-- how many mount IDs the fallback limiter tracks -/
  limiterKeys : Nat := 64
  /-- the period in which one fallback token is gained -/
  limiterPeriod : Duration := Duration.ofSecs 5
  /-- the most fallback tokens a mount ID can hold -/
  limiterBurst : Nat := 1
  deriving Repr, DecidableEq, Inhabited

namespace Config

/-- The names of the settings, in their order. -/
def fieldNames : List String :=
  ["use_procfs", "proc_root", "delete_delay", "dequeue_interval", "redemption_capacity",
    "fallback_limiter_keys", "fallback_limiter_period", "fallback_limiter_burst"]

/-- Checks the settings: the redemption capacity, the limiter's keys, period and burst, and
the sweep interval must be positive, checked in this order. -/
def validate (c : Config) : Except MountError Config :=
  if c.redemptionCapacity = 0 then .error (.config (.notPositive "redemption_capacity"))
  else if c.limiterKeys = 0 then .error (.config (.notPositive "fallback_limiter_keys"))
  else if c.limiterPeriod.nanos = 0 then .error (.config (.notPositive "fallback_limiter_period"))
  else if c.limiterBurst = 0 then .error (.config (.notPositive "fallback_limiter_burst"))
  else if c.dequeueInterval.nanos = 0 then .error (.config (.notPositive "dequeue_interval"))
  else .ok c

/-- The diagnostic text of the settings: each setting by name, with the root quoted as a
path and spans of time in their short form. -/
def describe (c : Config) : String :=
  "ResolverConfig \x7b use_procfs: " ++ toString c.useProcfs ++
    ", proc_root: " ++ Text.quote c.procRoot true ++
    ", delete_delay: " ++ c.deleteDelay.render ++
    ", dequeue_interval: " ++ c.dequeueInterval.render ++
    ", redemption_capacity: " ++ toString c.redemptionCapacity ++
    ", fallback_limiter_keys: " ++ toString c.limiterKeys ++
    ", fallback_limiter_period: " ++ c.limiterPeriod.render ++
    ", fallback_limiter_burst: " ++ toString c.limiterBurst ++ " \x7d"

end Config

end MountIndex

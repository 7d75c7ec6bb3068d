import MountIndex.Config.Basic
import MountIndex.Json.Mismatch

/-!
Reading a configuration from a JSON value that is already parsed. The rules are those of
the text reader, with two differences that come from the value: the members of an object
are taken in increasing order of their keys, and failures carry no position. An array with
more items than the record has fields is refused.
-/

namespace MountIndex.Json

/-- Members of an object in increasing order of key. -/
def sortedMembers (fields : List (String × Value)) : List (String × Value) :=
  fields.mergeSort fun a b => decide (a.1 ≤ b.1)

/-- A boolean. -/
def Value.toBool (v : Value) : Except String Bool :=
  match v with
  | .bool b => .ok b
  | _ => .error (invalidType v.found "a boolean")

/-- A whole number below `limit`. -/
def Value.toUnsigned (expected : String) (limit : Nat) (v : Value) : Except String Nat :=
  match v with
  | .number (.unsigned n) =>
    if n < limit then .ok n else .error (invalidValue (.unsigned n) expected)
  | .number (.negative n) => .error (invalidValue (.signed n) expected)
  | _ => .error (invalidType v.found expected)

/-- A path, given as a string. -/
def Value.toPath (v : Value) : Except String String :=
  match v with
  | .string s => .ok s
  | _ => .error (invalidType v.found "path string")

/-- A span of time from its seconds and nanoseconds, the nanoseconds carried. -/
def spanOf (secs nanos : Nat) : Except String Duration :=
  if secs + nanos / 1000000000 ≥ wordLimit then .error "overflow deserializing Duration"
  else .ok ⟨secs * 1000000000 + nanos⟩

/-- A span of time: an object with `secs` and `nanos`, or `[secs, nanos]`. -/
def Value.toDuration (v : Value) : Except String Duration :=
  match v with
  | .object fields => do
    let step := fun (acc : Option Nat × Option Nat) (kv : String × Value) =>
      match kv.1 with
      | "secs" => do pure (some (← kv.2.toUnsigned "u64" wordLimit), acc.2)
      | "nanos" => do pure (acc.1, some (← kv.2.toUnsigned "u32" 4294967296))
      | k => .error (unknownField k ["secs", "nanos"])
    let (secs, nanos) ← (sortedMembers fields).foldlM step (none, none)
    match secs, nanos with
    | none, _ => .error (missingField "secs")
    | _, none => .error (missingField "nanos")
    | some s, some n => spanOf s n
  | .array items =>
    match items with
    | [] => .error (invalidLength 0 "struct Duration")
    | [s] => do
      let _ ← s.toUnsigned "u64" wordLimit
      .error (invalidLength 1 "struct Duration")
    | s :: n :: rest => do
      let s ← s.toUnsigned "u64" wordLimit
      let n ← n.toUnsigned "u32" 4294967296
      let d ← spanOf s n
      if rest.isEmpty then .ok d
      else .error (invalidLength items.length "fewer elements in array")
  | _ => .error (invalidType v.found "struct Duration")

/-- Sets one setting from a value; unknown names leave the configuration as it is. -/
def setSetting (c : Config) (name : String) (v : Value) : Except String Config :=
  match name with
  | "use_procfs" => do pure { c with useProcfs := ← v.toBool }
  | "proc_root" => do pure { c with procRoot := ← v.toPath }
  | "delete_delay" => do pure { c with deleteDelay := ← v.toDuration }
  | "dequeue_interval" => do pure { c with dequeueInterval := ← v.toDuration }
  | "redemption_capacity" => do pure { c with redemptionCapacity := ← v.toUnsigned "usize" wordLimit }
  | "fallback_limiter_keys" => do pure { c with limiterKeys := ← v.toUnsigned "usize" wordLimit }
  | "fallback_limiter_period" => do pure { c with limiterPeriod := ← v.toDuration }
  | "fallback_limiter_burst" => do pure { c with limiterBurst := ← v.toUnsigned "u32" 4294967296 }
  | _ => .ok c

end MountIndex.Json

namespace MountIndex

/-- Reads a configuration from a JSON value: an object of settings, taken in increasing
order of key, or an array of settings in their order. -/
def Config.ofValue (v : Json.Value) : Except String Config :=
  match v with
  | .object fields =>
    (Json.sortedMembers fields).foldlM (fun c kv => Json.setSetting c kv.1 kv.2) {}
  | .array items => do
    let c ← (Config.fieldNames.zip items).foldlM (fun c kv => Json.setSetting c kv.1 kv.2) {}
    if items.length > Config.fieldNames.length then
      .error (Json.invalidLength items.length "fewer elements in array")
    else .ok c
  | _ => .error (Json.invalidType v.found "struct ResolverConfig")

end MountIndex

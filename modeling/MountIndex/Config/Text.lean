import MountIndex.Config.Basic
import MountIndex.Json.Scan
import MountIndex.Json.Mismatch

/-!
Reading a configuration from JSON text. The text is either an object whose members name
settings (unknown members are skipped, a setting given twice is refused) or an array that
gives the settings in their order; settings left out keep their defaults. A span of time is
an object with `secs` and `nanos`, or the array `[secs, nanos]`; nanoseconds beyond a second
carry into the seconds.

A failure names its line and column. A failure about a value (wrong kind, out of range,
unknown field) refers to the offset reached when it is reported: just after the value, or,
for one found while reading an object or array, after the text that closes it has been
looked at.
-/

namespace MountIndex.Json

/-- Reading state: the text, and the offset of the next byte, kept across failures. -/
abbrev Reader := ReaderT ByteArray (ExceptT ReadError (StateM Nat))

namespace Reader

/-- Runs a scanner at the current offset. -/
def scan {α : Type} (f : ByteArray → Nat → Scan α) : Reader α := do
  match f (← read) (← get) with
  | .ok (v, j) => set j; pure v
  | .error e => throw e

/-- Skips white space and gives the next byte. -/
def peek : Reader (Option UInt8) := do
  let bs ← read
  let i := skipWs bs (← get)
  set i
  pure (byteAt? bs i)

/-- Moves past one byte. -/
def advance : Reader Unit := modify (· + 1)

/-- A failure whose offset is not yet known. -/
def fail {α : Type} (msg : String) : Reader α := throw { message := msg }

/-- A failure found while looking at the next byte. -/
def failPeek {α : Type} (msg : String) : Reader α := do
  throw { message := msg, offset := some (min (← read).size ((← get) + 1)) }

/-- Gives a failure without an offset the current one. -/
def fixing {α : Type} (r : Reader α) : Reader α :=
  tryCatch r fun e => do
    if e.offset.isSome then throw e else throw { e with offset := some (← get) }

/-- Runs a step and keeps its outcome, failure included. -/
def attempt {α : Type} (r : Reader α) : Reader (Except ReadError α) :=
  tryCatch (Except.ok <$> r) fun e => pure (.error e)

/-- Reports the kind of the value at the current offset as not the expected one. -/
def wrongKind {α : Type} (expected : String) : Reader α := fixing do
  let found ← do
    match ← peek with
    | some 110 => advance; scan (fun bs i => ident bs [117, 108, 108] i); pure Found.null
    | some 116 => advance; scan (fun bs i => ident bs [114, 117, 101] i); pure (Found.bool true)
    | some 102 => advance; scan (fun bs i => ident bs [97, 108, 115, 101] i); pure (Found.bool false)
    | some 45 => advance; pure (← scan (fun bs i => number bs false i)).found
    | some 34 => advance; pure (Found.string (← scan string))
    | some 91 => pure Found.sequence
    | some 123 => pure Found.map
    | some c =>
      if 48 ≤ c ∧ c ≤ 57 then pure (← scan (fun bs i => number bs true i)).found
      else failPeek expectedValue
    | none => failPeek expectedValue
  fail (invalidType found expected)

/-- A boolean. -/
def bool : Reader Bool := fixing do
  match ← peek with
  | none => failPeek eofValue
  | some 116 => advance; scan (fun bs i => ident bs [114, 117, 101] i); pure true
  | some 102 => advance; scan (fun bs i => ident bs [97, 108, 115, 101] i); pure false
  | some _ => wrongKind "a boolean"

/-- A whole number below `limit`, described as `expected` in failures. -/
def unsigned (expected : String) (limit : Nat) : Reader Nat := fixing do
  let n ← match ← peek with
    | none => failPeek eofValue
    | some 45 => advance; scan (fun bs i => number bs false i)
    | some c =>
      if 48 ≤ c ∧ c ≤ 57 then scan (fun bs i => number bs true i)
      else wrongKind expected
  match n with
  | .unsigned v => if v < limit then pure v else fail (invalidValue (.unsigned v) expected)
  | .negative v => fail (invalidValue (.signed v) expected)
  | .float f => fail (invalidType (.float f) expected)

/-- A path, written as a string. -/
def path : Reader String := fixing do
  match ← peek with
  | none => failPeek eofValue
  | some 34 => advance; scan string
  | some _ => wrongKind "path string"

/-- Skips a value. -/
def skip : Reader Unit := do
  scan fun bs i => skipValue bs (2 * bs.size + 4) i

/-- The close of an array read as a record. -/
def closeArray : Reader Unit := do
  match ← peek with
  | some 93 => advance
  | some 44 =>
    advance
    match ← peek with
    | some 93 => failPeek trailingComma
    | _ => failPeek trailingCharacters
  | some _ => failPeek trailingCharacters
  | none => failPeek eofList

/-- The close of an object read as a record. -/
def closeObject : Reader Unit := do
  match ← peek with
  | some 125 => advance
  | some 44 => failPeek trailingComma
  | some _ => failPeek trailingCharacters
  | none => failPeek eofObject

/-- A record, written as an object or as an array. The close is looked at even after a
failure inside, and the first failure is reported. -/
def record {α : Type} (expected : String) (ofObject ofArray : Reader α) : Reader α := fixing do
  match ← peek with
  | none => failPeek eofValue
  | some 91 =>
    advance
    let r ← attempt ofArray
    let e ← attempt closeArray
    match r, e with
    | .ok v, .ok () => pure v
    | .error err, _ => throw err
    | _, .error err => throw err
  | some 123 =>
    advance
    let r ← attempt ofObject
    let e ← attempt closeObject
    match r, e with
    | .ok v, .ok () => pure v
    | .error err, _ => throw err
    | _, .error err => throw err
  | some _ => wrongKind expected

/-- The next key of an object, if any. -/
def nextKey (first : Bool) : Reader (Option String) := do
  match ← peek with
  | none => failPeek eofObject
  | some 125 => pure none
  | some c =>
    if first then
      if c = 34 then advance; some <$> scan string else failPeek keyMustBeString
    else if c = 44 then
      advance
      match ← peek with
      | some 34 => advance; some <$> scan string
      | some 125 => failPeek trailingComma
      | some _ => failPeek keyMustBeString
      | none => failPeek eofValue
    else failPeek expectedObjectEnd

/-- The colon before a member's value. -/
def colon : Reader Unit := do
  match ← peek with
  | some 58 => advance
  | some _ => failPeek expectedColon
  | none => failPeek eofObject

/-- Whether an array has a next item. -/
def hasItem (first : Bool) : Reader Bool := do
  match ← peek with
  | none => failPeek eofList
  | some 93 => pure false
  | some c =>
    if first then pure true
    else if c = 44 then
      advance
      match ← peek with
      | some 93 => failPeek trailingComma
      | some _ => pure true
      | none => failPeek eofValue
    else failPeek expectedListEnd

/-- Nanoseconds in a second. -/
def perSec : Nat := 1000000000

/-- A span of time from its seconds and nanoseconds; the nanoseconds carry into the
seconds, which must stay below 2^64. -/
def span (secs nanos : Nat) : Reader Duration :=
  if secs + nanos / perSec ≥ wordLimit then fail "overflow deserializing Duration"
  else pure ⟨secs * perSec + nanos⟩

/-- The members of a span of time. -/
def spanMembers : Nat → Bool → Option Nat → Option Nat → Reader Duration
  | 0, _, _, _ => fail "recursion limit exceeded"
  | fuel + 1, first, secs, nanos => do
    match ← nextKey first with
    | none =>
      match secs, nanos with
      | none, _ => fail (missingField "secs")
      | _, none => fail (missingField "nanos")
      | some s, some n => span s n
    | some k =>
      if k = "secs" then
        if secs.isSome then fail (duplicateField "secs")
        else do colon; let v ← unsigned "u64" wordLimit; spanMembers fuel false (some v) nanos
      else if k = "nanos" then
        if nanos.isSome then fail (duplicateField "nanos")
        else do colon; let v ← unsigned "u32" 4294967296; spanMembers fuel false secs (some v)
      else fail (unknownField k ["secs", "nanos"])

/-- A span of time. -/
def duration : Reader Duration := do
  let size := (← read).size
  record "struct Duration" (spanMembers (size + 2) true none none) do
    let secs ← if ← hasItem true then unsigned "u64" wordLimit
      else fail (invalidLength 0 "struct Duration")
    let nanos ← if ← hasItem false then unsigned "u32" 4294967296
      else fail (invalidLength 1 "struct Duration")
    span secs nanos

/-- Reads the value of a setting into the configuration. -/
def setting (c : Config) (name : String) : Reader Config := do
  match name with
  | "use_procfs" => pure { c with useProcfs := ← bool }
  | "proc_root" => pure { c with procRoot := ← path }
  | "delete_delay" => pure { c with deleteDelay := ← duration }
  | "dequeue_interval" => pure { c with dequeueInterval := ← duration }
  | "redemption_capacity" => pure { c with redemptionCapacity := ← unsigned "usize" wordLimit }
  | "fallback_limiter_keys" => pure { c with limiterKeys := ← unsigned "usize" wordLimit }
  | "fallback_limiter_period" => pure { c with limiterPeriod := ← duration }
  | "fallback_limiter_burst" => pure { c with limiterBurst := ← unsigned "u32" 4294967296 }
  | _ => do skip; pure c

/-- The members of a configuration object. -/
def configMembers : Nat → Bool → List String → Config → Reader Config
  | 0, _, _, _ => fail "recursion limit exceeded"
  | fuel + 1, first, seen, c => do
    match ← nextKey first with
    | none => pure c
    | some k =>
      if Config.fieldNames.contains k then
        if seen.contains k then fail (duplicateField k)
        else do colon; let c ← setting c k; configMembers fuel false (k :: seen) c
      else do colon; skip; configMembers fuel false seen c

/-- The items of a configuration array, one per setting in order. -/
def configItems : Bool → List String → Config → Reader Config
  | _, [], c => pure c
  | first, name :: rest, c => do
    if ← hasItem first then
      let c ← setting c name
      configItems false rest c
    else configItems false rest c

/-- A whole configuration text: one configuration and nothing after it but white space. -/
def configText : Reader Config := do
  let size := (← read).size
  let c ← record "struct ResolverConfig" (configMembers (size + 2) true [] {})
    (configItems true Config.fieldNames {})
  match ← peek with
  | some _ => failPeek trailingCharacters
  | none => pure c

end Reader

end MountIndex.Json

namespace MountIndex

/-- Reads a configuration from JSON text, or gives the failure's text. -/
def Config.ofText (text : String) : Except String Config :=
  let bs := text.toUTF8
  match ((Json.Reader.configText.run bs).run).run 0 with
  | (.ok c, _) => .ok c
  | (.error e, _) => .error (e.render bs)

end MountIndex

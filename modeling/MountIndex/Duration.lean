/-!
Spans of time, counted in nanoseconds, with the short text that configurations and
diagnostics show: the largest unit among seconds, milliseconds, microseconds and
nanoseconds in which the span is at least one, then the decimal fraction of that unit
without trailing zeros (`5s`, `1.000000005s`, `20ms`, `1.5µs`, `0ns`).
-/

namespace MountIndex

/-- A span of time in nanoseconds. -/
structure Duration where
  nanos : Nat
  deriving Repr, DecidableEq, Inhabited

namespace Duration

/-- Nanoseconds in a second. -/
def perSec : Nat := 1000000000

/-- A span of whole milliseconds. -/
def ofMillis (ms : Nat) : Duration := ⟨ms * 1000000⟩

/-- A span of whole seconds. -/
def ofSecs (s : Nat) : Duration := ⟨s * perSec⟩

/-- Whole seconds of the span. -/
def secs (d : Duration) : Nat := d.nanos / perSec

/-- Nanoseconds of the span beyond its whole seconds. -/
def subsecNanos (d : Duration) : Nat := d.nanos % perSec

/-- Whole milliseconds of the span. -/
def toMillis (d : Duration) : Nat := d.nanos / 1000000

/-- Fraction digits of `frac / (10 * unit)`, written until the rest is zero. -/
def fractionDigits (frac unit : Nat) : Nat → List Char
  | 0 => []
  | fuel + 1 =>
    if frac = 0 ∨ unit = 0 then []
    else Char.ofNat (48 + frac / unit) :: fractionDigits (frac % unit) (unit / 10) fuel

/-- An amount of one unit with its fraction, as in `1.5ms`. -/
def decimal (whole frac unit : Nat) (suffix : String) : String :=
  let digits := fractionDigits frac (unit / 10) 9
  toString whole ++ (if digits.isEmpty then "" else "." ++ String.ofList digits) ++ suffix

/-- The short text of a span of time. -/
def render (d : Duration) : String :=
  if d.secs > 0 then decimal d.secs d.subsecNanos perSec "s"
  else if d.nanos ≥ 1000000 then decimal (d.nanos / 1000000) (d.nanos % 1000000) 1000000 "ms"
  else if d.nanos ≥ 1000 then decimal (d.nanos / 1000) (d.nanos % 1000) 1000 "µs"
  else decimal d.nanos 0 1 "ns"

end Duration

end MountIndex

import MountIndex.Cli.Spec

/-!
# Values of arguments

The checks a value goes through before the command line is accepted. Numbers are read
the way the standard integer reader reads them: an optional sign (`+` always, `-` only for
signed numbers), then decimal digits read left to right, the first bad digit or the first
digit that overflows deciding the error. A 32-bit argument is read as a signed 64-bit
number and then checked against its range, so `-1` given as an attached value is out of
range rather than a bad digit.
-/

namespace MountIndex.Cli

/-- Why a text is not a number. -/
inductive NumberFault where
  | empty
  | invalidDigit
  | tooLarge
  | tooSmall
  deriving Repr, DecidableEq

/-- The reader's words for a fault. -/
def NumberFault.message : NumberFault → String
  | .empty => "cannot parse integer from empty string"
  | .invalidDigit => "invalid digit found in string"
  | .tooLarge => "number too large to fit in target type"
  | .tooSmall => "number too small to fit in target type"

/-- Reads decimal digits onto `acc`, failing on a non-digit or when the magnitude passes
`limit`. -/
def readDigits (limit : Nat) (overflow : NumberFault) : List Char → Nat → Except NumberFault Nat
  | [], acc => .ok acc
  | c :: cs, acc =>
    if c.isDigit then
      let acc := acc * 10 + (c.toNat - '0'.toNat)
      if acc > limit then .error overflow else readDigits limit overflow cs acc
    else .error .invalidDigit

/-- Reads an unsigned 64-bit number. -/
def readU64 (s : String) : Except NumberFault Nat :=
  match s.toList with
  | [] => .error .empty
  | ['+'] => .error .invalidDigit
  | '+' :: ds => readDigits (Nat.pow 2 64 - 1) .tooLarge ds 0
  | ds => readDigits (Nat.pow 2 64 - 1) .tooLarge ds 0

/-- Reads a signed 64-bit number. -/
def readI64 (s : String) : Except NumberFault Int :=
  match s.toList with
  | [] => .error .empty
  | ['+'] | ['-'] => .error .invalidDigit
  | '+' :: ds => Int.ofNat <$> readDigits (Nat.pow 2 63 - 1) .tooLarge ds 0
  | '-' :: ds => (fun n => -Int.ofNat n) <$> readDigits (Nat.pow 2 63) .tooSmall ds 0
  | ds => Int.ofNat <$> readDigits (Nat.pow 2 63 - 1) .tooLarge ds 0

/-- What is wrong with a value. -/
inductive ValueProblem where
  /-- the value cannot be used: the value as shown, and why -/
  | invalid (shown reason : String)
  /-- the value is empty, or not one of the choices -/
  | refused (value : String)
  deriving Repr, DecidableEq

/-- Checks one value of an argument. -/
def checkValue (a : Arg) (v : String) : Option ValueProblem :=
  match a.kind with
  | .u32 =>
    match readI64 v with
    | .error f => some (.invalid v f.message)
    | .ok n =>
      if 0 ≤ n ∧ n ≤ 4294967295 then none
      else some (.invalid (toString n) s!"{n} is not in 0..=4294967295")
  | .u64 =>
    match readU64 v with
    | .error f => some (.invalid v f.message)
    | .ok _ => none
  | .path => if v.isEmpty then some (.refused "") else none
  | .text => none
  | .choice vs => if vs.any (·.1 == v) then none else some (.refused v)

/-- The values one occurrence of an argument stands for: split at the delimiter, if the
argument has one. -/
def splitValues (a : Arg) (v : String) : List String :=
  match a.delimiter with
  | some d => v.splitOn d.toString
  | none => [v]

/-- The number a checked value stands for; 0 if it is not one. -/
def numberOf (v : String) : Nat :=
  match readU64 v, readI64 v with
  | .ok n, _ => n
  | _, .ok n => n.toNat
  | _, _ => 0

end MountIndex.Cli

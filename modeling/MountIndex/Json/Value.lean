import MountIndex.Json.Float

/-!
JSON values as the configuration reader sees them, and the indented text in which the
command line prints its tables.

A number is one of three kinds: a whole number from 0 to 2^64 - 1, a negative whole number
down to -2^63, or a double. Decimal text is classified as the reader does: a literal without
fraction or exponent is whole if it fits, and every other number is a double computed from
the first digits that fit in 64 bits (see `fromParts`).
-/

namespace MountIndex.Json

/-- A JSON number as the configuration reader classifies it. -/
inductive Number where
  | unsigned (n : Nat)
  | negative (n : Int)
  | float (f : Float)
  deriving Inhabited

/-- A JSON value. -/
inductive Value where
  | null
  | bool (b : Bool)
  | number (n : Number)
  | string (s : String)
  | array (items : List Value)
  | object (fields : List (String × Value))
  deriving Inhabited

/-- 2^64: whole numbers below it are kept as whole numbers. -/
def wordLimit : Nat := 18446744073709551616

/-- The longest prefix of the digits (most significant first) whose value is below 2^64,
as its value and its length. -/
def fittingPrefix (digits : List Nat) : Nat × Nat :=
  go digits 0 0
where
  go : List Nat → Nat → Nat → Nat × Nat
    | [], v, k => (v, k)
    | d :: rest, v, k => if v * 10 + d < wordLimit then go rest (v * 10 + d) (k + 1) else (v, k)

/-- Classifies the number `mantissa / 10^scale` written with `scale` digits after the point
(none for a whole literal); `none` when a double would overflow. -/
def Number.ofScientific (mantissa : Int) (scale : Nat) : Option Number :=
  let a := mantissa.natAbs
  let negative := mantissa < 0
  if scale = 0 ∧ ¬ negative ∧ a < wordLimit then some (.unsigned a)
  else if scale = 0 ∧ negative ∧ a ≤ Nat.pow 2 63 ∧ a ≠ 0 then some (.negative mantissa)
  else if scale = 0 ∧ negative ∧ a < wordLimit then some (.float (-(floatOfNat a)))
  else
    let digits := (Nat.toDigits 10 a).map fun c => c.toNat - 48
    let (sig, kept) := fittingPrefix digits
    let wholeDigits : Int := (digits.length : Int) - scale
    (fromParts negative sig (wholeDigits - kept)).map .float

/-- JSON string text: quotes, with `"` and `\` escaped, the short escapes for backspace, form
feed, newline, carriage return and tab, and `\u00xx` for the other control characters. -/
def escapeString (s : String) : String :=
  "\"" ++ String.join (s.toList.map escapeChar) ++ "\""
where
  escapeChar (c : Char) : String :=
    if c = '"' then "\\\""
    else if c = '\\' then "\\\\"
    else if c = '\x08' then "\\b"
    else if c = '\x0c' then "\\f"
    else if c = '\n' then "\\n"
    else if c = '\r' then "\\r"
    else if c = '\t' then "\\t"
    else if c.toNat < 0x20 then
      let h := Nat.toDigits 16 c.toNat
      "\\u" ++ String.ofList (List.replicate (4 - h.length) '0' ++ h)
    else c.toString

/-- The text of a number. -/
def Number.render : Number → String
  | .unsigned n => toString n
  | .negative n => toString n
  | .float f => floatText f

/-- Spaces for an indentation level. -/
def indent (depth : Nat) : String := String.ofList (List.replicate (2 * depth) ' ')

mutual

/-- Indented text with two spaces per level, one member per line, `: ` after a key. -/
def Value.pretty : Value → Nat → String
  | .null, _ => "null"
  | .bool b, _ => if b then "true" else "false"
  | .number n, _ => n.render
  | .string s, _ => escapeString s
  | .array [], _ => "[]"
  | .array (x :: rest), depth =>
    "[\n" ++ ",\n".intercalate (prettyItems (x :: rest) (depth + 1)) ++ "\n" ++ indent depth ++ "]"
  | .object [], _ => "\x7b\x7d"
  | .object (m :: rest), depth =>
    "\x7b\n" ++ ",\n".intercalate (prettyMembers (m :: rest) (depth + 1)) ++ "\n" ++
      indent depth ++ "\x7d"

/-- The indented lines of array items. -/
def prettyItems : List Value → Nat → List String
  | [], _ => []
  | x :: rest, depth => (indent depth ++ x.pretty depth) :: prettyItems rest depth

/-- The indented lines of object members. -/
def prettyMembers : List (String × Value) → Nat → List String
  | [], _ => []
  | (k, x) :: rest, depth =>
    (indent depth ++ escapeString k ++ ": " ++ x.pretty depth) :: prettyMembers rest depth

end

end MountIndex.Json

import MountIndex.Json.Value
import MountIndex.Text.Utf8

/-!
Scanning JSON text byte by byte: white space, literals, strings with their escapes,
numbers, and whole values that are skipped. Every scanner starts at a byte offset and gives
the value with the offset after it, or a failure with the offset it refers to. Offsets are
reported as a line (from 1) and a column (bytes since the last newline); a failure found
while looking at the next byte refers to the offset after that byte.
-/

namespace MountIndex.Json

/-- A reading failure: its message and, once known, the offset it refers to. -/
structure ReadError where
  message : String
  offset : Option Nat := none
  deriving Inhabited

/-- The line (from 1) and column of an offset. -/
def lineColumn (bs : ByteArray) (i : Nat) : Nat × Nat :=
  let before := (bs.extract 0 i).toList
  let newlines := before.countP (· == 10)
  let lastNewline := (before.zipIdx.filter (·.1 == 10)).getLast?.map (·.2)
  (1 + newlines, i - lastNewline.elim 0 (· + 1))

/-- The text of a failure, with its line and column when its offset is known. -/
def ReadError.render (e : ReadError) (bs : ByteArray) : String :=
  match e.offset with
  | some i =>
    let (l, c) := lineColumn bs i
    e.message ++ " at line " ++ toString l ++ " column " ++ toString c
  | none => e.message

def eofValue : String := "EOF while parsing a value"
def eofList : String := "EOF while parsing a list"
def eofObject : String := "EOF while parsing an object"
def eofString : String := "EOF while parsing a string"
def expectedColon : String := "expected `:`"
def expectedListEnd : String := "expected `,` or `]`"
def expectedObjectEnd : String := "expected `,` or `\x7d`"
def expectedIdent : String := "expected ident"
def expectedValue : String := "expected value"
def invalidEscape : String := "invalid escape"
def invalidNumber : String := "invalid number"
def numberOutOfRange : String := "number out of range"
def controlCharacter : String := "control character (\\u0000-\\u001F) found while parsing a string"
def keyMustBeString : String := "key must be a string"
def loneSurrogate : String := "lone leading surrogate in hex escape"
def trailingComma : String := "trailing comma"
def trailingCharacters : String := "trailing characters"
def unexpectedHexEnd : String := "unexpected end of hex escape"

/-- A scanning step: a value and the offset after it, or a failure. -/
abbrev Scan (α : Type) := Except ReadError (α × Nat)

/-- A failure at an offset. -/
def failAt {α : Type} (msg : String) (i : Nat) : Except ReadError α :=
  .error { message := msg, offset := some i }

/-- A failure found while looking at the byte at `i`: it refers to the offset after it. -/
def failPeekAt {α : Type} (bs : ByteArray) (msg : String) (i : Nat) : Except ReadError α :=
  failAt msg (min bs.size (i + 1))

/-- The byte at an offset. -/
def byteAt? (bs : ByteArray) (i : Nat) : Option UInt8 :=
  if h : i < bs.size then some bs[i] else none

/-- The value of the decimal digit at an offset. -/
def digitAt? (bs : ByteArray) (i : Nat) : Option Nat :=
  match byteAt? bs i with
  | some b => if 48 ≤ b ∧ b ≤ 57 then some (b.toNat - 48) else none
  | none => none

theorem lt_size_of_digitAt? {bs : ByteArray} {k d : Nat} (h : digitAt? bs k = some d) :
    k < bs.size := by
  by_cases hk : k < bs.size
  · exact hk
  · simp [digitAt?, byteAt?, hk] at h

/-- The offset after the white space (space, tab, newline, carriage return) at `i`. -/
def skipWs (bs : ByteArray) (i : Nat) : Nat :=
  if h : i < bs.size then
    let b := bs[i]
    if b = 32 ∨ b = 9 ∨ b = 10 ∨ b = 13 then skipWs bs (i + 1) else i
  else i
termination_by bs.size - i

/-- The offset after the digits at `i`. -/
def skipDigits (bs : ByteArray) (i : Nat) : Nat :=
  if h : i < bs.size then
    if (digitAt? bs i).isSome then skipDigits bs (i + 1) else i
  else i
termination_by bs.size - i

/-- The rest of a literal such as `ull` after `n`. -/
def ident (bs : ByteArray) : List UInt8 → Nat → Scan Unit
  | [], i => .ok ((), i)
  | e :: rest, i =>
    match byteAt? bs i with
    | none => failAt eofValue i
    | some b => if b = e then ident bs rest (i + 1) else failAt expectedIdent (i + 1)

/-- Four hexadecimal digits of a `\u` escape. -/
def hex4 (bs : ByteArray) (j : Nat) : Scan Nat :=
  if j + 4 ≤ bs.size then
    let ds := (List.range 4).map fun k => (byteAt? bs (j + k)).getD 0
    let val (b : UInt8) : Option Nat :=
      if 48 ≤ b ∧ b ≤ 57 then some (b.toNat - 48)
      else if 97 ≤ b ∧ b ≤ 102 then some (b.toNat - 87)
      else if 65 ≤ b ∧ b ≤ 70 then some (b.toNat - 55)
      else none
    match ds.mapM val with
    | some vs => .ok (vs.foldl (fun a v => a * 16 + v) 0, j + 4)
    | none => failAt invalidEscape (j + 4)
  else failAt eofString bs.size

/-- The UTF-8 bytes of a code point. -/
def utf8Bytes (n : Nat) : List UInt8 :=
  if n < 0x80 then [n.toUInt8]
  else if n < 0x800 then [(0xC0 ||| (n >>> 6)).toUInt8, (0x80 ||| (n &&& 0x3F)).toUInt8]
  else if n < 0x10000 then
    [(0xE0 ||| (n >>> 12)).toUInt8, (0x80 ||| ((n >>> 6) &&& 0x3F)).toUInt8,
      (0x80 ||| (n &&& 0x3F)).toUInt8]
  else
    [(0xF0 ||| (n >>> 18)).toUInt8, (0x80 ||| ((n >>> 12) &&& 0x3F)).toUInt8,
      (0x80 ||| ((n >>> 6) &&& 0x3F)).toUInt8, (0x80 ||| (n &&& 0x3F)).toUInt8]

/-- A `\u` escape after the `u`: one code unit, or a surrogate pair written as two escapes. -/
def unicodeEscape (bs : ByteArray) (j : Nat) : Except ReadError (List UInt8 × Nat) := do
  let (n, j1) ← hex4 bs j
  if 0xDC00 ≤ n ∧ n ≤ 0xDFFF then failAt loneSurrogate j1
  else if n < 0xD800 ∨ n > 0xDBFF then pure (utf8Bytes n, j1)
  else
    match byteAt? bs j1 with
    | none => failAt eofString j1
    | some b1 =>
      if b1 ≠ 92 then failAt unexpectedHexEnd (j1 + 1)
      else match byteAt? bs (j1 + 1) with
        | none => failAt eofString (j1 + 1)
        | some b2 =>
          if b2 ≠ 117 then failAt unexpectedHexEnd (j1 + 2)
          else do
            let (n2, j2) ← hex4 bs (j1 + 2)
            if n2 < 0xDC00 ∨ n2 > 0xDFFF then failAt loneSurrogate j2
            else pure (utf8Bytes ((((n - 0xD800) <<< 10) ||| (n2 - 0xDC00)) + 0x10000), j2)

/-- An escape after the backslash. -/
def escape (bs : ByteArray) (i : Nat) : Scan (List UInt8) :=
  match byteAt? bs i with
  | none => failAt eofString i
  | some c =>
    if c = 34 then .ok ([34], i + 1)
    else if c = 92 then .ok ([92], i + 1)
    else if c = 47 then .ok ([47], i + 1)
    else if c = 98 then .ok ([8], i + 1)
    else if c = 102 then .ok ([12], i + 1)
    else if c = 110 then .ok ([10], i + 1)
    else if c = 114 then .ok ([13], i + 1)
    else if c = 116 then .ok ([9], i + 1)
    else if c = 117 then unicodeEscape bs (i + 1)
    else failAt invalidEscape (i + 1)

/-- A string after its opening quote. -/
def string (bs : ByteArray) (i : Nat) : Scan String :=
  go i #[]
where
  go (j : Nat) (acc : Array UInt8) : Scan String :=
    if h : j < bs.size then
      let b := bs[j]
      if b = 34 then .ok (Text.Utf8.decodeLossy acc.toList, j + 1)
      else if b = 92 then
        match escape bs (j + 1) with
        | .ok (more, k) => if j < k then go k (acc ++ more.toArray) else failAt invalidEscape k
        | .error e => .error e
      else if b < 32 then failAt controlCharacter (j + 1)
      else go (j + 1) (acc.push b)
    else failAt eofString j
  termination_by bs.size - j

/-- An escape of a skipped string, after the backslash. -/
def skipEscape (bs : ByteArray) (i : Nat) : Scan Unit :=
  match byteAt? bs i with
  | none => failAt eofString i
  | some c =>
    if c = 34 ∨ c = 92 ∨ c = 47 ∨ c = 98 ∨ c = 102 ∨ c = 110 ∨ c = 114 ∨ c = 116 then
      .ok ((), i + 1)
    else if c = 117 then (hex4 bs (i + 1)).map fun (_, j) => ((), j)
    else failAt invalidEscape (i + 1)

/-- A skipped string, after its opening quote. -/
def skipString (bs : ByteArray) (j : Nat) : Scan Unit :=
  if h : j < bs.size then
    let b := bs[j]
    if b = 34 then .ok ((), j + 1)
    else if b = 92 then
      match skipEscape bs (j + 1) with
      | .ok ((), k) => if j < k then skipString bs k else failAt invalidEscape k
      | .error e => .error e
    else if b < 32 then failAt controlCharacter j
    else skipString bs (j + 1)
  else failAt eofString j
termination_by bs.size - j

/-- The double of a significand and a power of ten, or an out-of-range failure at `j`. -/
def floatPart (positive : Bool) (sig : Nat) (exp : Int) (j : Nat) : Scan Number :=
  match fromParts (!positive) sig exp with
  | some f => .ok (.float f, j)
  | none => failAt numberOutOfRange j

/-- The largest exponent the reader keeps. -/
def exponentLimit : Int := 2147483647

/-- An exponent after `e` or `E`. -/
def exponentPart (bs : ByteArray) (positive : Bool) (sig : Nat) (start : Int) (j : Nat) :
    Scan Number :=
  let k := j + 1
  let (up, k) :=
    match byteAt? bs k with
    | some 43 => (true, k + 1)
    | some 45 => (false, k + 1)
    | _ => (true, k)
  match byteAt? bs k with
  | none => failAt eofValue k
  | some c =>
    if 48 ≤ c ∧ c ≤ 57 then digits up (c.toNat - 48) (k + 1)
    else failAt invalidNumber (k + 1)
where
  digits (up : Bool) (exp : Nat) (k : Nat) : Scan Number :=
    match h : digitAt? bs k with
    | some d =>
      if exp * 10 + d > exponentLimit.toNat then
        if sig ≠ 0 ∧ up then failAt numberOutOfRange (k + 1)
        else .ok (.float (if positive then 0.0 else -0.0), skipDigits bs (k + 1))
      else
        have : k < bs.size := lt_size_of_digitAt? h
        digits up (exp * 10 + d) (k + 1)
    | none =>
      let e : Int := if up then start + exp else start - exp
      floatPart positive sig (max (-exponentLimit - 1) (min exponentLimit e)) k
  termination_by bs.size - k

/-- A fraction after the point. -/
def decimalPart (bs : ByteArray) (positive : Bool) (sig : Nat) (before : Int) (j : Nat) :
    Scan Number :=
  go sig 0 (j + 1)
where
  go (sig : Nat) (after : Nat) (k : Nat) : Scan Number :=
    match h : digitAt? bs k with
    | some d =>
      if sig * 10 + d ≥ wordLimit then
        let k' := skipDigits bs k
        match byteAt? bs k' with
        | some 101 | some 69 => exponentPart bs positive sig (before - after) k'
        | _ => floatPart positive sig (before - after) k'
      else
        have : k < bs.size := lt_size_of_digitAt? h
        go (sig * 10 + d) (after + 1) (k + 1)
    | none =>
      if after = 0 then
        match byteAt? bs k with
        | some _ => failPeekAt bs invalidNumber k
        | none => failPeekAt bs eofValue k
      else
        match byteAt? bs k with
        | some 101 | some 69 => exponentPart bs positive sig (before - after) k
        | _ => floatPart positive sig (before - after) k
  termination_by bs.size - k

/-- The digits of a whole part too long for 64 bits: each one left out raises the power. -/
def longInteger (bs : ByteArray) (positive : Bool) (sig : Nat) (exp : Nat) (j : Nat) :
    Scan Number :=
  match h : digitAt? bs j with
  | some _ =>
    have : j < bs.size := lt_size_of_digitAt? h
    longInteger bs positive sig (exp + 1) (j + 1)
  | none =>
    match byteAt? bs j with
    | some 46 => decimalPart bs positive sig exp j
    | some 101 | some 69 => exponentPart bs positive sig exp j
    | _ => floatPart positive sig exp j
termination_by bs.size - j

/-- What follows the whole part of a number. -/
def numberEnd (bs : ByteArray) (positive : Bool) (sig : Nat) (j : Nat) : Scan Number :=
  match byteAt? bs j with
  | some 46 => decimalPart bs positive sig 0 j
  | some 101 | some 69 => exponentPart bs positive sig 0 j
  | _ =>
    if positive then .ok (.unsigned sig, j)
    else if sig = 0 then .ok (.float (-0.0), j)
    else if sig ≤ Nat.pow 2 63 then .ok (.negative (-(sig : Int)), j)
    else .ok (.float (-(floatOfNat sig)), j)

/-- A number from its first digit, its sign already read. -/
def number (bs : ByteArray) (positive : Bool) (i : Nat) : Scan Number :=
  match byteAt? bs i with
  | none => failAt eofValue i
  | some c =>
    if c = 48 then
      if (digitAt? bs (i + 1)).isSome then failPeekAt bs invalidNumber (i + 1)
      else numberEnd bs positive 0 (i + 1)
    else if 49 ≤ c ∧ c ≤ 57 then go (c.toNat - 48) (i + 1)
    else failAt invalidNumber (i + 1)
where
  go (sig : Nat) (j : Nat) : Scan Number :=
    match h : digitAt? bs j with
    | some d =>
      if sig * 10 + d ≥ wordLimit then longInteger bs positive sig 0 j
      else
        have : j < bs.size := lt_size_of_digitAt? h
        go (sig * 10 + d) (j + 1)
    | none => numberEnd bs positive sig j
  termination_by bs.size - j

/-- A skipped number from its first digit, its sign already read. -/
def skipNumber (bs : ByteArray) (i : Nat) : Scan Unit :=
  let next := fun (k : Nat) => if k < bs.size then k + 1 else k
  let exponent := fun (k : Nat) =>
    let k := match byteAt? bs k with
      | some 43 | some 45 => k + 1
      | _ => k
    if (digitAt? bs k).isSome then .ok ((), skipDigits bs (k + 1))
    else failAt invalidNumber (next k)
  let tail := fun (k : Nat) =>
    match byteAt? bs k with
    | some 46 =>
      let k' := skipDigits bs (k + 1)
      if k' = k + 1 then failPeekAt bs invalidNumber k'
      else match byteAt? bs k' with
        | some 101 | some 69 => exponent (k' + 1)
        | _ => .ok ((), k')
    | some 101 | some 69 => exponent (k + 1)
    | _ => .ok ((), k)
  match byteAt? bs i with
  | some 48 =>
    if (digitAt? bs (i + 1)).isSome then failPeekAt bs invalidNumber (i + 1) else tail (i + 1)
  | some c =>
    if 49 ≤ c ∧ c ≤ 57 then tail (skipDigits bs (i + 1)) else failAt invalidNumber (i + 1)
  | none => failAt invalidNumber i

mutual

/-- Skips one value after white space. -/
def skipValue (bs : ByteArray) : Nat → Nat → Scan Unit
  | 0, i => failAt "recursion limit exceeded" i
  | fuel + 1, i =>
    let i := skipWs bs i
    match byteAt? bs i with
    | none => failPeekAt bs eofValue i
    | some c =>
      if c = 110 then ident bs [117, 108, 108] (i + 1)
      else if c = 116 then ident bs [114, 117, 101] (i + 1)
      else if c = 102 then ident bs [97, 108, 115, 101] (i + 1)
      else if c = 45 then skipNumber bs (i + 1)
      else if 48 ≤ c ∧ c ≤ 57 then skipNumber bs i
      else if c = 34 then skipString bs (i + 1)
      else if c = 91 then skipItems bs fuel (i + 1)
      else if c = 123 then skipMembers bs fuel (i + 1)
      else failPeekAt bs expectedValue i

/-- Skips the items of an array after its `[`. -/
def skipItems (bs : ByteArray) : Nat → Nat → Scan Unit
  | 0, i => failAt "recursion limit exceeded" i
  | fuel + 1, j =>
    let j := skipWs bs j
    match byteAt? bs j with
    | none => failPeekAt bs eofList j
    | some 93 => .ok ((), j + 1)
    | some _ =>
      match skipValue bs fuel j with
      | .ok ((), k) => skipItemsRest bs fuel k
      | .error e => .error e

/-- Skips the rest of an array after an item. -/
def skipItemsRest (bs : ByteArray) : Nat → Nat → Scan Unit
  | 0, i => failAt "recursion limit exceeded" i
  | fuel + 1, k =>
    let k := skipWs bs k
    match byteAt? bs k with
    | some 44 =>
      match skipValue bs fuel (k + 1) with
      | .ok ((), k') => skipItemsRest bs fuel k'
      | .error e => .error e
    | some 93 => .ok ((), k + 1)
    | some _ => failPeekAt bs expectedListEnd k
    | none => failPeekAt bs eofList k

/-- Skips the members of an object after its opening brace. -/
def skipMembers (bs : ByteArray) : Nat → Nat → Scan Unit
  | 0, i => failAt "recursion limit exceeded" i
  | fuel + 1, j =>
    let j := skipWs bs j
    match byteAt? bs j with
    | none => failPeekAt bs eofObject j
    | some 125 => .ok ((), j + 1)
    | some _ => skipMember bs fuel j

/-- Skips one member (key, colon, value) and what follows it. -/
def skipMember (bs : ByteArray) : Nat → Nat → Scan Unit
  | 0, i => failAt "recursion limit exceeded" i
  | fuel + 1, j =>
    let j := skipWs bs j
    match byteAt? bs j with
    | some 34 =>
      match skipString bs (j + 1) with
      | .error e => .error e
      | .ok ((), k) =>
        let k := skipWs bs k
        match byteAt? bs k with
        | some 58 =>
          match skipValue bs fuel (k + 1) with
          | .ok ((), k') => skipMembersRest bs fuel k'
          | .error e => .error e
        | some _ => failPeekAt bs expectedColon k
        | none => failPeekAt bs eofObject k
    | some _ => failPeekAt bs keyMustBeString j
    | none => failPeekAt bs eofObject j

/-- Skips the rest of an object after a member. -/
def skipMembersRest (bs : ByteArray) : Nat → Nat → Scan Unit
  | 0, i => failAt "recursion limit exceeded" i
  | fuel + 1, k =>
    let k := skipWs bs k
    match byteAt? bs k with
    | some 44 => skipMember bs fuel (k + 1)
    | some 125 => .ok ((), k + 1)
    | some _ => failPeekAt bs expectedObjectEnd k
    | none => failPeekAt bs eofObject k

end

end MountIndex.Json

/-!
Decoding UTF-8 bytes. Each well-formed sequence gives its character; each ill-formed part
gives one mark, where an ill-formed part is the longest prefix of a well-formed sequence
that the bytes begin with, or one byte when no such prefix exists. The lossy decoding writes
U+FFFD for each mark; the strict decoding refuses bytes with any mark.
-/

namespace MountIndex.Text.Utf8

/-- Whether a byte continues a multi-byte sequence. -/
def isCont (b : UInt8) : Bool := 0x80 ≤ b && b ≤ 0xBF

/-- For a lead byte: the length of its sequence and the range allowed for the second byte.
Overlong forms, surrogates and code points above U+10FFFF are excluded by these ranges. -/
def lead (b : UInt8) : Option (Nat × UInt8 × UInt8) :=
  if b < 0x80 then some (1, 0, 0)
  else if b < 0xC2 then none
  else if b ≤ 0xDF then some (2, 0x80, 0xBF)
  else if b = 0xE0 then some (3, 0xA0, 0xBF)
  else if b = 0xED then some (3, 0x80, 0x9F)
  else if b ≤ 0xEF then some (3, 0x80, 0xBF)
  else if b = 0xF0 then some (4, 0x90, 0xBF)
  else if b ≤ 0xF3 then some (4, 0x80, 0xBF)
  else if b = 0xF4 then some (4, 0x80, 0x8F)
  else none

/-- The character of a well-formed sequence. -/
def charOf : List UInt8 → Char
  | [a] => Char.ofNat a.toNat
  | [a, b] => Char.ofNat (((a.toNat &&& 0x1F) <<< 6) ||| (b.toNat &&& 0x3F))
  | [a, b, c] =>
    Char.ofNat (((a.toNat &&& 0x0F) <<< 12) ||| ((b.toNat &&& 0x3F) <<< 6) ||| (c.toNat &&& 0x3F))
  | [a, b, c, d] =>
    Char.ofNat (((a.toNat &&& 0x07) <<< 18) ||| ((b.toNat &&& 0x3F) <<< 12) |||
      ((c.toNat &&& 0x3F) <<< 6) ||| (d.toNat &&& 0x3F))
  | _ => '\x00'

/-- How many bytes after the first two continue a sequence, at most `n`. -/
def contCount : Nat → List UInt8 → Nat
  | 0, _ => 0
  | _ + 1, [] => 0
  | n + 1, b :: rest => if isCont b then contCount n rest + 1 else 0

/-- For a sequence that starts with byte `b` and goes on with `rest`: how many bytes of
`rest` belong to the valid prefix at the head, and whether that prefix is a whole sequence. -/
def tailLen (b : UInt8) (rest : List UInt8) : Nat × Bool :=
  match lead b with
  | none => (0, false)
  | some (1, _, _) => (0, true)
  | some (len, lo, hi) =>
    match rest with
    | c :: more =>
      if lo ≤ c && c ≤ hi then
        let k := 1 + contCount (len - 2) more
        (k, k + 1 = len)
      else (0, false)
    | [] => (0, false)

/-- The characters of the bytes, with `none` for each ill-formed part. -/
def decode : List UInt8 → List (Option Char)
  | [] => []
  | b :: rest =>
    let (k, whole) := tailLen b rest
    (if whole then some (charOf (b :: rest.take k)) else none) :: decode (rest.drop k)
termination_by bytes => bytes.length
decreasing_by
  simp only [List.length_drop, List.length_cons]
  omega

/-- Lossy decoding: U+FFFD for each ill-formed part. -/
def decodeLossy (bytes : List UInt8) : String :=
  String.ofList ((decode bytes).map fun c => c.getD '\uFFFD')

/-- Strict decoding: `none` when any part is ill-formed. -/
def decodeStrict? (bytes : List UInt8) : Option String :=
  (decode bytes).mapM id |>.map String.ofList

end MountIndex.Text.Utf8

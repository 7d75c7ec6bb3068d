/-!
Binary64 numbers read from decimal text and written back as the shortest decimal text.

Reading follows the configuration reader's rule: the significand is the longest prefix of
the digits that fits in 64 bits, it is rounded to a double, and the power of ten is applied
with one multiplication or division by a correctly rounded power of ten (in steps of
10^308 for very small values). A result that overflows is refused.

Writing picks, among the decimals with the fewest significant digits that lie in the
interval of reals rounding to the double, the one nearest to it. The digits are shown
positionally from 1e-5 up to 1e16, with `.0` after a whole number, and otherwise in
scientific form with a signed exponent, as in `1.8446744073709552e+19`.
-/

namespace MountIndex.Json

/-- The double nearest to a natural number, ties to the even significand. -/
def floatOfNat (n : Nat) : Float :=
  if n < Nat.pow 2 53 then n.toUInt64.toFloat
  else
    let shift := n.log2 - 52
    let q := n >>> shift
    let r := n - (q <<< shift)
    let half := 1 <<< (shift - 1)
    let q := if r > half ∨ (r = half ∧ q % 2 = 1) then q + 1 else q
    q.toUInt64.toFloat.scaleB shift

/-- The double nearest to 10^k. -/
def pow10 (k : Nat) : Float := floatOfNat (Nat.pow 10 k)

/-- `significand × 10^exponent` evaluated as described above; `none` when it overflows. -/
def fromParts (negative : Bool) (significand : Nat) (exponent : Int) : Option Float :=
  go significand.toUInt64.toFloat exponent 40
where
  go (f : Float) (exponent : Int) : Nat → Option Float
    | 0 => none
    | fuel + 1 =>
      if exponent.natAbs ≤ 308 then
        if exponent ≥ 0 then
          let g := f * pow10 exponent.toNat
          if g.isInf then none else some (if negative then -g else g)
        else
          let g := f / pow10 exponent.natAbs
          some (if negative then -g else g)
      else if f == 0 then some (if negative then -f else f)
      else if exponent ≥ 0 then none
      else go (f / pow10 308) (exponent + 308) fuel

/-- Compares `x × 10^k` with `y × 2^p`. -/
def cmpScaled (x : Nat) (k : Int) (y : Nat) (p : Int) : Ordering :=
  compare (x * Nat.pow 10 k.toNat * Nat.pow 2 (-p).toNat)
    (y * Nat.pow 2 p.toNat * Nat.pow 10 (-k).toNat)

/-- `⌊y × 2^p / 10^k⌋`. -/
def floorScaled (y : Nat) (p k : Int) : Nat :=
  (y * Nat.pow 2 p.toNat * Nat.pow 10 (-k).toNat) / (Nat.pow 2 (-p).toNat * Nat.pow 10 k.toNat)

/-- The shortest decimal digits of a finite positive double and the power of ten of the
last digit, trailing zeros removed. -/
def shortest (f : Float) : Nat × Int :=
  let bits := f.toBits.toNat
  let frac : Nat := bits % Nat.pow 2 52
  let expBits : Nat := (bits / Nat.pow 2 52) % Nat.pow 2 11
  let (m, e) : Nat × Int :=
    if expBits = 0 then (frac, -1074) else (frac + Nat.pow 2 52, (expBits : Int) - 1075)
  -- in units of 2^(e-2): the value is 4m, the interval reaches 2 units up and 2 (or 1,
  -- below a power of two) units down, its ends included when m is even
  let p := e - 2
  let v := 4 * m
  let hi := v + 2
  let lo := if frac = 0 ∧ expBits > 1 then v - 1 else v - 2
  let inside (x : Nat) (k : Int) : Bool :=
    let a := cmpScaled x k lo p
    let b := cmpScaled x k hi p
    if m % 2 = 0 then a != .lt && b != .gt else a == .gt && b == .lt
  -- the power of ten of the leading digit
  let bitExp : Int := (v.log2 : Int) + p
  let est : Int := (bitExp * 30103).fdiv 100000
  let lead : Int :=
    if cmpScaled 1 (est + 1) v p != .gt then est + 1
    else if cmpScaled 1 est v p == .gt then est - 1
    else est
  let pick (n : Nat) : Option (Nat × Int) :=
    let k := lead - n + 1
    let c := floorScaled v p k
    let below := inside c k
    let above := inside (c + 1) k
    if below && above then
      -- the nearer one; at equal distance the even one
      let twice := cmpScaled (2 * c + 1) k (2 * v) p
      if twice == .lt then some (c + 1, k)
      else if twice == .gt then some (c, k)
      else some (if c % 2 = 0 then c else c + 1, k)
    else if below then some (c, k)
    else if above then some (c + 1, k)
    else none
  let found := ((List.range 17).map (· + 1)).findSome? pick
  let (d, k) := found.getD (0, 0)
  trim d k 20
where
  trim (d : Nat) (k : Int) : Nat → Nat × Int
    | 0 => (d, k)
    | fuel + 1 => if d ≠ 0 ∧ d % 10 = 0 then trim (d / 10) (k + 1) fuel else (d, k)

/-- The text of a double: shortest digits, positional from 1e-5 up to 1e16, otherwise
scientific with a signed exponent. -/
def floatText (f : Float) : String :=
  let sign := if f.toBits.toNat ≥ Nat.pow 2 63 then "-" else ""
  let a := f.abs
  if a == 0 then sign ++ "0.0"
  else
    let (d, k) := shortest a
    let ds := toString d
    let len := ds.length
    let lead : Int := k + len - 1
    if -5 ≤ lead ∧ lead < 16 then
      if k ≥ 0 then sign ++ ds ++ String.ofList (List.replicate k.toNat '0') ++ ".0"
      else if lead ≥ 0 then
        let cut := (lead + 1).toNat
        sign ++ String.ofList (ds.toList.take cut) ++ "." ++ String.ofList (ds.toList.drop cut)
      else sign ++ "0." ++ String.ofList (List.replicate ((-lead).toNat - 1) '0') ++ ds
    else
      let rest := String.ofList (ds.toList.drop 1)
      sign ++ String.ofList (ds.toList.take 1) ++ (if rest.isEmpty then "" else "." ++ rest) ++
        "e" ++ (if lead < 0 then "-" else "+") ++ toString lead.natAbs

end MountIndex.Json

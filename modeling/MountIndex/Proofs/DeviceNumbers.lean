import Mathlib.Data.Set.Function
import MountIndex.Table.Entry

/-!
# Device numbers

A mount record keeps its device as the 32-bit number that packs the major and minor numbers
of its mount-table entry: 12 bits of major and 20 of minor. Each of `make`, `major` and `minor`
is a few masks and shifts; read as arithmetic (`make_eq`, `major_eq`, `minor_eq`) they cut the
major number to 12 bits and the minor to 20, and put them back. Main statement:
`device_numbers_round_trip`.
-/

namespace MountIndex.Device

/-! ## Masks and shifts as arithmetic -/

-- A mask shifted to bit `o` keeps the field of `x` there.
theorem and_shiftLeft_mask (x m o : Nat) : x &&& m <<< o = ((x >>> o) &&& m) <<< o := by
  apply Nat.eq_of_testBit_eq
  intro i
  simp only [Nat.testBit_and, Nat.testBit_shiftLeft, Nat.testBit_shiftRight]
  by_cases h : o ≤ i
  · have hi : o + (i - o) = i := by omega
    simp [h, hi]
  · simp [h]

-- Bits placed above a value that fits below them add to it.
theorem shiftLeft_or_of_lt (x : Nat) {y n : Nat} (hy : y < 1 <<< n) :
    x <<< n ||| y = x <<< n + y := by
  rw [Nat.one_shiftLeft] at hy
  exact (Nat.shiftLeft_add_eq_or_of_lt hy x).symm

theorem and_4095 (x : Nat) : x &&& 0xfff = x % 4096 := Nat.and_two_pow_sub_one_eq_mod x 12

theorem and_255 (x : Nat) : x &&& 0xff = x % 256 := Nat.and_two_pow_sub_one_eq_mod x 8

theorem and_fff00 (x : Nat) : x &&& 0xfff00 = (x >>> 8 % 4096) <<< 8 := by
  rw [show (0xfff00 : Nat) = 0xfff <<< 8 from rfl, and_shiftLeft_mask, and_4095]

theorem make_eq (a b : Nat) : make a b = a % 4096 * 256 + b % 256 + b / 256 % 4096 * 1048576 := by
  have hlow : b % 256 < 1 <<< 8 := Nat.mod_lt b (by decide)
  have hbelow : (a % 4096) <<< 8 + b % 256 < 1 <<< 20 := by omega
  have hshift : (b >>> 8 % 4096) <<< 8 <<< 12 = (b >>> 8 % 4096) <<< 20 :=
    (Nat.shiftLeft_add _ 8 12).symm
  unfold make
  rw [and_4095, and_255, and_fff00, shiftLeft_or_of_lt _ hlow, Nat.or_comm, hshift,
    shiftLeft_or_of_lt _ hbelow]
  omega

theorem major_eq (d : Nat) : major d = d / 256 % 4096 := by
  unfold major
  rw [and_4095]
  omega

theorem minor_eq (d : Nat) : minor d = d % 256 + d / 1048576 % 4096 * 256 := by
  have hlow : d % 256 < 1 <<< 8 := Nat.mod_lt d (by decide)
  unfold minor
  rw [and_255, and_fff00, Nat.or_comm, shiftLeft_or_of_lt _ hlow]
  omega

/-! ## Packing and unpacking -/

theorem make_lt (a b : Nat) : make a b < 4294967296 := by
  rw [make_eq]
  omega

theorem major_make (a b : Nat) : major (make a b) = a % 4096 := by
  rw [major_eq, make_eq]
  omega

theorem minor_make (a b : Nat) : minor (make a b) = b % 1048576 := by
  rw [minor_eq, make_eq]
  omega

theorem make_major_minor {d : Nat} (hd : d < 4294967296) : make (major d) (minor d) = d := by
  rw [make_eq, major_eq, minor_eq]
  omega

theorem major_lt (d : Nat) : major d < 4096 := by
  rw [major_eq]
  omega

theorem minor_lt (d : Nat) : minor d < 1048576 := by
  rw [minor_eq]
  omega

theorem bijOn_make :
    Set.BijOn (fun p : Nat × Nat => make p.1 p.2) {p | p.1 < 4096 ∧ p.2 < 1048576}
      {d | d < 4294967296} := by
  refine ⟨fun p _ => make_lt p.1 p.2, ?_, ?_⟩
  · -- the major and minor numbers of the packed device give each pair back
    rintro ⟨a, b⟩ ⟨ha, hb⟩ ⟨c, d⟩ ⟨hc, hd⟩ h
    have hmaj := congrArg major h
    have hmin := congrArg minor h
    simp only [major_make, minor_make, Nat.mod_eq_of_lt ha, Nat.mod_eq_of_lt hb,
      Nat.mod_eq_of_lt hc, Nat.mod_eq_of_lt hd] at hmaj hmin
    rw [hmaj, hmin]
  · intro d hd
    exact ⟨(major d, minor d), ⟨major_lt d, minor_lt d⟩, make_major_minor hd⟩

/-! ## The text of a device -/

theorem render_make (a b : Nat) : render (make a b) = s!"{a % 4096}:{b % 1048576}" := by
  unfold render
  rw [major_make, minor_make]

theorem colon_not_mem_toString (n : Nat) : ':' ∉ (toString n).toList := by
  intro h
  rw [show toString n = n.repr from rfl, Nat.toList_repr] at h
  have := Nat.isDigit_of_mem_toDigits (by decide) (by decide) h
  exact absurd this (by decide)

theorem toString_injective : Function.Injective (toString : Nat → String) := by
  intro m n h
  have hd : Nat.toDigits 10 m = Nat.toDigits 10 n := by
    rw [← Nat.toList_repr, ← Nat.toList_repr]
    exact congrArg String.toList h
  rw [← Nat.ofDigitChars_ten_toDigits (n := m), hd, Nat.ofDigitChars_ten_toDigits]

-- A number, a colon and a number: the colon is the only one, so the text gives both back.
theorem colon_pair_inj {a b c d : Nat} (h : s!"{a}:{b}" = s!"{c}:{d}") : a = c ∧ b = d := by
  have hsplit : ∀ x y : Nat,
      (s!"{x}:{y}").toList.splitOn ':' = [(toString x).toList, (toString y).toList] := by
    intro x y
    simp only [String.toList_append]
    rw [show (toString ":").toList = [':'] from rfl, List.append_assoc, List.singleton_append,
      List.splitOn_append_cons_self_of_not_mem (colon_not_mem_toString x),
      List.splitOn_eq_singleton (colon_not_mem_toString y)]
  have hl := congrArg (fun t : String => t.toList.splitOn ':') h
  simp only [hsplit, List.cons.injEq, and_true] at hl
  exact ⟨toString_injective (String.toList_injective hl.1),
    toString_injective (String.toList_injective hl.2)⟩

/-- Device numbers round-trip through their major and minor numbers. Every 32-bit device
number is the device of an entry holding its major and minor numbers, and packing is a
bijection from the pairs of a 12-bit major and a 20-bit minor number onto the 32-bit numbers.
The text of an entry's device shows its major and minor numbers cut to 12 and 20 bits, so it
reads `major:minor` exactly when both fit. -/
theorem device_numbers_round_trip :
    (∀ (e : Table.Entry) (d : Nat), d < 4294967296 →
        { e with major := major d, minor := minor d }.device = d) ∧
      Set.BijOn (fun p : Nat × Nat => make p.1 p.2) {p | p.1 < 4096 ∧ p.2 < 1048576}
        {d | d < 4294967296} ∧
      ∀ e : Table.Entry, render e.device = s!"{e.major % 4096}:{e.minor % 1048576}" ∧
        (render e.device = s!"{e.major}:{e.minor}" ↔ e.major < 4096 ∧ e.minor < 1048576) := by
  refine ⟨fun e d hd => make_major_minor hd, bijOn_make,
    fun e => ⟨render_make e.major e.minor, ?_⟩⟩
  rw [Table.Entry.device, render_make]
  constructor
  · intro h
    obtain ⟨hmaj, hmin⟩ := colon_pair_inj h
    exact ⟨hmaj ▸ Nat.mod_lt _ (by decide), hmin ▸ Nat.mod_lt _ (by decide)⟩
  · rintro ⟨hmaj, hmin⟩
    rw [Nat.mod_eq_of_lt hmaj, Nat.mod_eq_of_lt hmin]

example : render (make 8 1) = "8:1" := by decide

theorem device_numbers_round_trip_sda1 :
    (2049 : Nat) < 4294967296 ∧
      { (default : Table.Entry) with major := major 2049, minor := minor 2049 }.device = 2049 :=
  ⟨by decide, device_numbers_round_trip.1 default 2049 (by decide)⟩

end MountIndex.Device

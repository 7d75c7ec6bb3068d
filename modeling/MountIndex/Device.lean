/-!
Device numbers in the 32-bit form that mount records keep. A device packs a major and a
minor number: the low 12 bits of the major in bits 8 to 19, the low 8 bits of the minor in
bits 0 to 7, and the next 12 bits of the minor in bits 20 to 31. Bits that do not fit are
dropped, as when the 64-bit form is cut to 32 bits.
-/

namespace MountIndex.Device

/-- Packs a major and a minor number into a 32-bit device number. -/
def make (major minor : Nat) : Nat :=
  ((major &&& 0xfff) <<< 8) ||| (minor &&& 0xff) ||| ((minor &&& 0xfff00) <<< 12)

/-- The major number of a 32-bit device number. -/
def major (dev : Nat) : Nat := (dev >>> 8) &&& 0xfff

/-- The minor number of a 32-bit device number. -/
def minor (dev : Nat) : Nat := (dev &&& 0xff) ||| ((dev >>> 12) &&& 0xfff00)

/-- The text `major:minor` of a device number. -/
def render (dev : Nat) : String := s!"{major dev}:{minor dev}"

end MountIndex.Device

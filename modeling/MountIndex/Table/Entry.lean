import MountIndex.Mount
import MountIndex.Device
import MountIndex.Text.Utf8

/-!
One line of a process's mount table, as the kernel writes it:

    36 35 98:0 /mnt1 /mnt/parent rw,noatime master:1 - ext3 /dev/root rw,errors=continue

The kernel escapes blanks and backslashes in paths as a backslash and three octal digits
(`\040` is a space); `unescape` turns such escapes back into bytes.
-/

namespace MountIndex.Table

/-- The fields of one mount-table line. `root`, `mountPoint` and `source` are unescaped. -/
structure Entry where
  mountId : Nat
  parentId : Nat
  major : Nat
  minor : Nat
  root : String
  mountPoint : String
  options : String
  optionalFields : List String
  fsType : String
  source : String
  superOptions : String
  deriving Repr, DecidableEq, Inhabited

/-- Whether a byte is an octal digit. -/
def isOctal (b : UInt8) : Bool := 48 ≤ b && b ≤ 55

/-- The value of three octal digits. -/
def octalValue (a b c : UInt8) : Nat := ((a.toNat - 48) * 8 + (b.toNat - 48)) * 8 + (c.toNat - 48)

/-- Replaces each backslash followed by three octal digits of value at most 255 by the byte
of that value; any other backslash stays. -/
def unescapeBytes : List UInt8 → List UInt8
  | 92 :: a :: b :: c :: rest =>
    if isOctal a && isOctal b && isOctal c && octalValue a b c < 256 then
      UInt8.ofNat (octalValue a b c) :: unescapeBytes rest
    else 92 :: unescapeBytes (a :: b :: c :: rest)
  | x :: rest => x :: unescapeBytes rest
  | [] => []
termination_by bs => bs.length

/-- A field with its octal escapes decoded; bytes that do not form UTF-8 become U+FFFD. -/
def unescape (field : String) : String :=
  Text.Utf8.decodeLossy (unescapeBytes field.toUTF8.toList)

namespace Entry

/-- The device number of the entry. -/
def device (e : Entry) : Nat := Device.make e.major e.minor

/-- The mount record of an entry. Its mount point is absolute, so it is also its path. -/
def toMount (e : Entry) : Mount where
  id := e.mountId
  parent := e.parentId
  device := e.device
  fsType := e.fsType
  mountPoint := e.mountPoint
  root := e.root
  path := some e.mountPoint

end Entry

end MountIndex.Table

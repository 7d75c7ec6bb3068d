/-!
The characters with the Unicode White_Space property, which decide whether a line of a
mount table is blank.
-/

namespace MountIndex.Text

/-- Whether a character has the Unicode White_Space property: the ASCII tab to carriage
return, the space, NEL, no-break space, Ogham space mark, the spaces U+2000 to U+200A, the
line and paragraph separators, the narrow no-break space, the medium mathematical space and
the ideographic space. -/
def isWhiteSpace (c : Char) : Bool :=
  let n := c.toNat
  (0x09 ≤ n && n ≤ 0x0d) || n == 0x20 || n == 0x85 || n == 0xa0 || n == 0x1680 ||
    (0x2000 ≤ n && n ≤ 0x200a) || n == 0x2028 || n == 0x2029 || n == 0x202f ||
    n == 0x205f || n == 0x3000

/-- Whether a text holds only white space. -/
def isBlankText (s : String) : Bool := s.toList.all isWhiteSpace

end MountIndex.Text

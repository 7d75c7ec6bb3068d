import MountIndex.Text.Printable

/-!
Quoted text as diagnostics show it: the text between double quotes, with a backslash before
`"` and `\`, the short escapes `\0`, `\t`, `\r` and `\n`, and `\u{…}` (lowercase hexadecimal,
no leading zeros) for every character that is not printable or that extends the grapheme
before it. One flag decides whether the apostrophe is escaped too, as in quoted paths.
-/

namespace MountIndex.Text

/-- The escape `\u{…}` of a character, in lowercase hexadecimal without leading zeros. -/
def unicodeEscape (c : Char) : String :=
  "\\u\x7b" ++ String.ofList (Nat.toDigits 16 c.toNat) ++ "\x7d"

/-- How one character appears between the quotes. -/
def escapeChar (apostrophe : Bool) (c : Char) : String :=
  if c = '\x00' then "\\0"
  else if c = '\t' then "\\t"
  else if c = '\r' then "\\r"
  else if c = '\n' then "\\n"
  else if c = '\\' then "\\\\"
  else if c = '"' then "\\\""
  else if c = '\'' ∧ apostrophe then "\\'"
  else if isExtending c then unicodeEscape c
  else if isPrintable c then c.toString
  else unicodeEscape c

/-- The text in double quotes with its special characters escaped. -/
def quote (s : String) (apostrophe : Bool := false) : String :=
  "\"" ++ String.join (s.toList.map (escapeChar apostrophe)) ++ "\""

-- Text none of whose characters needs an escape is quoted as it is.
theorem quote_of_plain {s : String} {a : Bool} (h : ∀ c ∈ s.toList, escapeChar a c = c.toString) :
    quote s a = "\"" ++ s ++ "\"" := by
  have hbody : String.join (s.toList.map (escapeChar a)) = s := by
    rw [← String.toList_inj, String.toList_join, List.map_congr_left h]
    simp [List.flatMap_map, Char.toString]
  unfold quote
  rw [hbody]

example : quote "sda1" = "\"sda1\"" := rfl

end MountIndex.Text

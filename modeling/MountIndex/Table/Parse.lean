import MountIndex.Table.Entry
import MountIndex.Text.Quoted
import MountIndex.Text.WhiteSpace

/-!
Reading a mount table. A line is read left to right: three numbers (the third pair is
`major:minor`), then root, mount point and options, any number of optional fields up to a
lone `-`, then filesystem type, source and, if present, super options; whatever follows is
ignored. Fields are separated by runs of spaces and tabs. When a line does not fit, the
failure names what was expected and the rest of the line from the point where it was
expected.

A table is split into lines at `\n` (a `\r` right before it belongs to the line ending),
lines holding only white space are skipped, and the first line that does not fit stops the
reading; lines are counted from one, blank lines included.
-/

namespace MountIndex.Table

/-- What the reader expected where it stopped. -/
inductive Expected where
  /-- a decimal number that fits in 32 bits -/
  | digit
  /-- a particular character (`:` or `-`) -/
  | char
  /-- a separator: one or more spaces or tabs -/
  | space
  /-- a field: one or more characters other than spaces and tabs -/
  | field
  deriving Repr, DecidableEq, Inhabited

/-- Why a line does not fit, and the rest of the line where it stopped. -/
structure Failure where
  rest : List Char
  expected : Expected
  deriving Repr, DecidableEq, Inhabited

/-- The name of an expectation in failure texts. -/
def Expected.name : Expected → String
  | .digit => "Digit"
  | .char => "Char"
  | .space => "Space"
  | .field => "TakeTill1"

/-- The failure text, as in `Parsing Error: Error { input: "x", code: Digit }`. -/
def Failure.render (f : Failure) : String :=
  "Parsing Error: Error \x7b input: " ++ Text.quote (String.ofList f.rest) ++ ", code: " ++
    f.expected.name ++ " \x7d"

/-- A reading step: a value and the rest of the line, or a failure. -/
abbrev Step (α : Type) := Except Failure (α × List Char)

/-- Whether a character separates fields. -/
def isBlank (c : Char) : Bool := c = ' ' || c = '\t'

/-- The value of decimal digits. -/
def digitsValue (ds : List Char) : Nat := ds.foldl (fun v d => v * 10 + (d.toNat - 48)) 0

/-- A decimal number below 2^32. -/
def number (s : List Char) : Step Nat :=
  let ds := s.takeWhile Char.isDigit
  if ds.isEmpty ∨ digitsValue ds ≥ 4294967296 then .error ⟨s, .digit⟩
  else .ok (digitsValue ds, s.dropWhile Char.isDigit)

/-- One or more spaces and tabs. -/
def separator (s : List Char) : Step Unit :=
  match s with
  | c :: _ => if isBlank c then .ok ((), s.dropWhile isBlank) else .error ⟨s, .space⟩
  | [] => .error ⟨s, .space⟩

/-- One or more characters other than spaces and tabs. -/
def field (s : List Char) : Step String :=
  match s with
  | c :: _ =>
    if isBlank c then .error ⟨s, .field⟩
    else .ok (String.ofList (s.takeWhile (! isBlank ·)), s.dropWhile (! isBlank ·))
  | [] => .error ⟨s, .field⟩

/-- The character `c`. -/
def literal (c : Char) (s : List Char) : Step Unit :=
  match s with
  | d :: rest => if d = c then .ok ((), rest) else .error ⟨s, .char⟩
  | [] => .error ⟨s, .char⟩

/-- A step followed by a separator. -/
def thenSep {α : Type} (p : List Char → Step α) (s : List Char) :
    Except Failure (α × List Char) := do
  let (v, s) ← p s
  let ((), s) ← separator s
  pure (v, s)

/-- Optional fields: fields other than `-`, each followed by a separator, as many as there
are; the first that is `-` or that no separator follows is left unread. -/
def optionalFields : Nat → List Char → List String × List Char
  | 0, s => ([], s)
  | fuel + 1, s =>
    match thenSep field s with
    | .ok (f, rest) =>
      if f = "-" then ([], s)
      else
        let (more, s') := optionalFields fuel rest
        (f :: more, s')
    | .error _ => ([], s)

/-- Reads one line of a mount table. -/
def line (s : List Char) : Except Failure Entry := do
  let (mountId, s) ← thenSep number s
  let (parentId, s) ← thenSep number s
  let (major, s) ← number s
  let ((), s) ← literal ':' s
  let (minor, s) ← thenSep number s
  let (root, s) ← thenSep field s
  let (mountPoint, s) ← thenSep field s
  let (options, s) ← thenSep field s
  let (optional, s) := optionalFields s.length s
  let ((), s) ← thenSep (literal '-') s
  let (fsType, s) ← thenSep field s
  let (source, s) ← field s
  let superOptions :=
    match separator s with
    | .ok ((), s') =>
      match field s' with
      | .ok (v, _) => v
      | .error _ => ""
    | .error _ => ""
  pure { mountId, parentId, major, minor, root := unescape root,
         mountPoint := unescape mountPoint, options, optionalFields := optional, fsType,
         source := unescape source, superOptions }

/-- The lines of a text: split at `\n`, with one `\r` before each `\n` removed; a last line
without `\n` keeps its characters, and a text that ends with `\n` has no empty last line. -/
def lines (text : String) : List String :=
  let parts := text.splitOn "\n"
  let ended := parts.dropLast.map fun l => if l.endsWith "\r" then (l.dropEnd 1).toString else l
  match parts.getLast? with
  | some last => if last.isEmpty then ended else ended ++ [last]
  | none => ended

/-- Reads each line that is not blank, with its number counted from one. -/
def readLines : Nat → List String → Except (Nat × Failure) (List Entry)
  | _, [] => pure []
  | n, l :: rest => do
    let here ← if Text.isBlankText l then pure [] else
      match line l.toList with
      | .ok e => pure [e]
      | .error f => throw (n, f)
    let more ← readLines (n + 1) rest
    pure (here ++ more)

/-- Reads a whole mount table; a failure carries its line number. -/
def parse (text : String) : Except (Nat × Failure) (List Entry) :=
  readLines 1 (lines text)

end MountIndex.Table

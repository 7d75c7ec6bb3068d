import MountIndex.Cli.Scope
import MountIndex.Text.Quoted

/-!
# Help pages

A help page has the scope's description, its usage line, and sections for the
subcommands, the positional arguments and the options. An entry shows the spelling of an
argument and its help text, followed by notes: the environment variable that can give the
value, the default value, and the choices.

The short page puts the help texts in a column after the longest spelling. When a help
text would not fit in the width of 100 columns beside a spelling column wider than 40% of
that width, every help text of the section goes on the line below its spelling, indented
by ten columns. The long page always does so, leaves a blank line between entries, lists
the choices one per line with their help texts, and puts the notes on lines of their own.
Text is never wrapped.
-/

namespace MountIndex.Cli

/-- A run of spaces. -/
def spaces (n : Nat) : String := String.ofList (List.replicate n ' ')

/-- Indents every line after the first of a text. -/
def indentLines (indent : Nat) (text : String) : String :=
  text.replace "\n" ("\n" ++ spaces indent)

/-- The width help pages are laid out for. -/
def pageWidth : Nat := 100

/-- The indentation of a help text placed below its spelling. -/
def belowIndent : Nat := 10

/-- Whether a help text of width `wide` beside a column of width `taken` sends the
section's help texts below their spellings. -/
def pushesBelow (taken wide : Nat) : Bool :=
  taken ≤ pageWidth && taken * 5 > 2 * pageWidth && wide > pageWidth - taken

namespace Arg

/-- The notes after an argument's help text: the environment variable with its value, the
default value, quoted when it is empty or has blanks, and the choices when the page does
not list them one per line. -/
def notes (a : Arg) (long : Bool) : List String :=
  let env := match a.env with
    | some (name, v) => ["[env: " ++ name ++ "=" ++ v.getD "" ++ "]"]
    | none => []
  let dflt := match a.default with
    | some d =>
      ["[default: " ++ (if d.isEmpty || d.any Char.isWhitespace then Text.quote d else d) ++ "]"]
    | none => []
  let choices :=
    if a.choices.isEmpty || (long && a.choicesHaveHelp) then []
    else ["[possible values: " ++ ", ".intercalate a.choices ++ "]"]
  env ++ dflt ++ choices

/-- The width an argument's spelling takes in the column, the room for a short name
included for options. -/
def columnWidth (a : Arg) : Nat := a.render.length + (if a.isPositional then 0 else 4)

/-- The spelling at the head of an entry: `-h, --help`, `    --pid <PID>`, `<MOUNT_ID>`. -/
def heading (a : Arg) : String :=
  let short := match a.short, a.long with
    | some s, _ => "-" ++ s.toString
    | none, some _ => "    "
    | none, none => ""
  let long := match a.long with
    | some l => (if a.short.isSome then ", " else "") ++ "--" ++ l
    | none => ""
  short ++ long ++ a.suffix a.required

/-- The list of choices with their help texts, one per line. -/
def choiceLines (a : Arg) (indent : Nat) : String :=
  match a.kind with
  | .choice vs =>
    let longest := (vs.map (·.1.length)).foldl max 0
    "Possible values:" ++ String.join (vs.map fun (name, h) =>
      "\n" ++ spaces indent ++ "- " ++ name ++
        (if h.isEmpty then "" else ": " ++ spaces (longest - name.length) ++ h))
  | _ => ""

/-- One entry of a section. `longest` is the width of the spelling column and `below`
whether the help texts go below the spellings. -/
def entry (a : Arg) (long below : Bool) (longest : Nat) : String :=
  let about := if long then a.longHelp.getD a.help else a.help
  let notes := a.notes long
  let pad :=
    if long || below then 0
    else longest + 2 - (if a.isPositional then a.render.length else a.render.length + 4)
  let indent := if below then belowIndent else longest + 4
  let text :=
    if long || notes.isEmpty then about
    else about ++ (if about.isEmpty then "" else " ") ++ " ".intercalate notes
  let listed := long && a.choicesHaveHelp
  let choices :=
    if listed then (if text.isEmpty then "" else "\n\n" ++ spaces indent) ++ a.choiceLines indent
    else ""
  let trailer :=
    if long && !notes.isEmpty then
      indentLines indent ((if text.isEmpty && !listed then "" else "\n\n") ++ "\n".intercalate notes)
    else ""
  "  " ++ a.heading ++ spaces pad ++ (if below then "\n" ++ spaces belowIndent else "") ++
    indentLines indent text ++ choices ++ trailer

end Arg

/-- Orders keys by place, then by text. -/
def keyLe (a b : Nat × String) : Bool := a.1 < b.1 || (a.1 == b.1 && decide (a.2 ≤ b.2))

/-- A section of arguments. Positional arguments keep their order; options are ordered by
their place and then their spelling. -/
def argSection (args : List Arg) (long : Bool) : String :=
  let positional := args.all (·.isPositional)
  let longest := (args.map (·.columnWidth)).foldl max 2
  let sorted := if positional then args else args.mergeSort fun a b => keyLe a.sortKey b.sortKey
  let taken := longest + 4 + (if positional then 0 else 4)
  let below := long || args.any fun a =>
    pushesBelow taken (a.help.length + (" ".intercalate (a.notes false)).length)
  (if below && long then "\n\n" else "\n").intercalate (sorted.map (·.entry long below longest))

/-- The section of subcommands, ordered by their place and then their name. -/
def commandSection (commands : List (Nat × String × String)) : String :=
  let longest := (commands.map (·.2.1.length)).foldl max 2
  let sorted := commands.mergeSort fun a b => keyLe (a.1, a.2.1) (b.1, b.2.1)
  let below := commands.any fun c => pushesBelow (longest + 4) c.2.2.length
  "\n".intercalate (sorted.map fun (_, name, about) =>
    "  " ++ name ++
      (if below then "\n" ++ spaces belowIndent else spaces (longest + 2 - name.length)) ++ about)

/-- The help page of a scope; the long page only if the scope has one. -/
def Scope.page (s : Scope) (long : Bool) : String :=
  let long := long && hasLongPage s.args
  let commands := s.commands.map (fun c => (c.order, c.name, c.about)) ++ [(999, "help", helpCommandAbout)]
  let sections :=
    (if s.commands.isEmpty then [] else ["Commands:\n" ++ commandSection commands]) ++
    (if s.positionals.isEmpty then [] else ["Arguments:\n" ++ argSection s.positionals long]) ++
    (match s.args.filter (!·.isPositional) with
     | [] => []
     | options => ["Options:\n" ++ argSection options long])
  let page := s.about ++ "\n\nUsage: " ++ s.usage ++ "\n\n" ++ "\n\n".intercalate sections
  page.trimAsciiEnd.toString ++ "\n"

end MountIndex.Cli

/-!
# Command-line grammar

A command line is described as data: a program with its own arguments and its
subcommands, each argument with its spellings, the kind of value it takes, its help
text, and the place it takes in the help listing. The parser, the usage lines and the
help pages are all computed from this description.
-/

namespace MountIndex.Cli

/-- How an argument appears on the command line. -/
inductive Shape where
  /-- a switch that is on when given -/
  | switch
  /-- an option followed by one value, shown as `<NAME>` -/
  | option (valueName : String)
  /-- a value given by position, shown as `<NAME>` -/
  | positional (valueName : String)
  /-- prints the help page -/
  | help
  /-- prints the version -/
  | version
  deriving Repr, DecidableEq, Inhabited

/-- What the values of an argument may be. -/
inductive ValueKind where
  /-- a number that fits in 32 bits, read as a 64-bit signed number first -/
  | u32
  /-- a number that fits in 64 bits -/
  | u64
  /-- a non-empty path -/
  | path
  /-- any text -/
  | text
  /-- one of a fixed list of names, each with its help -/
  | choice (values : List (String × String))
  deriving Repr, DecidableEq, Inhabited

/-- One argument of a command. -/
structure Arg where
  id : String
  long : Option String := none
  short : Option Char := none
  shape : Shape
  kind : ValueKind := .text
  help : String
  /-- the help text of the long help page, when it differs -/
  longHelp : Option String := none
  /-- place in the help listing; ties are broken by the spelling -/
  order : Nat := 999
  default : Option String := none
  /-- the environment variable that can give the value, with its value if it is set -/
  env : Option (String × Option String) := none
  /-- a character that splits one value into several -/
  delimiter : Option Char := none
  /-- whether the argument may be given more than once, its values adding up -/
  repeatable : Bool := false
  required : Bool := false
  /-- whether the argument is also accepted after a subcommand -/
  global : Bool := false
  deriving Repr, Inhabited

/-- A subcommand: its name, the sentence that describes it, and its own arguments. -/
structure Command where
  name : String
  about : String
  args : List Arg
  order : Nat := 999
  deriving Repr, Inhabited

/-- A program: its name and version, what it is, its arguments and subcommands. -/
structure Program where
  name : String
  version : String
  about : String
  args : List Arg
  commands : List Command
  deriving Repr, Inhabited

namespace Arg

/-- Whether the argument is given by position. -/
def isPositional (a : Arg) : Bool :=
  match a.shape with
  | .positional _ => true
  | _ => false

/-- Whether the argument is followed by a value. -/
def takesValue (a : Arg) : Bool :=
  match a.shape with
  | .option _ | .positional _ => true
  | _ => false

/-- The names a choice argument accepts. -/
def choices (a : Arg) : List String :=
  match a.kind with
  | .choice vs => vs.map (·.1)
  | _ => []

/-- Whether the choices carry help texts, which the long help lists one per line. -/
def choicesHaveHelp (a : Arg) : Bool :=
  match a.kind with
  | .choice vs => vs.any fun v => !v.2.isEmpty
  | _ => false

/-- What follows the spelling of an argument: ` <NAME>` for an option; for a positional
argument `<NAME>` when it is required and `[NAME]` otherwise, with `...` when it takes
several values. -/
def suffix (a : Arg) (required : Bool) : String :=
  match a.shape with
  | .option v => " <" ++ v ++ ">"
  | .positional v =>
    (if required then "<" ++ v ++ ">" else "[" ++ v ++ "]") ++ (if a.repeatable then "..." else "")
  | _ => ""

/-- The spelling of an argument as usage lines and messages show it: `--pid <PID>`,
`--json`, `<MOUNT_ID>`. -/
def render (a : Arg) (required : Bool := a.required) : String :=
  let name := match a.long, a.short with
    | some l, _ => "--" ++ l
    | none, some s => "-" ++ s.toString
    | none, none => ""
  name ++ a.suffix required

/-- The key that orders an argument among the options of a help page. -/
def sortKey (a : Arg) : Nat × String :=
  let key := match a.short, a.long with
    | some s, _ => s.toLower.toString ++ (if s.isLower then "0" else "1")
    | none, some l => l
    | none, none => "\x7b" ++ a.id
  (a.order, key)

end Arg

/-- The help switch of a command. When the command has a long help page, the switch says
how to reach the other page. -/
def helpArg (hasLongPage : Bool) : Arg :=
  if hasLongPage then
    { id := "help", long := some "help", short := some 'h', shape := .help,
      help := "Print help (see more with '--help')",
      longHelp := some "Print help (see a summary with '-h')" }
  else
    { id := "help", long := some "help", short := some 'h', shape := .help, help := "Print help" }

/-- The version switch of the program. -/
def versionArg : Arg :=
  { id := "version", long := some "version", short := some 'V', shape := .version,
    help := "Print version" }

end MountIndex.Cli

import MountIndex.Cli.Spec

/-!
# Scopes and usage lines

A scope is what is recognized at one point of a command line: the program with its own
arguments and subcommands, or a subcommand with its arguments and the program's global
ones. Each scope has a help switch, and the program also a version switch.

A usage line names the scope, then `[OPTIONS]` when it has optional arguments, then the
required positional arguments, the optional ones, and `<COMMAND>` when a subcommand must
follow. After a mistake the usage line may instead list the arguments that were given,
required ones included, options before positional arguments.
-/

namespace MountIndex.Cli

/-- The description of `help`, the subcommand that prints help pages. -/
def helpCommandAbout : String := "Print this message or the help of the given subcommand(s)"

/-- What is recognized at one point of a command line. -/
structure Scope where
  /-- the words that name the scope in usage lines -/
  path : String
  about : String
  /-- the arguments in the order they are declared, the help and version switches last -/
  args : List Arg
  /-- the subcommands, `help` aside -/
  commands : List Command
  /-- what the version switch prints, if the scope has one -/
  versionLine : String := ""
  deriving Inhabited

/-- Whether a help page has a long form: some argument has a long help text, or choices
with help texts. -/
def hasLongPage (args : List Arg) : Bool :=
  args.any fun a => a.longHelp.isSome || a.choicesHaveHelp

namespace Program

/-- The scope of the program itself. -/
def top (p : Program) : Scope :=
  { path := p.name, about := p.about, commands := p.commands,
    args := p.args ++ [helpArg (hasLongPage p.args), versionArg],
    versionLine := p.name ++ " " ++ p.version ++ "\n" }

/-- The scope of a subcommand: its arguments, then the program's global ones. -/
def scopeOf (p : Program) (c : Command) : Scope :=
  let args := c.args ++ p.args.filter (·.global)
  { path := p.name ++ " " ++ c.name, about := c.about, commands := [],
    args := args ++ [helpArg (hasLongPage args)] }

/-- The argument of the `help` subcommand: the subcommands whose help is wanted. -/
def commandArg : Arg :=
  { id := "subcommand", shape := .positional "COMMAND", repeatable := true,
    help := "Print help for the subcommand(s)" }

/-- The scope of the `help` subcommand, which has no switches of its own. -/
def helpScope (p : Program) : Scope :=
  { path := p.name ++ " help", about := helpCommandAbout, commands := [],
    args := [commandArg] }

/-- The names of the subcommands, `help` last. -/
def commandNames (p : Program) : List String := p.commands.map (·.name) ++ ["help"]

/-- The scope a subcommand name opens. -/
def scopeNamed (p : Program) (name : String) : Option Scope :=
  if name = "help" then some p.helpScope
  else (p.commands.find? (·.name == name)).map p.scopeOf

end Program

namespace Scope

/-- The positional arguments, in order. -/
def positionals (s : Scope) : List Arg := s.args.filter (·.isPositional)

/-- The positional argument at a place, counting from 1. -/
def positionalAt (s : Scope) (k : Nat) : Option Arg := s.positionals[k - 1]?

/-- The argument with an identifier. -/
def find? (s : Scope) (id : String) : Option Arg := s.args.find? (·.id == id)

/-- The argument with a long name. -/
def findLong? (s : Scope) (name : String) : Option Arg := s.args.find? (·.long == some name)

/-- The argument with a short name. -/
def findShort? (s : Scope) (c : Char) : Option Arg := s.args.find? (·.short == some c)

/-- The names of the subcommands, `help` last if there are any. -/
def commandNames (s : Scope) : List String :=
  if s.commands.isEmpty then [] else s.commands.map (·.name) ++ ["help"]

/-- The long names, in order. -/
def longNames (s : Scope) : List String := s.args.filterMap (·.long)

/-- Whether the usage line shows `[OPTIONS]`: some optional argument is not positional and
is neither the help nor the version switch. -/
def needsOptionsTag (s : Scope) : Bool :=
  s.args.any fun a =>
    !a.isPositional && !a.required && (match a.shape with | .help | .version => false | _ => true)

/-- The usage line of a scope. -/
def usage (s : Scope) : String :=
  s.path ++ (if s.needsOptionsTag then " [OPTIONS]" else "") ++
    String.join ((s.positionals.filter (·.required)).map fun a => " " ++ a.render true) ++
    String.join ((s.positionals.filter (!·.required)).map fun a => " " ++ a.render false) ++
    (if s.commands.isEmpty then "" else " <COMMAND>")

/-- Adds a text to a list unless it is there already. -/
def addNew (xs : List String) (x : String) : List String := if xs.contains x then xs else xs ++ [x]

/-- The usage line listing the given arguments, required ones included: options in the
order met, then positional arguments by place. -/
def usageWith (s : Scope) (used : List String) : String :=
  let ids := (s.args.filter (·.required)).map (·.id) ++ used
  let args := ids.filterMap s.find?
  let options := (args.filter (!·.isPositional)).foldl (fun acc a => addNew acc (a.render true)) []
  let places := s.positionals.filter fun p => args.any (·.id == p.id)
  s.path ++ String.join (options.map (" " ++ ·)) ++
    String.join (places.map fun a => " " ++ a.render true) ++
    (if s.commands.isEmpty then "" else " <COMMAND>")

end Scope

end MountIndex.Cli

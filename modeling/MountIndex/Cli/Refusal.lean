import MountIndex.Cli.Help
import MountIndex.Cli.Similar

/-!
# Refused command lines

Why a command line is not run, and the message that says so. A message starts with
`error: `, may offer similar words and tips, may show a usage line, and ends by pointing to
`--help`. Printing the help page or the version is also a way of not running the command;
those go to standard output and end the program successfully, the others go to standard
error with exit status 2.
-/

namespace MountIndex.Cli

/-- The kinds of refusal. -/
inductive RefusalKind where
  | displayHelp
  | displayVersion
  | displayHelpOnMissingArgumentOrSubcommand
  | invalidSubcommand
  | unknownArgument
  | valueValidation
  | invalidValue
  | argumentConflict
  | missingRequiredArgument
  | missingSubcommand
  | tooManyValues
  deriving Repr, DecidableEq, Inhabited

/-- The name of a kind. -/
def RefusalKind.name : RefusalKind → String
  | .displayHelp => "DisplayHelp"
  | .displayVersion => "DisplayVersion"
  | .displayHelpOnMissingArgumentOrSubcommand => "DisplayHelpOnMissingArgumentOrSubcommand"
  | .invalidSubcommand => "InvalidSubcommand"
  | .unknownArgument => "UnknownArgument"
  | .valueValidation => "ValueValidation"
  | .invalidValue => "InvalidValue"
  | .argumentConflict => "ArgumentConflict"
  | .missingRequiredArgument => "MissingRequiredArgument"
  | .missingSubcommand => "MissingSubcommand"
  | .tooManyValues => "TooManyValues"

/-- A refused command line: the kind and the text to print. -/
structure Refusal where
  kind : RefusalKind
  text : String
  deriving Repr, Inhabited

/-- Whether the text goes to standard output with success. -/
def Refusal.isInformation (r : Refusal) : Bool :=
  match r.kind with
  | .displayHelp | .displayVersion => true
  | _ => false

/-- The exit status after a refusal. -/
def Refusal.status (r : Refusal) : Nat := if r.isInformation then 0 else 2

/-- Words offered in place of a mistaken one. -/
inductive Offer where
  | subcommands (names : List String)
  | argument (spelling : String)
  | value (name : String)

/-- The sentence that offers words. -/
def Offer.sentence : Offer → String
  | .subcommands [n] => "a similar subcommand exists: '" ++ n ++ "'"
  | .subcommands ns => "some similar subcommands exist: " ++ ", ".intercalate (ns.map fun n => "'" ++ n ++ "'")
  | .argument s => "a similar argument exists: '" ++ s ++ "'"
  | .value n => "a similar value exists: '" ++ n ++ "'"

/-- Quotes a listed value that has blanks. -/
def listed (v : String) : String := if v.any Char.isWhitespace then Text.quote v else v

/-- A list of accepted values under a message. -/
def valueList (title : String) (values : List String) : String :=
  if values.isEmpty then "" else "\n  [" ++ title ++ ": " ++ ", ".intercalate (values.map listed) ++ "]"

/-- The text of an error message. -/
def errorText (body : String) (offers : List Offer) (tips : List String) (usage : Option String) :
    String :=
  let offered := String.join (offers.zipIdx.map fun (o, i) =>
    (if i = 0 then "\n\n" else "\n") ++ "  tip: " ++ o.sentence)
  let tipped :=
    if tips.isEmpty then ""
    else (if offers.isEmpty then "\n" else "") ++ String.join (tips.map ("\n  tip: " ++ ·))
  let usage := match usage with
    | some u => "\n\nUsage: " ++ u
    | none => ""
  "error: " ++ body ++ offered ++ tipped ++ usage ++ "\n\nFor more information, try '--help'.\n"

namespace Refusal

/-- A word that is neither an argument nor a subcommand here. -/
def unknownArgument (word : String) (offers : List Offer) (tips : List String) (usage : String) :
    Refusal :=
  ⟨.unknownArgument, errorText ("unexpected argument '" ++ word ++ "' found") offers tips (some usage)⟩

/-- A word where a subcommand was expected. -/
def unknownSubcommand (word : String) (offers : List Offer) (usage : String) : Refusal :=
  ⟨.invalidSubcommand, errorText ("unrecognized subcommand '" ++ word ++ "'") offers [] (some usage)⟩

/-- A value its argument cannot take. -/
def badValue (arg : Arg) (shown reason : String) : Refusal :=
  ⟨.valueValidation,
    errorText ("invalid value '" ++ shown ++ "' for '" ++ arg.render ++ "': " ++ reason) [] [] none⟩

/-- A missing value, or a value that is not one of the choices. -/
def refusedValue (arg : Arg) (value : String) : Refusal :=
  let body :=
    if value.isEmpty then "a value is required for '" ++ arg.render ++ "' but none was supplied"
    else "invalid value '" ++ value ++ "' for '" ++ arg.render ++ "'"
  let offers := match mostSimilar value arg.choices with
    | some v => [Offer.value v]
    | none => []
  ⟨.invalidValue, errorText (body ++ valueList "possible values" arg.choices) offers [] none⟩

/-- An argument given twice. -/
def givenTwice (arg : Arg) (usage : String) : Refusal :=
  ⟨.argumentConflict,
    errorText ("the argument '" ++ arg.render ++ "' cannot be used multiple times") [] [] (some usage)⟩

/-- Required arguments that were not given. -/
def missing (args : List Arg) (usage : String) : Refusal :=
  ⟨.missingRequiredArgument,
    errorText ("the following required arguments were not provided:" ++
      String.join (args.map fun a => "\n  " ++ a.render true)) [] [] (some usage)⟩

/-- A program run without a subcommand. -/
def noSubcommand (program : String) (names : List String) (usage : String) : Refusal :=
  ⟨.missingSubcommand,
    errorText ("'" ++ program ++ "' requires a subcommand but one was not provided" ++
      valueList "subcommands" names) [] [] (some usage)⟩

/-- A value attached to a switch. -/
def valueOnSwitch (arg : Arg) (value : String) (usage : String) : Refusal :=
  ⟨.tooManyValues,
    errorText ("unexpected value '" ++ value ++ "' for '" ++ arg.render ++
      "' found; no more were expected") [] [] (some usage)⟩

end Refusal

end MountIndex.Cli

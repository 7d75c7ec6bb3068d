import MountIndex.Cli.Refusal
import MountIndex.Cli.Value

/-!
# Reading a command line

Words are read left to right within a scope. A word that names a subcommand opens it
(except after `--`), `--` makes every later word a value, `--name` and `--name=value` name
an argument by its long name, `-abc` names switches by their short names, and any other
word is the value of the option just named or the next positional argument.

An option's value is checked when the option is complete, that is when the next argument
is named or the scope ends; so a bad value can be overtaken by a later unknown word, which
is reported first. A subcommand is read to its end, checked, and only then are the
program's own pending option and its required subcommand looked at. After reading, the
environment and the defaults fill in what was not given. A global argument given after the
subcommand wins over one given before it.
-/

namespace MountIndex.Cli

/-- Where a value came from, in rising rank. -/
inductive Origin where
  | default
  | environment
  | commandLine
  deriving Repr, DecidableEq, Inhabited

/-- The rank of an origin. -/
def Origin.rank : Origin → Nat
  | .default => 0
  | .environment => 1
  | .commandLine => 2

/-- An argument with its values. -/
structure Given where
  id : String
  origin : Origin
  values : List String
  deriving Repr, Inhabited

/-- The reading of one scope so far. -/
structure Progress where
  given : List Given := []
  /-- an argument whose values are collected but not yet checked -/
  pending : Option (Arg × List String) := none
  /-- an option waiting for its value -/
  waiting : Bool := false
  /-- the place of the next positional argument, from 1 -/
  place : Nat := 1
  /-- whether `--` was met -/
  escaped : Bool := false
  deriving Inhabited

namespace Progress

/-- Whether an argument has values. -/
def has (p : Progress) (id : String) : Bool := p.given.any (·.id == id)

/-- The arguments given rather than filled in with defaults, in the order met. -/
def givenIds (p : Progress) : List String :=
  (p.given.filter fun g => g.origin != .default).map (·.id)

/-- Adds values to an argument, which keeps its place if it already has some. -/
def add (p : Progress) (id : String) (origin : Origin) (values : List String) : Progress :=
  if p.has id then
    { p with given := p.given.map fun g => if g.id == id then { g with values := g.values ++ values } else g }
  else { p with given := p.given ++ [⟨id, origin, values⟩] }

end Progress

namespace Scope

/-- Notes an occurrence of an argument. A missing value, a second occurrence of an argument
that takes one, and the help and version switches stop the reading before anything is
noted. -/
def note (s : Scope) (p : Progress) (arg : Arg) (values : List String) (origin : Origin)
    (byLong : Bool) : Except Refusal Progress :=
  if origin == .commandLine && arg.takesValue && values.isEmpty then .error (Refusal.refusedValue arg "")
  else match arg.shape with
    | .help => .error ⟨.displayHelp, s.page byLong⟩
    | .version => .error ⟨.displayVersion, s.versionLine⟩
    | .switch =>
      if p.has arg.id then .error (Refusal.givenTwice arg s.usage)
      else .ok (p.add arg.id origin ["true"])
    | _ =>
      if p.has arg.id && !arg.repeatable then .error (Refusal.givenTwice arg s.usage)
      else .ok (p.add arg.id origin (values.flatMap (splitValues arg)))

/-- Checks the values of an occurrence, the first bad one refused. -/
def checkValues (arg : Arg) : List String → Except Refusal Unit
  | [] => .ok ()
  | v :: vs =>
    match checkValue arg v with
    | some (.invalid shown reason) => .error (Refusal.badValue arg shown reason)
    | some (.refused value) => .error (Refusal.refusedValue arg value)
    | none => checkValues arg vs

/-- Takes in an occurrence of an argument: notes it, then checks its values. -/
def accept (s : Scope) (p : Progress) (arg : Arg) (values : List String) (origin : Origin)
    (byLong : Bool) : Except Refusal Progress := do
  let p ← s.note p arg values origin byLong
  checkValues arg (values.flatMap (splitValues arg))
  pure p

/-- Completes the pending argument. -/
def settle (s : Scope) (p : Progress) : Except Refusal Progress :=
  match p.pending with
  | none => .ok p
  | some (arg, values) => s.accept { p with pending := none, waiting := false } arg values .commandLine true

/-- Completes the pending argument when the reading stops anyway: what could be noted is
noted, and a refusal is dropped. -/
def settleQuietly (s : Scope) (p : Progress) : Progress :=
  match p.pending with
  | none => p
  | some (arg, values) =>
    let q := { p with pending := none, waiting := false }
    match s.note q arg values .commandLine true with
    | .ok r => r
    | .error _ => q

/-- The usage line after a mistake: the plain one, or the one listing what was given. -/
def usageAfter (s : Scope) (used : List String) : String :=
  if used.isEmpty then s.usage else s.usageWith used

/-- The tip for a word that looks like an argument where a positional value may stand. -/
def valueTip (s : Scope) (p : Progress) (word : String) : List String :=
  if !p.escaped && !s.positionals.isEmpty then
    ["to pass '" ++ word ++ "' as a value, use '-- " ++ word ++ "'"]
  else []

/-- An unknown long name: a similar long name of the scope is offered, or else one of a
subcommand named later on the line. -/
def unknownLong (s : Scope) (subscopes : List (String × Scope)) (p : Progress) (name : String)
    (later : List String) : Refusal :=
  let word := "--" ++ name
  match mostSimilar name s.longNames with
  | some near =>
    let used := p.givenIds ++ (match s.findLong? near with
      | some a => if p.has a.id then [] else [a.id]
      | none => [])
    Refusal.unknownArgument word [.argument ("--" ++ near)] [] (s.usageAfter used)
  | none =>
    let found := subscopes.filterMap fun (cname, sc) =>
      match mostSimilar name sc.longNames, later.idxOf? cname with
      | some near, some place => some (place, cname, near)
      | _, _ => none
    let best := found.foldl (fun acc x => match acc with
      | some y => if x.1 < y.1 then some x else some y
      | none => some x) none
    match best with
    | some (_, cname, near) =>
      Refusal.unknownArgument word [] ["'" ++ cname ++ " --" ++ near ++ "' exists"] (s.usageAfter p.givenIds)
    | none => Refusal.unknownArgument word [] (s.valueTip p word) (s.usageAfter p.givenIds)

/-- A word with no place: not a subcommand, not a positional value. -/
def strayWord (s : Scope) (p : Progress) (word : String) : Refusal :=
  if p.escaped && s.commandNames.contains word then
    Refusal.unknownArgument "--" []
      ["subcommand '" ++ word ++ "' exists; to use it, remove the '--' before it"] s.usage
  else if s.commands.isEmpty then Refusal.unknownArgument word [] [] s.usage
  else
    match similar word s.commandNames with
    | [] => Refusal.unknownSubcommand word [] s.usage
    | near => Refusal.unknownSubcommand word [.subcommands near] s.usage

/-- Reads `--name` or `--name=value`. -/
def longWord (s : Scope) (subscopes : List (String × Scope)) (p : Progress) (body : String)
    (later : List String) : Except Refusal Progress :=
  let (name, attached) := match body.splitOn "=" with
    | [] => (body, none)
    | [n] => (n, none)
    | n :: vs => (n, some ("=".intercalate vs))
  match s.findLong? name with
  | some arg =>
    if arg.takesValue then
      match attached with
      | some v => do
        let p ← s.settle p
        s.accept p arg [v] .commandLine true
      | none => do
        let p ← s.settle p
        pure { p with pending := some (arg, []), waiting := true }
    else
      match attached with
      | some v =>
        let used := (p.givenIds.filter fun id => !((s.find? id).map (·.required)).getD false) ++ [arg.id]
        .error (Refusal.valueOnSwitch arg v (s.usageWith used))
      | none => do
        let p ← s.settle p
        s.accept p arg [] .commandLine true
  | none => .error (s.unknownLong subscopes (s.settleQuietly p) name later)

/-- Reads `-abc`: switches by their short names, or one option with its value attached. -/
def shortWord (s : Scope) (p : Progress) : List Char → Except Refusal Progress
  | [] => .ok p
  | c :: cs =>
    match s.findShort? c with
    | some arg =>
      if arg.takesValue then do
        let p ← s.settle p
        match cs with
        | [] => pure { p with pending := some (arg, []), waiting := true }
        | '=' :: rest => s.accept p arg [String.ofList rest] .commandLine false
        | rest => s.accept p arg [String.ofList rest] .commandLine false
      else do
        let p ← s.settle p
        let p ← s.accept p arg [] .commandLine false
        shortWord s p cs
    | none =>
      let p := s.settleQuietly p
      .error (Refusal.unknownArgument ("-" ++ c.toString) [] (s.valueTip p ("-" ++ c.toString)) s.usage)

/-- Where the reading of a scope stopped. -/
inductive Stop where
  | atEnd (p : Progress)
  | atCommand (p : Progress) (name : String) (later : List String)
  deriving Inhabited

/-- Reads a positional value. -/
def positionalWord (s : Scope) (p : Progress) (word : String) : Except Refusal Progress :=
  match s.positionalAt p.place with
  | some arg => do
    let p ← s.settle p
    pure { p with pending := some (arg, [word]), waiting := false, place := p.place + 1 }
  | none => .error (s.strayWord (s.settleQuietly p) word)

/-- Reads the words of a scope until they end or a subcommand is named. -/
def scan (s : Scope) (subscopes : List (String × Scope)) : Progress → List String → Except Refusal Stop
  | p, [] => .ok (.atEnd p)
  | p, w :: later =>
    if p.escaped then do
      let p ← s.positionalWord p w
      scan s subscopes p later
    else if s.commandNames.contains w then .ok (.atCommand p w later)
    else if w == "--" then scan s subscopes { p with escaped := true, waiting := false } later
    else if w.startsWith "--" then do
      let p ← s.longWord subscopes p (w.drop 2).toString later
      scan s subscopes p later
    else if w.startsWith "-" && w.length > 1 then do
      let p ← s.shortWord { p with waiting := false } (w.toList.drop 1)
      scan s subscopes p later
    else if p.waiting then
      let pending := p.pending.map fun (a, vs) => (a, vs ++ [w])
      scan s subscopes { p with waiting := false, pending } later
    else do
      let p ← s.positionalWord p w
      scan s subscopes p later

/-- Ends the reading of a scope: completes the pending argument, then fills in values from
the environment and from the defaults. -/
def finish (s : Scope) (p : Progress) : Except Refusal Progress := do
  let p ← s.settle p
  let p ← s.args.foldlM (fun p a =>
    match a.env with
    | some (_, some v) => if p.has a.id then pure p else s.accept p a [v] .environment true
    | _ => pure p) p
  pure (s.args.foldl (fun p a =>
    if p.has a.id then p
    else match a.default, a.shape with
      | some d, _ => p.add a.id .default (splitValues a d)
      | none, .switch => p.add a.id .default ["false"]
      | none, _ => p) p)

/-- Refuses a scope whose required arguments were not all given. -/
def requireAll (s : Scope) (p : Progress) : Except Refusal Unit :=
  match s.args.filter fun a => a.required && !p.has a.id with
  | [] => .ok ()
  | missing => .error (Refusal.missing missing (s.usageWith (p.givenIds ++ missing.map (·.id))))

end Scope

/-- A command line that was accepted: the subcommand, and the values of the arguments, those
of the program's global arguments included. -/
structure Matches where
  command : String
  given : List Given
  deriving Inhabited

/-- The value of an argument. -/
def Matches.values (m : Matches) (id : String) : List String :=
  ((m.given.find? (·.id == id)).map (·.values)).getD []

/-- Whether an argument was given or defaulted at all. -/
def Matches.has (m : Matches) (id : String) : Bool := m.given.any (·.id == id)

/-- The values of the subcommand's arguments with the program's global ones: a global value
from before the subcommand is kept only when it ranks above the one after it. -/
def mergeGlobals (outer inner : List Given) (globals : List String) : List Given :=
  let pick := inner.map fun g =>
    match outer.find? (·.id == g.id) with
    | some o => if globals.contains g.id && o.origin.rank > g.origin.rank then o else g
    | none => g
  pick ++ outer.filter fun o => globals.contains o.id && !inner.any (·.id == o.id)

/-- The help page the `help` subcommand asks for: each word names a subcommand of the
scope before it. -/
def helpFor (prog : Program) : Scope → Bool → List String → Refusal
  | s, _, [] => ⟨.displayHelp, s.page true⟩
  | s, atTop, w :: later =>
    match (if atTop then prog.scopeNamed w else none) with
    | some sub => helpFor prog sub false later
    | none => Refusal.unknownSubcommand w [] s.usage

/-- Reads a command line (the words after the program's name). -/
def Program.read (prog : Program) (words : List String) : Except Refusal Matches := do
  let top := prog.top
  let subscopes := prog.commands.map (fun c => (c.name, prog.scopeOf c)) ++ [("help", prog.helpScope)]
  match ← top.scan subscopes {} words with
  | .atEnd p =>
    let p ← top.finish p
    if p.givenIds.isEmpty then
      .error ⟨.displayHelpOnMissingArgumentOrSubcommand, top.page false⟩
    else .error (Refusal.noSubcommand prog.name prog.commandNames top.usage)
  | .atCommand p name later =>
    match prog.commands.find? (·.name == name) with
    | none => .error (helpFor prog top true later)
    | some c =>
      let sub := prog.scopeOf c
      let q ← match ← sub.scan [] {} later with
        | .atEnd q => pure q
        | .atCommand q _ _ => pure q
      let q ← sub.finish q
      sub.requireAll q
      let p ← top.finish p
      pure ⟨name, mergeGlobals p.given q.given ((prog.args.filter (·.global)).map (·.id))⟩

end MountIndex.Cli

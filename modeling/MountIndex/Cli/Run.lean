import MountIndex.Cli.Invocation
import MountIndex.Cli.Output
import MountIndex.Config.Load

/-!
# Running a command

A run reads the configuration (the file named on the command line, or the defaults, then
the proc root and the fallback switch of the command line over it), builds a cache that
reads mount tables from the proc filesystem, and does what the subcommand asks. A failure
is a chain of messages: what was being done, then the error, then the errors below it.

`watch` loads the table and then waits to be interrupted; what it prints then is computed
from the state it reached, which is why a run can stop while watching.
-/

namespace MountIndex.Cli

/-- A chain of messages, outermost first. -/
structure Failure where
  chain : List String
  deriving Repr, DecidableEq, Inhabited

namespace Failure

/-- The chain of an error: its message, then its causes. -/
def ofError (e : MountError) : Failure := ⟨e.message :: e.causes⟩

/-- Says what was being done when a failure happened. -/
def within (context : String) (f : Failure) : Failure := ⟨context :: f.chain⟩

/-- The chain on one line, joined by `: `. -/
def summary (f : Failure) : String := ": ".intercalate f.chain

/-- Right-aligns a number in five columns. -/
def number (n : Nat) : String :=
  let s := toString n
  String.ofList (List.replicate (5 - s.length) ' ') ++ s

/-- A cause indented under `Caused by:`, numbered when there are several; its later lines
line up with its first. -/
def causeText (numbered : Option Nat) (cause : String) : String :=
  let (first, rest) := match numbered with
    | some n => (number n ++ ": ", "       ")
    | none => ("    ", "    ")
  first ++ ("\n" ++ rest).intercalate (cause.splitOn "\n")

/-- The report printed when the program ends with a failure. -/
def report (f : Failure) : String :=
  match f.chain with
  | [] => "Error: \n"
  | top :: causes =>
    let below := match causes with
      | [] => ""
      | [c] => "\n\nCaused by:\n" ++ causeText none c
      | cs => "\n\nCaused by:" ++ String.join (cs.zipIdx.map fun (c, i) => "\n" ++ causeText (some i) c)
    "Error: " ++ top ++ below ++ "\n"

end Failure

/-- The configuration a command line runs with. -/
def Invocation.config (inv : Invocation) (files : Files) : Except Failure Config := do
  let c ← match inv.configPath with
    | some path =>
      match Config.load files path with
      | .ok c => pure c
      | .error e => throw ((Failure.ofError e).within ("failed to load config " ++ path))
    | none => pure {}
  let c := match inv.procRoot with
    | some root => { c with procRoot := root }
    | none => c
  pure (if inv.noProcfs then { c with useProcfs := false } else c)

/-- How a run ended. -/
inductive Ending where
  | done
  | failed (f : Failure)
  /-- loaded, and waiting to be interrupted -/
  | watching (r : Resolver) (pid : Nat) (dump : Bool)
  deriving Inhabited

/-- What a run printed, and how it ended. -/
structure Outcome where
  stdout : String := ""
  ending : Ending := .done
  deriving Inhabited

/-- A cache reading mount tables from the files under the configured proc root. -/
def buildResolver (config : Config) (workloads : Workloads) (files : Files) :
    Except Failure Resolver :=
  match Resolver.create config workloads { root := config.procRoot, files } .discard with
  | .ok r => .ok r
  | .error e => .error ((Failure.ofError e).within "invalid resolver configuration")

/-- Adds context to the error of a step. -/
def step {α : Type} (context : String) : Except MountError α → Except Failure α
  | .ok v => .ok v
  | .error e => .error ((Failure.ofError e).within context)

/-- `snapshot`: loads the table of a process and prints the cached mounts, resolving their
paths at the instant `now`. -/
def runSnapshot (config : Config) (files : Files) (pid : Nat) (json : Bool) (now : Nat) :
    Except Failure String := do
  let r ← buildResolver config .none files
  let (r, res) := r.syncCache pid
  step ("failed to load mount table of pid " ++ toString pid) res
  let (_, rows) := r.rows pid now
  pure (if json then rowsJson rows else tableText rows)

/-- The answer of `resolve` for one target, at the instant `now`. -/
def answer (r : Resolver) (id pid : Nat) (container : String) (now : Nat) :
    Target → Except MountError String
  | .path => (r.resolvePath id pid container now).2
  | .root => (r.resolveRoot id pid container now).2
  | .fs => (r.resolveFs id pid container now).2
  | .record =>
    let (r, found) := r.resolveMount id pid container now
    match found with
    | .error e => .error e
    | .ok m =>
      let (r, path) := r.resolvePath id pid container now
      let row := Row.ofMount m (match path with | .ok p => some p | .error _ => none) (r.stateOf id)
      .ok ((rowJson row).pretty 0)

/-- `resolve`: resolves one mount ID the way an event would, at the instant `now`. -/
def runResolve (config : Config) (files : Files) (id pid : Nat) (container : String)
    (workloadPids : List Nat) (what : Target) (cold : Bool) (now : Nat) :
    Except Failure String := do
  let workloads : Workloads :=
    if !container.isEmpty && !workloadPids.isEmpty then .table [(container, workloadPids)]
    else .table []
  let r ← buildResolver config workloads files
  let r ← if cold then pure r
    else
      let (r, res) := r.syncCache 1
      step "failed to load the init mount table" res
      pure r
  let text ← step ("failed to resolve mount " ++ toString id) (answer r id pid container now what)
  pure (text ++ "\n")

/-- Runs a command line against the files it can read, at the instant `now`. -/
def Invocation.run (inv : Invocation) (files : Files) (now : Nat) : Outcome :=
  match inv.config files with
  | .error f => { ending := .failed f }
  | .ok config =>
    match inv.action with
    | .snapshot pid json =>
      match runSnapshot config files pid json now with
      | .ok out => { stdout := out }
      | .error f => { ending := .failed f }
    | .resolve id pid container pids what cold =>
      match runResolve config files id pid container pids what cold now with
      | .ok out => { stdout := out }
      | .error f => { ending := .failed f }
    | .watch pid _ _ dump =>
      match buildResolver config .none files with
      | .error f => { ending := .failed f }
      | .ok r =>
        let (r, res) := r.syncCache pid
        match step ("failed to load mount table of pid " ++ toString pid) res with
        | .error f => { ending := .failed f }
        | .ok () => { ending := .watching r pid dump }

/-- What `watch` prints once interrupted at the instant `now`: with `--dump`, the table of
cached mounts. -/
def interrupted (r : Resolver) (pid : Nat) (dump : Bool) (now : Nat) : String :=
  if dump then tableText (r.rows pid now).2 else ""

/-- How the program ends: its exit status and what it printed on each stream. -/
structure Exit where
  status : Nat
  stdout : String
  stderr : String
  deriving Repr, DecidableEq, Inhabited

/-- How the program ends after a run; a `watch` that loaded its table is interrupted at
once, at the instant `now`. -/
def Outcome.exit (o : Outcome) (now : Nat) : Exit :=
  match o.ending with
  | .done => ⟨0, o.stdout, ""⟩
  | .failed f => ⟨1, o.stdout, f.report⟩
  | .watching r pid dump => ⟨0, o.stdout ++ interrupted r pid dump now, ""⟩

/-- Runs the program on a command line (the words after its name), in an environment, with
the files it can read, at the instant `now`. A refused command line prints the help page or
the version on standard output, and any other refusal on standard error. -/
def runProgram (env : List (String × String)) (words : List String) (files : Files)
    (now : Nat) : Exit :=
  match readCommandLine env words with
  | .error r => if r.isInformation then ⟨r.status, r.text, ""⟩ else ⟨r.status, "", r.text⟩
  | .ok inv => ((inv.run files now).exit now)

end MountIndex.Cli

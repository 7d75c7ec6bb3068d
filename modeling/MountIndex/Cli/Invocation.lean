import MountIndex.Cli.Parse
import MountIndex.Cli.Interface

/-!
# What a command line asks for

The accepted command line of `mntscope` as values: the subcommand with its arguments, and
the program's arguments.
-/

namespace MountIndex.Cli

/-- What `resolve` prints. -/
inductive Target where
  | path
  | root
  | fs
  | record
  deriving Repr, DecidableEq, Inhabited

/-- The name of a target. -/
def Target.name : Target → String
  | .path => "path"
  | .root => "root"
  | .fs => "fs"
  | .record => "record"

/-- The target with a name; the path for any other name. -/
def Target.ofName : String → Target
  | "root" => .root
  | "fs" => .fs
  | "record" => .record
  | _ => .path

/-- A subcommand with its arguments. -/
inductive Action where
  | snapshot (pid : Nat) (json : Bool)
  | resolve (mountId pid : Nat) (container : String) (workloadPids : List Nat) (what : Target)
      (cold : Bool)
  | watch (pid resyncSecs statsSecs : Nat) (dump : Bool)
  deriving Repr, Inhabited

/-- A command line of `mntscope`. -/
structure Invocation where
  action : Action
  configPath : Option String := none
  procRoot : Option String := none
  noProcfs : Bool := false
  jsonLogs : Bool := false
  deriving Repr, Inhabited

namespace Matches

/-- The single value of an argument. -/
def text? (m : Matches) (id : String) : Option String := (m.values id).head?

/-- A number argument. -/
def number (m : Matches) (id : String) : Nat := numberOf ((m.text? id).getD "")

/-- A switch. -/
def switch (m : Matches) (id : String) : Bool := m.text? id == some "true"

/-- The invocation a command line stands for. -/
def invocation (m : Matches) : Invocation :=
  let action := match m.command with
    | "snapshot" => Action.snapshot (m.number "pid") (m.switch "json")
    | "resolve" =>
      .resolve (m.number "mount_id") (m.number "pid") ((m.text? "container").getD "")
        ((m.values "workload_pids").map numberOf) (Target.ofName ((m.text? "what").getD ""))
        (m.switch "cold")
    | _ => .watch (m.number "pid") (m.number "resync_secs") (m.number "stats_secs") (m.switch "dump")
  { action, configPath := m.text? "config", procRoot := m.text? "proc_root",
    noProcfs := m.switch "no_procfs", jsonLogs := m.switch "json_logs" }

end Matches

/-- Reads the words after the program's name, in an environment. -/
def readCommandLine (env : List (String × String)) (words : List String) : Except Refusal Invocation :=
  Matches.invocation <$> (mntscope env).read words

end MountIndex.Cli

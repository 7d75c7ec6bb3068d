import MountIndex.Cli.Spec

/-!
# The `mntscope` command line

The program's arguments and its three subcommands. The places in the help listing follow
the order in which the arguments are declared, counted per command and skipping positional
arguments; the program's own arguments come after its three subcommands, which take the
places 0 to 2, so an argument that is also accepted after a subcommand keeps a place from 3
on there.
-/

namespace MountIndex.Cli

/-- The value of an environment variable, if it is set. -/
def lookupEnv (env : List (String × String)) (name : String) : Option String :=
  (env.find? (·.1 == name)).map (·.2)

/-- The process ID argument of a subcommand. -/
def pidArg (help : String) : Arg :=
  { id := "pid", long := some "pid", shape := .option "PID", kind := .u32, help,
    order := 0, default := some "1" }

/-- `snapshot`: load a mount table and print the cached mounts. -/
def snapshotCommand : Command :=
  { name := "snapshot", order := 0,
    about := "Load the mount table of a process and print the cached mounts",
    args := [
      pidArg "Process whose mount table is loaded",
      { id := "json", long := some "json", shape := .switch, help := "Print the table as JSON",
        order := 1 }] }

/-- What `resolve` can print. -/
def targetChoices : List (String × String) :=
  [("path", "Absolute mount path"), ("root", "Root within the source filesystem"),
   ("fs", "Filesystem type"), ("record", "The whole record as JSON")]

/-- `resolve`: resolve one mount ID the way an event would. -/
def resolveCommand : Command :=
  { name := "resolve", order := 1, about := "Resolve a single mount ID",
    args := [
      { id := "mount_id", shape := .positional "MOUNT_ID", kind := .u32,
        help := "Mount ID to resolve", required := true },
      pidArg "PID of the event referencing the mount",
      { id := "container", long := some "container", shape := .option "CONTAINER",
        help := "Container ID of the event, empty for host processes", order := 1,
        default := some "" },
      { id := "workload_pids", long := some "workload-pids", shape := .option "WORKLOAD_PIDS",
        kind := .u32, help := "PIDs known to run in the container", order := 2,
        delimiter := some ',', repeatable := true },
      { id := "what", long := some "what", shape := .option "WHAT", kind := .choice targetChoices,
        help := "Field to print", order := 3, default := some "path" },
      { id := "cold", long := some "cold", shape := .switch, order := 4,
        help := "Start from an empty cache instead of loading the init mount table" }] }

/-- `watch`: keep the cache in step with a mount table until interrupted. -/
def watchCommand : Command :=
  { name := "watch", order := 2, about := "Track the mount table of a process until interrupted",
    args := [
      pidArg "Process whose mount table is tracked",
      { id := "resync_secs", long := some "resync-secs", shape := .option "RESYNC_SECS",
        kind := .u64, help := "Seconds between two rescans of the mount table", order := 1,
        default := some "10" },
      { id := "stats_secs", long := some "stats-secs", shape := .option "STATS_SECS",
        kind := .u64, help := "Seconds between two stats flushes", order := 2,
        default := some "30" },
      { id := "dump", long := some "dump", shape := .switch, order := 3,
        help := "Print the cached table on exit" }] }

/-- The name of the variable that can give the configuration path. -/
def configVariable : String := "MNTSCOPE_CONFIG"

/-- The name of the variable that can give the proc root. -/
def procRootVariable : String := "MNTSCOPE_PROC_ROOT"

/-- The command line of `mntscope`, in an environment. -/
def mntscope (env : List (String × String)) : Program :=
  { name := "mntscope", version := "0.1.0",
    about := "mountscope — kernel mount ID resolution cache",
    commands := [snapshotCommand, resolveCommand, watchCommand],
    args := [
      { id := "config", long := some "config", shape := .option "CONFIG", kind := .path,
        help := "Path to a JSON resolver configuration", order := 3, global := true,
        env := some (configVariable, lookupEnv env configVariable) },
      { id := "proc_root", long := some "proc-root", shape := .option "PROC_ROOT", kind := .path,
        help := "Root of the proc filesystem (overrides the configuration)", order := 4,
        global := true, env := some (procRootVariable, lookupEnv env procRootVariable) },
      { id := "no_procfs", long := some "no-procfs", shape := .switch, order := 5, global := true,
        help := "Disable the procfs fallback on cache misses" },
      { id := "json_logs", long := some "json-logs", shape := .switch, order := 6, global := true,
        help := "Emit logs as JSON lines" }] }

end MountIndex.Cli

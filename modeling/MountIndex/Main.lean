import MountIndex.Cli.Run

/-!
# The `mntscope` program

Reads the command line and the two environment variables it knows, loads the files the
command may read (the configuration file and the mount tables of the processes it names),
runs the command, and prints. `watch` waits for its standard input to end, which stands for
the interrupt that ends it, and then prints what it was asked to dump.
-/

open MountIndex MountIndex.Cli

/-- Adds a file to the in-memory files when it can be read. -/
def loadFile (files : Files) (path : String) : IO Files := do
  try
    let bytes ← IO.FS.readBinFile path
    pure (files.write path bytes.toList)
  catch _ => pure files

/-- The processes whose mount tables a command may read. -/
def tablePids : Action → List Nat
  | .snapshot pid _ => [pid]
  | .resolve _ pid _ pids _ _ => [1, pid] ++ pids
  | .watch pid _ _ _ => [pid]

/-- Loads the files a command line may read. -/
def gatherFiles (inv : Invocation) : IO Files := do
  let files ← match inv.configPath with
    | some path => loadFile {} path
    | none => pure {}
  match inv.config files with
  | .error _ => pure files
  | .ok config =>
    (tablePids inv.action).foldlM (fun files pid =>
      loadFile files (pathPush (pathPush config.procRoot (toString pid)) "mountinfo")) files

/-- Reads standard input to its end. -/
partial def waitForEnd (stream : IO.FS.Stream) : IO Unit := do
  let line ← stream.getLine
  if line.isEmpty then pure () else waitForEnd stream

def main (args : List String) : IO UInt32 := do
  let env ← [configVariable, procRootVariable].filterMapM fun name => do
    pure ((← IO.getEnv name).map fun v => (name, v))
  match readCommandLine env args with
  | .error r =>
    if r.isInformation then IO.print r.text else IO.eprint r.text
    pure r.status.toUInt32
  | .ok inv =>
    let outcome := inv.run (← gatherFiles inv) (← IO.monoNanosNow)
    IO.print outcome.stdout
    match outcome.ending with
    | .done => pure 0
    | .failed f =>
      IO.eprint f.report
      pure 1
    | .watching r pid dump =>
      waitForEnd (← IO.getStdin)
      IO.print (interrupted r pid dump (← IO.monoNanosNow))
      pure 0

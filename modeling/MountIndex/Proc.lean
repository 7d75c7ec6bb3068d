import MountIndex.Files

/-!
Where mount tables come from: the file `<root>/<pid>/mountinfo` of a proc filesystem,
held in memory. A source can keep a log of the process IDs whose tables were read.
-/

namespace MountIndex

/-- Reads a mount table text; a line that does not fit is reported with the file's path. -/
def Table.read (path text : String) : Except MountError (List Table.Entry) :=
  match Table.parse text with
  | .ok entries => .ok entries
  | .error (n, f) => .error (.table path n f)

/-- A proc filesystem: its root, its files, and, when reads are logged, the process IDs
read since the log was last taken, oldest first. -/
structure Proc where
  root : String
  files : Files := {}
  log : Option (List Nat) := none
  deriving Inhabited

namespace Proc

/-- The path of the mount table of a process. -/
def tablePath (p : Proc) (pid : Nat) : String :=
  pathPush (pathPush p.root (toString pid)) "mountinfo"

/-- Installs the mount table of a process. -/
def setTable (p : Proc) (pid : Nat) (bytes : List UInt8) : Proc :=
  { p with files := p.files.write (p.tablePath pid) bytes }

/-- Removes the directory of a process. -/
def dropTable (p : Proc) (pid : Nat) : Proc :=
  { p with files := p.files.remove (pathPush p.root (toString pid)) }

/-- Reads and parses the mount table of a process, logging the read. -/
def readTable (p : Proc) (pid : Nat) : Proc × Except MountError (List Table.Entry) :=
  let p' := { p with log := p.log.map (· ++ [pid]) }
  let path := p.tablePath pid
  match p.files.readText path with
  | .error fault => (p', .error (.io path fault))
  | .ok text => (p', Table.read path text)

/-- Takes the log of reads, leaving it empty. -/
def takeLog (p : Proc) : Proc × Option (List Nat) :=
  ({ p with log := p.log.map fun _ => [] }, p.log)

end Proc

end MountIndex

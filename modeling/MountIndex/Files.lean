import MountIndex.Error

/-!
A directory of files held in memory: the files the cache reads (mount tables under a proc
root, configuration files). Paths are compared after dropping empty and `.` parts, so
`proc//1/./mountinfo` and `proc/1/mountinfo` name the same file; a rooted path never names
the same file as a relative one.
-/

namespace MountIndex

/-- The parts of a path that name a file, with whether the path is rooted. -/
def pathKey (p : String) : Bool × List String :=
  (p.startsWith "/", (p.splitOn "/").filter fun part => part ≠ "" ∧ part ≠ ".")

/-- Appends a relative part to a path with one separator; an empty base gives the part
itself, and a rooted part replaces the base. -/
def pathPush (base part : String) : String :=
  if part.startsWith "/" ∨ base.isEmpty then part
  else if base.endsWith "/" then base ++ part
  else base ++ "/" ++ part

/-- Files with their bytes, each under the key of its path. -/
structure Files where
  entries : List ((Bool × List String) × List UInt8) := []
  deriving Inhabited

namespace Files

/-- Writes a file, replacing one at the same path. -/
def write (fs : Files) (path : String) (bytes : List UInt8) : Files :=
  let k := pathKey path
  { entries := (fs.entries.filter fun e => e.1 ≠ k) ++ [(k, bytes)] }

/-- Removes a file or a whole directory. -/
def remove (fs : Files) (path : String) : Files :=
  let (rooted, parts) := pathKey path
  { entries := fs.entries.filter fun e => !(e.1.1 = rooted ∧ parts <+: e.1.2) }

/-- Reads a file. A path with files below it is a directory; a path that goes on below a
file is not a directory. -/
def read (fs : Files) (path : String) : Except IoFault (List UInt8) :=
  let (rooted, parts) := pathKey path
  match fs.entries.find? (fun e => e.1 = (rooted, parts)) with
  | some e => .ok e.2
  | none =>
    if fs.entries.any (fun e => e.1.1 = rooted ∧ parts <+: e.1.2) then .error .isDirectory
    else if fs.entries.any (fun e => e.1.1 = rooted ∧ e.1.2 <+: parts) then .error .notDirectory
    else .error .notFound

/-- Reads a file as UTF-8 text. -/
def readText (fs : Files) (path : String) : Except IoFault String := do
  let bytes ← fs.read path
  match Text.Utf8.decodeStrict? bytes with
  | some s => pure s
  | none => throw .invalidUtf8

end Files

end MountIndex

/-!
Slash-separated paths as the mount cache writes them: lexical cleaning, which drops empty
and `.` parts and resolves `..` against the part before it, and joining a parent path with
a child path.
-/

namespace MountIndex.Path

/-- One step of cleaning: the parts kept so far, last part first. A `..` removes the part
before it unless that part is itself `..`; with nothing to remove it is kept only in a
relative path, since a rooted path cannot climb above `/`. -/
def push (rooted : Bool) (kept : List String) (part : String) : List String :=
  if part = "" ∨ part = "." then kept
  else if part = ".." then
    match kept with
    | last :: rest => if last ≠ ".." then rest else if rooted then kept else ".." :: kept
    | [] => if rooted then [] else [".."]
  else part :: kept

/-- The parts of a path after cleaning, in order. -/
def parts (path : String) : List String :=
  ((path.splitOn "/").foldl (push (path.startsWith "/")) []).reverse

/-- Lexically cleaned form of a path: a rooted path stays rooted, and an empty relative path
becomes `.`. -/
def clean (path : String) : String :=
  let body := String.intercalate "/" (parts path)
  if path.startsWith "/" then "/" ++ body
  else if body.isEmpty then "."
  else body

/-- Joins a parent path and a child path with one `/` and cleans the result; an empty side
is left out, and two empty sides give the empty path. -/
def join (parent child : String) : String :=
  if parent.isEmpty then
    if child.isEmpty then "" else clean child
  else if child.isEmpty then clean parent
  else clean (parent ++ "/" ++ child)

end MountIndex.Path

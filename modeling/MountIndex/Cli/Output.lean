import MountIndex.Resolver.Report
import MountIndex.Json.Value

/-!
# Printed reports

The table of cached mounts, with columns padded to fixed widths counted in characters,
and the same rows as indented JSON with the fields in a fixed order.
-/

namespace MountIndex.Cli

/-- Pads a text on the right to a width counted in characters. -/
def padRight (s : String) (width : Nat) : String :=
  s ++ String.ofList (List.replicate (width - s.length) ' ')

/-- One line of the mount table. -/
def tableLine (id parent device fsType state path root : String) : String :=
  padRight id 8 ++ " " ++ padRight parent 8 ++ " " ++ padRight device 10 ++ " " ++
    padRight fsType 12 ++ " " ++ padRight state 16 ++ " " ++ padRight path 40 ++ " " ++ root ++ "\n"

/-- The mount table: a header line, then one line per row. -/
def tableText (rows : List Row) : String :=
  tableLine "ID" "PARENT" "DEVICE" "FSTYPE" "STATE" "PATH" "ROOT" ++
    String.join (rows.map fun r =>
      tableLine (toString r.id) (toString r.parent) r.device r.fsType r.state r.path r.root)

/-- A row as a JSON object. -/
def rowJson (r : Row) : Json.Value :=
  .object [("id", .number (.unsigned r.id)), ("parent", .number (.unsigned r.parent)),
    ("device", .string r.device), ("fs_type", .string r.fsType), ("path", .string r.path),
    ("root", .string r.root), ("state", .string r.state)]

/-- The rows as an indented JSON array, on its own lines. -/
def rowsJson (rows : List Row) : String :=
  (Json.Value.array (rows.map rowJson)).pretty 0 ++ "\n"

end MountIndex.Cli

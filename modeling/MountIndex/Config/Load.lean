import MountIndex.Config.Text
import MountIndex.Files

/-!
Loading a configuration file: read it, read the configuration from its text, and check it.
-/

namespace MountIndex

/-- Loads and checks the configuration in a file. -/
def Config.load (files : Files) (path : String) : Except MountError Config := do
  let text ← match files.readText path with
    | .ok t => pure t
    | .error fault => throw (.io path fault)
  let c ← match Config.ofText text with
    | .ok c => pure c
    | .error m => throw (.serialization m)
  c.validate

end MountIndex

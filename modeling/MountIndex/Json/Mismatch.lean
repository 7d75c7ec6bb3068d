import MountIndex.Json.Value
import MountIndex.Text.Quoted

/-!
The texts of reading errors that concern what a value holds rather than where it stands:
a value of the wrong kind, a value out of range, a sequence of the wrong length, and
missing, unknown or repeated fields.
-/

namespace MountIndex.Json

/-- What was found where something else was expected. -/
inductive Found where
  | null
  | bool (b : Bool)
  | unsigned (n : Nat)
  | signed (n : Int)
  | float (f : Float)
  | string (s : String)
  | sequence
  | map
  deriving Inhabited

/-- How a found value is described. -/
def Found.describe : Found → String
  | .null => "null"
  | .bool b => "boolean `" ++ (if b then "true" else "false") ++ "`"
  | .unsigned n => "integer `" ++ toString n ++ "`"
  | .signed n => "integer `" ++ toString n ++ "`"
  | .float f => "floating point `" ++ floatText f ++ "`"
  | .string s => "string " ++ Text.quote s
  | .sequence => "sequence"
  | .map => "map"

/-- What a JSON value is, as a found value. -/
def Value.found : Value → Found
  | .null => .null
  | .bool b => .bool b
  | .number (.unsigned n) => .unsigned n
  | .number (.negative n) => .signed n
  | .number (.float f) => .float f
  | .string s => .string s
  | .array _ => .sequence
  | .object _ => .map

/-- A number as a found value. -/
def Number.found : Number → Found
  | .unsigned n => .unsigned n
  | .negative n => .signed n
  | .float f => .float f

/-- A value of the wrong kind. -/
def invalidType (found : Found) (expected : String) : String :=
  "invalid type: " ++ found.describe ++ ", expected " ++ expected

/-- A value of the right kind out of range. -/
def invalidValue (found : Found) (expected : String) : String :=
  "invalid value: " ++ found.describe ++ ", expected " ++ expected

/-- A sequence of the wrong length. -/
def invalidLength (n : Nat) (expected : String) : String :=
  "invalid length " ++ toString n ++ ", expected " ++ expected

/-- A field that must be present. -/
def missingField (name : String) : String := "missing field `" ++ name ++ "`"

/-- A field given twice. -/
def duplicateField (name : String) : String := "duplicate field `" ++ name ++ "`"

/-- A list of names as `a`, `a` or `b`, or one of `a`, `b`, `c`. -/
def oneOf (names : List String) : String :=
  let q := names.map fun n => "`" ++ n ++ "`"
  match q with
  | [a] => a
  | [a, b] => a ++ " or " ++ b
  | _ => "one of " ++ ", ".intercalate q

/-- A field that the record does not have. -/
def unknownField (name : String) (known : List String) : String :=
  if known.isEmpty then "unknown field `" ++ name ++ "`, there are no fields"
  else "unknown field `" ++ name ++ "`, expected " ++ oneOf known

end MountIndex.Json

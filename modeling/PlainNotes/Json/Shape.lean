import PlainNotes.Decimal.Shortest
import PlainNotes.Json.Basic
import PlainNotes.Text.Digits
import PlainNotes.Text.Display

/-!
# Values of the wrong shape

What can be wrong with a value that should have a given shape, and the wording of it.
-/

namespace PlainNotes.Json

/-- What stands where something else was expected. -/
inductive Found
  | null
  | bool (value : Bool)
  | num (value : Number)
  | str (text : String)
  | list
  | object

def Found.text : Found → String
  | null => "null"
  | bool true => "boolean `true`"
  | bool false => "boolean `false`"
  | num (.int i) => "integer `" ++ Text.intText i ++ "`"
  | num (.float x) => "floating point `" ++ Decimal.ofFloat .ofMessages x ++ "`"
  | str s => "string " ++ Text.displayed s
  | list => "sequence"
  | object => "map"

def found : Json → Found
  | null => .null
  | bool b => .bool b
  | num n => .num n
  | str s => .str s
  | list _ => .list
  | object _ => .object

/-- Why a value does not have a shape. -/
inductive ShapeFault
  | wrongType (found : Found) (expected : String)
  | wrongLength (length : Nat) (expected : String)
  | missingField (name : String)
  | duplicateField (name : String)
  | unknownVariant (name : String) (known : List String)
  /-- A choice is written as an object, but not with one field. -/
  | notOneField

/-- A name as messages show it. -/
def named (name : String) : String :=
  "`" ++ name ++ "`"

def ShapeFault.message : ShapeFault → String
  | wrongType found expected => "invalid type: " ++ found.text ++ ", expected " ++ expected
  | wrongLength length expected =>
    "invalid length " ++ Text.natText length ++ ", expected " ++ expected
  | missingField name => "missing field " ++ named name
  | duplicateField name => "duplicate field " ++ named name
  | unknownVariant name known =>
    "unknown variant " ++ named name ++ ", expected one of " ++
      ", ".intercalate (known.map named)
  | notOneField => "invalid value: map, expected map with a single key"

end PlainNotes.Json

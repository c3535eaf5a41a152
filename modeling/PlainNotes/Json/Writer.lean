import PlainNotes.Json.Quoted
import PlainNotes.Json.Shape

/-!
# Writing values

The compact form of a value, without blanks.
-/

namespace PlainNotes.Json

def Number.written : Number → List Char
  | .int i => (Text.intText i).toList
  | .float x => (Decimal.ofFloat .ofMessages x).toList

mutual

def written : Json → List Char
  | null => "null".toList
  | bool true => "true".toList
  | bool false => "false".toList
  | num n => Number.written n
  | str s => quotedString s
  | list items => '[' :: writtenItems items ++ [']']
  | object fields => '\x7b' :: writtenFields fields ++ ['\x7d']

/-- The items of a list, with commas between them. -/
def writtenItems : List Json → List Char
  | [] => []
  | [x] => written x
  | x :: y :: xs => written x ++ ',' :: writtenItems (y :: xs)

/-- The fields of an object, with commas between them. -/
def writtenFields : List (String × Json) → List Char
  | [] => []
  | [(name, x)] => quotedString name ++ ':' :: written x
  | (name, x) :: y :: xs => quotedString name ++ ':' :: written x ++ ',' :: writtenFields (y :: xs)

end

def render (value : Json) : String :=
  String.ofList (written value)

end PlainNotes.Json

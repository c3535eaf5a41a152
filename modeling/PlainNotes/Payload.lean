import PlainNotes.Json.Reader
import PlainNotes.Text.Blank

/-!
# Requests wrapped in data

Programs send a request as an object with a field `text`. The two readings here differ in what they
do with anything else.

- `requestText` is strict: it says what is wrong with the bytes.
- `unwrap` is lenient: what is no such object is the request itself.
-/

namespace PlainNotes.Payload

open Json

/-- Why bytes are no wrapped request. -/
inductive Fault
  | malformed (fault : Json.Fault)
  | missing
  | notText (kind : String)
  | empty
  deriving DecidableEq, Repr

def Fault.code : Fault → String
  | malformed _ => "invalid_json"
  | missing | notText _ => "invalid_type"
  | empty => "too_small"

/-- The names of the fields that lead to what is wrong. -/
def Fault.path : Fault → List String
  | malformed _ => []
  | missing | notText _ | empty => ["text"]

/-- What is wrong with the bytes. For a malformed body the line and the column of the fault are left
out. -/
def Fault.message : Fault → String
  | malformed fault => "Malformed JSON body: " ++ fault.message
  | missing => "Required"
  | notText kind => "Expected string, received " ++ kind
  | empty => "String must contain at least 1 character(s)"

/-- The request that a value wraps: its last field `text`, which is a string and not empty. -/
def textOf (value : Json) : Except Fault String :=
  match value.field? "text" with
  | none => .error .missing
  | some (.str text) => if text = "" then .error .empty else .ok text
  | some other => .error (.notText other.kind)

def requestText (bytes : List UInt8) : Except Fault String :=
  match Json.ofBytes bytes with
  | .ok value => textOf value
  | .error fault => .error (.malformed fault)

/-- Whether a text could be a wrapped request at first sight. -/
def looksWrapped (raw : String) : Bool :=
  (Text.trimStart raw.toList).head? == some '\x7b' && Text.contains "text".toList raw.toList

/-- The request that a text wraps, or else the text. -/
def unwrap (raw : String) : String :=
  if looksWrapped raw then
    match Json.ofText raw with
    | .ok value =>
      match textOf value with
      | .ok text => text
      | .error _ => raw
    | .error _ => raw
  else raw

def wrap (text : String) : Json :=
  .object [("text", .str text)]

end PlainNotes.Payload

/-!
# JSON values

The value type, what can be wrong with a text that should hold a value, and the wording of each
fault. An object keeps its fields in the order of the text, repeated ones too; `Json.field?` answers
with the last of a name.
-/

namespace PlainNotes

/-- A number: an integer of 64 bits, with or without sign, or else a floating-point number. -/
inductive Number
  | int (value : Int)
  | float (value : Float)

/-- A JSON value. -/
inductive Json
  | null
  | bool (value : Bool)
  | num (value : Number)
  | str (text : String)
  | list (items : List Json)
  | object (fields : List (String × Json))

namespace Json

/-- The last field of a name; values that are no objects have none. -/
def field? (name : String) : Json → Option Json
  | object fields => (fields.reverse.find? fun f => f.1 == name).map Prod.snd
  | _ => none

def text? : Json → Option String
  | str text => some text
  | _ => none

def items? : Json → Option (List Json)
  | list items => some items
  | _ => none

def strings (texts : List String) : Json :=
  list (texts.map str)

def int (value : Int) : Json :=
  num (.int value)

/-- What a value is, in one word. -/
def kind : Json → String
  | null => "null"
  | bool _ => "boolean"
  | num _ => "number"
  | str _ => "string"
  | list _ => "array"
  | object _ => "object"

/-- Why a text holds no value. -/
inductive Fault
  | unfinishedList
  | unfinishedObject
  | unfinishedString
  | unfinishedValue
  | expectedColon
  | expectedCommaOrListEnd
  | expectedCommaOrObjectEnd
  | expectedWord
  | expectedValue
  | invalidEscape
  | invalidNumber
  | numberOutOfRange
  | invalidCodePoint
  | controlCharacter
  | keyMustBeString
  | loneSurrogate
  | unfinishedSurrogatePair
  | trailingComma
  | trailingCharacters
  | nestedTooDeep
  deriving DecidableEq, Repr

/-- What is wrong with the text. The line and the column of the fault are left out. -/
def Fault.message : Fault → String
  | unfinishedList => "EOF while parsing a list"
  | unfinishedObject => "EOF while parsing an object"
  | unfinishedString => "EOF while parsing a string"
  | unfinishedValue => "EOF while parsing a value"
  | expectedColon => "expected `:`"
  | expectedCommaOrListEnd => "expected `,` or `]`"
  | expectedCommaOrObjectEnd => "expected `,` or `\x7d`"
  | expectedWord => "expected ident"
  | expectedValue => "expected value"
  | invalidEscape => "invalid escape"
  | invalidNumber => "invalid number"
  | numberOutOfRange => "number out of range"
  | invalidCodePoint => "invalid unicode code point"
  | controlCharacter => "control character (\\u0000-\\u001F) found while parsing a string"
  | keyMustBeString => "key must be a string"
  | loneSurrogate => "lone leading surrogate in hex escape"
  | unfinishedSurrogatePair => "unexpected end of hex escape"
  | trailingComma => "trailing comma"
  | trailingCharacters => "trailing characters"
  | nestedTooDeep => "recursion limit exceeded"

/-- Whether the text only breaks off, so that more of it could still hold a value. -/
def Fault.isUnfinished : Fault → Bool
  | unfinishedList | unfinishedObject | unfinishedString | unfinishedValue => true
  | _ => false

end Json

end PlainNotes

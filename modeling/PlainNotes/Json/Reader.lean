import PlainNotes.Json.Quoted

/-!
# Reading values

A reader takes what it needs from the front of the bytes that are left, or fails at the first fault.

- `readValue` reads one value; lists and objects may be nested to a given depth, which is what its
  recursion is on.
- `skipValue` passes over a value of any depth and looks only at its outline.
- `ofBytes` reads a whole text.
-/

namespace PlainNotes.Json

abbrev Reader := StateT (List UInt8) (Except Fault)

/-- The blanks between the parts of a value. -/
def isSpace (b : UInt8) : Bool :=
  b == 0x20 || b == 0x0a || b == 0x09 || b == 0x0d

namespace Reader

/-- The next byte behind the blanks, which stays. -/
def peek : Reader (Option UInt8) := do
  modify (List.dropWhile isSpace)
  return (← get).head?

def skip : Reader Unit :=
  modify List.tail

def lift {α : Type} (f : List UInt8 → Except Fault (α × List UInt8)) : Reader α := do
  let (x, rest) ← f (← get)
  set rest
  return x

/-- The rest of a word whose first letter is known. -/
def word (letters : List UInt8) : Reader Unit := do
  for letter in letters do
    match (← get) with
    | [] => throw .unfinishedValue
    | b :: s => if b == letter then set s else throw .expectedWord

/-- A string, from its opening quote on. -/
def string : Reader String := do
  skip
  lift readString

/-- A number, from its sign on. -/
def number : Reader Number := do
  match (← get) with
  | [] => throw .unfinishedValue
  | b :: s => if b == byte '-' then do set s; lift (readNumeral true) else lift (readNumeral false)

/-- Goes on to the next item of a list; `false` is the end of the list, whose bracket stays. -/
def nextItem (first : Bool) : Reader Bool := do
  match ← peek with
  | none => throw .unfinishedList
  | some b =>
    if b == byte ']' then return false
    else if first then return true
    else if b == byte ',' then
      skip
      match ← peek with
      | none => throw .unfinishedValue
      | some b => if b == byte ']' then throw .trailingComma else return true
    else throw .expectedCommaOrListEnd

/-- The bracket that ends a list, at which nothing else may stand. -/
def endList : Reader Unit := do
  match ← peek with
  | none => throw .unfinishedList
  | some b =>
    if b == byte ']' then skip
    else if b == byte ',' then
      skip
      throw (if (← peek) == some (byte ']') then .trailingComma else .trailingCharacters)
    else throw .trailingCharacters

/-- Goes on to the next field of an object, as far as the quote of its name; `false` is the end of
the object, whose bracket stays. -/
def nextField (first : Bool) : Reader Bool := do
  match ← peek with
  | none => throw .unfinishedObject
  | some b =>
    if b == byte '\x7d' then return false
    else if first then
      if b == byte '"' then return true else throw .keyMustBeString
    else if b == byte ',' then
      skip
      match ← peek with
      | none => throw .unfinishedValue
      | some b =>
        if b == byte '"' then return true
        else throw (if b == byte '\x7d' then .trailingComma else .keyMustBeString)
    else throw .expectedCommaOrObjectEnd

def colon : Reader Unit := do
  match ← peek with
  | none => throw .unfinishedObject
  | some b => if b == byte ':' then skip else throw .expectedColon

/-- The items of a list behind its bracket. `bound` is above the number of items. -/
def items {α : Type} (item : Reader α) : Nat → Bool → Reader (List α)
  | 0, _ => throw .unfinishedList
  | bound + 1, first => do
    if ← nextItem first then
      let x ← item
      return x :: (← items item bound false)
    else
      endList
      return []

/-- The fields of an object behind its bracket. `bound` is above the number of fields. -/
def fields {α : Type} (value : Reader α) : Nat → Bool → Reader (List (String × α))
  | 0, _ => throw .unfinishedObject
  | bound + 1, first => do
    if ← nextField first then
      let name ← string
      colon
      let x ← value
      return (name, x) :: (← fields value bound false)
    else
      skip
      return []

/-- The reader of what lists and objects hold, if they are not nested too deep. -/
def within {α : Type} (nested : Option α) : Reader α :=
  match nested with
  | some x => pure x
  | none => throw .nestedTooDeep

/-- A bound on the number of parts that are left: every part takes a byte. -/
def partsLeft : Reader Nat := do
  return (← get).length + 1

end Reader

open Reader

/-- Reads a value. `nested` reads what lists and objects hold. -/
def readWith (nested : Option (Reader Json)) : Reader Json := do
  match ← peek with
  | none => throw .unfinishedValue
  | some b =>
    if b == byte 'n' then
      skip
      word [byte 'u', byte 'l', byte 'l']
      return null
    else if b == byte 't' then
      skip
      word [byte 'r', byte 'u', byte 'e']
      return bool true
    else if b == byte 'f' then
      skip
      word [byte 'a', byte 'l', byte 's', byte 'e']
      return bool false
    else if b == byte '-' || isDigit b then return num (← number)
    else if b == byte '"' then return str (← string)
    else if b == byte '[' then
      let item ← within nested
      skip
      return list (← items item (← partsLeft) true)
    else if b == byte '\x7b' then
      let value ← within nested
      skip
      return object (← fields value (← partsLeft) true)
    else throw .expectedValue

/-- Reads a value in which lists and objects are nested at most `depth` times. -/
def readValue : Nat → Reader Json
  | 0 => readWith none
  | depth + 1 => readWith (some (readValue depth))

/-- Behind a whole text only blanks may stand. -/
def readEnd : Reader Unit := do
  if (← peek).isSome then throw .trailingCharacters

def depthLimit : Nat := 127

def ofBytesWithin (depth : Nat) (bytes : List UInt8) : Except Fault Json :=
  (do
    let value ← readValue depth
    readEnd
    return value : Reader Json).run' bytes

/-- The value that a whole text of bytes holds, nested no deeper than the limit. -/
def ofBytes (bytes : List UInt8) : Except Fault Json :=
  ofBytesWithin depthLimit bytes

def ofText (text : String) : Except Fault Json :=
  ofBytes (Utf8.encode text.toList)

/-! ## Passing over values -/

/-- What is open around a place. -/
inductive Frame
  | list
  | object
  deriving DecidableEq, Repr

def Frame.closing : Frame → UInt8
  | list => byte ']'
  | object => byte '\x7d'

/-- The fault of a text that breaks off in a frame. -/
def Frame.unfinished : Frame → Fault
  | list => .unfinishedList
  | object => .unfinishedObject

/-- The fault of a part of a frame that no comma follows. -/
def Frame.expectedComma : Frame → Fault
  | list => .expectedCommaOrListEnd
  | object => .expectedCommaOrObjectEnd

/-- Digits that have to be there, of a number without interest. -/
def skipDigits1 : Reader Unit := do
  let (ds, rest) := takeDigits (← get)
  if ds.isEmpty then throw .invalidNumber else set rest

/-- Passes over the exponent of a number, if there is one. -/
def skipExponent : Reader Unit := do
  match ← get with
  | [] => return
  | b :: s =>
    if isExponentMark b then
      set (takeSign s).2
      skipDigits1

/-- Passes over a number behind its sign. -/
def skipNumeral : Reader Unit := do
  let (ds, rest) := takeDigits (← get)
  if ds.isEmpty || (ds.head? == some 0 && 1 < ds.length) then throw .invalidNumber
  set rest
  match rest with
  | [] => return
  | b :: s =>
    if b == byte '.' then
      set s
      skipDigits1
    skipExponent

/-- Passes over a string, from its opening quote on. -/
def skipString : Reader Unit := do
  skip
  lift fun s => (skipChars s).map fun rest => ((), rest)

/-- Passes over a value that holds no others, or over the bracket that opens one that may. -/
def skipHead : Reader (Option Frame) := do
  match ← peek with
  | none => throw .unfinishedValue
  | some b =>
    if b == byte 'n' then
      skip
      word [byte 'u', byte 'l', byte 'l']
      return none
    else if b == byte 't' then
      skip
      word [byte 'r', byte 'u', byte 'e']
      return none
    else if b == byte 'f' then
      skip
      word [byte 'a', byte 'l', byte 's', byte 'e']
      return none
    else if b == byte '-' then
      skip
      skipNumeral
      return none
    else if isDigit b then
      skipNumeral
      return none
    else if b == byte '"' then
      skipString
      return none
    else if b == byte '[' then
      skip
      return some .list
    else if b == byte '\x7b' then
      skip
      return some .object
    else throw .expectedValue

/-- Passes over the name of a field and its colon, if the next part stands in an object. -/
def skipName : Frame → Reader Unit
  | .list => return
  | .object => do
    match ← peek with
    | none => throw .unfinishedObject
    | some b => if b == byte '"' then skipString else throw .keyMustBeString
    colon

/-- Goes on to the next part of the innermost frame and closes the frames that end. `afterPart` says
whether a part of the innermost frame stands before. The answer holds the frames still open; if
there are none, the value has ended. -/
def nextPart (afterPart : Bool) : List Frame → Reader (List Frame)
  | [] => return []
  | f :: fs => do
    match ← peek with
    | none => throw f.unfinished
    | some b =>
      if afterPart && b == byte ',' then
        skip
        skipName f
        return f :: fs
      else if b == f.closing then
        skip
        nextPart true fs
      else if afterPart then throw f.expectedComma
      else
        skipName f
        return f :: fs

/-- Passes over a value inside open frames, and over all that is left of them. `bound` is above the
number of parts. -/
def skipWithin : Nat → List Frame → Reader Unit
  | 0, _ => throw .unfinishedValue
  | bound + 1, frames => do
    let opened ← skipHead
    let left ← nextPart opened.isNone (opened.toList ++ frames)
    if left.isEmpty then return else skipWithin bound left

def skipValue : Reader Unit := do
  skipWithin (← partsLeft) []

end PlainNotes.Json

import PlainNotes.Command.Data
import PlainNotes.Json.Reader

/-!
# Commands in JSON texts

Reading actions, drafts and commands directly from the bytes of a text. Fields are checked as they
are met, so that of two faults the one that stands first is reported; values of fields that do not
count are only passed over.
-/

namespace PlainNotes

open Json Json.Reader

/-- Why a text holds no such value. -/
inductive TextFault
  | json (fault : Json.Fault)
  | data (fault : DataFault)

namespace TextFault

def message : TextFault → String
  | json fault => fault.message
  | data fault => fault.message

end TextFault

/-- A reader that can also find values of the wrong shape. -/
abbrev ShapedReader := StateT (List UInt8) (Except TextFault)

namespace ShapedReader

def plain {α : Type} (r : Reader α) : ShapedReader α :=
  fun s => (r.run s).mapError .json

def misshapen {α : Type} (fault : ShapeFault) : ShapedReader α :=
  throw (.data (.shape fault))

/-- Reads what stands where something else was expected, as far as the message needs it. -/
def unexpected {α : Type} (expected : String) : ShapedReader α := do
  match ← plain peek with
  | none => throw (.json .unfinishedValue)
  | some b =>
    if b == byte '[' then misshapen (.wrongType .list expected)
    else if b == byte '\x7b' then misshapen (.wrongType .object expected)
    else misshapen (.wrongType (found (← plain (readWith none))) expected)

def string : ShapedReader String := do
  if (← plain peek) == some (byte '"') then plain Reader.string else unexpected "a string"

/-- Reads a value that may be null. -/
def optional {α : Type} (read : ShapedReader α) : ShapedReader (Option α) := do
  if (← plain peek) == some (byte 'n') then
    let _ ← plain (readWith none)
    return none
  else return some (← read)

/-- Reads the items of a list. `bound` is above the number of items. -/
def itemsWithin {α : Type} (item : ShapedReader α) : Nat → Bool → ShapedReader (List α)
  | 0, _ => throw (.json .unfinishedList)
  | bound + 1, first => do
    if ← plain (nextItem first) then
      let x ← item
      return x :: (← itemsWithin item bound false)
    else
      plain endList
      return []

def strings : ShapedReader (List String) := do
  if (← plain peek) == some (byte '[') then
    plain skip
    itemsWithin string (← plain partsLeft) true
  else unexpected "a sequence"

/-- Reads one item of a list, if there is one. -/
def itemIfAny {α : Type} (item : ShapedReader α) (first : Bool) : ShapedReader (Option α) := do
  if ← plain (nextItem first) then return some (← item) else return none

/-- Reads a draft in a list behind its bracket. -/
def draftItems : ShapedReader Draft := do
  let some action ← itemIfAny string true | misshapen (.wrongLength 0 draftListShape)
  let some title ← itemIfAny string false | misshapen (.wrongLength 1 draftListShape)
  let content ← itemIfAny (optional strings) false
  let folder ← itemIfAny (optional string) false
  plain endList
  return ⟨action, title, content.join, folder.join⟩

/-- Reads a field that may stand only once. -/
def once {α : Type} (name : String) (old : Option α) (read : ShapedReader α) : ShapedReader α := do
  if old.isSome then misshapen (.duplicateField name)
  plain colon
  read

def draftField (fields : DraftFields) (name : String) : ShapedReader DraftFields :=
  match name with
  | "action" => do return { fields with action := some (← once name fields.action string) }
  | "title" => do return { fields with title := some (← once name fields.title string) }
  | "content" => do
    return { fields with content := some (← once name fields.content (optional strings)) }
  | "folder" => do
    return { fields with folder := some (← once name fields.folder (optional string)) }
  | _ => do
    plain colon
    plain skipValue
    return fields

/-- Reads the fields of a draft behind the bracket. `bound` is above their number. -/
def draftFieldsWithin : Nat → Bool → DraftFields → ShapedReader DraftFields
  | 0, _, _ => throw (.json .unfinishedObject)
  | bound + 1, first, fields => do
    if ← plain (nextField first) then
      let name ← plain Reader.string
      draftFieldsWithin bound false (← draftField fields name)
    else
      return fields

def draft : ShapedReader Draft := do
  let next ← plain peek
  if next == some (byte '[') then
    plain skip
    draftItems
  else if next == some (byte '\x7b') then
    plain skip
    let fields ← draftFieldsWithin (← plain partsLeft) true {}
    match fields.toDraft with
    | .ok d =>
      plain skip
      return d
    | .error e => misshapen e
  else unexpected draftShape

def command : ShapedReader Command := do
  match (← draft).check with
  | .ok c => return c
  | .error e => throw (.data e)

def named (name : String) : ShapedReader Action :=
  match actionOf name with
  | .ok a => pure a
  | .error e => misshapen e

/-- Reads an action: a name, or an object with that name and null. -/
def action : ShapedReader Action := do
  match ← plain peek with
  | none => throw (.json .unfinishedValue)
  | some b =>
    if b == byte '"' then named (← plain Reader.string)
    else if b == byte '\x7b' then
      plain skip
      let a ← named (← if (← plain peek) == some (byte '"') then plain Reader.string
        else unexpected "variant identifier")
      plain colon
      if (← plain peek) == some (byte 'n') then
        let _ ← plain (readWith none)
      else unexpected "unit"
      match ← plain peek with
      | none => throw (.json .unfinishedObject)
      | some b => if b == byte '\x7d' then plain skip else throw (.json .expectedValue)
      return a
    else throw (.json .expectedValue)

def whole {α : Type} (read : ShapedReader α) (text : String) : Except TextFault α :=
  (do
    let x ← read
    plain readEnd
    return x : ShapedReader α).run' (Utf8.encode text.toList)

end ShapedReader

def Action.ofText (text : String) : Except TextFault Action :=
  ShapedReader.action.whole text

def Draft.ofText (text : String) : Except TextFault Draft :=
  ShapedReader.draft.whole text

def Command.ofText (text : String) : Except TextFault Command :=
  ShapedReader.command.whole text

end PlainNotes

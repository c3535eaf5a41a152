import PlainNotes.Command.Basic
import PlainNotes.Json.Shape

/-!
# Commands as data

The JSON form of actions, drafts and commands, and how values are read as such.

A draft is an object with the fields `action`, `title`, `content` and `folder`, of which the last
two may be missing or null; it can also be a list of these in this order. Fields of other names do
not count. A command has the same form, and is read as a draft and then checked.
-/

namespace PlainNotes

open Json

/-- Why a value is no command: it has the wrong shape, or it is a draft that does not pass. -/
inductive DataFault
  | shape (fault : ShapeFault)
  | draft (fault : DraftFault)

def DataFault.message : DataFault → String
  | shape fault => fault.message
  | draft fault => fault.message

/-! ## Writing -/

def Action.toJson (a : Action) : Json :=
  .str a.name

def optionalField (name : String) : Option Json → List (String × Json)
  | some value => [(name, value)]
  | none => []

/-- The JSON form of a draft. Absent parts have no field. -/
def Draft.toJson (d : Draft) : Json :=
  .object ([("action", .str d.action), ("title", .str d.title)] ++
    optionalField "content" (d.content.map Json.strings) ++
    optionalField "folder" (d.folder.map Json.str))

def Command.toJson (c : Command) : Json :=
  .object ([("action", c.action.toJson), ("title", .str c.title),
    ("content", .strings c.content)] ++ optionalField "folder" (c.folder.map Json.str))

/-! ## Reading values -/

def stringOf : Json → Except ShapeFault String
  | .str text => .ok text
  | other => .error (.wrongType (found other) "a string")

def stringsOf : Json → Except ShapeFault (List String)
  | .list items => items.mapM stringOf
  | other => .error (.wrongType (found other) "a sequence")

/-- A value that may be null. -/
def optionalOf {α : Type} (read : Json → Except ShapeFault α) : Json → Except ShapeFault (Option α)
  | .null => .ok none
  | value => (read value).map some

/-- The fields of a draft that were found so far. -/
structure DraftFields where
  action : Option String := none
  title : Option String := none
  content : Option (Option (List String)) := none
  folder : Option (Option String) := none

def draftShape : String := "struct CommandDraft"

/-- What a list for a draft is called in messages. -/
def draftListShape : String := "struct CommandDraft with 4 elements"

/-- Sets a field that may stand only once. -/
def setOnce {α : Type} (name : String) (old : Option α) (read : Except ShapeFault α) :
    Except ShapeFault α :=
  if old.isSome then .error (.duplicateField name) else read

def DraftFields.add (fields : DraftFields) (name : String) (value : Json) :
    Except ShapeFault DraftFields :=
  match name with
  | "action" => do
    return { fields with action := some (← setOnce name fields.action (stringOf value)) }
  | "title" => do
    return { fields with title := some (← setOnce name fields.title (stringOf value)) }
  | "content" => do
    let content ← setOnce name fields.content (optionalOf stringsOf value)
    return { fields with content := some content }
  | "folder" => do
    let folder ← setOnce name fields.folder (optionalOf stringOf value)
    return { fields with folder := some folder }
  | _ => .ok fields

def DraftFields.toDraft (fields : DraftFields) : Except ShapeFault Draft :=
  match fields.action with
  | none => .error (.missingField "action")
  | some action =>
    match fields.title with
    | none => .error (.missingField "title")
    | some title => .ok ⟨action, title, fields.content.join, fields.folder.join⟩

def DraftFields.addAll (fields : DraftFields) :
    List (String × Json) → Except ShapeFault DraftFields
  | [] => .ok fields
  | (name, value) :: rest =>
    match fields.add name value with
    | .error e => .error e
    | .ok fields => fields.addAll rest

/-- The fields of an object, each name once: the last of a name counts. -/
def lastOfEach : List (String × Json) → List (String × Json)
  | [] => []
  | f :: fs => if fs.any (·.1 == f.1) then lastOfEach fs else f :: lastOfEach fs

/-- The fields of an object in the order in which they are visited, which is that of their names. -/
def visited (fields : List (String × Json)) : List (String × Json) :=
  (lastOfEach fields).mergeSort fun f g => decide (f.1 ≤ g.1)

/-- Reads an item of a list at a place, if the list reaches so far. -/
def itemOf {α : Type} (read : Json → Except ShapeFault α) (items : List Json) (place : Nat) :
    Except ShapeFault (Option α) :=
  match items[place]? with
  | some value => (read value).map some
  | none => .ok none

def draftOfItems (items : List Json) : Except ShapeFault Draft := do
  let some action ← itemOf stringOf items 0 | .error (.wrongLength 0 draftListShape)
  let some title ← itemOf stringOf items 1 | .error (.wrongLength 1 draftListShape)
  let content ← itemOf (optionalOf stringsOf) items 2
  let folder ← itemOf (optionalOf stringOf) items 3
  if 4 < items.length then .error (.wrongLength items.length "fewer elements in array")
  else return ⟨action, title, content.join, folder.join⟩

def Draft.ofJson : Json → Except ShapeFault Draft
  | .list items => draftOfItems items
  | .object fields => do (← ({} : DraftFields).addAll (visited fields)).toDraft
  | other => .error (.wrongType (found other) draftShape)

def Draft.check (d : Draft) : Except DataFault Command :=
  d.validate.mapError .draft

def Command.ofJson (value : Json) : Except DataFault Command :=
  match Draft.ofJson value with
  | .ok d => d.check
  | .error e => .error (.shape e)

def actionOf (name : String) : Except ShapeFault Action :=
  match Action.ofName? name with
  | some a => .ok a
  | none => .error (.unknownVariant name (Action.all.map Action.name))

/-- Reads a value as an action: a name, or an object with that name and null. -/
def Action.ofJson : Json → Except ShapeFault Action
  | .str name => actionOf name
  | .object fields =>
    match visited fields with
    | [(name, value)] => do
      let a ← actionOf name
      match value with
      | .null => return a
      | other => .error (.wrongType (found other) "unit")
    | _ => .error .notOneField
  | other => .error (.wrongType (found other) "string or map")

end PlainNotes

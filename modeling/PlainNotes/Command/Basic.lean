/-!
# Note commands

What a request can ask for: one of four actions on notes, with a title and a list of items.

A `Draft` is a command as it was read, from a sentence or from data. `Draft.validate` is the only
way from a draft to a `Command`, whose title is never empty by its type.
-/

namespace PlainNotes

/-- What to do with a note. -/
inductive Action
  /-- Make a note and fill it with the items. -/
  | create
  /-- Append the items to a note, or make the note. -/
  | update
  /-- Remove the first note of that name. -/
  | delete
  /-- List the notes whose names contain the title. -/
  | search
  deriving DecidableEq, Repr

namespace Action

/-- The actions, in the order in which messages list them. -/
def all : List Action := [create, update, delete, search]

/-- The name of an action in data and in messages. -/
def name : Action → String
  | create => "create"
  | update => "update"
  | delete => "delete"
  | search => "search"

/-- The action of a name; names are case-sensitive. -/
def ofName? (name : String) : Option Action :=
  all.find? fun a => a.name == name

theorem mem_all (a : Action) : a ∈ all := by
  cases a <;> decide

@[simp] theorem ofName?_name (a : Action) : ofName? a.name = some a := by
  cases a <;> decide

theorem name_of_ofName? {name : String} {a : Action} (h : ofName? name = some a) :
    a.name = name := by
  simpa using List.find?_some h

end Action

/-- Why a draft is no command. -/
inductive DraftFault
  | unknownAction (name : String)
  | emptyTitle
  deriving DecidableEq, Repr

def DraftFault.message : DraftFault → String
  | unknownAction name => "unknown action `" ++ name ++ "`; expected create|update|delete|search"
  | emptyTitle => "title must contain at least 1 character"

/-- The fields of a command, not yet checked. -/
structure Draft where
  action : String
  title : String
  content : Option (List String) := none
  folder : Option String := none
  deriving DecidableEq, Repr

/-- A checked command. -/
structure Command where
  action : Action
  /-- The name of the note, or what to look for in names. -/
  title : String
  /-- The items, in order. -/
  content : List String
  /-- A hint where to keep the note; no phrase sets it. -/
  folder : Option String
  title_ne : title ≠ ""
  deriving DecidableEq, Repr

/-- Checks the action first and the title second. Blank titles pass, and no field is refused because
the action has no use for it. -/
def Draft.validate (d : Draft) : Except DraftFault Command :=
  match Action.ofName? d.action with
  | none => .error (.unknownAction d.action)
  | some action =>
    if h : d.title = "" then .error .emptyTitle
    else .ok ⟨action, d.title, d.content.getD [], d.folder, h⟩

def Command.toDraft (c : Command) : Draft :=
  ⟨c.action.name, c.title, some c.content, c.folder⟩

@[simp] theorem Command.validate_toDraft (c : Command) : c.toDraft.validate = .ok c := by
  simp [Draft.validate, Command.toDraft, c.title_ne]

end PlainNotes

import PlainNotes.Command.Basic
import PlainNotes.Script.Builder

/-!
# Scripts for the notes application

The statements that scripts are made of, how each is written, and the script of each action.

A line is made of code, which is the same in all scripts, and of string literals, which hold what a
request said. In a literal a double quote is written with a backslash in front; nothing else is
changed.
-/

namespace PlainNotes.Script

/-- A part of a line. -/
inductive Fragment
  | code (text : String)
  | literal (text : String)
  deriving DecidableEq, Repr

/-- How the characters of a literal are written. -/
def escape (s : List Char) : List Char :=
  s.flatMap fun c => if c = '"' then ['\\', '"'] else [c]

/-- The characters of a literal with its quotes. -/
def quoted (s : List Char) : List Char :=
  '"' :: escape s ++ ['"']

def Fragment.text : Fragment → String
  | code text => text
  | literal text => String.ofList (quoted text.toList)

def lineText (fragments : List Fragment) : String :=
  String.join (fragments.map Fragment.text)

/-- A statement of a script. -/
inductive Statement
  /-- Make a note and remember it as the new note. -/
  | makeNote (name : String)
  /-- Append a paragraph to the new note. -/
  | fillNote (item : String)
  /-- Append a paragraph to the note that is spoken to. -/
  | append (item : String)
  /-- Remember whether the note was found. -/
  | setFound (value : Bool)
  | deleteNote
  /-- Leave the innermost loop. -/
  | exitLoop
  /-- Begin an empty list of names. -/
  | startNames
  /-- Add the name of the note to the list. -/
  | keepName
  | returnNames
  /-- Speak to the notes application. -/
  | tellApplication (body : List Statement)
  /-- Speak to the note of the loop. -/
  | tellNote (body : List Statement)
  /-- Go through all notes. -/
  | eachNote (body : List Statement)
  | ifNamed (name : String) (body : List Statement)
  | ifNameContains (part : String) (body : List Statement)
  | ifNotFound (body : List Statement)

namespace Statement

/-- The line of a statement, or the line that opens its block. -/
def opening : Statement → List Fragment
  | makeNote name =>
    [.code "set newNote to make new note with properties \x7bname:", .literal name, .code "\x7d"]
  | fillNote item =>
    [.code "tell newNote to make new paragraph at the end with data ", .literal item]
  | append item => [.code "make new paragraph at the end with data ", .literal item]
  | setFound true => [.code "set noteFound to true"]
  | setFound false => [.code "set noteFound to false"]
  | deleteNote => [.code "delete theNote"]
  | exitLoop => [.code "exit repeat"]
  | startNames => [.code "set matchingNotes to \x7b\x7d"]
  | keepName => [.code "set end of matchingNotes to name of theNote"]
  | returnNames => [.code "return matchingNotes"]
  | tellApplication _ => [.code "tell application ", .literal "Notes"]
  | tellNote _ => [.code "tell theNote"]
  | eachNote _ => [.code "repeat with theNote in notes"]
  | ifNamed name _ => [.code "if name of theNote is ", .literal name, .code " then"]
  | ifNameContains part _ => [.code "if name of theNote contains ", .literal part, .code " then"]
  | ifNotFound _ => [.code "if not noteFound then"]

def openingText (s : Statement) : String :=
  lineText s.opening

mutual

def toStep : Statement → Step
  | s@(tellApplication body) => .block s.openingText "end tell" (toSteps body)
  | s@(tellNote body) => .block s.openingText "end tell" (toSteps body)
  | s@(eachNote body) => .block s.openingText "end repeat" (toSteps body)
  | s@(ifNamed _ body) => .block s.openingText "end if" (toSteps body)
  | s@(ifNameContains _ body) => .block s.openingText "end if" (toSteps body)
  | s@(ifNotFound body) => .block s.openingText "end if" (toSteps body)
  | s@(makeNote _) | s@(fillNote _) | s@(append _) | s@(setFound _) | s@deleteNote | s@exitLoop
  | s@startNames | s@keepName | s@returnNames => .line s.openingText

def toSteps : List Statement → List Step
  | [] => []
  | s :: ss => toStep s :: toSteps ss

end

end Statement

open Statement

/-- Makes a note of that name with the items as its paragraphs. -/
def createNote (title : String) (items : List String) : List Statement :=
  makeNote title :: items.map fillNote

/-- Appends the items to the first note of that name, or makes the note. -/
def updateNote (title : String) (items : List String) : List Statement :=
  [ setFound false,
    eachNote [ifNamed title [setFound true, tellNote (items.map append), exitLoop]],
    ifNotFound (createNote title items) ]

/-- Removes the first note of that name. -/
def deleteNote (title : String) : List Statement :=
  [setFound false, eachNote [ifNamed title [setFound true, Statement.deleteNote, exitLoop]]]

/-- Answers with the names that contain the title. -/
def searchNotes (title : String) : List Statement :=
  [startNames, eachNote [ifNameContains title [keepName]], returnNames]

/-- What the application is told for an action. -/
def body (action : Action) (title : String) (items : List String) : List Statement :=
  match action with
  | .create => createNote title items
  | .update => updateNote title items
  | .delete => deleteNote title
  | .search => searchNotes title

def statements (action : Action) (title : String) (items : List String) : List Statement :=
  [tellApplication (body action title items)]

def text (action : Action) (title : String) (items : List String) : String :=
  written (toSteps (statements action title items))

/-- The text of the script of an action given by name; no script for names of no action. -/
def textNamed (name title : String) (items : List String) : String :=
  match Action.ofName? name with
  | some action => text action title items
  | none => ""

end PlainNotes.Script

def PlainNotes.Command.script (c : PlainNotes.Command) : String :=
  PlainNotes.Script.text c.action c.title c.content

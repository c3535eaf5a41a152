import PlainNotes.Reply
import PlainNotes.Request
import PlainNotes.Text.Utf8

/-!
# The console

The console reads requests line by line and answers each. A word to leave, the end of the input, or
a line that is no text ends it.

- `inputLines` cuts the input into lines, each a text or not;
- `respond` answers one line;
- `transcript` is all that a console writes for an input, and `session` the whole of its run.
-/

namespace PlainNotes.Console

open Text

/-! ## Styles -/

/-- How parts of the output are set off from each other. -/
inductive Style
  | heading
  | success
  | notice
  | error
  | mark
  | faint
  | farewell
  deriving DecidableEq, Repr

/-- The numbers of a style on terminals with colours. -/
def Style.codes : Style → String
  | heading => "1;36"
  | success => "1;32"
  | notice => "1;33"
  | error => "1;31"
  | mark => "31"
  | faint => "2"
  | farewell => "36"

/-- A text in a style. Without colours it is the text. -/
def styled (colors : Bool) (style : Style) (text : String) : String :=
  if colors then "\x1b[" ++ style.codes ++ "m" ++ text ++ "\x1b[0m" else text

/-! ## Lines -/

/-- Takes the carriage return off the end of a line. -/
def dropReturn (line : List UInt8) : List UInt8 :=
  if line.getLast? = some 13 then line.dropLast else line

/-- The pieces of an input that line feeds end, and what stands behind the last of them. -/
def rawLines : List UInt8 → List (List UInt8) × List UInt8
  | [] => ([], [])
  | b :: s =>
    let (lines, rest) := rawLines s
    if b = 10 then ([] :: lines, rest)
    else
      match lines with
      | [] => ([], b :: rest)
      | l :: ls => ((b :: l) :: ls, rest)

/-- The lines of an input, with `none` for one that is no text. What stands behind the last line
feed is a line too unless it is empty. -/
def inputLines (input : List UInt8) : List (Option String) :=
  let (lines, rest) := rawLines input
  (lines.map dropReturn ++ if rest.isEmpty then [] else [rest]).map fun line =>
    (Utf8.decode? line).map String.ofList

def trimmed (s : String) : String :=
  String.ofList (trim s.toList)

/-- Whether a line asks to leave, in any case of letters. -/
def isLeaving (line : String) : Bool :=
  let word := (trim line.toList).map Char.toLower
  word == "exit".toList || word == "quit".toList

/-! ## Output -/

def prompt : String := "notesy> "

/-- The lines at the beginning, with the level and the directory of the log if there is one. -/
def banner (colors : Bool) (logging : Option (Level × String)) : List String :=
  [ styled colors .heading "NotesY: Apple Notes in plain English",
    "Try: Create a note titled 'shopping list' with items: milk, eggs, bread",
    "Type 'exit' or 'quit' to leave." ] ++
  (logging.map fun (level, directory) =>
    styled colors .faint ("Logging " ++ level.name ++ " to " ++ directory)).toList ++
  [""]

def farewell (colors : Bool) : String :=
  styled colors .farewell "Goodbye! Your notes are where you left them."

def errorText (colors : Bool) (message : String) : String :=
  styled colors .error "✗ Error:" ++ " " ++ message

/-- What is said about a request. -/
def answerText (colors : Bool) : Except Request.Fault Request.Outcome → String
  | .ok outcome =>
    styled colors .success "✓ Success:" ++
      "\n  Action: " ++ outcome.command.action.name ++
      "\n  Title: " ++ outcome.command.title ++
      (if allBlank outcome.output.toList then "" else "\n  Result: " ++ trimmed outcome.output)
  | .error .unrecognized => styled colors .notice "Response:" ++ "\n" ++ Reply.guidance
  | .error (.run fault) => errorText colors fault.message

def inputError (colors : Bool) : String :=
  styled colors .mark "✗" ++ " Input error: stream did not contain valid UTF-8"

/-! ## The session -/

variable {m : Type → Type} [Monad m]

/-- Answers one line. The empty line is refused before it is read as a request. -/
def respond (runner : Runner m) (colors : Bool) (id line : String) : m String :=
  if line = "" then pure (errorText colors "text must contain at least 1 character")
  else do return answerText colors (← Request.process runner id line).answer

/-- Answers lines until one of them, or their end, ends the session. Each part of the answer is what
is written between two readings. -/
def answerLines (runner : Runner m) (colors : Bool) (id : String) :
    List (Option String) → m (List String)
  | [] => pure ["\n"]
  | none :: _ => pure [inputError colors ++ "\n"]
  | some line :: lines =>
    if isLeaving line then pure [""]
    else do
      let reply ← respond runner colors id line
      return (reply ++ "\n") :: (← answerLines runner colors id lines)

/-- All that the console writes for an input: the banner, then the prompt and an answer for each
reading, then the farewell. -/
def transcript (runner : Runner m) (colors : Bool) (id : String)
    (logging : Option (Level × String)) (input : List UInt8) : m String := do
  let answers ← answerLines runner colors id (inputLines input)
  return String.join ((banner colors logging).map (· ++ "\n")) ++
    String.join (answers.map (prompt ++ ·)) ++ farewell colors ++ "\n"

/-- What a run of the console leaves: all that was written, and the exit status. -/
structure Session where
  written : String
  status : UInt32
  deriving DecidableEq, Repr

/-- A run of the console. No way to end it is a failure. -/
def session (runner : Runner m) (colors : Bool) (id : String) (logging : Option (Level × String))
    (input : List UInt8) : m Session := do
  return { written := ← transcript runner colors id logging input, status := 0 }

end PlainNotes.Console

import PlainNotes.Command.Basic
import PlainNotes.Text.Blank
import PlainNotes.Text.Digits

/-!
# Replies

The wording of answers, whichever way a request came in.

- `hits` reads the names of notes off the output of a search;
- `summary` says what was done;
- `guidance` and `supportedFormats` say how a request can be worded.
-/

namespace PlainNotes.Reply

open Text

/-- Requests that are understood, as examples. -/
def supportedFormats : List String :=
  [ "Create a note titled 'x' with items: a, b, c",
    "Add x to my 'y' note",
    "Delete my 'x' note" ]

def guidance : String :=
  "I couldn't understand your request. Try phrasing it like:\n" ++
  "- Create a note titled 'shopping list' with items: milk, eggs, bread\n" ++
  "- Add meeting notes to my 'work' note\n" ++
  "- Delete my 'old tasks' note\n" ++
  "- Search for notes with 'project'"

/-- The names in the output of a search, which commas separate. Blank output holds none. -/
def hits (output : String) : List String :=
  if allBlank output.toList then []
  else (pieces (· == ',') output.toList).map fun name => String.ofList (trim name)

/-- A list of names, each on a line of its own. -/
def listing (names : List String) : String :=
  "\n".intercalate (names.map ("- " ++ ·))

/-- What was done, in a sentence; a search lists what it found. -/
def summary (c : Command) (output : String) : String :=
  match c.action with
  | .create => "Successfully created note '" ++ c.title ++ "'"
  | .update => "Successfully updated note '" ++ c.title ++ "'"
  | .delete => "Successfully deleted note '" ++ c.title ++ "'"
  | .search =>
    match hits output with
    | [] => "No notes found matching '" ++ c.title ++ "'"
    | names =>
      "Found " ++ natText names.length ++ " note(s) matching '" ++ c.title ++ "':\n" ++
        listing names

end PlainNotes.Reply

import PlainNotes.Command.Basic
import PlainNotes.Phrase.Items
import PlainNotes.Phrase.Wording
import PlainNotes.Text.Lowercase

/-!
# Families of phrases

A sentence is read by the first family of phrases that it fits. A family says whether it applies at
all, which draft it reads from the sentence, and whether a draft that turns out to be no command
ends the reading.

- `Family.draft?` is what a family reads, whether it applies or not.
- `findings` is the whole course of a reading, and `classify` its result.
-/

namespace PlainNotes

open Text Phrase

/-- A family of phrases. -/
inductive Family
  /-- Long texts without quotes become notes as they are. -/
  | longText
  /-- Plans for a trip. -/
  | tripPlan
  /-- A note with a title is asked for. -/
  | explicitCreate
  | update
  | delete
  | search
  /-- A note is asked for in other words. -/
  | fallbackCreate
  deriving DecidableEq, Repr

/-- What follows if the draft of a family is no command. -/
inductive OnInvalid
  /-- The families behind it are tried. -/
  | fallThrough
  /-- The sentence is not understood. -/
  | reject
  deriving DecidableEq, Repr

def longTextThreshold : Nat := 100

/-- The number of words in the title of a long text. -/
def longTextTitleWords : Nat := 5

namespace Family

/-- The families in order of precedence. -/
def all : List Family :=
  [longText, tripPlan, explicitCreate, update, delete, search, fallbackCreate]

def name : Family → String
  | longText => "long_text"
  | tripPlan => "trip_plan"
  | explicitCreate => "explicit_create"
  | update => "update"
  | delete => "delete"
  | search => "search"
  | fallbackCreate => "fallback_create"

/-- What follows if the draft of a family is no command. -/
def onInvalid : Family → OnInvalid
  | longText | tripPlan => .fallThrough
  | explicitCreate | update | delete | search | fallbackCreate => .reject

def applies : Family → List Char → Bool
  | longText, s => longTextThreshold < s.length && !s.any isQuote
  | tripPlan, s => mentions tripWords (lowercase s)
  | fallbackCreate, s => mentions makingWords (lowercase s)
  | explicitCreate, _ | update, _ | delete, _ | search, _ => true

/-- The draft of an action with a title and items. -/
def draft (action : Action) (title : List Char) (content : Option (List (List Char))) : Draft where
  action := action.name
  title := String.ofList title
  content := content.map (·.map String.ofList)

/-- The whole text is the only item, under its first words. -/
def longTextDraft (s : List Char) : Draft :=
  draft .create (leadingWords longTextTitleWords s) (some [s])

/-- The whole text is the only item, under the name of the place. -/
def tripPlanDraft? (s : List Char) : Option Draft := do
  let place ← (← firstMatch tripPatterns s).text .first
  return draft .create ("Trip plan: ".toList ++ trim place) (some [s])

/-- The rest of the line behind the title holds the items. -/
def explicitCreateDraft? (s : List Char) : Option Draft := do
  let found ← firstMatch createPatterns s
  let title ← found.text .first
  return draft .create title (some (((found.text .second).map splitItems).getD []))

/-- The draft of one match of an update phrase. The two groups are what to add and the note it goes
to, in this order, unless the sentence says `update`; a match in which either is empty does not
count. -/
def updateMatchDraft? (titleFirst : Bool) (found : Captures) : Option Draft :=
  let first := (found.text .first).getD []
  let second := (found.text .second).getD []
  let swap := titleFirst && !first.isEmpty
  let title := if swap then first else second
  let item := if swap then second else first
  if title.isEmpty || item.isEmpty then none
  else some (draft .update title (some [stripQuotes (trim item)]))

/-- The first update phrase that gives a draft. -/
def updateDraft? (s : List Char) : Option Draft :=
  let titleFirst := mentions ["update"] (lowercase s)
  updatePatterns.findSome? fun p => do updateMatchDraft? titleFirst (← p.search s)

/-- The first group of the first phrase is the title. -/
def titleDraft? (action : Action) (content : Option (List (List Char))) (ps : List Pattern)
    (s : List Char) : Option Draft := do
  let title ← (← firstMatch ps s).text .first
  return draft action title content

/-- What a family reads from a sentence, whether it applies or not. -/
def draft? : Family → List Char → Option Draft
  | longText, s => some (longTextDraft s)
  | tripPlan, s => tripPlanDraft? s
  | explicitCreate, s => explicitCreateDraft? s
  | update, s => updateDraft? s
  | delete, s => titleDraft? .delete none deletePatterns s
  | search, s => titleDraft? .search none searchPatterns s
  | fallbackCreate, s => titleDraft? .create (some []) topicPatterns s

theorem mem_all (f : Family) : f ∈ all := by
  cases f <;> decide

end Family

/-- What happens to a sentence at one family, or at the end. -/
inductive Finding
  /-- The family read a command. -/
  | parsed (family : Family) (command : Command)
  /-- The family read a draft that is no command. -/
  | rejected (family : Family) (fault : DraftFault)
  /-- No family is left. -/
  | unmatched
  deriving DecidableEq, Repr

/-- A command, and the family that read it. -/
structure Intent where
  family : Family
  command : Command
  deriving DecidableEq, Repr

/-- The course of a reading through some families. -/
def findingsAmong (s : List Char) : List Family → List Finding
  | [] => [.unmatched]
  | f :: fs =>
    if f.applies s then
      match f.draft? s with
      | none => findingsAmong s fs
      | some d =>
        match d.validate with
        | .ok command => [.parsed f command]
        | .error fault =>
          .rejected f fault ::
            (match f.onInvalid with
            | .reject => []
            | .fallThrough => findingsAmong s fs)
    else findingsAmong s fs

/-- The course of a reading of a sentence. -/
def findings (text : String) : List Finding :=
  findingsAmong text.toList Family.all

def Finding.intent? : Finding → Option Intent
  | .parsed family command => some ⟨family, command⟩
  | .rejected .. | .unmatched => none

/-- The command that a sentence asks for, and the family of its phrase. -/
def classify (text : String) : Option Intent :=
  (findings text).findSome? Finding.intent?

def parse (text : String) : Option Command :=
  (classify text).map Intent.command

end PlainNotes

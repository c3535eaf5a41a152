import PlainNotes.Proofs.Script.Reading

/-!
# What a script does

The notes of the application are a list, and a script changes the list statement by statement.
What it means for a name to be another, or to contain a text, is up to the application, and so is
where in the list a new note goes.

* `exec`: what one statement does.
* `perform`: what the text of a script does; it is read first.
* `perform_text`: a script without backslashes in its texts does what its statements do.
-/

namespace PlainNotes.Script

/-- A note: its name and its paragraphs, in order. -/
structure Note where
  name : String
  paragraphs : List String
  deriving DecidableEq, Repr

/-- What scripts leave to the application. -/
structure Application where
  /-- Whether the first name is the second. -/
  named : String → String → Bool
  /-- Whether the name contains the text. -/
  contains : String → String → Bool
  /-- How many notes stand in front of a new one. -/
  place : List Note → Nat

/-- Whom statements speak to. -/
inductive Target
  | nobody
  | application
  | note (i : Nat)
  deriving DecidableEq, Repr

/-- The notes, and what a script remembers.  Notes are referred to by their positions. -/
structure State where
  notes : List Note
  target : Target := .nobody
  newNote : Option Nat := none
  theNote : Option Nat := none
  noteFound : Option Bool := none
  matchingNotes : Option (List String) := none
  deriving DecidableEq, Repr

/-- How statements end. -/
inductive Outcome
  /-- What follows is carried out. -/
  | finished (σ : State)
  /-- The innermost loop is left. -/
  | left (σ : State)
  /-- The script ends with a list of names. -/
  | returned (names : List String) (σ : State)
  /-- Something that a statement needs is not there. -/
  | failed
  deriving DecidableEq, Repr

namespace Outcome

/-- Goes on if nothing stands in the way. -/
def andThen : Outcome → (State → Outcome) → Outcome
  | finished σ, f => f σ
  | left σ, _ => left σ
  | returned names σ, _ => returned names σ
  | failed, _ => failed

/-- Changes the state, whatever the end. -/
def after (f : State → State) : Outcome → Outcome
  | finished σ => finished (f σ)
  | left σ => left (f σ)
  | returned names σ => returned names (f σ)
  | failed => failed

def endLoop : Outcome → Outcome
  | left σ => finished σ
  | o => o

@[simp] theorem andThen_finished (σ : State) (f : State → Outcome) :
    (finished σ).andThen f = f σ := rfl

@[simp] theorem andThen_left (σ : State) (f : State → Outcome) : (left σ).andThen f = left σ := rfl

theorem andThen_assoc (o : Outcome) (f g : State → Outcome) :
    (o.andThen f).andThen g = o.andThen fun σ => (f σ).andThen g := by
  cases o <;> rfl

end Outcome

open Outcome

namespace State

/-- Appends a paragraph to the note at a position. -/
def addParagraph (σ : State) (i : Nat) (text : String) : Outcome :=
  if i < σ.notes.length then
    .finished { σ with
      notes := σ.notes.modify i fun n => { n with paragraphs := n.paragraphs ++ [text] } }
  else .failed

def current? (σ : State) : Option Note :=
  σ.theNote.bind fun i => σ.notes[i]?

end State

/-- Goes through notes by their positions. -/
def each (f : State → Outcome) : List Nat → State → Outcome
  | [], σ => .finished σ
  | i :: is, σ => (f { σ with theNote := some i }).andThen (each f is)

/-- The notes with a new one, where the application puts it. -/
def Application.added (app : Application) (n : Note) (notes : List Note) : List Note :=
  notes.take (app.place notes) ++ n :: notes.drop (app.place notes)

section

variable (app : Application)

mutual

/-- What a statement does. -/
def exec : Statement → State → Outcome
  | .makeNote name, σ =>
    match σ.target with
    | .application =>
      .finished { σ with
        notes := app.added ⟨name, []⟩ σ.notes
        newNote := some (σ.notes.take (app.place σ.notes)).length }
    | _ => .failed
  | .fillNote item, σ =>
    match σ.newNote with
    | some i => σ.addParagraph i item
    | none => .failed
  | .append item, σ =>
    match σ.target with
    | .note i => σ.addParagraph i item
    | _ => .failed
  | .setFound value, σ => .finished { σ with noteFound := some value }
  | .deleteNote, σ =>
    match σ.theNote with
    | some i =>
      if i < σ.notes.length then .finished { σ with notes := σ.notes.eraseIdx i } else .failed
    | none => .failed
  | .exitLoop, σ => .left σ
  | .startNames, σ => .finished { σ with matchingNotes := some [] }
  | .keepName, σ =>
    match σ.matchingNotes, σ.current? with
    | some names, some n => .finished { σ with matchingNotes := some (names ++ [n.name]) }
    | _, _ => .failed
  | .returnNames, σ =>
    match σ.matchingNotes with
    | some names => .returned names σ
    | none => .failed
  | .tellApplication body, σ =>
    (execAll body { σ with target := .application }).after fun σ' => { σ' with target := σ.target }
  | .tellNote body, σ =>
    match σ.theNote with
    | some i => (execAll body { σ with target := .note i }).after fun σ' =>
        { σ' with target := σ.target }
    | none => .failed
  | .eachNote body, σ =>
    match σ.target with
    | .application => (each (fun σ => execAll body σ) (List.range σ.notes.length) σ).endLoop
    | _ => .failed
  | .ifNamed name body, σ =>
    match σ.current? with
    | some n => if app.named n.name name then execAll body σ else .finished σ
    | none => .failed
  | .ifNameContains part body, σ =>
    match σ.current? with
    | some n => if app.contains n.name part then execAll body σ else .finished σ
    | none => .failed
  | .ifNotFound body, σ =>
    match σ.noteFound with
    | some found => if found then .finished σ else execAll body σ
    | none => .failed

def execAll : List Statement → State → Outcome
  | [], σ => .finished σ
  | s :: ss, σ => (exec s σ).andThen (execAll ss)

end

/-- The notes after a script, and the names that it ends with.  There is no answer if a statement
lacks something, or if a loop is left where there is none. -/
def Outcome.answer : Outcome → Option (List Note × Option (List String))
  | finished σ => some (σ.notes, none)
  | returned names σ => some (σ.notes, some names)
  | left _ | failed => none

/-- What the text of a script does to notes.  A text that is no script has no answer. -/
def perform (script : String) (notes : List Note) : Option (List Note × Option (List String)) := do
  (execAll app (← read script) { notes }).answer

end

/-- A script without backslashes in its texts does what its statements do. -/
theorem perform_text (app : Application) {action : Action} {title : String} {items : List String}
    (h : ∀ t ∈ embedded action title items, '\\' ∉ t.toList) (notes : List Note) :
    perform app (text action title items) notes =
      (execAll app (statements action title items) { notes }).answer := by
  have hplain : Plain (scriptFragments action title items) := by
    intro t ht
    rw [texts_scriptFragments] at ht
    rcases List.mem_cons.1 ht with rfl | ht
    · decide
    · exact h t ht
  have hread : read (text action title items) = some (statements action title items) :=
    read_written hplain
  simp [perform, hread]

end PlainNotes.Script

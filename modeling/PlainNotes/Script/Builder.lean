/-!
# Writing scripts line by line

A script is written in steps: lines, lists of lines, and blocks, whose body stands one level deeper
than the lines that open and close it.

A `Builder` carries out steps one after the other. `Step.emitted` says the same without a state: the
lines of a step, each with its level. `Builder.steps_eq` is the agreement of the two, and it says
that the level after some steps is the level before them.
-/

namespace PlainNotes.Script

/-- A step of writing a script. -/
inductive Step
  | line (text : String)
  | lines (texts : List String)
  | block (opening closing : String) (body : List Step)

/-- The white space in front of a line: four spaces for each level. -/
def indent : Nat → String
  | 0 => ""
  | depth + 1 => "    " ++ indent depth

/-- A line at a level, with its line feed. -/
def lineAt (depth : Nat) (text : String) : String :=
  indent depth ++ text ++ "\n"

/-- A script in the making. -/
structure Builder where
  text : String := ""
  depth : Nat := 0
  deriving DecidableEq, Repr

namespace Builder

def line (b : Builder) (text : String) : Builder :=
  { b with text := b.text ++ lineAt b.depth text }

def lines (b : Builder) (texts : List String) : Builder :=
  texts.foldl line b

def deeper (b : Builder) : Builder :=
  { b with depth := b.depth + 1 }

def back (b : Builder) : Builder :=
  { b with depth := b.depth - 1 }

mutual

def step (b : Builder) : Step → Builder
  | .line text => b.line text
  | .lines texts => b.lines texts
  | .block opening closing body => ((steps (b.line opening).deeper body).back).line closing

def steps (b : Builder) : List Step → Builder
  | [] => b
  | s :: ss => steps (step b s) ss

end

end Builder

/-- The text that steps write from an empty script on. -/
def written (steps : List Step) : String :=
  (({} : Builder).steps steps).text

/-! ## The lines of a step -/

mutual

/-- The lines of a step at a level, each with its own level. -/
def Step.emitted (depth : Nat) : Step → List (Nat × String)
  | .line text => [(depth, text)]
  | .lines texts => texts.map fun text => (depth, text)
  | .block opening closing body =>
    (depth, opening) :: emittedAll (depth + 1) body ++ [(depth, closing)]

def Step.emittedAll (depth : Nat) : List Step → List (Nat × String)
  | [] => []
  | s :: ss => s.emitted depth ++ emittedAll depth ss

end

def textOf (ls : List (Nat × String)) : String :=
  String.join (ls.map fun l => lineAt l.1 l.2)

theorem foldl_append (init : String) (ls : List String) :
    ls.foldl (· ++ ·) init = init ++ String.join ls := by
  induction ls generalizing init with
  | nil => simp [String.join]
  | cons l ls ih =>
    simp only [List.foldl_cons, String.join]
    rw [ih, ih ("" ++ l)]
    simp [String.append_assoc]

@[simp] theorem textOf_nil : textOf [] = "" := rfl

@[simp] theorem textOf_cons (l : Nat × String) (ls : List (Nat × String)) :
    textOf (l :: ls) = lineAt l.1 l.2 ++ textOf ls := by
  simp only [textOf, List.map_cons]
  rw [String.join, List.foldl_cons, foldl_append]
  simp

@[simp] theorem textOf_append (ls ls' : List (Nat × String)) :
    textOf (ls ++ ls') = textOf ls ++ textOf ls' := by
  induction ls with
  | nil => simp
  | cons l ls ih => simp [ih, String.append_assoc]

namespace Builder

theorem lines_eq (b : Builder) (texts : List String) :
    b.lines texts = ⟨b.text ++ textOf (texts.map fun t => (b.depth, t)), b.depth⟩ := by
  induction texts generalizing b with
  | nil => simp [lines]
  | cons t ts ih =>
    have : b.lines (t :: ts) = (b.line t).lines ts := rfl
    rw [this, ih]
    simp [line, String.append_assoc]

mutual

theorem step_eq (b : Builder) (s : Step) :
    b.step s = ⟨b.text ++ textOf (s.emitted b.depth), b.depth⟩ := by
  match s with
  | .line text => simp [step, line, Step.emitted]
  | .lines texts => simp [step, lines_eq, Step.emitted]
  | .block opening closing body =>
    simp [step, steps_eq, line, deeper, back, Step.emitted, String.append_assoc]

/-- Steps add the text of their lines to what is written, and leave the level as it was. -/
theorem steps_eq (b : Builder) (ss : List Step) :
    b.steps ss = ⟨b.text ++ textOf (Step.emittedAll b.depth ss), b.depth⟩ := by
  match ss with
  | [] => simp [steps, Step.emittedAll]
  | s :: ss =>
    rw [steps, step_eq, steps_eq]
    simp [Step.emittedAll, String.append_assoc]

end

end Builder

end PlainNotes.Script

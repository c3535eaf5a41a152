/-!
# Patterns with captures

Patterns over texts, with up to two captured groups. Repetition is over single characters only, so a
match is found by recursion on the pattern and the text, without any bound on its depth.

A match follows a fixed preference: the first branch of `alt`, as many characters as possible for
`many`, as few as possible for `few`. There are two readings of a pattern.

- `Pattern.run` tries the ways to match one after the other, and hands what is left of the text to a
  continuation; a way counts only if the continuation accepts.
- `Pattern.column` computes the answers at all places of a text together, from the last place to the
  first, so that its time is proportional to the length of the text.

The second is what `Pattern.search` uses. `column_map_tails` says that the two agree at every place,
and `search_eq` that a search finds the first place at which `run` succeeds.
-/

namespace PlainNotes

/-- The two groups that a pattern can capture. -/
inductive Group
  | first
  | second
  deriving DecidableEq, Repr

/-- The places that a pattern marks: where a group begins and where it ends. -/
inductive Mark
  | opening (g : Group)
  | closing (g : Group)
  deriving DecidableEq, Repr

/-- What was left of the text at each mark. -/
structure Captures where
  firstOpening : Option (List Char) := none
  firstClosing : Option (List Char) := none
  secondOpening : Option (List Char) := none
  secondClosing : Option (List Char) := none
  deriving DecidableEq, Repr

namespace Captures

/-- Records what is left of the text at a mark. -/
def set (c : Captures) (m : Mark) (s : List Char) : Captures :=
  match m with
  | .opening .first => { c with firstOpening := some s }
  | .closing .first => { c with firstClosing := some s }
  | .opening .second => { c with secondOpening := some s }
  | .closing .second => { c with secondClosing := some s }

/-- The part of a text in front of one of its tails. -/
def before (rest s : List Char) : List Char :=
  s.take (s.length - rest.length)

/-- The text of a group, if the group took part in the match. -/
def text (c : Captures) (g : Group) : Option (List Char) :=
  match g with
  | .first => do return before (← c.firstClosing) (← c.firstOpening)
  | .second => do return before (← c.secondClosing) (← c.secondOpening)

@[simp] theorem before_append (s rest : List Char) : before rest (s ++ rest) = s := by
  simp [before]

end Captures

/-- A pattern over texts. -/
inductive Pattern
  /-- The empty text. -/
  | empty
  /-- One character of a class. -/
  | one (cls : Char → Bool)
  /-- One pattern after the other. -/
  | seq (p q : Pattern)
  /-- The first pattern, or else the second. -/
  | alt (p q : Pattern)
  /-- Characters of a class, as many as possible. -/
  | many (cls : Char → Bool)
  /-- Characters of a class, as few as possible. -/
  | few (cls : Char → Bool)
  /-- The empty text, at a place that is recorded. -/
  | mark (m : Mark)
  /-- The empty text at the end of the whole text. -/
  | atEnd

namespace Pattern

def group (g : Group) (p : Pattern) : Pattern :=
  seq (mark (.opening g)) (seq p (mark (.closing g)))

/-- A pattern, or else the empty text. -/
def optional (p : Pattern) : Pattern :=
  alt p empty

/-- One or more characters of a class, as many as possible. -/
def many1 (cls : Char → Bool) : Pattern :=
  seq (one cls) (many cls)

/-- One or more characters of a class, as few as possible. -/
def few1 (cls : Char → Bool) : Pattern :=
  seq (one cls) (few cls)

/-- The patterns one after the other. -/
def all : List Pattern → Pattern
  | [] => empty
  | [p] => p
  | p :: q :: ps => seq p (all (q :: ps))

/-- The first pattern that leads to a match. -/
def any : List Pattern → Pattern
  | [] => one fun _ => false
  | [p] => p
  | p :: q :: ps => alt p (any (q :: ps))

/-! ## One way after the other -/

section Run

variable {α : Type}

/-- One character of the class, then `k`. -/
def runOne (cls : Char → Bool) (k : List Char → Option α) : List Char → Option α
  | [] => none
  | c :: s => if cls c then k s else none

/-- As many characters of the class as possible, then `k`. -/
def runMany (cls : Char → Bool) (k : List Char → Option α) : List Char → Option α
  | [] => k []
  | c :: s => if cls c then (runMany cls k s).or (k (c :: s)) else k (c :: s)

/-- As few characters of the class as possible, then `k`. -/
def runFew (cls : Char → Bool) (k : List Char → Option α) : List Char → Option α
  | [] => k []
  | c :: s => (k (c :: s)).or (if cls c then runFew cls k s else none)

end Run

/-- The answer of the first way to match the pattern at the beginning of a text for which the
continuation accepts what is left. -/
def run : Pattern → (List Char → Option Captures) → List Char → Option Captures
  | empty, k, s => k s
  | one cls, k, s => runOne cls k s
  | seq p q, k, s => p.run (q.run k) s
  | alt p q, k, s => (p.run k s).or (q.run k s)
  | many cls, k, s => runMany cls k s
  | few cls, k, s => runFew cls k s
  | mark m, k, s => (k s).map (·.set m s)
  | atEnd, k, s => if s.isEmpty then k s else none

/-! ## All places of a text together -/

/-- The places of a text: what is left at each of them, from the whole text to the empty one. -/
def tails : List Char → List (List Char)
  | [] => [[]]
  | c :: s => (c :: s) :: tails s

/-- Answers at the places of a text, in order. -/
abbrev Column := List (Option Captures)

/-- The answer at the first place of a column. -/
def top : Column → Option Captures
  | [] => none
  | k :: _ => k

/-- The column of one character in front of the answers `col`. -/
def columnOne (cls : Char → Bool) : List Char → Column → Column
  | [], _ => [none]
  | c :: s, col => (if cls c then top col.tail else none) :: columnOne cls s col.tail

/-- The column of as many characters as possible. -/
def columnMany (cls : Char → Bool) : List Char → Column → Column
  | [], col => [top col]
  | c :: s, col =>
    let below := columnMany cls s col.tail
    (if cls c then (top below).or (top col) else top col) :: below

/-- The column of as few characters as possible. -/
def columnFew (cls : Char → Bool) : List Char → Column → Column
  | [], col => [top col]
  | c :: s, col =>
    let below := columnFew cls s col.tail
    ((top col).or (if cls c then top below else none)) :: below

/-- The column of a mark: each answer records its place. -/
def columnMark (m : Mark) : List Char → Column → Column
  | [], col => [(top col).map (·.set m [])]
  | c :: s, col => (top col).map (·.set m (c :: s)) :: columnMark m s col.tail

/-- The column of the end of the text: only the last answer stays. -/
def columnEnd : List Char → Column → Column
  | [], col => [top col]
  | _ :: s, col => none :: columnEnd s col.tail

/-- The answers of a pattern at all places of a text, from the answers `col` of what follows it. -/
def column : Pattern → List Char → Column → Column
  | empty, _, col => col
  | one cls, s, col => columnOne cls s col
  | seq p q, s, col => p.column s (q.column s col)
  | alt p q, s, col => List.zipWith Option.or (p.column s col) (q.column s col)
  | many cls, s, col => columnMany cls s col
  | few cls, s, col => columnFew cls s col
  | mark m, s, col => columnMark m s col
  | atEnd, s, col => columnEnd s col

/-- The answer where nothing is left to match. -/
def accept (_ : List Char) : Option Captures :=
  some {}

/-- The leftmost match of a pattern in a text, and of the matches there the preferred one. -/
def search (p : Pattern) (s : List Char) : Option Captures :=
  (p.column s ((tails s).map accept)).findSome? id

/-! ## The two readings agree -/

@[simp] theorem tails_nil : tails [] = [[]] := rfl

@[simp] theorem tails_cons (c : Char) (s : List Char) : tails (c :: s) = (c :: s) :: tails s := rfl

@[simp] theorem top_map_tails (k : List Char → Option Captures) (s : List Char) :
    top ((tails s).map k) = k s := by
  cases s <;> rfl

@[simp] theorem top_cons (k : Option Captures) (col : Column) : top (k :: col) = k := rfl

theorem columnOne_map_tails (cls : Char → Bool) (k : List Char → Option Captures) (s : List Char) :
    columnOne cls s ((tails s).map k) = (tails s).map (runOne cls k) := by
  induction s with
  | nil => rfl
  | cons c s ih => simp [columnOne, runOne, ih]

theorem columnMany_map_tails (cls : Char → Bool) (k : List Char → Option Captures)
    (s : List Char) : columnMany cls s ((tails s).map k) = (tails s).map (runMany cls k) := by
  induction s with
  | nil => rfl
  | cons c s ih => simp [columnMany, runMany, ih]

theorem columnFew_map_tails (cls : Char → Bool) (k : List Char → Option Captures)
    (s : List Char) : columnFew cls s ((tails s).map k) = (tails s).map (runFew cls k) := by
  induction s with
  | nil => rfl
  | cons c s ih => simp [columnFew, runFew, ih]

theorem columnMark_map_tails (m : Mark) (k : List Char → Option Captures) (s : List Char) :
    columnMark m s ((tails s).map k) = (tails s).map ((mark m).run k) := by
  induction s with
  | nil => rfl
  | cons c s ih => simp [columnMark, run, ih]

theorem columnEnd_map_tails (k : List Char → Option Captures) (s : List Char) :
    columnEnd s ((tails s).map k) = (tails s).map (atEnd.run k) := by
  induction s with
  | nil => rfl
  | cons c s ih => simp [columnEnd, run, ih]

/-- The column of a pattern holds, at each place, what `run` answers there. -/
theorem column_map_tails (p : Pattern) (k : List Char → Option Captures) (s : List Char) :
    p.column s ((tails s).map k) = (tails s).map (p.run k) := by
  induction p generalizing k with
  | empty => rfl
  | one cls => exact columnOne_map_tails cls k s
  | seq p q ihp ihq => simp only [column, ihq, ihp]; rfl
  | alt p q ihp ihq =>
    simp only [column, ihp, ihq, List.zipWith_map, List.zipWith_self]; rfl
  | many cls => exact columnMany_map_tails cls k s
  | few cls => exact columnFew_map_tails cls k s
  | mark m => exact columnMark_map_tails m k s
  | atEnd => exact columnEnd_map_tails k s

/-- A search finds the first place of the text at which the pattern matches. -/
theorem search_eq (p : Pattern) (s : List Char) :
    p.search s = (tails s).findSome? (p.run accept) := by
  simp [search, column_map_tails, List.findSome?_map]

end Pattern

end PlainNotes

import PlainNotes.Text.Blank

/-!
# Items and titles in free text

How a stretch of text becomes a list of items, how quotes around an item are taken off, and how a
text without a title gets one.

- `splitItems` cuts at commas, or else at line feeds, or else not at all. Empty items stay.
- `stripQuotes` takes off one pair of equal quotes.
- `leadingWords` takes the first words of the first line.
-/

namespace PlainNotes.Phrase

open Text

/-- The signs that begin a line of a list. -/
def isBullet (c : Char) : Bool :=
  c == '-' || c == '•' || c == '*'

/-- Drops one bullet at the front of a line and the blanks after it. -/
def dropBullet : List Char → List Char
  | [] => []
  | c :: s => if isBullet c then trimStart s else c :: s

/-- The items of a stretch of text. Commas come before line feeds, and bullets are dropped only
where lines are items. -/
def splitItems (s : List Char) : List (List Char) :=
  if s.contains ',' then (pieces (· == ',') s).map trim
  else if s.contains '\n' then (pieces (· == '\n') s).map fun line => dropBullet (trim line)
  else [trim s]

/-- The text between two quotes `q` that stand at its ends. -/
def between? (q : Char) : List Char → Option (List Char)
  | [] => none
  | c :: s => if c = q ∧ s.getLast? = some q then some s.dropLast else none

/-- Takes off one pair of double quotes, or else one pair of single ones. -/
def stripQuotes (s : List Char) : List Char :=
  ((between? '"' s).or (between? '\'' s)).getD s

/-- The first `limit` words of the first line, one space between them. -/
def leadingWords (limit : Nat) (s : List Char) : List Char :=
  [' '].intercalate ((words (firstLine s)).take limit)

end PlainNotes.Phrase

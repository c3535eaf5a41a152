/-!
# Blank characters

The White_Space property of Unicode, and the operations on text that look only at it.

- `trim` drops the blanks at both ends;
- `words` lists the maximal runs of characters that are not blank.

Texts are lists of characters here; the public types of the library hold strings.
-/

namespace PlainNotes.Text

/-- Membership in the White_Space property: 25 characters, the six of ASCII among them. -/
def isBlank (c : Char) : Bool :=
  let n := c.toNat
  (9 ≤ n && n ≤ 13) || n == 0x20 || n == 0x85 || n == 0xa0 || n == 0x1680 ||
    (0x2000 ≤ n && n ≤ 0x200a) || n == 0x2028 || n == 0x2029 || n == 0x202f ||
    n == 0x205f || n == 0x3000

def trimStart (s : List Char) : List Char :=
  s.dropWhile isBlank

def trimEnd (s : List Char) : List Char :=
  (trimStart s.reverse).reverse

def trim (s : List Char) : List Char :=
  trimEnd (trimStart s)

/-- A text is blank if it holds nothing else; the empty text is. -/
def allBlank (s : List Char) : Bool :=
  s.all isBlank

/-- Cuts a text at each character that satisfies `cut`. The pieces are one more than the cuts,
so a text without a cut is its own only piece. -/
def pieces (cut : Char → Bool) : List Char → List (List Char)
  | [] => [[]]
  | c :: s =>
    if cut c then [] :: pieces cut s
    else
      match pieces cut s with
      | [] => [[c]]
      | p :: ps => (c :: p) :: ps

/-- The maximal runs of characters that are not blank, in order. -/
def words (s : List Char) : List (List Char) :=
  (pieces isBlank s).filter fun w => !w.isEmpty

/-- The part before the first line feed. -/
def firstLine (s : List Char) : List Char :=
  s.takeWhile (· != '\n')

/-- Whether `word` stands somewhere in the text. -/
def contains (word : List Char) : List Char → Bool
  | [] => word.isEmpty
  | c :: s => word.isPrefixOf (c :: s) || contains word s

theorem contains_iff_isInfix {w s : List Char} : contains w s = true ↔ w <:+: s := by
  induction s with
  | nil => rw [contains, List.isEmpty_iff, List.infix_nil]
  | cons c s ih => rw [contains, Bool.or_eq_true, List.isPrefixOf_iff_prefix, ih,
      List.infix_cons_iff]

@[simp] theorem pieces_nil (cut : Char → Bool) : pieces cut [] = [[]] := rfl

theorem pieces_ne_nil (cut : Char → Bool) (s : List Char) : pieces cut s ≠ [] := by
  cases s with
  | nil => simp
  | cons c s =>
    simp only [pieces]
    split
    · simp
    · split <;> simp

/-- A text is the blanks at its front and what is left without them. -/
theorem exists_append_trimStart (s : List Char) :
    ∃ gap, s = gap ++ trimStart s ∧ ∀ c ∈ gap, isBlank c = true :=
  ⟨s.takeWhile isBlank, List.takeWhile_append_dropWhile.symm, List.all_eq_true.1 List.all_takeWhile⟩

theorem allBlank_cons (c : Char) (s : List Char) :
    allBlank (c :: s) = (isBlank c && allBlank s) := rfl

theorem words_blank {c : Char} (h : isBlank c = true) (s : List Char) :
    words (c :: s) = words s := by
  simp [words, pieces, h]

end PlainNotes.Text

/-!
# Letters regardless of case

Simple case folding, as far as the letters a to z need it. Two characters above ASCII fold to such
a letter: the Kelvin sign to `k` and the long s to `s`.
-/

namespace PlainNotes.Text

/-- Whether `c` folds to the small letter `letter`. On anything but a small letter of ASCII this is
equality. -/
def foldsTo (letter c : Char) : Bool :=
  c == letter || (letter.isLower && c == letter.toUpper) ||
    (letter == 'k' && c == '\u212a') || (letter == 's' && c == '\u017f')

@[simp] theorem foldsTo_self (c : Char) : foldsTo c c = true := by
  simp [foldsTo]

end PlainNotes.Text

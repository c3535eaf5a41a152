/-!
# Numbers in decimal digits
-/

namespace PlainNotes.Text

def natText (n : Nat) : String :=
  String.ofList (Nat.toDigits 10 n)

/-- The decimal digits of an integer, with a sign if it is negative. -/
def intText (i : Int) : String :=
  if i < 0 then "-" ++ natText i.natAbs else natText i.natAbs

end PlainNotes.Text

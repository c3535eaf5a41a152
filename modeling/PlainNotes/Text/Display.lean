import PlainNotes.Text.Printable

/-!
# Texts in messages

How a message shows a text that it speaks about: between double quotes, with escapes for what would
not show.
-/

namespace PlainNotes.Text

/-- The hexadecimal digits of a number, without leading zeros. -/
def hexDigits (n : Nat) : List Char :=
  Nat.toDigits 16 n

/-- How a message shows one character. -/
def displayedChar (c : Char) : List Char :=
  if c = '"' || c = '\\' then ['\\', c]
  else if c = '\n' then ['\\', 'n']
  else if c = '\r' then ['\\', 'r']
  else if c = '\t' then ['\\', 't']
  else if c.toNat = 0 then ['\\', '0']
  else if isPrintable c then [c]
  else ['\\', 'u', '\x7b'] ++ hexDigits c.toNat ++ ['\x7d']

/-- How a message shows a text. -/
def displayed (s : String) : String :=
  String.ofList ('"' :: s.toList.flatMap displayedChar ++ ['"'])

end PlainNotes.Text

/-!
# Words of a small shell

How the text of a shell script is cut into words, separators and redirections. Quotes keep
characters from having a special meaning. The only parameters are the path of the script, the number
of its arguments, which is zero, the number of the process, and the status of the last command.
-/

namespace PlainNotes.Shell

/-- A part of a word. -/
inductive Piece
  /-- A character, and whether quotes take away its special meaning. -/
  | char (c : Char) (quoted : Bool)
  | scriptPath
  | process
  | status
  deriving DecidableEq, Repr

/-- A word before its parameters are replaced. -/
abbrev Word := List Piece

/-- A part of a script. -/
inductive Token
  | word (pieces : Word)
  | semicolon
  | armEnd
  | and
  | or
  | bar
  | openParen
  | closeParen
  /-- One stream goes where another one goes. -/
  | duplicate (stream target : Nat)
  /-- A stream goes to a file. -/
  | toFile (stream : Nat)
  deriving DecidableEq, Repr

/-- How characters are read. -/
inductive Mode
  | plain
  | single
  | double
  | comment
  deriving DecidableEq, Repr

/-- Ends a word that is being read. -/
def flush (word : Option Word) (tokens : List Token) : List Token :=
  match word with
  | some pieces => .word pieces :: tokens
  | none => tokens

/-- Adds a piece to a word that is being read. -/
def add (word : Option Word) (piece : Piece) : Option Word :=
  some (word.getD [] ++ [piece])

/-- The stream that a redirection is about: the digit in front of it, or else the output. -/
def streamOf : Option Word → Option (Nat × Option Word)
  | none => some (1, none)
  | some [.char c false] =>
    if c.isDigit then some (c.toNat - 48, none) else some (1, some [.char c false])
  | some w => some (1, some w)

/-- Cuts a script into tokens. `word` is the word being read. There are no tokens if a quote stays
open. `bound` is above the length of the script. -/
def scan : Nat → Mode → Option Word → List Char → Option (List Token)
  | 0, _, _, _ => none
  | _ + 1, mode, word, [] =>
    match mode with
    | .plain | .comment => some (flush word [])
    | .single | .double => none
  | bound + 1, mode, word, c :: s =>
    match mode with
    | .comment =>
      if c = '\n' then (scan bound .plain none s).map (.semicolon :: ·)
      else scan bound .comment word s
    | .single =>
      if c = '\'' then scan bound .plain word s
      else scan bound .single (add word (.char c true)) s
    | .double =>
      match c, s with
      | '"', _ => scan bound .plain word s
      | '$', '0' :: t => scan bound .double (add word .scriptPath) t
      | '$', '$' :: t => scan bound .double (add word .process) t
      | '$', '?' :: t => scan bound .double (add word .status) t
      | '$', '#' :: t => scan bound .double (add word (.char '0' true)) t
      | '\\', d :: t =>
        if d = '$' || d = '"' || d = '\\' then scan bound .double (add word (.char d true)) t
        else scan bound .double (add word (.char '\\' true)) (d :: t)
      | _, _ => scan bound .double (add word (.char c true)) s
    | .plain =>
      match c, s with
      | ' ', _ => (scan bound .plain none s).map (flush word)
      | '\t', _ => (scan bound .plain none s).map (flush word)
      | '\n', _ => (scan bound .plain none s).map fun ts => flush word (.semicolon :: ts)
      | '\'', _ => scan bound .single (some (word.getD [])) s
      | '"', _ => scan bound .double (some (word.getD [])) s
      | '\\', d :: t => scan bound .plain (add word (.char d true)) t
      | '$', '0' :: t => scan bound .plain (add word .scriptPath) t
      | '$', '$' :: t => scan bound .plain (add word .process) t
      | '$', '?' :: t => scan bound .plain (add word .status) t
      | '$', '#' :: t => scan bound .plain (add word (.char '0' true)) t
      | ';', ';' :: t => (scan bound .plain none t).map fun ts => flush word (.armEnd :: ts)
      | ';', _ => (scan bound .plain none s).map fun ts => flush word (.semicolon :: ts)
      | '&', '&' :: t => (scan bound .plain none t).map fun ts => flush word (.and :: ts)
      | '|', '|' :: t => (scan bound .plain none t).map fun ts => flush word (.or :: ts)
      | '|', _ => (scan bound .plain none s).map fun ts => flush word (.bar :: ts)
      | '(', _ => (scan bound .plain none s).map fun ts => flush word (.openParen :: ts)
      | ')', _ => (scan bound .plain none s).map fun ts => flush word (.closeParen :: ts)
      | '>', '&' :: d :: t =>
        match streamOf word with
        | some (n, left) =>
          (scan bound .plain none t).map fun ts => flush left (.duplicate n (d.toNat - 48) :: ts)
        | none => none
      | '>', _ =>
        match streamOf word with
        | some (n, left) => (scan bound .plain none s).map fun ts => flush left (.toFile n :: ts)
        | none => none
      | '#', _ =>
        if word.isNone then scan bound .comment none s
        else scan bound .plain (add word (.char c false)) s
      | _, _ => scan bound .plain (add word (.char c false)) s

def tokens (script : List Char) : Option (List Token) :=
  scan (script.length + 1) .plain none script

end PlainNotes.Shell

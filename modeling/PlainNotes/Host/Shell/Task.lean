import PlainNotes.Host.Shell.Token

/-!
# Commands of a small shell

What a script asks for: simple commands with redirections, `case`, `if`, and commands joined by `;`,
`&&` and `||`.
-/

namespace PlainNotes.Shell

/-- Where a stream goes instead. -/
inductive Redirect
  | duplicate (stream target : Nat)
  | toFile (stream : Nat) (path : Word)
  deriving DecidableEq, Repr

/-- What a script does. -/
inductive Task
  | simple (words : List Word) (redirects : List Redirect)
  /-- The body if a word fits one of the patterns. -/
  | ifFits (subject : Word) (patterns : List Word) (body otherwise : List Task)
  /-- The body if the last command of the condition succeeds. -/
  | ifSucceeds (condition body otherwise : List Task)

def plainWord (s : String) : Word :=
  s.toList.map fun c => .char c false

def startsWith (s : String) : List Token → Bool
  | .word w :: _ => w == plainWord s
  | _ => false

def skipSeparators (ts : List Token) : List Token :=
  ts.dropWhile (· == .semicolon)

def takeSimple : List Token → List Word × List Redirect × List Token
  | .word w :: ts =>
    let (ws, rs, rest) := takeSimple ts
    (w :: ws, rs, rest)
  | .duplicate n k :: ts =>
    let (ws, rs, rest) := takeSimple ts
    (ws, .duplicate n k :: rs, rest)
  | .toFile n :: .word w :: ts =>
    let (ws, rs, rest) := takeSimple ts
    (ws, .toFile n w :: rs, rest)
  | ts => ([], [], ts)

/-- The patterns of an arm of `case`, as far as the parenthesis. -/
def takePatterns : List Token → Option (List Word × List Token)
  | .word w :: .bar :: ts => (takePatterns ts).map fun (ws, rest) => (w :: ws, rest)
  | .word w :: .closeParen :: ts => some ([w], ts)
  | _ => none

def nothing : Task :=
  .simple [plainWord "true"] []

def endsList (ts : List Token) : Bool :=
  ["then", "else", "elif", "fi", "esac"].any fun w => startsWith w ts

mutual

/-- Reads commands up to the end of their list. `bound` is above the number of tokens. -/
def tasksWithin : Nat → List Token → Option (List Task × List Token)
  | 0, _ => none
  | bound + 1, ts =>
    let ts := skipSeparators ts
    match ts with
    | [] => some ([], [])
    | .armEnd :: _ => some ([], ts)
    | _ =>
      if endsList ts then some ([], ts)
      else do
        let (task, rest) ← jointWithin bound ts
        let (others, rest) ← tasksWithin bound rest
        return (task :: others, rest)

/-- Reads commands joined by `&&` and `||`. -/
def jointWithin : Nat → List Token → Option (Task × List Token)
  | 0, _ => none
  | bound + 1, ts => do
    let (task, rest) ← taskWithin bound ts
    joinWithin bound task rest

/-- Reads what is joined to a command. -/
def joinWithin : Nat → Task → List Token → Option (Task × List Token)
  | 0, _, _ => none
  | bound + 1, task, ts =>
    match ts with
    | .and :: ts => do
      let (next, rest) ← taskWithin bound ts
      joinWithin bound (.ifSucceeds [task] [next] []) rest
    | .or :: ts => do
      let (next, rest) ← taskWithin bound ts
      joinWithin bound (.ifSucceeds [task] [] [next]) rest
    | ts => some (task, ts)

/-- Reads one command. -/
def taskWithin : Nat → List Token → Option (Task × List Token)
  | 0, _ => none
  | bound + 1, ts =>
    if startsWith "if" ts then do
      let (condition, rest) ← tasksWithin bound ts.tail
      if !startsWith "then" rest then none
      let (body, rest) ← tasksWithin bound rest.tail
      if startsWith "else" rest then
        let (otherwise, rest) ← tasksWithin bound rest.tail
        if startsWith "fi" rest then some (.ifSucceeds condition body otherwise, rest.tail)
        else none
      else if startsWith "fi" rest then some (.ifSucceeds condition body [nothing], rest.tail)
      else none
    else if startsWith "case" ts then
      match ts.tail with
      | .word subject :: rest =>
        if startsWith "in" rest then armsWithin bound subject rest.tail else none
      | _ => none
    else
      let (ws, rs, rest) := takeSimple ts
      if ws.isEmpty && rs.isEmpty then none else some (.simple ws rs, rest)

/-- Reads the arms of `case` and what ends them. -/
def armsWithin : Nat → Word → List Token → Option (Task × List Token)
  | 0, _, _ => none
  | bound + 1, subject, ts => do
    let ts := skipSeparators ts
    if startsWith "esac" ts then some (nothing, ts.tail)
    else
      let ts := if ts.head? == some .openParen then ts.tail else ts
      let (patterns, rest) ← takePatterns ts
      let (body, rest) ← tasksWithin bound rest
      let rest := if rest.head? == some .armEnd then rest.tail else rest
      let (otherwise, rest) ← armsWithin bound subject rest
      return (.ifFits subject patterns (if body.isEmpty then [nothing] else body) [otherwise], rest)

end

def tasks (script : List Char) : Option (List Task) := do
  let ts ← tokens script
  let (tasks, rest) ← tasksWithin (8 * ts.length + 8) ts
  if rest.isEmpty then some tasks else none

end PlainNotes.Shell

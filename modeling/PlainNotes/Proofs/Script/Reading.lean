import PlainNotes.Proofs.Script.Layout
import PlainNotes.Text.Blank

/-!
# Reading a script back

`read` makes statements of the text of a script, without looking at how they were written.  It cuts
the text into code and literals, and these into lines, of which each says one thing whatever its
white space is; lines that open and close blocks are matched as brackets are.

* `literalValue_escape`: a literal without backslashes stands for the text it was written for.
* `readLines_fragments`: the lines of statements say what the statements are.
* `blocks_heads`: blocks are closed by the lines that their openings wait for.
* `read_written`: statements without backslashes in their texts are read as they were.
-/

namespace PlainNotes.Script

open Statement

/-! ## Literals and lines -/

/-- The character that a backslash makes of the one behind it. -/
def escapeValue : Char → Option Char
  | '"' => some '"'
  | '\\' => some '\\'
  | 'n' => some '\n'
  | 'r' => some '\r'
  | 't' => some '\t'
  | _ => none

/-- The text that a literal stands for. -/
def literalValue : List Char → Option (List Char)
  | [] => some []
  | ['\\'] => none
  | '\\' :: c :: s => do return (← escapeValue c) :: (← literalValue s)
  | c :: s => do return c :: (← literalValue s)

/-- A character of code, or a whole literal. -/
inductive Atom
  | char (c : Char)
  | literal (written : List Char)
  deriving DecidableEq

/-- The atoms of tokens, if all literals are closed. -/
def atoms : List Token → Option (List Atom)
  | [] => some []
  | .code text :: ts => do return text.map .char ++ (← atoms ts)
  | .literal written :: ts => do return .literal written :: (← atoms ts)
  | .unclosed _ :: _ => none

/-- The lines of a script.  Line feeds inside literals end no line. -/
def cutLines : List Atom → List (List Atom)
  | [] => [[]]
  | a :: s =>
    if a = .char '\n' then [] :: cutLines s
    else
      match cutLines s with
      | [] => [[a]]
      | line :: lines => (a :: line) :: lines

/-- Code with one space between its words. -/
def squeeze (code : List Char) : List Fragment :=
  match Text.words code with
  | [] => []
  | ws => [.code (String.ofList ([' '].intercalate ws))]

/-- The fragments of a line behind the code `done`. -/
def lineFrom (done : List Char) : List Atom → Option (List Fragment)
  | [] => some (squeeze done)
  | .char c :: s => lineFrom (done ++ [c]) s
  | .literal written :: s => do
    return squeeze done ++ .literal (String.ofList (← literalValue written)) :: (← lineFrom [] s)

/-! ## What a line says -/

inductive Opening
  | tellApplication
  | tellNote
  | eachNote
  | ifNamed (name : String)
  | ifNameContains (part : String)
  | ifNotFound

inductive Closing
  | endTell
  | endRepeat
  | endIf
  deriving DecidableEq

/-- The end that a beginning waits for. -/
def Opening.closing : Opening → Closing
  | tellApplication | tellNote => .endTell
  | eachNote => .endRepeat
  | ifNamed _ | ifNameContains _ | ifNotFound => .endIf

/-- The statement of a block. -/
def Opening.block : Opening → List Statement → Statement
  | tellApplication, body => .tellApplication body
  | tellNote, body => .tellNote body
  | eachNote, body => .eachNote body
  | ifNamed name, body => .ifNamed name body
  | ifNameContains part, body => .ifNameContains part body
  | ifNotFound, body => .ifNotFound body

inductive Head
  | single (s : Statement)
  | opens (o : Opening)
  | closes (c : Closing)

/-- What the fragments of a line say. -/
def Head.ofLine? : List Fragment → Option Head
  | [.code "set newNote to make new note with properties \x7bname:", .literal name, .code "\x7d"] =>
    some (.single (.makeNote name))
  | [.code "tell newNote to make new paragraph at the end with data", .literal item] =>
    some (.single (.fillNote item))
  | [.code "make new paragraph at the end with data", .literal item] =>
    some (.single (.append item))
  | [.code "set noteFound to true"] => some (.single (.setFound true))
  | [.code "set noteFound to false"] => some (.single (.setFound false))
  | [.code "delete theNote"] => some (.single .deleteNote)
  | [.code "exit repeat"] => some (.single .exitLoop)
  | [.code "set matchingNotes to \x7b\x7d"] => some (.single .startNames)
  | [.code "set end of matchingNotes to name of theNote"] => some (.single .keepName)
  | [.code "return matchingNotes"] => some (.single .returnNames)
  | [.code "tell application", .literal "Notes"] => some (.opens .tellApplication)
  | [.code "tell theNote"] => some (.opens .tellNote)
  | [.code "repeat with theNote in notes"] => some (.opens .eachNote)
  | [.code "if name of theNote is", .literal name, .code "then"] => some (.opens (.ifNamed name))
  | [.code "if name of theNote contains", .literal part, .code "then"] =>
    some (.opens (.ifNameContains part))
  | [.code "if not noteFound then"] => some (.opens .ifNotFound)
  | [.code "end tell"] => some (.closes .endTell)
  | [.code "end repeat"] => some (.closes .endRepeat)
  | [.code "end if"] => some (.closes .endIf)
  | _ => none

/-- What lines say.  Empty lines say nothing. -/
def readLines : List (List Atom) → Option (List Head)
  | [] => some []
  | line :: lines => do
    match ← lineFrom [] line with
    | [] => readLines lines
    | fs => return (← Head.ofLine? fs) :: (← readLines lines)

/-- The statements of lines, inside of blocks that were opened.  Each of these is kept with the
statements in front of it; statements are kept backwards. -/
def blocks : List (Opening × List Statement) → List Statement → List Head → Option (List Statement)
  | [], done, [] => some done.reverse
  | _ :: _, _, [] => none
  | opened, done, .single s :: hs => blocks opened (s :: done) hs
  | opened, done, .opens o :: hs => blocks ((o, done) :: opened) [] hs
  | [], _, .closes _ :: _ => none
  | (o, before) :: opened, done, .closes c :: hs =>
    if o.closing = c then blocks opened (o.block done.reverse :: before) hs else none

/-- The statements of a script. -/
def read (script : String) : Option (List Statement) := do
  blocks [] [] (← readLines (cutLines (← atoms (lex script.toList))))

/-! ## The atoms of fragments -/

def Fragment.atoms : Fragment → List Atom
  | code text => text.toList.map .char
  | literal text => [.literal (escape text.toList)]

/-- Where code meets code makes no difference to the atoms. -/
theorem atoms_tokensAfter (done : List Char) (fs : List Fragment) :
    atoms (tokensAfter done fs) = some (done.map .char ++ fs.flatMap Fragment.atoms) := by
  induction fs generalizing done with
  | nil => simp [tokensAfter, atoms]
  | cons f fs ih =>
    cases f with
    | code t => simp [tokensAfter, ih, Fragment.atoms]
    | literal t => simp [tokensAfter, atoms, ih, Fragment.atoms]

theorem literalValue_escape {s : List Char} (h : '\\' ∉ s) : literalValue (escape s) = some s := by
  induction s with
  | nil => rfl
  | cons c s ih =>
    have hs := ih fun hmem => h (List.mem_cons_of_mem c hmem)
    have hb : c ≠ '\\' := fun heq => h (by simp [heq])
    by_cases hc : c = '"'
    · subst hc
      simp [escape_cons, escapeChar, literalValue, escapeValue, hs]
    · simp [escape_cons, escapeChar, hc, hb, literalValue, hs]

/-- The fragments of a line, squeezed, behind the code `done`. -/
def squeezeAfter : List Char → List Fragment → List Fragment
  | done, [] => squeeze done
  | done, .code text :: fs => squeezeAfter (done ++ text.toList) fs
  | done, .literal text :: fs => squeeze done ++ .literal text :: squeezeAfter [] fs

/-- No text among the fragments holds a backslash. -/
def Plain (fs : List Fragment) : Prop :=
  ∀ t ∈ texts fs, '\\' ∉ t.toList

theorem lineFrom_chars (done u : List Char) (s : List Atom) :
    lineFrom done (u.map .char ++ s) = lineFrom (done ++ u) s := by
  induction u generalizing done with
  | nil => simp
  | cons c u ih => simp [lineFrom, ih]

theorem lineFrom_atoms {fs : List Fragment} (h : Plain fs) (done : List Char) :
    lineFrom done (fs.flatMap Fragment.atoms) = some (squeezeAfter done fs) := by
  induction fs generalizing done with
  | nil => rfl
  | cons f fs ih =>
    cases f with
    | code t =>
      rw [List.flatMap_cons, Fragment.atoms, lineFrom_chars, ih h, squeezeAfter]
    | literal t =>
      have hvalue := literalValue_escape (h t (by simp))
      have hrest := ih (fun u hu => h u (by simp [hu])) []
      simp [Fragment.atoms, lineFrom, hvalue, hrest, squeezeAfter]

/-! ## Cutting lines -/

theorem cutLines_append {u : List Atom} (h : .char '\n' ∉ u) (s : List Atom) :
    cutLines (u ++ .char '\n' :: s) = u :: cutLines s := by
  induction u with
  | nil => simp [cutLines]
  | cons a u ih =>
    have ha : a ≠ .char '\n' := fun heq => h (by simp [heq])
    rw [List.cons_append, cutLines, if_neg ha, ih fun hmem => h (List.mem_cons_of_mem a hmem)]

theorem not_mem_atoms {fs : List Fragment} (h : Avoids '\n' fs) :
    .char '\n' ∉ fs.flatMap Fragment.atoms := by
  intro hmem
  obtain ⟨f, hf, ha⟩ := List.mem_flatMap.1 hmem
  cases f with
  | code t =>
    obtain ⟨c, hc, heq⟩ := List.mem_map.1 ha
    obtain rfl : c = '\n' := by simpa using heq
    exact h t hf hc
  | literal t => simp [Fragment.atoms] at ha

theorem cutLines_line (depth : Nat) {fs : List Fragment} (h : Avoids '\n' fs) (s : List Atom) :
    cutLines ((lineFragments depth fs).flatMap Fragment.atoms ++ s) =
      (.code (indent depth) :: fs).flatMap Fragment.atoms :: cutLines s := by
  rw [← cutLines_append (not_mem_atoms (avoids_indent (by decide) depth h))]
  simp [lineFragments, Fragment.atoms]

/-! ## Reading lines -/

theorem words_indent (depth : Nat) (s : List Char) :
    Text.words ((indent depth).toList ++ s) = Text.words s := by
  induction depth with
  | zero => simp [indent]
  | succ depth ih =>
    have hblank : Text.isBlank ' ' = true := by decide
    simp [indent, Text.words_blank hblank, ih]

theorem squeeze_indent (depth : Nat) (s : List Char) :
    squeeze ((indent depth).toList ++ s) = squeeze s := by
  rw [squeeze, squeeze, words_indent]

/-- What the first line of a statement says. -/
def openingHead : Statement → Head
  | tellApplication _ => .opens .tellApplication
  | tellNote _ => .opens .tellNote
  | eachNote _ => .opens .eachNote
  | ifNamed name _ => .opens (.ifNamed name)
  | ifNameContains part _ => .opens (.ifNameContains part)
  | ifNotFound _ => .opens .ifNotFound
  | s => .single s

/-- The first line of a statement says what the statement is, at every level. -/
theorem ofLine?_opening (depth : Nat) (s : Statement) :
    Head.ofLine? (squeezeAfter (indent depth).toList s.opening) = some (openingHead s) := by
  cases s with
  | setFound value => cases value <;> (simp only [opening, squeezeAfter, squeeze_indent]; rfl)
  | makeNote | fillNote | append | deleteNote | exitLoop | startNames | keepName | returnNames
  | tellApplication | tellNote | eachNote | ifNamed | ifNameContains | ifNotFound =>
    simp only [opening, squeezeAfter, squeeze_indent]
    rfl

theorem readLines_line (depth : Nat) {fs : List Fragment} {h : Head} (hline : Avoids '\n' fs)
    (hplain : Plain fs) (hhead : Head.ofLine? (squeezeAfter (indent depth).toList fs) = some h)
    (s : List Atom) :
    readLines (cutLines ((lineFragments depth fs).flatMap Fragment.atoms ++ s)) =
      (readLines (cutLines s)).map (h :: ·) := by
  have hindented : Plain (.code (indent depth) :: fs) := hplain
  rw [cutLines_line depth hline, readLines, lineFrom_atoms hindented, squeezeAfter,
    List.nil_append]
  -- A line that says something is not empty.
  cases hfs : squeezeAfter (indent depth).toList fs with
  | nil =>
    rw [hfs] at hhead
    cases hhead
  | cons f gs =>
    rw [hfs] at hhead
    cases readLines (cutLines s) <;> simp [hhead]

theorem plain_append {fs gs : List Fragment} : Plain (fs ++ gs) ↔ Plain fs ∧ Plain gs := by
  simp [Plain, or_imp, forall_and]

theorem plain_line {depth : Nat} {fs : List Fragment} :
    Plain (lineFragments depth fs) ↔ Plain fs := by
  simp [Plain]

theorem plain_block {depth : Nat} {opening body : List Fragment} {closing : String} :
    Plain (blockFragments depth opening closing body) ↔ Plain opening ∧ Plain body := by
  simp [Plain, or_imp, forall_and]

/-- What the lines of a block say. -/
def blockHeads (o : Opening) (body : List Head) : List Head :=
  .opens o :: body ++ [.closes o.closing]

mutual

/-- What the lines of a statement say. -/
def heads : Statement → List Head
  | tellApplication body => blockHeads .tellApplication (headsAll body)
  | tellNote body => blockHeads .tellNote (headsAll body)
  | eachNote body => blockHeads .eachNote (headsAll body)
  | ifNamed name body => blockHeads (.ifNamed name) (headsAll body)
  | ifNameContains part body => blockHeads (.ifNameContains part) (headsAll body)
  | ifNotFound body => blockHeads .ifNotFound (headsAll body)
  | s@(makeNote _) | s@(fillNote _) | s@(append _) | s@(setFound _) | s@.deleteNote | s@exitLoop
  | s@startNames | s@keepName | s@returnNames => [.single s]

def headsAll : List Statement → List Head
  | [] => []
  | s :: ss => heads s ++ headsAll ss

end

theorem readLines_block {depth : Nat} {opening body : List Fragment} {closing : String}
    {o : Opening} {hs : List Head} (hline : Avoids '\n' opening)
    (hopen : Head.ofLine? (squeezeAfter (indent depth).toList opening) = some (.opens o))
    (havoid : '\n' ∉ closing.toList)
    (hclose : Head.ofLine? (squeeze closing.toList) = some (.closes o.closing))
    (hplain : Plain (blockFragments depth opening closing body))
    (hbody : ∀ s, readLines (cutLines (body.flatMap Fragment.atoms ++ s)) =
      (readLines (cutLines s)).map (hs ++ ·)) (s : List Atom) :
    readLines (cutLines ((blockFragments depth opening closing body).flatMap Fragment.atoms ++ s)) =
      (readLines (cutLines s)).map (blockHeads o hs ++ ·) := by
  have hlast : Head.ofLine? (squeezeAfter (indent depth).toList [.code closing]) =
      some (.closes o.closing) := by
    rw [squeezeAfter, squeezeAfter, squeeze_indent, hclose]
  have hend := readLines_line depth (avoids_cons_code.2 ⟨havoid, avoids_nil⟩)
    (fun t ht => absurd ht (by simp)) hlast s
  simp only [blockFragments, List.flatMap_append, List.append_assoc]
  rw [readLines_line depth hline (plain_block.1 hplain).1 hopen, hbody, hend]
  cases readLines (cutLines s) <;> simp [blockHeads]

mutual

theorem readLines_fragments (depth : Nat) (s : Statement) (h : Plain (fragments depth s))
    (rest : List Atom) :
    readLines (cutLines ((fragments depth s).flatMap Fragment.atoms ++ rest)) =
      (readLines (cutLines rest)).map (heads s ++ ·) := by
  have hline : Avoids '\n' s.opening := avoids_opening rfl s
  have hhead := ofLine?_opening depth s
  cases s with
  | tellApplication body | tellNote body | eachNote body | ifNamed _ body | ifNameContains _ body
  | ifNotFound body =>
    exact readLines_block hline hhead (by decide) rfl h
      (readLines_fragmentsAll (depth + 1) body (plain_block.1 h).2) rest
  | makeNote | fillNote | append | setFound | deleteNote | exitLoop | startNames | keepName
  | returnNames => exact readLines_line depth hline (plain_line.1 h) hhead rest

/-- The lines of statements say what the statements are. -/
theorem readLines_fragmentsAll (depth : Nat) (ss : List Statement)
    (h : Plain (fragmentsAll depth ss)) (rest : List Atom) :
    readLines (cutLines ((fragmentsAll depth ss).flatMap Fragment.atoms ++ rest)) =
      (readLines (cutLines rest)).map (headsAll ss ++ ·) := by
  match ss with
  | [] => cases hrest : readLines (cutLines rest) <;> simp [fragmentsAll, headsAll, hrest]
  | s :: ss =>
    obtain ⟨hs, hss⟩ := plain_append.1 h
    rw [fragmentsAll, List.flatMap_append, List.append_assoc, readLines_fragments depth s hs,
      readLines_fragmentsAll depth ss hss, headsAll]
    cases readLines (cutLines rest) <;> simp

end

/-! ## Matching blocks -/

theorem blocks_blockHeads {o : Opening} {body : List Statement} {hs : List Head}
    (hbody : ∀ opened done rest,
      blocks opened done (hs ++ rest) = blocks opened (body.reverse ++ done) rest)
    (opened : List (Opening × List Statement)) (done : List Statement) (rest : List Head) :
    blocks opened done (blockHeads o hs ++ rest) = blocks opened (o.block body :: done) rest := by
  simp [blockHeads, blocks, hbody]

mutual

theorem blocks_heads (s : Statement) (opened : List (Opening × List Statement))
    (done : List Statement) (rest : List Head) :
    blocks opened done (heads s ++ rest) = blocks opened (s :: done) rest := by
  cases s with
  | tellApplication body | tellNote body | eachNote body | ifNamed _ body | ifNameContains _ body
  | ifNotFound body => exact blocks_blockHeads (blocks_headsAll body) opened done rest
  | makeNote | fillNote | append | setFound | deleteNote | exitLoop | startNames | keepName
  | returnNames => cases opened <;> rfl

/-- The lines of statements add the statements to those in front of them. -/
theorem blocks_headsAll (ss : List Statement) (opened : List (Opening × List Statement))
    (done : List Statement) (rest : List Head) :
    blocks opened done (headsAll ss ++ rest) = blocks opened (ss.reverse ++ done) rest := by
  match ss with
  | [] => rfl
  | s :: ss =>
    rw [headsAll, List.append_assoc, blocks_heads s, blocks_headsAll ss]
    simp

end

/-- **Statements are read as they were written**, whatever their texts are as long as they hold no
backslash. -/
theorem read_written {ss : List Statement} (h : Plain (fragmentsAll 0 ss)) :
    read (written (toSteps ss)) = some ss := by
  have hlex : lex (chars (fragmentsAll 0 ss)) = tokens (fragmentsAll 0 ss) :=
    (lex_eq_tokens_iff (quoteFree_fragmentsAll 0 ss)).2 fun t ht =>
      sealed_of_not_mem (h t (mem_texts.2 ht))
  have hlines := readLines_fragmentsAll 0 ss h []
  have hend : readLines (cutLines []) = some [] := rfl
  rw [List.append_nil, hend] at hlines
  have hblocks := blocks_headsAll ss [] [] []
  rw [List.append_nil] at hblocks
  simp [read, toList_written, hlex, tokens, atoms_tokensAfter, hlines, hblocks, blocks]

end PlainNotes.Script

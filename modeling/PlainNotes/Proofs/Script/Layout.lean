import PlainNotes.Proofs.Script.Literal

/-!
# Scripts as fragments

The text of a script is a list of fragments one after the other: the code of its template, and the
texts of the command as literals.

* `toList_text`: the text of a script is that of its fragments, `scriptFragments`.
* `lex_script_iff`: a script is read as its template and the escaped texts of the command exactly if
  all these texts are sealed.
-/

namespace PlainNotes.Script

/-- A line at a level, with its line feed. -/
def lineFragments (depth : Nat) (fs : List Fragment) : List Fragment :=
  .code (indent depth) :: fs ++ [.code "\n"]

/-- A block at a level: the line that opens it, its body, and the line that closes it. -/
def blockFragments (depth : Nat) (opening : List Fragment) (closing : String)
    (body : List Fragment) : List Fragment :=
  lineFragments depth opening ++ body ++ lineFragments depth [.code closing]

namespace Statement

mutual

/-- The fragments of a statement at a level. -/
def fragments (depth : Nat) : Statement → List Fragment
  | s@(tellApplication body) =>
    blockFragments depth s.opening "end tell" (fragmentsAll (depth + 1) body)
  | s@(tellNote body) => blockFragments depth s.opening "end tell" (fragmentsAll (depth + 1) body)
  | s@(eachNote body) => blockFragments depth s.opening "end repeat" (fragmentsAll (depth + 1) body)
  | s@(ifNamed _ body) => blockFragments depth s.opening "end if" (fragmentsAll (depth + 1) body)
  | s@(ifNameContains _ body) =>
    blockFragments depth s.opening "end if" (fragmentsAll (depth + 1) body)
  | s@(ifNotFound body) => blockFragments depth s.opening "end if" (fragmentsAll (depth + 1) body)
  | s@(makeNote _) | s@(fillNote _) | s@(append _) | s@(setFound _) | s@deleteNote | s@exitLoop
  | s@startNames | s@keepName | s@returnNames => lineFragments depth s.opening

def fragmentsAll (depth : Nat) : List Statement → List Fragment
  | [] => []
  | s :: ss => fragments depth s ++ fragmentsAll depth ss

end

end Statement

open Statement

/-! ## The text of a script -/

theorem toList_lineAt (depth : Nat) (fs : List Fragment) :
    (lineAt depth (lineText fs)).toList = chars (lineFragments depth fs) := by
  simp [lineAt, lineText, lineFragments, chars, Fragment.text, String.toList_join,
    List.flatMap_map]

theorem lineText_code (text : String) : lineText [.code text] = text := by
  simp [lineText, Fragment.text, String.join]

theorem toList_block (depth : Nat) (opening : List Fragment) (closing : String)
    {body : List Step} {fs : List Fragment}
    (h : (textOf (Step.emittedAll (depth + 1) body)).toList = chars fs) :
    (textOf ((Step.block (lineText opening) closing body).emitted depth)).toList =
      chars (blockFragments depth opening closing fs) := by
  have hclose := toList_lineAt depth [.code closing]
  rw [lineText_code] at hclose
  simp [Step.emitted, blockFragments, toList_lineAt, hclose, h]

mutual

theorem toList_toStep (depth : Nat) (s : Statement) :
    (textOf ((toStep s).emitted depth)).toList = chars (fragments depth s) := by
  cases s with
  | tellApplication body => exact toList_block depth _ _ (toList_toSteps (depth + 1) body)
  | tellNote body => exact toList_block depth _ _ (toList_toSteps (depth + 1) body)
  | eachNote body => exact toList_block depth _ _ (toList_toSteps (depth + 1) body)
  | ifNamed name body => exact toList_block depth _ _ (toList_toSteps (depth + 1) body)
  | ifNameContains part body => exact toList_block depth _ _ (toList_toSteps (depth + 1) body)
  | ifNotFound body => exact toList_block depth _ _ (toList_toSteps (depth + 1) body)
  | makeNote | fillNote | append | setFound | deleteNote | exitLoop | startNames | keepName
  | returnNames =>
    simp only [toStep, fragments, Step.emitted, textOf_cons, textOf_nil, String.append_empty]
    exact toList_lineAt depth _

theorem toList_toSteps (depth : Nat) (ss : List Statement) :
    (textOf (Step.emittedAll depth (toSteps ss))).toList = chars (fragmentsAll depth ss) := by
  match ss with
  | [] => rfl
  | s :: ss =>
    simp [toSteps, Step.emittedAll, fragmentsAll, toList_toStep depth s, toList_toSteps depth ss]

end

/-- What steps write is the text of the fragments. -/
theorem toList_written (ss : List Statement) :
    (written (toSteps ss)).toList = chars (fragmentsAll 0 ss) := by
  rw [written, Builder.steps_eq]
  simpa using toList_toSteps 0 ss

/-! ## Code and literals -/

theorem not_mem_indent (depth : Nat) {c : Char} (h : c ≠ ' ') : c ∉ (indent depth).toList := by
  induction depth with
  | zero => simp [indent]
  | succ depth ih => simpa [indent, h] using ih

/-- The character does not stand in the code among the fragments. -/
def Avoids (c : Char) (fs : List Fragment) : Prop :=
  ∀ t, .code t ∈ fs → c ∉ t.toList

section

variable {c : Char} {fs gs : List Fragment}

theorem avoids_cons_code {t : String} : Avoids c (.code t :: fs) ↔ c ∉ t.toList ∧ Avoids c fs := by
  constructor
  · exact fun h => ⟨h t (by simp), fun u hu => h u (List.mem_cons_of_mem _ hu)⟩
  · rintro ⟨ht, hfs⟩ u hu
    rcases List.mem_cons.1 hu with heq | hu
    · obtain rfl := Fragment.code.inj heq
      exact ht
    · exact hfs u hu

theorem avoids_append (hf : Avoids c fs) (hg : Avoids c gs) : Avoids c (fs ++ gs) := by
  intro t ht
  rcases List.mem_append.1 ht with ht | ht
  · exact hf t ht
  · exact hg t ht

theorem avoids_nil : Avoids c [] := fun t ht => absurd ht (by simp)

/-- Indentation brings nothing but spaces to a line. -/
theorem avoids_indent (hc : c ≠ ' ') (depth : Nat) (h : Avoids c fs) :
    Avoids c (.code (indent depth) :: fs) :=
  avoids_cons_code.2 ⟨not_mem_indent depth hc, h⟩

/-- The characters that can stand in the code of a line: neither double quotes nor backslashes nor
line feeds. -/
def isCodeChar (c : Char) : Bool :=
  c != '"' && c != '\\' && c != '\n'

theorem not_mem_of_isCodeChar {t : String} (ht : t.toList.all isCodeChar = true)
    (hc : isCodeChar c = false) : c ∉ t.toList := by
  intro hmem
  have hcode := List.all_eq_true.1 ht c hmem
  rw [hc] at hcode
  cases hcode

theorem code_opening {s : Statement} {t : String} (ht : .code t ∈ s.opening) :
    t.toList.all isCodeChar = true := by
  cases s with
  | setFound value => cases value <;> (simp [opening] at ht; subst ht; decide)
  | makeNote | fillNote | append | deleteNote | exitLoop | startNames | keepName | returnNames
  | tellApplication | tellNote | eachNote | ifNamed | ifNameContains | ifNotFound =>
    simp only [opening, List.mem_cons, Fragment.code.injEq, List.not_mem_nil, or_false,
      reduceCtorEq, false_or] at ht
    rcases ht with rfl | rfl <;> decide

/-- No line of a template holds anything but these characters in its code. -/
theorem avoids_opening (hc : isCodeChar c = false) (s : Statement) : Avoids c s.opening :=
  fun _ ht => not_mem_of_isCodeChar (code_opening ht) hc

theorem avoids_line (hc : isCodeChar c = false) (hline : c ≠ '\n') (depth : Nat)
    (h : Avoids c fs) : Avoids c (lineFragments depth fs) := by
  have hspace : c ≠ ' ' := by
    rintro rfl
    cases hc
  have hend : c ∉ "\n".toList := by simpa using hline
  exact avoids_append (avoids_indent hspace depth h) (avoids_cons_code.2 ⟨hend, avoids_nil⟩)

theorem avoids_block (hc : isCodeChar c = false) (hline : c ≠ '\n') (depth : Nat)
    {closing : String} (ho : Avoids c fs) (hclosing : closing.toList.all isCodeChar = true)
    (hb : Avoids c gs) : Avoids c (blockFragments depth fs closing gs) :=
  avoids_append (avoids_append (avoids_line hc hline depth ho) hb)
    (avoids_line hc hline depth
      (avoids_cons_code.2 ⟨not_mem_of_isCodeChar hclosing hc, avoids_nil⟩))

mutual

theorem avoids_fragments (hc : isCodeChar c = false) (hline : c ≠ '\n') (depth : Nat)
    (s : Statement) : Avoids c (fragments depth s) := by
  have ho := avoids_opening hc s
  cases s with
  | tellApplication body | tellNote body | eachNote body | ifNamed _ body | ifNameContains _ body
  | ifNotFound body =>
    exact avoids_block hc hline depth ho (by decide)
      (avoids_fragmentsAll hc hline (depth + 1) body)
  | makeNote | fillNote | append | setFound | deleteNote | exitLoop | startNames | keepName
  | returnNames => exact avoids_line hc hline depth ho

/-- Neither double quotes nor backslashes stand in the code of a script. -/
theorem avoids_fragmentsAll (hc : isCodeChar c = false) (hline : c ≠ '\n') (depth : Nat)
    (ss : List Statement) : Avoids c (fragmentsAll depth ss) := by
  match ss with
  | [] => exact avoids_nil
  | s :: ss =>
    exact avoids_append (avoids_fragments hc hline depth s)
      (avoids_fragmentsAll hc hline depth ss)

end

end

theorem quoteFree_fragmentsAll (depth : Nat) (ss : List Statement) :
    Avoids '"' (fragmentsAll depth ss) :=
  avoids_fragmentsAll rfl (by decide) depth ss

/-! ## The texts of a command -/

def literals : List Token → List (List Char)
  | [] => []
  | .literal written :: ts => written :: literals ts
  | .code _ :: ts | .unclosed _ :: ts => literals ts

def codes : List Token → List (List Char)
  | [] => []
  | .code text :: ts => text :: codes ts
  | .literal _ :: ts | .unclosed _ :: ts => codes ts

def texts : List Fragment → List String
  | [] => []
  | .literal text :: fs => text :: texts fs
  | .code _ :: fs => texts fs

/-- The fragment with an empty text in place of a literal. -/
def Fragment.blank : Fragment → Fragment
  | code text => code text
  | literal _ => literal ""

@[simp] theorem texts_nil : texts [] = [] := rfl

@[simp] theorem texts_literal (t : String) (fs : List Fragment) :
    texts (.literal t :: fs) = t :: texts fs := rfl

@[simp] theorem texts_code (t : String) (fs : List Fragment) :
    texts (.code t :: fs) = texts fs := rfl

@[simp] theorem texts_append (fs gs : List Fragment) : texts (fs ++ gs) = texts fs ++ texts gs := by
  induction fs with
  | nil => rfl
  | cons f fs ih => cases f <;> simp [ih]

theorem mem_texts {t : String} {fs : List Fragment} : t ∈ texts fs ↔ .literal t ∈ fs := by
  induction fs with
  | nil => simp
  | cons f fs ih => cases f <;> simp [ih]

theorem literals_tokensAfter (done : List Char) (fs : List Fragment) :
    literals (tokensAfter done fs) = (texts fs).map fun t => escape t.toList := by
  induction fs generalizing done with
  | nil => rfl
  | cons f fs ih =>
    cases f with
    | code t => exact ih (done ++ t.toList)
    | literal t => exact congrArg (escape t.toList :: ·) (ih [])

theorem codes_tokensAfter (done : List Char) (fs : List Fragment) :
    codes (tokensAfter done (fs.map Fragment.blank)) = codes (tokensAfter done fs) := by
  induction fs generalizing done with
  | nil => rfl
  | cons f fs ih =>
    cases f with
    | code t => exact ih (done ++ t.toList)
    | literal t => exact congrArg (done :: ·) (ih [])

@[simp] theorem texts_line (depth : Nat) (fs : List Fragment) :
    texts (lineFragments depth fs) = texts fs := by
  simp [lineFragments]

@[simp] theorem texts_block (depth : Nat) (opening : List Fragment) (closing : String)
    (body : List Fragment) :
    texts (blockFragments depth opening closing body) = texts opening ++ texts body := by
  simp [blockFragments]

@[simp] theorem blank_line (depth : Nat) (fs : List Fragment) :
    (lineFragments depth fs).map Fragment.blank = lineFragments depth (fs.map Fragment.blank) := by
  simp [lineFragments, Fragment.blank]

@[simp] theorem blank_block (depth : Nat) (opening : List Fragment) (closing : String)
    (body : List Fragment) :
    (blockFragments depth opening closing body).map Fragment.blank =
      blockFragments depth (opening.map Fragment.blank) closing (body.map Fragment.blank) := by
  simp [blockFragments, Fragment.blank]

/-- Lines that hold one item each hold the items. -/
theorem texts_items {line : String → Statement} (depth : Nat) (items : List String)
    (h : ∀ t, texts (fragments depth (line t)) = [t]) :
    texts (fragmentsAll depth (items.map line)) = items := by
  induction items with
  | nil => rfl
  | cons t ts ih => simp [fragmentsAll, h, ih]

theorem blank_items {line : String → Statement} (depth : Nat) (items : List String)
    (h : ∀ t, (fragments depth (line t)).map Fragment.blank = fragments depth (line "")) :
    (fragmentsAll depth (items.map line)).map Fragment.blank =
      fragmentsAll depth ((List.replicate items.length "").map line) := by
  induction items with
  | nil => rfl
  | cons t ts ih => simpa [fragmentsAll, h, List.replicate_succ] using ih

/-- The texts that a script holds, in the order of its literals. -/
def embedded (action : Action) (title : String) (items : List String) : List String :=
  match action with
  | .create => title :: items
  | .update => title :: items ++ title :: items
  | .delete | .search => [title]

def scriptFragments (action : Action) (title : String) (items : List String) : List Fragment :=
  fragmentsAll 0 (statements action title items)

theorem toList_text (action : Action) (title : String) (items : List String) :
    (text action title items).toList = chars (scriptFragments action title items) :=
  toList_written (statements action title items)

theorem quoteFree_scriptFragments (action : Action) (title : String) (items : List String) :
    Avoids '"' (scriptFragments action title items) :=
  quoteFree_fragmentsAll 0 (statements action title items)

theorem texts_scriptFragments (action : Action) (title : String) (items : List String) :
    texts (scriptFragments action title items) = "Notes" :: embedded action title items := by
  have hfill : ∀ depth, texts (fragmentsAll depth (items.map fillNote)) = items := fun depth =>
    texts_items depth items fun t => by simp [fragments, opening]
  have happend : ∀ depth, texts (fragmentsAll depth (items.map append)) = items := fun depth =>
    texts_items depth items fun t => by simp [fragments, opening]
  cases action with
  | create | update | delete | search =>
    simp [scriptFragments, statements, body, createNote, updateNote, Script.deleteNote, searchNotes,
      fragmentsAll, fragments, opening, hfill, happend, embedded]

/-- The code of a script is that of the script for as many empty texts. -/
theorem blank_scriptFragments (action : Action) (title : String) (items : List String) :
    (scriptFragments action title items).map Fragment.blank =
      (scriptFragments action "" (List.replicate items.length "")).map Fragment.blank := by
  have hfill : ∀ depth (ts : List String),
      (fragmentsAll depth (ts.map fillNote)).map Fragment.blank =
        fragmentsAll depth ((List.replicate ts.length "").map fillNote) := fun depth ts =>
    blank_items depth ts fun t => by simp [fragments, opening, Fragment.blank]
  have happend : ∀ depth (ts : List String),
      (fragmentsAll depth (ts.map append)).map Fragment.blank =
        fragmentsAll depth ((List.replicate ts.length "").map append) := fun depth ts =>
    blank_items depth ts fun t => by simp [fragments, opening, Fragment.blank]
  cases action with
  | create | update | delete | search =>
    simp only [scriptFragments, statements, body, createNote, updateNote, Script.deleteNote,
      searchNotes, fragmentsAll, fragments, opening, Fragment.blank, hfill, happend, blank_block,
      blank_line, List.map_cons, List.map_nil, List.map_append, List.length_replicate]

end PlainNotes.Script

namespace PlainNotes.Command

open Script

/-- The texts of a command that its script holds, in the order of its literals. -/
def embedded (c : Command) : List String :=
  Script.embedded c.action c.title c.content

/-- What the script of a command is meant to be read as. -/
def scriptTokens (c : Command) : List Token :=
  tokens (scriptFragments c.action c.title c.content)

/-- **When the texts of a command stay in their literals.**  The script of a command is read as its
template, with `Notes` and the escaped texts of the command as its literals, exactly if no text has
an odd run of backslashes in front of a double quote or at its end.  The code of the template is the
same for all commands of the action with as many items. -/
theorem lex_script_iff (c : Command) :
    (lex c.script.toList = c.scriptTokens ↔ ∀ t ∈ c.embedded, Sealed t.toList) ∧
    literals c.scriptTokens = ("Notes" :: c.embedded).map (fun t => escape t.toList) ∧
    codes c.scriptTokens =
      codes (tokens (scriptFragments c.action "" (List.replicate c.content.length ""))) ∧
    ((∀ t ∈ c.embedded, '\\' ∉ t.toList) → lex c.script.toList = c.scriptTokens) := by
  have htexts := texts_scriptFragments c.action c.title c.content
  have hiff : lex c.script.toList = c.scriptTokens ↔ ∀ t ∈ c.embedded, Sealed t.toList := by
    rw [script, toList_text]
    refine (lex_eq_tokens_iff (quoteFree_scriptFragments _ _ _)).trans ?_
    have hmem : ∀ t, .literal t ∈ scriptFragments c.action c.title c.content ↔
        t ∈ "Notes" :: c.embedded := fun t => by
      rw [← mem_texts, embedded, ← htexts]
    constructor
    · intro h t ht
      exact h t ((hmem t).2 (List.mem_cons_of_mem _ ht))
    · intro h t ht
      rcases List.mem_cons.1 ((hmem t).1 ht) with rfl | ht
      · exact sealed_of_not_mem (by decide)
      · exact h t ht
  refine ⟨hiff, ?_, ?_, fun h => hiff.2 fun t ht => sealed_of_not_mem (h t ht)⟩
  · rw [scriptTokens, tokens, literals_tokensAfter, htexts, embedded]
  · rw [scriptTokens, tokens, tokens, ← codes_tokensAfter, blank_scriptFragments,
      codes_tokensAfter]

end PlainNotes.Command

import PlainNotes.Script.Statement

/-!
# String literals in a script

One rule cuts a script into code and string literals: outside a literal a double quote opens one;
inside, a backslash makes the next character ordinary, and a double quote that is not ordinary
closes the literal.  `lex` applies the rule, and `tokens` says what a list of fragments is meant to
become.

* `Sealed s`: in front of every double quote of `s`, and at its end, stands an even number of
  backslashes.
* `lexFrom_sealed`, `head_lexFrom_ne`: the literal of a text is read as it was written if the text
  is sealed, and otherwise another literal is read in its place.
* `lex_eq_tokens_iff`: fragments are read as they were meant exactly if all texts in them are
  sealed.
-/

namespace PlainNotes.Script

/-- Where a character of a script stands. -/
inductive Place
  | code
  | literal
  /-- In a literal, behind a backslash that makes the character ordinary. -/
  | escaped

/-- A part that a script is cut into. -/
inductive Token
  | code (text : List Char)
  /-- A literal, as it is written between its quotes. -/
  | literal (written : List Char)
  /-- A literal that is still open at the end of the script. -/
  | unclosed (written : List Char)
  deriving DecidableEq, Repr

/-- The tokens of a text that begins at a place.  What was read of the present token is `done`, read
backwards. -/
def lexFrom : Place → List Char → List Char → List Token
  | .code, done, [] => [.code done.reverse]
  | .code, done, c :: s =>
    if c = '"' then .code done.reverse :: lexFrom .literal [] s else lexFrom .code (c :: done) s
  | .literal, done, [] => [.unclosed done.reverse]
  | .literal, done, c :: s =>
    if c = '"' then .literal done.reverse :: lexFrom .code [] s
    else if c = '\\' then lexFrom .escaped (c :: done) s
    else lexFrom .literal (c :: done) s
  | .escaped, done, [] => [.unclosed done.reverse]
  | .escaped, done, c :: s => lexFrom .literal (c :: done) s

attribute [local simp] lexFrom

def lex (s : List Char) : List Token :=
  lexFrom .code [] s

def chars (fs : List Fragment) : List Char :=
  fs.flatMap fun f => f.text.toList

/-- The tokens of fragments behind the code `done`.  Code joins the code in front of it. -/
def tokensAfter : List Char → List Fragment → List Token
  | done, [] => [.code done]
  | done, .code text :: fs => tokensAfter (done ++ text.toList) fs
  | done, .literal text :: fs =>
    .code done :: .literal (escape text.toList) :: tokensAfter [] fs

/-- What fragments are meant to be read as. -/
def tokens (fs : List Fragment) : List Token :=
  tokensAfter [] fs

/-! ## Backslashes -/

/-- The number of backslashes at the end of a text. -/
def backslashes (s : List Char) : Nat :=
  (s.reverse.takeWhile (· == '\\')).length

/-- Behind `u`, the backslashes in front of every double quote of `s` and at its end are even in
number. -/
def SealedAfter (u s : List Char) : Prop :=
  ∀ a b, s = a ++ b → (b = [] ∨ b.head? = some '"') → backslashes (u ++ a) % 2 = 0

/-- No run of backslashes of odd length stands right in front of a double quote or of the end. -/
def Sealed (s : List Char) : Prop :=
  SealedAfter [] s

@[simp] theorem backslashes_nil : backslashes [] = 0 := rfl

theorem backslashes_concat (u : List Char) (c : Char) :
    backslashes (u ++ [c]) = if c = '\\' then backslashes u + 1 else 0 := by
  by_cases h : c = '\\'
  · simp [backslashes, h]
  · simp [backslashes, h]

theorem sealedAfter_nil {u : List Char} : SealedAfter u [] ↔ backslashes u % 2 = 0 := by
  constructor
  · intro h
    simpa using h [] [] rfl (Or.inl rfl)
  · intro h a b hab _
    obtain ⟨rfl, rfl⟩ := List.append_eq_nil_iff.1 hab.symm
    simpa using h

theorem sealedAfter_cons {u s : List Char} {c : Char} :
    SealedAfter u (c :: s) ↔ (c = '"' → backslashes u % 2 = 0) ∧ SealedAfter (u ++ [c]) s := by
  constructor
  · intro h
    refine ⟨fun hc => ?_, fun a b hab hb => ?_⟩
    · simpa using h [] (c :: s) rfl (Or.inr (by simp [hc]))
    · simpa using h (c :: a) b (by simp [hab]) hb
  · rintro ⟨hc, hs⟩ a b hab hb
    cases a with
    | nil =>
      rw [List.nil_append] at hab
      subst hab
      simpa using hc (by simpa using hb)
    | cons d a =>
      obtain ⟨rfl, rfl⟩ := List.cons.inj hab
      simpa using hs a b rfl hb

/-- A text without backslashes is sealed. -/
theorem sealed_of_not_mem {s : List Char} (h : '\\' ∉ s) : Sealed s := by
  intro a b hab _
  have ha : (a.reverse.takeWhile (· == '\\')) = [] := by
    cases hr : a.reverse with
    | nil => rfl
    | cons c r =>
      have hc : c ∈ s := by
        rw [hab]
        exact List.mem_append_left b (List.mem_reverse.1 (by simp [hr]))
      have hne : c ≠ '\\' := fun heq => h (heq ▸ hc)
      simp [hne]
  simp [backslashes, ha]

/-! ## Reading a literal -/

/-- The place behind the part `u` of a literal that is not closed yet. -/
def placeAfter (u : List Char) : Place :=
  if backslashes u % 2 = 0 then .literal else .escaped

theorem placeAfter_concat (u : List Char) {c : Char} (h : c ≠ '\\') :
    placeAfter (u ++ [c]) = .literal := by
  simp [placeAfter, backslashes_concat, h]

theorem placeAfter_of_even {u : List Char} (h : backslashes u % 2 = 0) :
    placeAfter u = .literal := if_pos h

theorem placeAfter_of_odd {u : List Char} (h : backslashes u % 2 ≠ 0) :
    placeAfter u = .escaped := if_neg h

/-- How one character of a literal is written. -/
def escapeChar (c : Char) : List Char :=
  if c = '"' then ['\\', '"'] else [c]

@[simp] theorem escape_nil : escape [] = [] := rfl

theorem escape_cons (c : Char) (s : List Char) : escape (c :: s) = escapeChar c ++ escape s := rfl

/-- **Reading one character of a text.**  As long as no quote stands behind an odd number of
backslashes, the place in the literal tells whether the number is odd. -/
theorem lexFrom_char {u : List Char} {c : Char} (h : c = '"' → backslashes u % 2 = 0)
    (done rest : List Char) :
    lexFrom (placeAfter u) done (escapeChar c ++ rest) =
      lexFrom (placeAfter (u ++ [c])) ((escapeChar c).reverse ++ done) rest := by
  by_cases hc : c = '"'
  · subst hc
    rw [placeAfter_concat u (by decide), placeAfter_of_even (h rfl)]
    simp [escapeChar]
  by_cases hb : c = '\\'
  · subst hb
    have hlen : backslashes (u ++ ['\\']) = backslashes u + 1 := by simp [backslashes_concat]
    by_cases heven : backslashes u % 2 = 0
    · rw [placeAfter_of_even heven, placeAfter_of_odd (by omega)]
      simp [escapeChar]
    · rw [placeAfter_of_odd heven, placeAfter_of_even (by omega)]
      simp [escapeChar]
  · rw [placeAfter_concat u hb]
    by_cases heven : backslashes u % 2 = 0
    · rw [placeAfter_of_even heven]
      simp [escapeChar, hc, hb]
    · rw [placeAfter_of_odd heven]
      simp [escapeChar, hc]

/-- The literal of a sealed text is read as it was written. -/
theorem lexFrom_sealed {u s : List Char} (h : SealedAfter u s) (done rest : List Char) :
    lexFrom (placeAfter u) done (escape s ++ '"' :: rest) =
      .literal (done.reverse ++ escape s) :: lexFrom .code [] rest := by
  induction s generalizing u done with
  | nil =>
    rw [placeAfter_of_even (sealedAfter_nil.1 h)]
    simp
  | cons c s ih =>
    obtain ⟨hquote, hs⟩ := sealedAfter_cons.1 h
    rw [escape_cons, List.append_assoc, lexFrom_char hquote, ih hs]
    simp

/-- The first token of a text that begins in a literal is a literal, closed or not, that begins with
what was read of it. -/
theorem exists_head_lexFrom (p : Place) (hp : p ≠ .code) (done s : List Char) :
    ∃ w, (lexFrom p done s).head? = some (.literal (done.reverse ++ w)) ∨
      (lexFrom p done s).head? = some (.unclosed (done.reverse ++ w)) := by
  induction s generalizing p done with
  | nil =>
    cases p with
    | code => exact absurd rfl hp
    | literal => exact ⟨[], Or.inr (by simp)⟩
    | escaped => exact ⟨[], Or.inr (by simp)⟩
  | cons c s ih =>
    have step : ∀ q, q ≠ .code →
        ∃ w, (lexFrom q (c :: done) s).head? = some (.literal (done.reverse ++ w)) ∨
          (lexFrom q (c :: done) s).head? = some (.unclosed (done.reverse ++ w)) := by
      intro q hq
      obtain ⟨w, hw⟩ := ih q hq (c :: done)
      exact ⟨c :: w, by simpa using hw⟩
    cases p with
    | code => exact absurd rfl hp
    | escaped => exact step .literal nofun
    | literal =>
      by_cases hc : c = '"'
      · exact ⟨[], Or.inl (by simp [hc])⟩
      by_cases hb : c = '\\'
      · subst hb
        exact step .escaped nofun
      · simpa [hc, hb] using step .literal nofun

/-- Where a text is not sealed, its literal is not what is read. -/
theorem head_lexFrom_ne {u s : List Char} (h : ¬ SealedAfter u s) (done rest : List Char) :
    (lexFrom (placeAfter u) done (escape s ++ '"' :: rest)).head? ≠
      some (.literal (done.reverse ++ escape s)) := by
  induction s generalizing u done with
  | nil =>
    -- The closing quote is ordinary, so the literal goes on behind it.
    have hodd : backslashes u % 2 ≠ 0 := fun heven => h (sealedAfter_nil.2 heven)
    obtain ⟨w, hw⟩ := exists_head_lexFrom .literal nofun ('"' :: done) rest
    intro heq
    rw [placeAfter_of_odd hodd, escape_nil, List.nil_append, lexFrom] at heq
    rw [heq] at hw
    simp at hw
  | cons c s ih =>
    by_cases hquote : c = '"' → backslashes u % 2 = 0
    · have hs : ¬ SealedAfter (u ++ [c]) s := fun hs => h (sealedAfter_cons.2 ⟨hquote, hs⟩)
      rw [escape_cons, List.append_assoc, lexFrom_char hquote]
      simpa using ih hs ((escapeChar c).reverse ++ done)
    · -- The backslash in front of the quote is ordinary, so the quote closes the literal.
      obtain ⟨rfl, hodd⟩ := Classical.not_imp.1 hquote
      rw [placeAfter_of_odd hodd]
      simp [escape_cons, escapeChar]

/-! ## Reading fragments -/

theorem lexFrom_code_append {t : List Char} (ht : '"' ∉ t) (done rest : List Char) :
    lexFrom .code done (t ++ rest) = lexFrom .code (t.reverse ++ done) rest := by
  induction t generalizing done with
  | nil => rfl
  | cons c t ih =>
    have hc : c ≠ '"' := fun heq => ht (by simp [heq])
    rw [List.cons_append, lexFrom, if_neg hc, ih fun hmem => ht (List.mem_cons_of_mem c hmem)]
    simp

@[simp] theorem chars_nil : chars [] = [] := rfl

@[simp] theorem chars_cons (f : Fragment) (fs : List Fragment) :
    chars (f :: fs) = f.text.toList ++ chars fs := rfl

@[simp] theorem chars_append (fs gs : List Fragment) : chars (fs ++ gs) = chars fs ++ chars gs :=
  List.flatMap_append

@[simp] theorem toList_literal (t : String) :
    (Fragment.literal t).text.toList = '"' :: escape t.toList ++ ['"'] := by
  simp [Fragment.text, quoted]

theorem lexFrom_chars_iff {fs : List Fragment} (hcode : ∀ t, .code t ∈ fs → '"' ∉ t.toList)
    (done : List Char) :
    lexFrom .code done.reverse (chars fs) = tokensAfter done fs ↔
      ∀ t, .literal t ∈ fs → Sealed t.toList := by
  induction fs generalizing done with
  | nil => simp [tokensAfter]
  | cons f fs ih =>
    have ih := ih fun t ht => hcode t (List.mem_cons_of_mem f ht)
    cases f with
    | code t =>
      have step := ih (done ++ t.toList)
      rw [List.reverse_append] at step
      rw [chars_cons, Fragment.text, lexFrom_code_append (hcode t (by simp)), tokensAfter, step]
      simp
    | literal t =>
      have step := ih []
      have hopen : lexFrom .code done.reverse (chars (.literal t :: fs)) =
          .code done :: lexFrom (placeAfter []) [] (escape t.toList ++ '"' :: chars fs) := by
        simp [placeAfter]
      rw [hopen, tokensAfter]
      by_cases ht : Sealed t.toList
      · rw [lexFrom_sealed ht]
        simpa [ht] using step
      · constructor
        · intro heq
          have hhead := congrArg List.head? (List.cons.inj heq).2
          exact absurd hhead (head_lexFrom_ne ht [] (chars fs))
        · intro hall
          exact absurd (hall t (by simp)) ht

/-- **Fragments are read as they were meant exactly if all texts in them are sealed.** -/
theorem lex_eq_tokens_iff {fs : List Fragment} (hcode : ∀ t, .code t ∈ fs → '"' ∉ t.toList) :
    lex (chars fs) = tokens fs ↔ ∀ t, .literal t ∈ fs → Sealed t.toList :=
  lexFrom_chars_iff hcode []

end PlainNotes.Script

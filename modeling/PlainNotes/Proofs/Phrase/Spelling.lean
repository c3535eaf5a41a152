import PlainNotes.Proofs.Pattern.Preference
import PlainNotes.Proofs.Phrase.Wording
import PlainNotes.Text.Lowercase

/-!
# Words and gaps in a text

What the words of phrases and the gaps between them take, and what there is of ways through them.
-/

namespace PlainNotes.Phrase

open Text Pattern

variable {s s' u : List Char} {c c' : Captures}

/-! ## Words -/

/-- The characters spell the word, in any case. -/
def spells : List Char → List Char → Bool
  | [], [] => true
  | letter :: w, x :: u => foldsTo letter x && spells w u
  | [], _ :: _ | _ :: _, [] => false

/-- The pattern of the letters of a word. -/
def letters (w : List Char) : Pattern :=
  Pattern.all (w.map fun letter => one (foldsTo letter))

theorem takes_letters {w u : List Char} (h : spells w u = true) (s : List Char) :
    (letters w).Takes u s := by
  induction w generalizing u with
  | nil =>
    cases u with
    | nil => exact takes_all_nil s
    | cons x u => cases h
  | cons letter w ih =>
    cases u with
    | nil => cases h
    | cons x u =>
      obtain ⟨hx, hu⟩ := Bool.and_eq_true_iff.1 h
      exact Takes.cons (takes_one hx (u ++ s)) (ih hu)

theorem takes_word {w : String} (u : String) (h : spells w.toList u.toList = true) (s : List Char) :
    (word w).Takes u.toList s :=
  takes_letters h s

theorem exists_of_way_letters {w : List Char} (h : (letters w).Way s s' c c') :
    ∃ u, s = u ++ s' ∧ spells w u = true ∧ c = c' := by
  induction w generalizing s c' with
  | nil => exact ⟨[], h.1, rfl, h.2⟩
  | cons letter w ih =>
    obtain ⟨m, d, ⟨x, rfl, hx, rfl⟩, hrest⟩ := way_all_cons.1 h
    obtain ⟨u, rfl, hu, rfl⟩ := ih hrest
    exact ⟨x :: u, rfl, by rw [spells, hx, hu, Bool.and_self], rfl⟩

theorem exists_of_way_word {w : String} (h : (word w).Way s s' c c') :
    ∃ u, s = u ++ s' ∧ spells w.toList u = true ∧ c = c' :=
  exists_of_way_letters h

theorem exists_of_way_oneOf {ws : List String} (h : (oneOf ws).Way s s' c c') :
    ∃ w ∈ ws, ∃ u, s = u ++ s' ∧ spells w.toList u = true ∧ c = c' := by
  induction ws with
  | nil => exact absurd h way_any_nil
  | cons w ws ih =>
    rcases way_any_cons.1 h with h | h
    · obtain ⟨u, hu⟩ := exists_of_way_word h
      exact ⟨w, by simp, u, hu⟩
    · obtain ⟨w', hw', hu⟩ := ih h
      exact ⟨w', List.mem_cons_of_mem w hw', hu⟩

/-- What spells a word ends in its last letter. -/
theorem exists_last_of_spells {w : List Char} {letter : Char} {u : List Char}
    (h : spells (w ++ [letter]) u = true) : ∃ v x, u = v ++ [x] ∧ foldsTo letter x = true := by
  induction w generalizing u with
  | nil =>
    rcases u with _ | ⟨x, _ | ⟨y, u⟩⟩
    · cases h
    · exact ⟨[], x, rfl, (Bool.and_eq_true_iff.1 h).1⟩
    · exact absurd (Bool.and_eq_true_iff.1 h).2 Bool.false_ne_true
  | cons l w ih =>
    cases u with
    | nil => cases h
    | cons y u =>
      obtain ⟨v, x, rfl, hx⟩ := ih (Bool.and_eq_true_iff.1 h).2
      exact ⟨y :: v, x, rfl, hx⟩

/-! ## Gaps -/

theorem startsOutside_cons {cls : Char → Bool} {x : Char} (h : cls x = false) (s : List Char) :
    StartsOutside cls (x :: s) := by
  intro y hy
  obtain rfl := Option.some.inj hy
  exact h

theorem startsOutside_append {cls : Char → Bool} {u : List Char}
    (h : u.head?.any (fun x => !cls x) = true) (s : List Char) : StartsOutside cls (u ++ s) := by
  cases u with
  | nil => cases h
  | cons x u => exact startsOutside_cons (by simpa using h) (u ++ s)

theorem run_letters_eq_none {w : List Char} {letter : Char} (hw : w.head? = some letter)
    (hs : StartsOutside (foldsTo letter) s) (k : List Char → Option Captures) :
    (letters w).run k s = none := by
  cases w with
  | nil => cases hw
  | cons l w =>
    obtain rfl := Option.some.inj hw
    rw [letters, List.map_cons, run_all_cons, run]
    cases s with
    | nil => rfl
    | cons x s =>
      rw [runOne, hs x rfl]
      rfl

/-- A word does not stand where its first letter does not. -/
theorem run_word_eq_none {w : String} (letter : Char) (hw : w.toList.head? = some letter)
    (hs : StartsOutside (foldsTo letter) s) (k : List Char → Option Captures) :
    (word w).run k s = none :=
  run_letters_eq_none hw hs k

theorem blank_space : ∀ y ∈ [' '], isBlank y = true :=
  List.forall_mem_singleton.2 (by decide)

theorem takes_gap (h : StartsOutside isBlank s) : gap.Takes [' '] s :=
  takes_many1 (by simp) blank_space h

theorem takes_maybe {w : String} (u : String) (h : spells w.toList u.toList = true)
    (hs : StartsOutside isBlank s) : (maybe w).Takes (u.toList ++ [' ']) s :=
  Takes.optional (Takes.seq (takes_word u h ([' '] ++ s)) (takes_gap hs))

theorem takes_maybe_nil {w : String} (letter : Char) (hw : w.toList.head? = some letter)
    (hs : StartsOutside (foldsTo letter) s) : (maybe w).Takes [] s :=
  takes_optional_nil fun k => run_word_eq_none letter hw hs (gap.run k)

theorem exists_of_way_gap (h : gap.Way s s' c c') :
    ∃ u, u ≠ [] ∧ s = u ++ s' ∧ (∀ x ∈ u, isBlank x = true) ∧ c = c' :=
  way_many1.1 h

theorem exists_of_way_maybe {w : String} (h : (maybe w).Way s s' c c') :
    (s = s' ∧ c = c') ∨ ∃ u b, s = u ++ (b ++ s') ∧ spells w.toList u = true ∧ b ≠ [] ∧
      (∀ x ∈ b, isBlank x = true) ∧ c = c' := by
  rcases h with ⟨m, d, hword, hgap⟩ | h
  · obtain ⟨b, hb, rfl, hblank, rfl⟩ := exists_of_way_gap hgap
    obtain ⟨u, rfl, hu, rfl⟩ := exists_of_way_word hword
    exact Or.inr ⟨u, b, rfl, hu, hb, hblank, rfl⟩
  · exact Or.inl h

theorem trimEnd_append {a w : List Char} {x : Char} (hx : isBlank x = false)
    (hw : ∀ y ∈ w, isBlank y = true) : trimEnd (a ++ x :: w) = a ++ [x] := by
  have hdrop : (w.reverse ++ x :: a.reverse).dropWhile isBlank = x :: a.reverse := by
    rw [List.dropWhile_append_of_pos fun y hy => hw y (List.mem_reverse.1 hy),
      List.dropWhile_cons_of_neg (by simp [hx])]
  simp [trimEnd, trimStart, hdrop]

/-- The last character that is not blank is where it is. -/
theorem eq_of_last {a a' w w' : List Char} {x x' : Char} (hx : isBlank x = false)
    (hx' : isBlank x' = false) (hw : ∀ y ∈ w, isBlank y = true) (hw' : ∀ y ∈ w', isBlank y = true)
    (h : a ++ x :: w = a' ++ x' :: w') : a = a' ∧ x = x' := by
  have htrim := congrArg trimEnd h
  rw [trimEnd_append hx hw, trimEnd_append hx' hw'] at htrim
  obtain ⟨ha, hlast⟩ := List.append_inj' htrim rfl
  exact ⟨ha, (List.cons.inj hlast).1⟩

/-- What folds to a letter is outside of a class that both of its cases are outside of. -/
theorem outside_of_foldsTo {cls : Char → Bool} {letter x : Char}
    (hfolds : cls '\u212a' = false ∧ cls '\u017f' = false) (hlow : cls letter = false)
    (hup : cls letter.toUpper = false) (h : foldsTo letter x = true) : cls x = false := by
  simp only [foldsTo, Bool.or_eq_true, Bool.and_eq_true, beq_iff_eq] at h
  rcases h with ((rfl | ⟨-, rfl⟩) | ⟨-, rfl⟩) | ⟨-, rfl⟩
  · exact hlow
  · exact hup
  · exact hfolds.1
  · exact hfolds.2

/-- Line feeds are blank. -/
theorem inLine_of_not_isBlank {c : Char} (h : isBlank c = false) : inLine c = true := by
  refine bne_iff_ne.2 ?_
  rintro rfl
  cases h

/-- Letters are not blank. -/
theorem not_isBlank_of_foldsTo {letter x : Char} (hlow : isBlank letter = false)
    (hup : isBlank letter.toUpper = false) (h : foldsTo letter x = true) : isBlank x = false :=
  outside_of_foldsTo (by decide) hlow hup h

theorem length_of_spells {w u : List Char} (h : spells w u = true) : u.length = w.length := by
  induction w generalizing u with
  | nil =>
    cases u with
    | nil => rfl
    | cons x u => cases h
  | cons letter w ih =>
    cases u with
    | nil => cases h
    | cons x u => rw [List.length_cons, List.length_cons, ih (Bool.and_eq_true_iff.1 h).2]

/-! ## Words that sentences mention -/

/-- Characters of ASCII have their small letters wherever they stand. -/
theorem lowercaseAfter_append {u : List Char} (h : ∀ x ∈ u, x.toNat < 0x80)
    (before s : List Char) : lowercaseAfter before (u ++ s) =
      u.map Char.toLower ++ lowercaseAfter (u.reverse ++ before) s := by
  induction u generalizing before with
  | nil => rfl
  | cons x u ih =>
    have hx : x.toNat < 0x80 := h x (by simp)
    have hsigma : x ≠ 'Σ' := by
      rintro rfl
      exact absurd hx (by decide)
    rw [List.cons_append, lowercaseAfter, if_neg hsigma, lowercaseChar_of_ascii hx,
      ih fun y hy => h y (List.mem_cons_of_mem x hy)]
    simp

theorem infix_lowercaseAfter {u : List Char} (hu : ∀ x ∈ u, x.toNat < 0x80) (h : u <:+: s)
    (before : List Char) : u.map Char.toLower <:+: lowercaseAfter before s := by
  obtain ⟨a, b, rfl⟩ := h
  rw [List.append_assoc]
  induction a generalizing before with
  | nil =>
    rw [List.nil_append, lowercaseAfter_append hu]
    exact (List.prefix_append _ _).isInfix
  | cons x a ih =>
    rw [List.cons_append, lowercaseAfter]
    exact (ih (x :: before)).trans (List.suffix_append _ _).isInfix

/-- A sentence mentions the words that stand in it in letters of ASCII. -/
theorem mentions_of_infix {w : String} {u : List Char} (hu : ∀ x ∈ u, x.toNat < 0x80)
    (hw : u.map Char.toLower = w.toList) (h : u <:+: s) : mentions [w] (lowercase s) = true := by
  have hin := infix_lowercaseAfter hu h []
  rw [hw] at hin
  rw [mentions, List.any_cons, lowercase, contains_iff_isInfix.2 hin, Bool.true_or]

/-- A sentence mentions the words that it begins with. -/
theorem mentions_append {w : String} {u : List Char}
    (hu : (u.all fun x => decide (x.toNat < 0x80)) = true) (hw : u.map Char.toLower = w.toList)
    (s : List Char) : mentions [w] (lowercase (u ++ s)) = true :=
  mentions_of_infix (fun x hx => of_decide_eq_true (List.all_eq_true.1 hu x hx)) hw
    (List.prefix_append u s).isInfix

/-- A small letter to which nothing above ASCII folds. -/
def FoldsInAscii (letter : Char) : Prop :=
  (letter ≠ 'k' ∧ letter ≠ 's') ∧ (letter.toNat < 0x80 ∧ letter.toLower = letter) ∧
    letter.toUpper.toNat < 0x80 ∧ letter.toUpper.toLower = letter

instance : DecidablePred FoldsInAscii := fun letter =>
  inferInstanceAs (Decidable ((letter ≠ 'k' ∧ letter ≠ 's') ∧
    (letter.toNat < 0x80 ∧ letter.toLower = letter) ∧
    letter.toUpper.toNat < 0x80 ∧ letter.toUpper.toLower = letter))

theorem FoldsInAscii.eq_toLower {letter x : Char} (h : FoldsInAscii letter)
    (hx : foldsTo letter x = true) : x.toNat < 0x80 ∧ x.toLower = letter := by
  obtain ⟨⟨hk, hs⟩, hlow, hup⟩ := h
  simp only [foldsTo, Bool.or_eq_true, Bool.and_eq_true, beq_iff_eq] at hx
  rcases hx with ((rfl | ⟨-, rfl⟩) | ⟨hletter, -⟩) | ⟨hletter, -⟩
  · exact hlow
  · exact hup
  · exact absurd hletter hk
  · exact absurd hletter hs

/-- All spellings of a word of such letters are of ASCII, and the word in small letters. -/
theorem toLower_of_spells {w u : List Char}
    (hw : (w.all fun letter => decide (FoldsInAscii letter)) = true) (h : spells w u = true) :
    u.map Char.toLower = w ∧ ∀ x ∈ u, x.toNat < 0x80 := by
  induction w generalizing u with
  | nil =>
    obtain rfl : u = [] := List.length_eq_zero_iff.1 (length_of_spells h)
    exact ⟨rfl, fun x hx => absurd hx List.not_mem_nil⟩
  | cons letter w ih =>
    obtain ⟨hletter, hrest⟩ := Bool.and_eq_true_iff.1 hw
    cases u with
    | nil => cases h
    | cons x u =>
      obtain ⟨hx, hu⟩ := Bool.and_eq_true_iff.1 h
      obtain ⟨hascii, hlower⟩ := FoldsInAscii.eq_toLower (of_decide_eq_true hletter) hx
      obtain ⟨hmap, hall⟩ := ih hrest hu
      rw [List.map_cons, hlower, hmap]
      exact ⟨rfl, List.forall_mem_cons.2 ⟨hascii, hall⟩⟩

end PlainNotes.Phrase

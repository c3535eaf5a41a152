import PlainNotes.Phrase.Items
import PlainNotes.Text.Fold
import PlainNotes.Text.Lowercase

/-!
# Letters of ASCII in another case

What is done to texts on the way to a command does not look at the case of letters: it gives the
same for a text in small letters, in small letters.

* `class_toLower`: classes of characters, by a look at the 26 capitals.
* `lowercase_toLower`: the full lowercase of a text does not change.
* `splitItems_toLower`, `stripQuotes_toLower`, `leadingWords_toLower`: items and titles.
-/

namespace PlainNotes

namespace Text

/-! ## Characters -/

/-- The letters that have another form in small letters of ASCII. -/
def capitals : List Char :=
  "ABCDEFGHIJKLMNOPQRSTUVWXYZ".toList

theorem forall_mem_of_all {s : List Char} {p : Char → Prop} [DecidablePred p]
    (h : (s.all fun c => decide (p c)) = true) : ∀ c ∈ s, p c :=
  fun c hc => of_decide_eq_true (List.all_eq_true.1 h c hc)

theorem ofNat_mem_capitals : ∀ n ≤ 90, 65 ≤ n → Char.ofNat n ∈ capitals := by
  decide

/-- All other characters stay as they are. -/
theorem toLower_eq_or_mem (c : Char) : c.toLower = c ∨ c ∈ capitals := by
  by_cases h : c.val ≥ 'A'.val ∧ c.val ≤ 'Z'.val
  · have hmem := ofNat_mem_capitals c.toNat h.2 h.1
    rw [Char.ofNat_toNat] at hmem
    exact Or.inr hmem
  · exact Or.inl (dif_neg h)

theorem class_toLower {α : Type} {cls : Char → α} (h : ∀ c ∈ capitals, cls c.toLower = cls c)
    (c : Char) : cls c.toLower = cls c := by
  rcases toLower_eq_or_mem c with heq | hmem
  · rw [heq]
  · exact h c hmem

theorem isBlank_toLower (c : Char) : isBlank c.toLower = isBlank c :=
  class_toLower (forall_mem_of_all (by decide)) c

/-- A character that is no letter of ASCII is found in either case. -/
theorem beq_toLower {d : Char} (h : d ∉ capitals ++ capitals.map Char.toLower) (c : Char) :
    (c.toLower == d) = (c == d) := by
  refine @class_toLower Bool (· == d) (fun c hc => ?_) c
  have hcapital : c ≠ d := by
    rintro rfl
    exact h (List.mem_append_left _ hc)
  have hsmall : c.toLower ≠ d := by
    rintro rfl
    exact h (List.mem_append_right _ (List.mem_map_of_mem hc))
  rw [beq_false_of_ne hcapital, beq_false_of_ne hsmall]

/-- A small letter is spelt by both of its cases. -/
theorem foldsTo_toLower {letter : Char} (h : letter ∈ capitals.map Char.toLower) (c : Char) :
    foldsTo letter c.toLower = foldsTo letter c := by
  have hall : ((capitals.map Char.toLower).all fun letter => capitals.all fun c =>
      foldsTo letter c.toLower == foldsTo letter c) = true := by decide +kernel
  have hletter := List.all_eq_true.1 (List.all_eq_true.1 hall letter h)
  exact class_toLower (fun c hc => beq_iff_eq.1 (hletter c hc)) c

/-! ## Full lowercase -/

/-- No letter of ASCII is stepped over. -/
theorem caseIgnorableRanges_letterless : ∀ r ∈ caseIgnorableRanges,
    r.2 < 0x41 ∨ (0x5a < r.1 ∧ r.2 < 0x61) ∨ 0x7a < r.1 := by
  decide +kernel

theorem isCaseIgnorable_of_letter {c : Char}
    (h : 0x41 ≤ c.toNat ∧ c.toNat ≤ 0x5a ∨ 0x61 ≤ c.toNat ∧ c.toNat ≤ 0x7a) :
    isCaseIgnorable c = false := by
  rw [isCaseIgnorable, inRanges, List.any_eq_false]
  intro r hr
  have hrange := caseIgnorableRanges_letterless r hr
  simp only [Bool.and_eq_true, decide_eq_true_eq]
  omega

theorem isCaseIgnorable_toLower (c : Char) : isCaseIgnorable c.toLower = isCaseIgnorable c := by
  refine class_toLower (fun d hd => ?_) c
  have hletters : ∀ d ∈ capitals, (0x41 ≤ d.toNat ∧ d.toNat ≤ 0x5a) ∧
      0x61 ≤ d.toLower.toNat ∧ d.toLower.toNat ≤ 0x7a := forall_mem_of_all (by decide)
  obtain ⟨hcapital, hsmall⟩ := hletters d hd
  rw [isCaseIgnorable_of_letter (Or.inl hcapital), isCaseIgnorable_of_letter (Or.inr hsmall)]

theorem isCased_toLower (c : Char) : isCased c.toLower = isCased c :=
  class_toLower (forall_mem_of_all (by decide +kernel)) c

theorem lowercaseChar_toLower (c : Char) : lowercaseChar c.toLower = lowercaseChar c :=
  class_toLower (forall_mem_of_all (by decide +kernel)) c

theorem meetsCased_toLower (s : List Char) : meetsCased (s.map Char.toLower) = meetsCased s := by
  have hskip : isCaseIgnorable ∘ Char.toLower = isCaseIgnorable := funext isCaseIgnorable_toLower
  rw [meetsCased, meetsCased, List.dropWhile_map, hskip]
  cases s.dropWhile isCaseIgnorable with
  | nil => rfl
  | cons c s => exact isCased_toLower c

theorem lowercaseAfter_toLower (before s : List Char) :
    lowercaseAfter (before.map Char.toLower) (s.map Char.toLower) = lowercaseAfter before s := by
  induction s generalizing before with
  | nil => rfl
  | cons c s ih =>
    have hsigma : (c.toLower = 'Σ') = (c = 'Σ') := by
      refine @class_toLower Prop (· = 'Σ') (fun d hd => ?_) c
      have hnot : ∀ d ∈ capitals, d.toLower ≠ 'Σ' ∧ d ≠ 'Σ' :=
        forall_mem_of_all (by decide)
      simp [hnot d hd]
    have hrest := ih (c :: before)
    rw [List.map_cons] at hrest
    simp only [List.map_cons, lowercaseAfter, hsigma, hrest, lowercaseChar_toLower, lowercaseSigma,
      meetsCased_toLower]

/-- **The full lowercase of a text** does not depend on the case of its letters, not even where a
sigma looks at its neighbours. -/
theorem lowercase_toLower (s : List Char) : lowercase (s.map Char.toLower) = lowercase s :=
  lowercaseAfter_toLower [] s

/-! ## Stretches -/

theorem trimStart_toLower (s : List Char) :
    trimStart (s.map Char.toLower) = (trimStart s).map Char.toLower := by
  have hblank : isBlank ∘ Char.toLower = isBlank := funext isBlank_toLower
  rw [trimStart, trimStart, List.dropWhile_map, hblank]

theorem trimEnd_toLower (s : List Char) :
    trimEnd (s.map Char.toLower) = (trimEnd s).map Char.toLower := by
  rw [trimEnd, trimEnd, ← List.map_reverse, trimStart_toLower, List.map_reverse]

theorem trim_toLower (s : List Char) : trim (s.map Char.toLower) = (trim s).map Char.toLower := by
  rw [trim, trim, trimStart_toLower, trimEnd_toLower]

theorem pieces_toLower {cut : Char → Bool} (hcut : ∀ c, cut c.toLower = cut c) (s : List Char) :
    pieces cut (s.map Char.toLower) = (pieces cut s).map (List.map Char.toLower) := by
  induction s with
  | nil => rfl
  | cons c s ih =>
    rw [List.map_cons, pieces, pieces, hcut, ih]
    by_cases hc : cut c = true
    · rw [if_pos hc, if_pos hc, List.map_cons, List.map_nil]
    · rw [if_neg hc, if_neg hc]
      cases pieces cut s <;> rfl

theorem words_toLower (s : List Char) :
    words (s.map Char.toLower) = (words s).map (List.map Char.toLower) := by
  have hempty : (fun w : List Char => !w.isEmpty) ∘ List.map Char.toLower =
      fun w => !w.isEmpty := funext fun w => by simp
  rw [words, words, pieces_toLower isBlank_toLower, List.filter_map, hempty]

theorem firstLine_toLower (s : List Char) :
    firstLine (s.map Char.toLower) = (firstLine s).map Char.toLower := by
  have hline : (· != '\n') ∘ Char.toLower = (· != '\n') :=
    funext fun c => congrArg not (beq_toLower (by decide) c)
  rw [firstLine, firstLine, List.takeWhile_map, hline]

theorem contains_toLower {d : Char} (h : ∀ c, (c.toLower == d) = (c == d)) (s : List Char) :
    (s.map Char.toLower).contains d = s.contains d := by
  induction s with
  | nil => rfl
  | cons c s ih =>
    rw [List.map_cons, List.contains_cons, List.contains_cons, ih, BEq.comm, h, BEq.comm]

end Text

namespace Phrase

open Text

/-! ## Items and titles -/

theorem dropBullet_toLower (s : List Char) :
    dropBullet (s.map Char.toLower) = (dropBullet s).map Char.toLower := by
  cases s with
  | nil => rfl
  | cons c s =>
    have hbullet : isBullet c.toLower = isBullet c :=
      class_toLower (forall_mem_of_all (by decide)) c
    rw [List.map_cons, dropBullet, dropBullet, hbullet, trimStart_toLower]
    split <;> rfl

theorem splitItems_toLower (s : List Char) :
    splitItems (s.map Char.toLower) = (splitItems s).map (List.map Char.toLower) := by
  have hcomma := beq_toLower (d := ',') (by decide)
  have hline := beq_toLower (d := '\n') (by decide)
  rw [splitItems, splitItems, contains_toLower hcomma, contains_toLower hline,
    pieces_toLower hcomma, pieces_toLower hline, trim_toLower]
  split
  · rw [List.map_map, List.map_map]
    exact List.map_congr_left fun u _ => trim_toLower u
  · split
    · rw [List.map_map, List.map_map]
      refine List.map_congr_left fun u _ => ?_
      simp only [Function.comp, trim_toLower, dropBullet_toLower]
    · rfl

theorem between?_toLower {q : Char} (hq : ∀ c, (c.toLower == q) = (c == q)) (s : List Char) :
    between? q (s.map Char.toLower) = (between? q s).map (List.map Char.toLower) := by
  have heq : ∀ c : Char, c.toLower = q ↔ c = q := fun c => by
    rw [← beq_iff_eq, hq, beq_iff_eq]
  cases s with
  | nil => rfl
  | cons c s =>
    have hlast : (s.map Char.toLower).getLast? = some q ↔ s.getLast? = some q := by
      rw [List.getLast?_map, Option.map_eq_some_iff]
      simp [heq]
    simp only [List.map_cons, between?, heq, hlast]
    split
    · rw [Option.map_some, List.map_dropLast]
    · rfl

theorem stripQuotes_toLower (s : List Char) :
    stripQuotes (s.map Char.toLower) = (stripQuotes s).map Char.toLower := by
  rw [stripQuotes, stripQuotes, between?_toLower (beq_toLower (by decide)),
    between?_toLower (beq_toLower (by decide)), ← Option.map_or, Option.getD_map]

theorem intercalate_toLower (us : List (List Char)) :
    [' '].intercalate (us.map (List.map Char.toLower)) =
      ([' '].intercalate us).map Char.toLower := by
  induction us with
  | nil => rfl
  | cons u us ih =>
    cases us with
    | nil => simp
    | cons v us =>
      rw [List.map_cons] at ih
      rw [List.map_cons, List.map_cons, List.intercalate_cons_cons, List.intercalate_cons_cons, ih,
        List.map_append, List.map_append]
      rfl

theorem leadingWords_toLower (limit : Nat) (s : List Char) :
    leadingWords limit (s.map Char.toLower) = (leadingWords limit s).map Char.toLower := by
  rw [leadingWords, leadingWords, firstLine_toLower, words_toLower, ← List.map_take,
    intercalate_toLower]

end Phrase

end PlainNotes

import PlainNotes.Proofs.Phrase.Origin
import PlainNotes.Proofs.Phrase.PlainWording
import PlainNotes.Proofs.Phrase.Trip
import PlainNotes.Proofs.Text.Words

/-!
# Long texts

A long text without quotes becomes a note as it is, under the first words of its first line.  This
family comes first, and it is the only one whose draft can fail to be a command: where the first line
is blank there are no words, and the text goes on to the other families as if it were short.

* `leadingWords_leadingWords`: the title is its own title.
* `reads_longText_iff`: which texts are taken as they are, and as which command.
* `classify_of_not_longText`: all other texts are left to the other families.
* `classify_of_allBlank`: a blank text is not understood, however long it is.
* `long_by_first_line`: all of this together.
-/

namespace PlainNotes

open Text Phrase Pattern

namespace Phrase

variable {limit : Nat} {s : List Char}

/-! ## Titles -/

theorem forall_mem_take_words :
    ∀ w ∈ (words s).take limit, w ≠ [] ∧ ∀ x ∈ w, isBlank x = false :=
  fun _ hw => mem_words (List.mem_of_mem_take hw)

theorem words_leadingWords : words (leadingWords limit s) = (words (firstLine s)).take limit :=
  words_intercalate forall_mem_take_words

/-- There is no title exactly if the first line is blank. -/
theorem leadingWords_eq_nil_iff (hlimit : limit ≠ 0) :
    leadingWords limit s = [] ↔ allBlank (firstLine s) = true := by
  rw [← words_eq_nil_iff]
  constructor
  · intro h
    have hwords : words (leadingWords limit s) = (words (firstLine s)).take limit :=
      words_leadingWords
    rw [h] at hwords
    exact (List.take_eq_nil_iff.1 hwords.symm).resolve_left hlimit
  · intro h
    rw [leadingWords, h, List.take_nil]
    rfl

/-- Titles are on one line. -/
theorem firstLine_leadingWords : firstLine (leadingWords limit s) = leadingWords limit s := by
  refine firstLine_of_lineFree (inLine_of_lineFree ?_)
  refine not_mem_intercalate (by decide) fun w hw hmem => ?_
  have hblank := (forall_mem_take_words w hw).2 '\n' hmem
  cases hblank

/-- **The title of a text is its own title.** -/
theorem leadingWords_leadingWords :
    leadingWords limit (leadingWords limit s) = leadingWords limit s := by
  have htake : ((words (firstLine s)).take limit).take limit = (words (firstLine s)).take limit := by
    rw [List.take_take, Nat.min_self]
  calc leadingWords limit (leadingWords limit s)
      = [' '].intercalate ((words (leadingWords limit s)).take limit) := by
        rw [leadingWords, firstLine_leadingWords]
    _ = leadingWords limit s := by rw [words_leadingWords, htake, leadingWords]

end Phrase

/-! ## Texts that are taken as they are -/

namespace Family

variable {s : List Char} {c : Command}

theorem applies_longText_iff :
    longText.applies s = true ↔ 100 < s.length ∧ '\'' ∉ s ∧ '"' ∉ s := by
  have hquotes : s.any isQuote = false ↔ '\'' ∉ s ∧ '"' ∉ s := by
    simp only [List.any_eq_false, isQuote, Bool.or_eq_true, beq_iff_eq, not_or]
    constructor
    · intro h
      exact ⟨fun hmem => (h _ hmem).1 rfl, fun hmem => (h _ hmem).2 rfl⟩
    · rintro ⟨hsingle, hdouble⟩ x hx
      exact ⟨fun heq => hsingle (heq ▸ hx), fun heq => hdouble (heq ▸ hx)⟩
  rw [applies, Bool.and_eq_true, decide_eq_true_iff, Bool.not_eq_true', hquotes, longTextThreshold]

/-- The command is the whole text under the first words of its first line. -/
theorem reads_longText_iff : longText.Reads s c ↔
    longText.applies s = true ∧ c.action = .create ∧
      c.title.toList = leadingWords longTextTitleWords s ∧ c.content = [String.ofList s] ∧
      c.folder = none := by
  constructor
  · rintro ⟨happ, d, hd, hvalid⟩
    obtain rfl := Option.some.inj hd
    obtain ⟨htitle, hcontent, hfolder⟩ := eq_of_validate hvalid
    exact ⟨happ, (eq_of_validate_draft hvalid).1, htitle, hcontent, hfolder⟩
  · rintro ⟨happ, haction, htitle, hcontent, hfolder⟩
    have hd : longText.draft? s = some (draft c.action c.title.toList (some [s])) := by
      rw [haction, htitle]
      rfl
    refine reads_of_draft? happ hd ?_ hfolder
    rw [hcontent]
    rfl

theorem exists_reads_longText_iff : (∃ c, longText.Reads s c) ↔
    longText.applies s = true ∧ allBlank (firstLine s) = false := by
  have hblank : leadingWords longTextTitleWords s = [] ↔ allBlank (firstLine s) = true :=
    leadingWords_eq_nil_iff (by decide)
  constructor
  · rintro ⟨c, hreads⟩
    obtain ⟨happ, -, htitle, -⟩ := reads_longText_iff.1 hreads
    refine ⟨happ, Bool.eq_false_iff.2 fun h => c.title_ne ?_⟩
    rw [← String.toList_inj, htitle, hblank.2 h]
    rfl
  · rintro ⟨happ, h⟩
    have hne : leadingWords longTextTitleWords s ≠ [] := by
      rw [Ne, hblank, h]
      exact Bool.false_ne_true
    exact ⟨_, happ, _, rfl, validate_draft .create (some [s]) hne⟩

end Family

open Family

variable {text : String}

/-- **All other texts are left to the other families**, those too that are long and have no title. -/
theorem classify_of_not_longText (h : ∀ c, classify text ≠ some ⟨.longText, c⟩) :
    classify text = (findingsAmong text.toList Family.all.tail).findSome? Finding.intent? := by
  have hnone : longText.command? text.toList = none :=
    command?_eq_none_iff.2 fun c hreads => h c (classify_eq_longText_iff.2 hreads)
  rw [classify, findings, findSome?_findingsAmong, findSome?_findingsAmong, Family.all,
    List.findSome?_cons, hnone]
  rfl

/-! ## Blank texts -/

/-- A phrase has letters or quotes in it, so that none occurs in a blank text. -/
theorem not_reads_of_allBlank {f : Family} {c : Command} (h : allBlank text.toList = true) :
    ¬ f.Reads text.toList c := by
  have hblank : ∀ x ∈ text.toList, isBlank x = true := List.all_eq_true.1 h
  have hspan : ¬ HoldsQuotedSpan text.toList :=
    not_holdsQuotedSpan_of_unquoted fun x hx => isQuote_of_isBlank (hblank x hx)
  intro hreads
  by_cases hf : f.namesNote = true
  · exact hspan (holdsQuotedSpan_of_reads hf hreads)
  · cases f with
    | longText =>
      have hline := (exists_reads_longText_iff.1 ⟨c, hreads⟩).2
      obtain ⟨x, hx, hxblank⟩ := List.all_eq_false.1 hline
      exact hxblank (hblank x ((List.takeWhile_sublist _).mem hx))
    | tripPlan =>
      obtain ⟨w, hw, hin⟩ := (exists_reads_tripPlan_iff.1 ⟨c, hreads⟩).exists_tripWord
      have hletter : ∀ w ∈ tripWords, allBlank w.toList = false := by decide
      obtain ⟨x, hx, hxblank⟩ := List.all_eq_false.1 (hletter w hw)
      exact hxblank (hblank x (hin.subset hx))
    | fallbackCreate =>
      obtain ⟨-, found, hfound, -⟩ := topic_of_reads hspan hreads
      obtain ⟨a, t, s', htext, hway⟩ := exists_way_of_search hfound
      obtain ⟨m, d, hnote, -⟩ := way_all_cons.1 hway
      obtain ⟨u, rfl, hu, -⟩ := exists_of_way_word hnote
      obtain ⟨v, x, rfl, hx⟩ := exists_last_of_spells (w := ['n', 'o', 't']) hu
      have hxblank := not_isBlank_of_foldsTo (by decide) (by decide) hx
      rw [hblank x (by simp [htext])] at hxblank
      cases hxblank
    | explicitCreate | update | delete | search => exact hf rfl

theorem classify_of_allBlank (h : allBlank text.toList = true) : classify text = none := by
  rw [Option.eq_none_iff_forall_ne_some]
  rintro ⟨f, c⟩ hread
  obtain ⟨-, -, -, hreads, -⟩ := classify_eq_some_iff.1 hread
  exact not_reads_of_allBlank h hreads

/-- **Which texts are taken as they are.**  A text is taken as a note exactly if it has more than a
hundred characters and no quotes, and its first line is not blank.  The note is the whole text under
the first five words of that line, or all of them if there are fewer; the title has no blanks but
one space between two words, and it is its own title.  All other texts are left to the other
families, among them the blank ones, which no family understands. -/
theorem long_by_first_line (text : String) :
    ((∃ c, classify text = some ⟨.longText, c⟩) ↔ 100 < text.length ∧ '\'' ∉ text.toList ∧
      '"' ∉ text.toList ∧ ∃ x ∈ firstLine text.toList, isBlank x = false) ∧
    (∀ c, classify text = some ⟨.longText, c⟩ →
      c.action = .create ∧ c.content = [text] ∧ c.folder = none ∧ c.title ≠ "" ∧
      c.title.toList = [' '].intercalate ((words (firstLine text.toList)).take 5) ∧
      Trimmed c.title.toList ∧ SingleSpaced c.title.toList ∧
      leadingWords 5 c.title.toList = c.title.toList) ∧
    ((∀ c, classify text ≠ some ⟨.longText, c⟩) →
      classify text = (findingsAmong text.toList Family.all.tail).findSome? Finding.intent?) ∧
    (allBlank text.toList = true → classify text = none) := by
  refine ⟨?_, ?_, classify_of_not_longText, classify_of_allBlank⟩
  · simp only [classify_eq_longText_iff, exists_reads_longText_iff, applies_longText_iff, allBlank,
      List.all_eq_false, String.length_toList, Bool.not_eq_true, and_assoc]
  · intro c h
    obtain ⟨-, haction, htitle, hcontent, hfolder⟩ :=
      reads_longText_iff.1 (classify_eq_longText_iff.1 h)
    have hspaced : SingleSpaced c.title.toList :=
      htitle ▸ singleSpaced_intercalate forall_mem_take_words
    refine ⟨haction, ?_, hfolder, c.title_ne, htitle, hspaced.trimmed, hspaced, ?_⟩
    · rw [hcontent, String.ofList_toList]
    · rw [htitle]
      exact leadingWords_leadingWords

/-- A first line of three words, with blanks of several kinds between them; and a text of a hundred
and twenty blanks. -/
theorem long_by_first_line_threeWords :
    classify ("  plan\u3000for  Sunday\n" ++ String.ofList (List.replicate 90 'x')) =
      some ⟨.longText, ⟨.create, "plan for Sunday",
        ["  plan\u3000for  Sunday\n" ++ String.ofList (List.replicate 90 'x')], none, by decide⟩⟩ ∧
    SingleSpaced "plan for Sunday".toList ∧
    classify (String.ofList (List.replicate 120 '\u3000')) = none ∧
    classify (String.ofList (List.replicate 120 '\u3000')) =
      (findingsAmong (List.replicate 120 '\u3000') Family.all.tail).findSome? Finding.intent? := by
  have hread : classify ("  plan\u3000for  Sunday\n" ++ String.ofList (List.replicate 90 'x')) =
      some ⟨.longText, ⟨.create, "plan for Sunday",
        ["  plan\u3000for  Sunday\n" ++ String.ofList (List.replicate 90 'x')], none,
        by decide⟩⟩ := by decide +kernel
  obtain ⟨-, hnote, -, -⟩ :=
    long_by_first_line ("  plan\u3000for  Sunday\n" ++ String.ofList (List.replicate 90 'x'))
  obtain ⟨-, -, hothers, hblank⟩ := long_by_first_line (String.ofList (List.replicate 120 '\u3000'))
  rw [String.toList_ofList] at hothers hblank
  have hnone := hblank (by decide +kernel)
  refine ⟨hread, (hnote _ hread).2.2.2.2.2.2.1, hnone, hothers ?_⟩
  intro c hc
  cases hnone.symm.trans hc

end PlainNotes

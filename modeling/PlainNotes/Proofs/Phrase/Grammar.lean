import PlainNotes.Proofs.Phrase.Form

/-!
# The grammar of removing and finding

A note is removed or found by a name in quotes, behind one of a few forms of words.  Nothing that
stands behind the name matters.

* `names_delete`, `names_search`: the phrases and their forms.
* `firstMatch_iff`: what the phrases of a family capture.
* `named_by_grammar`: what is removed or found.
-/

namespace PlainNotes

namespace Phrase

open Text Pattern

variable {p : Pattern} {l : Language Char} {ps : List Pattern} {ls : List (Language Char)}
  {s name : List Char}

/-! ## Names and nothing else -/

/-- The pattern asks for words of the form and a quoted name. -/
structure Names (p : Pattern) (l : Language Char) : Prop where
  spoken : ∃ qs, p = Pattern.all (qs ++ [quoted .first]) ∧ (Pattern.all qs).Speaks l
  quoteFree : QuoteFree l

/-- **What such a phrase captures** is the name. -/
theorem Names.finds (h : Names p l) (name : List Char) :
    Finds (fun c => c.text .first = some name) (HasName · name) p l := by
  obtain ⟨⟨qs, rfl, hqs⟩, hl⟩ := h
  refine finds_of_speaks hqs hl (fun _ => rfl) ?_
  intro behind name' back d c hname _ hone _
  rw [hone, Option.some_inj, hasName_iff]
  constructor
  · rintro rfl
    exact ⟨back, hname⟩
  · rintro ⟨back', hname'⟩
    exact (hname.unique hname').1

theorem exists_isSome_iff (h : List.Forall₂ Names ps ls) :
    (∃ p ∈ ps, (p.search s).isSome = true) ↔ ∃ l ∈ ls, ∃ a behind, NameAt l s a behind :=
  Finds.exists_search_iff (h.imp fun _ _ hp => hp.finds [])

theorem firstMatch_iff (h : List.Forall₂ Names ps ls) :
    (∃ c, firstMatch ps s = some c ∧ c.text .first = some name) ↔
      ∃ behind, FirstName ls s behind ∧ HasName behind name :=
  Finds.firstMatch_iff (h.imp fun _ _ hp => hp.finds name)

/-! ## The forms of removing and finding -/

/-- A verb, and then perhaps `my` and `note`. -/
def verbForm (verb : Language Char) : Language Char :=
  verb * blanks * (spellings "my" * blanks + 1) * (spellings "note" * blanks + 1)

/-- A verb, perhaps `for` and `notes`, and what the notes hold. -/
def aboutForm : Language Char :=
  (spellings "search" + spellings "find" + spellings "look") * blanks *
    (spellings "for" * blanks + 1) * (spellings "note" * (spellings "s" + 1) * blanks + 1) *
    (spellings "with" + spellings "containing" + spellings "about") * blanks

def deleteForms : List (Language Char) :=
  [verbForm (spellings "delete"), verbForm (spellings "remove"), verbForm (spellings "trash"),
    verbForm (spellings "get" * blanks * spellings "rid" * blanks * spellings "of")]

def searchForms : List (Language Char) :=
  [verbForm (spellings "search" + spellings "find" + spellings "look" * blanks * spellings "for"),
    aboutForm]

theorem names_verbNamed {verb : Pattern} (hverb : verb.Speaks l) (hl : QuoteFree l) :
    Names (verbNamed verb) (verbForm l) where
  spoken := by
    have hnote := (speaks_maybe "note").single
    have hmy := (speaks_maybe "my").cons hnote
    have hspeaks := hverb.cons (speaks_gap.cons hmy)
    refine ⟨[verb, gap, maybe "my", maybe "note"], rfl, ?_⟩
    simpa only [verbForm, mul_assoc] using hspeaks
  quoteFree :=
    ((hl.mul .blanks).mul (.maybe (.spellings (by decide)))).mul (.maybe (.spellings (by decide)))

theorem names_delete : List.Forall₂ Names deletePatterns deleteForms := by
  have hword : ∀ w : String,
      (w.toList.all fun letter => !isQuote letter && !isQuote letter.toUpper) = true →
      Names (verbNamed (word w)) (verbForm (spellings w)) := fun w hw =>
    names_verbNamed (speaks_word w) (.spellings hw)
  have hget : (Pattern.all [word "get", gap, word "rid", gap, word "of"]).Speaks
      (spellings "get" * blanks * spellings "rid" * blanks * spellings "of") := by
    have hrid := (speaks_word "rid").cons (speaks_gap.cons (speaks_word "of").single)
    have hspeaks := (speaks_word "get").cons (speaks_gap.cons hrid)
    simpa only [mul_assoc] using hspeaks
  have hfree : QuoteFree
      (spellings "get" * blanks * spellings "rid" * blanks * spellings "of") :=
    ((((QuoteFree.spellings (by decide)).mul .blanks).mul (.spellings (by decide))).mul .blanks).mul
      (.spellings (by decide))
  exact .cons (hword "delete" (by decide)) <| .cons (hword "remove" (by decide)) <|
    .cons (hword "trash" (by decide)) <| .cons (names_verbNamed hget hfree) .nil

theorem names_findNamed : Names findNamed
    (verbForm (spellings "search" + spellings "find" +
      spellings "look" * blanks * spellings "for")) := by
  have hlook := (speaks_word "look").cons (speaks_gap.cons (speaks_word "for").single)
  have hspeaks := (speaks_word "search").or ((speaks_word "find").or hlook.last)
  rw [← mul_assoc, ← add_assoc] at hspeaks
  refine names_verbNamed hspeaks (.add (.add (.spellings (by decide)) (.spellings (by decide))) ?_)
  exact ((QuoteFree.spellings (by decide)).mul .blanks).mul (.spellings (by decide))

theorem names_findAbout : Names findAbout aboutForm where
  spoken := by
    have hverb : (oneOf ["search", "find", "look"]).Speaks _ :=
      (speaks_word "search").or ((speaks_word "find").or (speaks_word "look").last)
    have habout : (oneOf ["with", "containing", "about"]).Speaks _ :=
      (speaks_word "with").or ((speaks_word "containing").or (speaks_word "about").last)
    have hnotes := (speaks_word "note").cons ((speaks_word "s").optional.cons speaks_gap.single)
    have hend := hnotes.optional.cons (habout.cons speaks_gap.single)
    have hspeaks := hverb.cons (speaks_gap.cons ((speaks_maybe "for").cons hend))
    refine ⟨[oneOf ["search", "find", "look"], gap, maybe "for",
      Pattern.optional (Pattern.all [word "note", Pattern.optional (word "s"), gap]),
      oneOf ["with", "containing", "about"], gap], rfl, ?_⟩
    simpa only [aboutForm, mul_assoc, add_assoc] using hspeaks
  quoteFree := by
    have hverb := ((QuoteFree.spellings (w := "search") (by decide)).add
      (.spellings (w := "find") (by decide))).add (.spellings (w := "look") (by decide))
    have habout := ((QuoteFree.spellings (w := "with") (by decide)).add
      (.spellings (w := "containing") (by decide))).add (.spellings (w := "about") (by decide))
    have hs := (QuoteFree.spellings (w := "s") (by decide)).add .one
    have hnotes := QuoteFree.maybe ((QuoteFree.spellings (w := "note") (by decide)).mul hs)
    have hfor := QuoteFree.maybe (QuoteFree.spellings (w := "for") (by decide))
    exact ((((hverb.mul .blanks).mul hfor).mul hnotes).mul habout).mul .blanks

theorem names_search : List.Forall₂ Names searchPatterns searchForms :=
  .cons names_findNamed (.cons names_findAbout .nil)

end Phrase

open Phrase

namespace Family

variable {s : List Char} {action : Action} {content : Option (List (List Char))}
  {ps : List Pattern} {ls : List (Language Char)} {d : Draft}

theorem titleDraft?_eq_some_iff (h : List.Forall₂ Names ps ls) :
    titleDraft? action content ps s = some d ↔ ∃ behind name, FirstName ls s behind ∧
      HasName behind name ∧ d = draft action name content := by
  constructor
  · intro hd
    obtain ⟨found, name, hfound, hname, rfl⟩ := exists_draft_of_titleDraft? hd
    obtain ⟨behind, hfirst, hhas⟩ := (firstMatch_iff h).1 ⟨found, hfound, hname⟩
    exact ⟨behind, name, hfirst, hhas, rfl⟩
  · rintro ⟨behind, name, hfirst, hhas, rfl⟩
    obtain ⟨found, hfound, hname⟩ := (firstMatch_iff h).2 ⟨behind, hfirst, hhas⟩
    exact titleDraft?_eq hfound hname

/-- **What is removed or found.**  There is a draft exactly if somewhere in the sentence one of the
forms stands in front of a quote behind which a name is closed on the same line.  It is made of the
first such form in the list, of the leftmost place where that form stands so, and of the name up to
the first quote behind its first character, so that no other character of the name is a quote. -/
theorem named_by_grammar {f : Family} {forms : List (Language Char)}
    (hf : f = delete ∧ forms = deleteForms ∨ f = search ∧ forms = searchForms) (s : List Char) :
    (f.draft? s ≠ none ↔ ∃ form ∈ forms, ∃ a behind, NameAt form s a behind) ∧
    (∀ d, f.draft? s = some d ↔ ∃ behind name, FirstName forms s behind ∧ HasName behind name ∧
      d = draft f.action name none) ∧
    ∀ d, f.draft? s = some d → Unquoted d.title.toList.tail := by
  obtain ⟨hlong, hnames, hdraft⟩ : f ≠ longText ∧ List.Forall₂ Names f.phrases forms ∧
      f.draft? s = titleDraft? f.action none f.phrases s := by
    rcases hf with ⟨rfl, rfl⟩ | ⟨rfl, rfl⟩
    · exact ⟨by decide, names_delete, rfl⟩
    · exact ⟨by decide, names_search, rfl⟩
  have hread : ∀ d, f.draft? s = some d ↔ ∃ behind name, FirstName forms s behind ∧
      HasName behind name ∧ d = draft f.action name none := by
    intro d
    rw [hdraft]
    exact titleDraft?_eq_some_iff hnames
  refine ⟨?_, hread, ?_⟩
  · rw [Ne, draft?_eq_none_iff hlong, Decidable.not_not]
    exact exists_isSome_iff hnames
  · intro d hd
    obtain ⟨behind, name, -, ⟨q, rest, -, -, hname⟩, rfl⟩ := (hread d).1 hd
    rw [draft, String.toList_ofList]
    exact hname.unquoted_tail

/-- The first verb of the list counts, though it comes last, and a quote may begin the name. -/
theorem named_by_grammar_delete :
    delete.draft? "Traſh 'a', find 'b' or dELETE my ''c'.".toList =
      some (draft .delete "'c".toList none) ∧
    ∃ behind, FirstName deleteForms "Traſh 'a', find 'b' or dELETE my ''c'.".toList behind ∧
      HasName behind "'c".toList := by
  have hdraft : delete.draft? "Traſh 'a', find 'b' or dELETE my ''c'.".toList =
      some (draft .delete "'c".toList none) := by decide +kernel
  obtain ⟨-, hread, -⟩ := named_by_grammar (Or.inl ⟨rfl, rfl⟩)
    "Traſh 'a', find 'b' or dELETE my ''c'.".toList
  obtain ⟨behind, name, hfirst, hname, heq⟩ := (hread _).1 hdraft
  have htitle : String.ofList "'c".toList = String.ofList name := congrArg Draft.title heq
  obtain rfl := String.ofList_injective htitle
  exact ⟨hdraft, behind, hfirst, hname⟩

end Family

end PlainNotes

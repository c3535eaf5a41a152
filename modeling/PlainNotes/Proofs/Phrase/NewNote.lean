import PlainNotes.Proofs.Phrase.Origin
import PlainNotes.Proofs.Phrase.WithClause

/-!
# The grammar of new notes

A new note is asked for by a form of words and a title in quotes, and the rest of the line may list
its items.  Here both are said without any order of trying: the title is the first name behind a
form, the clause comes off what follows it, and the items are settled by the blanks at the front of
the rest.

* `ItemsOf`, `itemsOf_rest`: the items by what the rest looks like.
* `createForms`, `finds_create`: the forms and what the phrases capture.
* `titled_by_grammar`: what is read from a sentence that asks for a new note.
-/

namespace PlainNotes

namespace Phrase

open Text Pattern

/-! ## Items -/

/-- The items that the rest of a text lists, if neither the title nor the clause belongs to it. -/
structure ItemsOf (rest : List Char) (items : List (List Char)) : Prop where
  /-- No items, if no blank comes first, or if only line feeds follow the first of the blanks. -/
  nil_iff : items = [] ↔ StartsOutside isBlank rest ∨
    allBlank rest = true ∧ ∀ y ∈ rest.tail, y = '\n'
  /-- One empty item, if there are other blanks and nothing else. -/
  empty_iff : items = [[]] ↔ allBlank rest = true ∧ ∃ y ∈ rest.tail, y ≠ '\n'
  /-- Otherwise what follows the blanks on its line. -/
  listed : ¬ StartsOutside isBlank rest → allBlank rest = false →
    items = lineItems (firstLine (trimStart rest))

variable {s rest : List Char} {items items' : List (List Char)} {x : Char}

theorem trim_ne_nil (hx : isBlank x = false) (s : List Char) : trim (x :: s) ≠ [] := by
  rw [Ne, trim_eq_nil_iff, allBlank_cons, hx]
  exact Bool.false_ne_true

/-- A line that does not begin with a blank lists something: the first of its items is not empty, or
there are several. -/
theorem lineItems_ne (hx : isBlank x = false) (s : List Char) :
    lineItems (x :: s) ≠ [] ∧ lineItems (x :: s) ≠ [[]] := by
  by_cases hcomma : x = ','
  · subst hcomma
    obtain ⟨p, ps, hs⟩ := List.exists_cons_of_ne_nil (pieces_ne_nil (· == ',') s)
    simp [lineItems, pieces, hs]
  · have hcut : (x == ',') = false := beq_eq_false_iff_ne.2 hcomma
    obtain ⟨p, ps, -, hpieces⟩ := @exists_pieces_cons (· == ',') x hcut s
    rw [lineItems, hpieces]
    split <;> simp [trim_ne_nil hx]

theorem not_mem_firstLine (s : List Char) : '\n' ∉ firstLine s := by
  have hline : ∀ y ∈ firstLine s, (y != '\n') = true := List.all_eq_true.1 List.all_takeWhile
  intro hmem
  cases hline '\n' hmem

theorem lineItems_blank (hx : isBlank x = true) : lineItems [x] = [[]] := by
  have hcomma : ',' ∉ [x] := by
    rw [List.mem_singleton]
    rintro rfl
    cases hx
  rw [lineItems, if_neg hcomma, trim_blank hx]
  rfl

/-- Blanks that are not all line feeds leave one of them for the items. -/
theorem itemsSpan?_of_blank (hx : isBlank x = true) (hs : allBlank s = true)
    (h : ∃ y ∈ s, y ≠ '\n') : (itemsSpan? (x :: s)).map splitItems = some [[]] := by
  rw [itemsSpan?, if_pos hx, if_pos hs]
  cases hfind : s.reverse.find? inLine with
  | none =>
    obtain ⟨y, hy, hne⟩ := h
    exact absurd (bne_iff_ne.2 hne) (List.find?_eq_none.1 hfind y (List.mem_reverse.2 hy))
  | some y =>
    have hline : '\n' ∉ [y] := by
      rw [List.mem_singleton]
      have hy : inLine y = true := List.find?_some hfind
      exact (bne_iff_ne.1 hy).symm
    have hy : isBlank y = true :=
      List.all_eq_true.1 hs y (List.mem_reverse.1 (List.mem_of_find?_eq_some hfind))
    rw [Option.map_some, Option.map_some, splitItems_of_lineFree hline, lineItems_blank hy]

/-- Line feeds leave nothing, and the gap does not do without the first blank. -/
theorem itemsSpan?_of_feeds (hx : isBlank x = true) (hs : ∀ y ∈ s, y = '\n') :
    itemsSpan? (x :: s) = none := by
  have hfind : s.reverse.find? inLine = none := by
    rw [List.find?_eq_none]
    intro y hy
    rw [hs y (List.mem_reverse.1 hy)]
    decide
  rw [itemsSpan?, if_pos hx, if_pos (allBlank_of_feeds hs), hfind, Option.map_none]

theorem not_startsOutside_cons (hx : isBlank x = true) (s : List Char) :
    ¬ StartsOutside isBlank (x :: s) := by
  intro h
  rw [h x rfl] at hx
  cases hx

theorem allBlank_of_blank (hx : isBlank x = true) (s : List Char) :
    allBlank (x :: s) = allBlank s := by
  rw [allBlank_cons, hx, Bool.true_and]

theorem itemsOf_of_start (h : StartsOutside isBlank rest) : ItemsOf rest [] where
  nil_iff := iff_of_true rfl (Or.inl h)
  empty_iff := by
    refine iff_of_false (by simp) ?_
    rintro ⟨hall, y, hy, -⟩
    cases rest with
    | nil => cases hy
    | cons x s => exact not_startsOutside_cons (List.all_eq_true.1 hall x (by simp)) s h
  listed hblank := absurd h hblank

theorem itemsOf_of_feeds (hx : isBlank x = true) (hs : ∀ y ∈ s, y = '\n') :
    ItemsOf (x :: s) [] where
  nil_iff := iff_of_true rfl (Or.inr ⟨(allBlank_of_blank hx s).trans (allBlank_of_feeds hs), hs⟩)
  empty_iff := by
    refine iff_of_false (by simp) ?_
    rintro ⟨-, y, hy, hne⟩
    exact hne (hs y hy)
  listed _ hother := by
    rw [allBlank_of_blank hx, allBlank_of_feeds hs] at hother
    cases hother

theorem itemsOf_of_blank (hx : isBlank x = true) (hs : allBlank s = true)
    (h : ∃ y ∈ s, y ≠ '\n') : ItemsOf (x :: s) [[]] where
  nil_iff := by
    refine iff_of_false (by simp) ?_
    rintro (hstart | ⟨-, hfeeds⟩)
    · exact not_startsOutside_cons hx s hstart
    · obtain ⟨y, hy, hne⟩ := h
      exact hne (hfeeds y hy)
  empty_iff := iff_of_true rfl ⟨(allBlank_of_blank hx s).trans hs, h⟩
  listed _ hother := by
    rw [allBlank_of_blank hx, hs] at hother
    cases hother

theorem itemsOf_of_line (hx : isBlank x = true) (hs : allBlank s = false) :
    ItemsOf (x :: s) (lineItems (firstLine (trimStart s))) := by
  have hother : ¬ allBlank (x :: s) = true := by simp [allBlank_of_blank hx, hs]
  have hne : lineItems (firstLine (trimStart s)) ≠ [] ∧
      lineItems (firstLine (trimStart s)) ≠ [[]] := by
    cases hrest : trimStart s with
    | nil =>
      rw [trimStart_eq_nil_iff.1 hrest] at hs
      cases hs
    | cons y t =>
      have hy := head_trimStart hrest
      rw [firstLine_eq, List.takeWhile_cons_of_pos (inLine_of_not_isBlank hy)]
      exact lineItems_ne hy _
  refine ⟨iff_of_false hne.1 ?_, iff_of_false hne.2 fun h => hother h.1, fun _ _ => ?_⟩
  · rintro (hstart | ⟨hall, -⟩)
    · exact not_startsOutside_cons hx s hstart
    · exact hother hall
  · have htrim : trimStart (x :: s) = trimStart s := List.dropWhile_cons_of_pos hx
    rw [htrim]

/-- **The items of a rest** are those of the stretch that is captured of it. -/
theorem itemsOf_rest (rest : List Char) :
    ItemsOf rest (((itemsSpan? rest).map splitItems).getD []) := by
  cases rest with
  | nil => exact itemsOf_of_start fun x hx => by cases hx
  | cons x s =>
    by_cases hx : isBlank x = true
    · by_cases hs : allBlank s = true
      · by_cases hfeeds : ∀ y ∈ s, y = '\n'
        · rw [itemsSpan?_of_feeds hx hfeeds]
          exact itemsOf_of_feeds hx hfeeds
        · have hother : ∃ y ∈ s, y ≠ '\n' := by simpa using hfeeds
          rw [itemsSpan?_of_blank hx hs hother]
          exact itemsOf_of_blank hx hs hother
      · have hline := Bool.eq_false_iff.2 hs
        rw [itemsSpan?_of_gap hx hline, Option.map_some,
          splitItems_of_lineFree (not_mem_firstLine _)]
        exact itemsOf_of_line hx hline
    · rw [itemsSpan?, if_neg hx]
      refine itemsOf_of_start fun y hy => ?_
      obtain rfl := Option.some.inj hy
      exact Bool.eq_false_iff.2 hx

theorem ItemsOf.unique (h : ItemsOf rest items) (h' : ItemsOf rest items') : items = items' := by
  by_cases hnil : StartsOutside isBlank rest ∨ allBlank rest = true ∧ ∀ y ∈ rest.tail, y = '\n'
  · rw [h.nil_iff.2 hnil, h'.nil_iff.2 hnil]
  · obtain ⟨hstart, htail⟩ := not_or.1 hnil
    by_cases hall : allBlank rest = true
    · have hempty : ∃ y ∈ rest.tail, y ≠ '\n' := by simpa [hall] using htail
      rw [h.empty_iff.2 ⟨hall, hempty⟩, h'.empty_iff.2 ⟨hall, hempty⟩]
    · have hother := Bool.eq_false_iff.2 hall
      rw [h.listed hstart hother, h'.listed hstart hother]

theorem itemsOf_iff : ItemsOf rest items ↔ ((itemsSpan? rest).map splitItems).getD [] = items :=
  ⟨(itemsOf_rest rest).unique, fun h => h ▸ itemsOf_rest rest⟩

/-! ## The forms of a new note -/

/-- A verb and its articles, `note`, and the word in front of the title. -/
def titleForm (verb article : Language Char) : Language Char :=
  verb * blanks * article * spellings "note" * blanks *
    (spellings "titled" + spellings "called" + spellings "named") * blanks

def createForms : List (Language Char) :=
  [titleForm (spellings "create") (spellings "a" * blanks + 1),
    titleForm (spellings "make" + spellings "add")
      ((spellings "a" * blanks + 1) * (spellings "new" * blanks + 1)),
    titleForm (spellings "take" + spellings "write") (spellings "a" * blanks + 1)]

theorem quoteFree_titleForm {verb article : Language Char} (hverb : QuoteFree verb)
    (harticle : QuoteFree article) : QuoteFree (titleForm verb article) := by
  have hkind : QuoteFree (spellings "titled" + spellings "called" + spellings "named") :=
    .add (.add (.spellings (by decide)) (.spellings (by decide))) (.spellings (by decide))
  have hnote : QuoteFree (spellings "note") := .spellings (by decide)
  exact (((((hverb.mul .blanks).mul harticle).mul hnote).mul .blanks).mul hkind).mul .blanks

variable {name : List Char} {span : Option (List Char)}

/-- What the phrases capture: the title, and the stretch that holds the items. -/
def Captured (name : List Char) (span : Option (List Char)) (c : Captures) : Prop :=
  c.text .first = some name ∧ c.text .second = span

/-- What stands behind the opening quote: the title, and what holds the items. -/
def Stands (name : List Char) (span : Option (List Char)) (behind : List Char) : Prop :=
  ∃ back, NameThen behind name back ∧ itemsSpan? (skipClause back) = span

/-- The trailer never fails, and it captures what follows the title. -/
theorem finds_titled (qs : List Pattern) {l : Language Char} (hqs : (Pattern.all qs).Speaks l)
    (hl : QuoteFree l) :
    Finds (Captured name span) (Stands name span) (Pattern.all (qs ++ quoted .first :: trailer)) l := by
  refine finds_of_speaks hqs hl ?_ ?_
  · intro s
    obtain ⟨c, hc, -⟩ := run_trailer s
    exact Option.isSome_of_eq_some hc
  · intro behind name' back d c hname hd hone htwo
    obtain ⟨c', hc', hspan⟩ := run_trailer back
    obtain rfl := Option.some.inj (hc'.symm.trans hd)
    rw [Captured, hone, htwo, hspan, Option.some_inj]
    constructor
    · rintro ⟨rfl, rfl⟩
      exact ⟨back, hname, rfl⟩
    · rintro ⟨back', hname', rfl⟩
      obtain ⟨rfl, rfl⟩ := hname.unique hname'
      exact ⟨rfl, rfl⟩

theorem finds_create (name : List Char) (span : Option (List Char)) :
    List.Forall₂ (Finds (Captured name span) (Stands name span)) createPatterns createForms := by
  have ha : QuoteFree (spellings "a" * blanks + 1) := .maybe (.spellings (by decide))
  have hnew : QuoteFree (spellings "new" * blanks + 1) := .maybe (.spellings (by decide))
  have hkind : (oneOf ["titled", "called", "named"]).Speaks
      (spellings "titled" + (spellings "called" + spellings "named")) :=
    (speaks_word "titled").or ((speaks_word "called").or (speaks_word "named").last)
  have hnote := (speaks_word "note").cons (speaks_gap.cons (hkind.cons speaks_gap.single))
  have hcreate := (speaks_word "create").cons
    (speaks_gap.cons ((speaks_maybe "a").cons hnote))
  have hmake := ((speaks_word "make").or (speaks_word "add").last).cons
    (speaks_gap.cons ((speaks_maybe "a").cons ((speaks_maybe "new").cons hnote)))
  have htake := ((speaks_word "take").or (speaks_word "write").last).cons
    (speaks_gap.cons ((speaks_maybe "a").cons hnote))
  have hall : ∀ {qs l verb article}, (Pattern.all qs).Speaks l → l = titleForm verb article →
      QuoteFree verb → QuoteFree article →
      Finds (Captured name span) (Stands name span)
        (Pattern.all (qs ++ quoted .first :: trailer)) (titleForm verb article) := by
    rintro qs l verb article hqs rfl hverb harticle
    exact finds_titled qs hqs (quoteFree_titleForm hverb harticle)
  refine .cons ?_ (.cons ?_ (.cons ?_ .nil))
  · exact hall hcreate (by simp only [titleForm, mul_assoc, add_assoc]) (.spellings (by decide)) ha
  · exact hall hmake (by simp only [titleForm, mul_assoc, add_assoc])
      (.add (.spellings (by decide)) (.spellings (by decide))) (ha.mul hnew)
  · exact hall htake (by simp only [titleForm, mul_assoc, add_assoc])
      (.add (.spellings (by decide)) (.spellings (by decide))) ha

end Phrase

open Text Phrase

namespace Family

variable {s : List Char} {d : Draft}

theorem explicitCreateDraft?_eq_some_iff :
    explicitCreateDraft? s = some d ↔ ∃ name span,
      (∃ found, firstMatch createPatterns s = some found ∧ Captured name span found) ∧
        d = draft .create name (some ((span.map splitItems).getD [])) := by
  constructor
  · intro h
    obtain ⟨found, name, hfound, hname, rfl⟩ := exists_draft_of_explicitCreateDraft? h
    exact ⟨name, found.text .second, ⟨found, hfound, hname, rfl⟩, rfl⟩
  · rintro ⟨name, span, ⟨found, hfound, hname, rfl⟩, rfl⟩
    simp [explicitCreateDraft?, hfound, hname]

/-- The title and the items, by where they stand in the sentence. -/
theorem explicitCreateDraft?_iff :
    explicitCreateDraft? s = some d ↔ ∃ behind name back rest items,
      FirstName createForms s behind ∧ NameThen behind name back ∧ WithoutClause back rest ∧
        ItemsOf rest items ∧ d = draft .create name (some items) := by
  rw [explicitCreateDraft?_eq_some_iff]
  constructor
  · rintro ⟨name, span, hfound, rfl⟩
    obtain ⟨behind, hfirst, back, hname, rfl⟩ := (Finds.firstMatch_iff (finds_create _ _)).1 hfound
    exact ⟨behind, name, back, skipClause back, _, hfirst, hname, skipClause_eq_iff.1 rfl,
      itemsOf_rest _, rfl⟩
  · rintro ⟨behind, name, back, rest, items, hfirst, hname, hrest, hitems, rfl⟩
    obtain rfl := skipClause_eq_iff.2 hrest
    obtain rfl := itemsOf_iff.1 hitems
    exact ⟨name, itemsSpan? (skipClause back),
      (Finds.firstMatch_iff (finds_create _ _)).2 ⟨behind, hfirst, back, hname, rfl⟩, rfl⟩

/-- **What is read from a sentence that asks for a new note.**  A phrase occurs exactly where its
form stands in front of a quote behind which a title is closed on the same line, and there is a draft
exactly if one of the phrases occurs.  It is made of the first form in the list that stands so, of
the leftmost place where it does, and of the title up to the first quote behind its first character.
Behind the closing quote the clause comes off, and the rest settles the items.  The stretch that
holds them is on one line, so that items are never cut at line feeds. -/
theorem titled_by_grammar (s : List Char) :
    List.Forall₂ (fun p form => (p.search s).isSome = true ↔ ∃ a behind, NameAt form s a behind)
      createPatterns createForms ∧
    (explicitCreate.draft? s ≠ none ↔ ∃ p ∈ createPatterns, (p.search s).isSome = true) ∧
    (∀ d, explicitCreate.draft? s = some d ↔ ∃ behind name back rest items,
      FirstName createForms s behind ∧ NameThen behind name back ∧ WithoutClause back rest ∧
        ItemsOf rest items ∧ d = draft .create name (some items)) ∧
    ∀ found span, firstMatch createPatterns s = some found → found.text .second = some span →
      '\n' ∉ span := by
  refine ⟨?_, ?_, fun d => explicitCreateDraft?_iff, ?_⟩
  · refine (finds_create [] none).imp fun p form hp => ?_
    rw [Option.isSome_iff_ne_none, Ne, hp.search_eq_none_iff]
    simp
  · rw [Ne, draft?_eq_none_iff (by decide), Decidable.not_not]
    rfl
  · intro found span hfound hspan
    exact (stretch_of_mayCatch create_mayCatch hfound hspan).2

/-- A quote begins the title, and the clause is spelt with a long s. -/
theorem titled_by_grammar_makeNew :
    explicitCreate.draft? "MAKE neW note\u2003called ''x' with itemſ : a , b\nc".toList =
      some (draft .create "'x".toList (some [['a'], ['b']])) ∧
    ∃ behind back rest,
      FirstName createForms "MAKE neW note\u2003called ''x' with itemſ : a , b\nc".toList behind ∧
      NameThen behind "'x".toList back ∧ WithoutClause back rest ∧ ItemsOf rest [['a'], ['b']] := by
  have hdraft :
      explicitCreate.draft? "MAKE neW note\u2003called ''x' with itemſ : a , b\nc".toList =
        some (draft .create "'x".toList (some [['a'], ['b']])) := by decide +kernel
  obtain ⟨-, -, hread, -⟩ :=
    titled_by_grammar "MAKE neW note\u2003called ''x' with itemſ : a , b\nc".toList
  obtain ⟨behind, name, back, rest, items, hfirst, hname, hrest, hitems, heq⟩ := (hread _).1 hdraft
  have htitle : String.ofList "'x".toList = String.ofList name := congrArg Draft.title heq
  have hcontent : [['a'], ['b']].map String.ofList = items.map String.ofList :=
    Option.some.inj (congrArg Draft.content heq)
  obtain rfl := String.ofList_injective htitle
  obtain rfl := List.map_injective_iff.2 (fun _ _ h => String.ofList_injective h) hcontent
  exact ⟨hdraft, behind, back, rest, hfirst, hname, hrest, hitems⟩

end Family

end PlainNotes

import PlainNotes.Proofs.Phrase.Quoting
import PlainNotes.Proofs.Phrase.Recognition
import PlainNotes.Proofs.Text.Pieces

/-!
# Notes are named in quotes

All phrases that name a note have the name in quotes, on one line.  So a text without anything
quoted touches no note that is there already, whatever verbs it holds.

* `quotes_of_mem_phrases`: every way through a phrase that names a note passes a quoted span.
* `holdsQuotedSpan_iff`: the pattern for quoted spans finds them.
* `named_in_quotes`: what is read from texts with and without a quoted span.
-/

namespace PlainNotes

namespace Phrase

open Text Pattern

/-! ## Quoted spans -/

/-- A stretch of one line from a quote to a quote, of either kind, with something between them. -/
def IsQuotedSpan (w : List Char) : Prop :=
  ∃ q u q', w = q :: (u ++ [q']) ∧ isQuote q = true ∧ isQuote q' = true ∧ u ≠ [] ∧
    ∀ x ∈ u, inLine x = true

/-- A line of the text holds a quoted span. -/
def HoldsQuotedSpan (s : List Char) : Prop :=
  ∃ line ∈ pieces (· == '\n') s, ∃ w, IsQuotedSpan w ∧ w <:+: line

theorem IsQuotedSpan.lineFree {w : List Char} (h : IsQuotedSpan w) :
    ∀ x ∈ w, (x == '\n') = false := by
  obtain ⟨q, u, q', rfl, hq, hq', -, hu⟩ := h
  intro x hx
  have hin : inLine x = true := by
    rcases List.mem_cons.1 hx with rfl | hx
    · exact inLine_of_isQuote hq
    · rcases List.mem_append.1 hx with hx | hx
      · exact hu x hx
      · rw [List.mem_singleton.1 hx]
        exact inLine_of_isQuote hq'
  exact beq_eq_false_iff_ne.2 (bne_iff_ne.1 hin)

/-- A text holds a quoted span wherever it has one inside, since the span is on one line. -/
theorem holdsQuotedSpan_of_infix {w s : List Char} (hw : IsQuotedSpan w) (h : w <:+: s) :
    HoldsQuotedSpan s := by
  obtain ⟨line, hline, hin⟩ := exists_piece_of_infix hw.lineFree h
  exact ⟨line, hline, w, hw, hin⟩

/-- Two quotes are the least that a quoted span takes. -/
theorem two_le_countP {s : List Char} (h : HoldsQuotedSpan s) : 2 ≤ s.countP isQuote := by
  obtain ⟨line, hline, w, ⟨q, u, q', rfl, hq, hq', -⟩, hin⟩ := h
  have hcount := (hin.trans (infix_of_mem_pieces hline)).sublist.countP_le (p := isQuote)
  rw [List.countP_cons_of_pos hq, List.countP_append, List.countP_singleton, if_pos hq'] at hcount
  omega

theorem not_holdsQuotedSpan_of_unquoted {s : List Char} (h : Unquoted s) :
    ¬ HoldsQuotedSpan s := by
  intro hholds
  have htwo := two_le_countP hholds
  have hnone : s.countP isQuote = 0 := countP_eq_zero_iff.2 h
  omega

/-! ## Phrases that pass quoted spans -/

variable {p : Pattern} {s : List Char} {c : Captures}

/-- Every way through the pattern passes a quoted span. -/
def Quotes (p : Pattern) : Prop :=
  ∀ ⦃s s' c c'⦄, p.Way s s' c c' → ∃ w, IsQuotedSpan w ∧ w <:+: s

theorem quotes_quoted (g : Group) : Quotes (quoted g) := by
  intro s s' c c' h
  obtain ⟨q, u, q', rfl, hq, hq', hu⟩ := exists_of_way_quoted h
  obtain ⟨u', hu', hne, hline, -⟩ := catches_quoted g h
  obtain rfl := Option.some.inj (hu.symm.trans hu')
  refine ⟨q :: (u ++ [q']), ⟨q, u, q', rfl, hq, hq', hne, hline⟩, [], s', ?_⟩
  simp

theorem Quotes.all (ps : List Pattern) {qs : List Pattern} (hp : Quotes p) :
    Quotes (Pattern.all (ps ++ p :: qs)) := by
  intro s s' c c' h
  obtain ⟨m, d, hps, hrest⟩ := way_all_append.1 h
  obtain ⟨m', d', hway, -⟩ := way_all_cons.1 hrest
  obtain ⟨w, hw, hin⟩ := hp hway
  obtain ⟨v, rfl⟩ := hps.exists_append
  exact ⟨w, hw, hin.trans (List.suffix_append v m).isInfix⟩

theorem Quotes.search (hp : Quotes p) (h : p.search s = some c) : HoldsQuotedSpan s := by
  obtain ⟨u, t, s', rfl, hway⟩ := exists_way_of_search h
  obtain ⟨w, hw, hin⟩ := hp hway
  exact holdsQuotedSpan_of_infix hw (hin.trans (List.suffix_append u t).isInfix)

theorem quotes_titled : Quotes titled :=
  Quotes.all [gap, oneOf ["titled", "called", "named"], gap] (quotes_quoted .first)

theorem create_quotes : ∀ p ∈ createPatterns, Quotes p := by
  simp only [createPatterns, List.forall_mem_cons, List.not_mem_nil, false_implies, implies_true,
    and_true]
  refine ⟨?_, ?_, ?_⟩
  · exact Quotes.all [word "create", gap, maybe "a", word "note"] quotes_titled
  · exact Quotes.all [oneOf ["make", "add"], gap, maybe "a", maybe "new", word "note"] quotes_titled
  · exact Quotes.all [oneOf ["take", "write"], gap, maybe "a", word "note"] quotes_titled

theorem quotes_addTo (verb : String) : Quotes (addTo verb) :=
  Quotes.all [word verb, gap, group .first (few1 inLine), gap, word "to", gap, maybe "my"]
    (quotes_quoted .second)

theorem update_quotes : ∀ p ∈ updatePatterns, Quotes p := by
  simp only [updatePatterns, List.forall_mem_cons, List.not_mem_nil, false_implies, implies_true,
    and_true]
  refine ⟨quotes_addTo "add", ?_, quotes_addTo "append"⟩
  exact Quotes.all [word "update", gap, maybe "my"] (quotes_quoted .first)

theorem quotes_verbNamed (verb : Pattern) : Quotes (verbNamed verb) :=
  Quotes.all [verb, gap, maybe "my", maybe "note"] (quotes_quoted .first)

theorem delete_quotes : ∀ p ∈ deletePatterns, Quotes p := by
  simp only [deletePatterns, List.forall_mem_cons, List.not_mem_nil, false_implies, implies_true,
    and_true]
  exact ⟨quotes_verbNamed _, quotes_verbNamed _, quotes_verbNamed _, quotes_verbNamed _⟩

theorem search_quotes : ∀ p ∈ searchPatterns, Quotes p := by
  simp only [searchPatterns, List.forall_mem_cons, List.not_mem_nil, false_implies, implies_true,
    and_true]
  refine ⟨quotes_verbNamed _, ?_⟩
  exact Quotes.all
    [oneOf ["search", "find", "look"], gap, maybe "for",
      optional (Pattern.all [word "note", optional (word "s"), gap]),
      oneOf ["with", "containing", "about"], gap]
    (quotes_quoted .first)

theorem exists_way_quoted (g : Group) {q q' : Char} {u : List Char} (hq : isQuote q = true)
    (hq' : isQuote q' = true) (hne : u ≠ []) (hu : ∀ x ∈ u, inLine x = true) (s : List Char) :
    ∃ c, (quoted g).Way (q :: (u ++ q' :: s)) s {} c := by
  have hfew : ∀ d, (few1 inLine).Way (u ++ q' :: s) (q' :: s) d d := fun d =>
    way_few1.2 ⟨u, hne, rfl, hu, rfl⟩
  have hgroup : (group g (few1 inLine)).Way (u ++ q' :: s) (q' :: s) {}
      (({} : Captures).record g u (q' :: s)) := ⟨_, _, ⟨rfl, rfl⟩, _, _, hfew _, rfl, rfl⟩
  have hclose : (Pattern.all [one isQuote]).Way (q' :: s) s {} {} := ⟨q', rfl, hq', rfl⟩
  have hrest := way_all_cons.2 ⟨_, _, hgroup, hclose⟩
  exact ⟨_, way_all_cons.2 ⟨_, _, ⟨q, rfl, hq, rfl⟩, hrest⟩⟩

/-- A quoted span is what the pattern for quoted spans finds. -/
theorem holdsQuotedSpan_iff : HoldsQuotedSpan s ↔ (quotedSpan.search s).isSome = true := by
  constructor
  · rintro ⟨line, hline, w, ⟨q, u, q', rfl, hq, hq', hne, hu⟩, hin⟩
    obtain ⟨a, b, rfl⟩ := hin.trans (infix_of_mem_pieces hline)
    obtain ⟨c, hway⟩ := exists_way_quoted .first hq hq' hne hu b
    have hsome := isSome_search_of_way hway a
    simpa [quotedSpan] using hsome
  · intro h
    obtain ⟨found, hfound⟩ := Option.isSome_iff_exists.1 h
    exact (quotes_quoted .first).search hfound

instance (s : List Char) : Decidable (HoldsQuotedSpan s) :=
  decidable_of_iff _ holdsQuotedSpan_iff.symm

end Phrase

open Phrase Family

variable {f : Family} {s : List Char} {c : Command}

/-! ## Families that name a note -/

/-- The families that name the note, be it a new one or one that is there. -/
def Family.namesNote : Family → Bool
  | explicitCreate | update | delete | search => true
  | longText | tripPlan | fallbackCreate => false

/-- Their phrases all have the name in quotes. -/
theorem quotes_of_mem_phrases (hf : f.namesNote = true) : ∀ p ∈ f.phrases, Quotes p := by
  cases f with
  | explicitCreate => exact create_quotes
  | update => exact update_quotes
  | delete => exact delete_quotes
  | search => exact search_quotes
  | longText | tripPlan | fallbackCreate => cases hf

theorem holdsQuotedSpan_of_reads (hf : f.namesNote = true) (h : f.Reads s c) :
    HoldsQuotedSpan s := by
  have hlong : f ≠ longText := by
    rintro rfl
    cases hf
  obtain ⟨p, hp, found, hfound⟩ := exists_found_of_reads hlong h
  exact (quotes_of_mem_phrases hf p hp).search hfound

/-- Where nothing is quoted, only a topic can be the title of a note that no phrase names. -/
theorem topic_of_reads (hs : ¬ HoldsQuotedSpan s) (h : fallbackCreate.Reads s c) :
    quotedSpan.search s = none ∧
      ∃ found, noteTopic.search s = some found ∧ found.text .first = some c.title.toList := by
  have hspan : quotedSpan.search s = none := by
    rw [holdsQuotedSpan_iff] at hs
    simpa using hs
  obtain ⟨-, d, hd, hvalid⟩ := h
  obtain ⟨found, title, hfound, htitle, rfl⟩ := exists_draft_of_titleDraft? hd
  rw [topicPatterns, firstMatch_tail hspan] at hfound
  have htopic : noteTopic.search s = some found := by
    simpa [firstMatch, List.findSome?_singleton] using hfound
  rw [← (eq_of_validate_draft hvalid).2] at htitle
  exact ⟨hspan, found, htopic, htitle⟩

/-- **No note is named without quotes.**  A sentence that names a note has a quoted span on one of
its lines.  From a text without one comes nothing but a new note: one that holds the whole text, or
one under its topic. -/
theorem named_in_quotes (text : String) :
    (∀ f c, classify text = some ⟨f, c⟩ →
      f = .explicitCreate ∨ f = .update ∨ f = .delete ∨ f = .search →
      HoldsQuotedSpan text.toList) ∧
    (¬ HoldsQuotedSpan text.toList → classify text = none ∨
      ∃ f c, classify text = some ⟨f, c⟩ ∧ c.action = .create ∧
        (f = .longText ∨ f = .tripPlan ∨
          f = .fallbackCreate ∧ quotedSpan.search text.toList = none ∧
            ∃ found, noteTopic.search text.toList = some found ∧
              found.text .first = some c.title.toList)) ∧
    (text.toList.countP isQuote < 2 → ¬ HoldsQuotedSpan text.toList) := by
  have hread : ∀ f c, classify text = some ⟨f, c⟩ → f.Reads text.toList c := by
    intro f c h
    obtain ⟨-, -, -, hreads, -⟩ := classify_eq_some_iff.1 h
    exact hreads
  refine ⟨?_, ?_, ?_⟩
  · intro f c h hf
    have hnames : f.namesNote = true := by
      rcases hf with rfl | rfl | rfl | rfl <;> rfl
    exact holdsQuotedSpan_of_reads hnames (hread f c h)
  · intro hs
    cases h : classify text with
    | none => exact Or.inl rfl
    | some intent =>
      obtain ⟨f, c⟩ := intent
      have hreads := hread f c h
      have hnames : f.namesNote ≠ true := fun hf => hs (holdsQuotedSpan_of_reads hf hreads)
      have haction := action_of_reads hreads
      refine Or.inr ⟨f, c, rfl, ?_⟩
      cases f with
      | longText => exact ⟨haction, Or.inl rfl⟩
      | tripPlan => exact ⟨haction, Or.inr (Or.inl rfl)⟩
      | fallbackCreate => exact ⟨haction, Or.inr (Or.inr ⟨rfl, topic_of_reads hs hreads⟩)⟩
      | explicitCreate | update | delete | search => exact absurd rfl hnames
  · intro hcount hs
    have htwo := two_le_countP hs
    omega

end PlainNotes

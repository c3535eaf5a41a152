import PlainNotes.Proofs.Pattern.Language
import PlainNotes.Proofs.Phrase.PlainWording
import PlainNotes.Proofs.Phrase.Recognition

/-!
# Names behind forms of words

A phrase that names a note is a form of words and a name in quotes behind it.  Here the forms are
languages, without any order in which they would be tried, and what is read of a sentence is said by
where they stand in it: the first form in the list that stands anywhere in front of a closed name
counts, and of its places the leftmost one.

* `spellings`, `blanks`, `QuoteFree`: words in any case, gaps, and forms without quotes.
* `NameAt`, `LeftmostName`, `FirstName`: where names are.
* `Finds`, `finds_of_speaks`: what a phrase captures where it stands.
* `Finds.search_iff`, `Finds.firstMatch_iff`: what it captures in a sentence, and what the first of
  several phrases does.
-/

namespace PlainNotes.Phrase

open Text Pattern

/-! ## Words and gaps -/

/-- The spellings of a word, in any case. -/
def spellings (w : String) : Language Char :=
  {u | spells w.toList u = true}

/-- One or more blanks. -/
def blanks : Language Char :=
  {u | u ≠ [] ∧ ∀ x ∈ u, isBlank x = true}

theorem way_letters {w u : List Char} (h : spells w u = true) (s : List Char) (c : Captures) :
    (letters w).Way (u ++ s) s c c := by
  induction w generalizing u with
  | nil =>
    cases u with
    | nil => exact ⟨rfl, rfl⟩
    | cons x u => cases h
  | cons letter w ih =>
    cases u with
    | nil => cases h
    | cons x u =>
      obtain ⟨hx, hu⟩ := Bool.and_eq_true_iff.1 h
      exact way_all_cons.2 ⟨u ++ s, c, ⟨x, rfl, hx, rfl⟩, ih hu⟩

theorem speaks_word (w : String) : (word w).Speaks (spellings w) := by
  intro s s' c c'
  constructor
  · intro h
    obtain ⟨u, heq, hu, hc⟩ := exists_of_way_word h
    exact ⟨hc, u, hu, heq⟩
  · rintro ⟨rfl, u, hu, rfl⟩
    exact way_letters hu s' c

theorem speaks_gap : gap.Speaks blanks := speaks_many1

theorem speaks_maybe (w : String) : (maybe w).Speaks (spellings w * blanks + 1) :=
  ((speaks_word w).seq speaks_gap).optional

/-! ## Languages without quotes -/

/-- No text of the language has a quote in it. -/
def QuoteFree (l : Language Char) : Prop :=
  ∀ u ∈ l, Unquoted u

/-- A word with no quotes in it is spelt without quotes. -/
theorem unquoted_of_spells {w u : List Char}
    (hw : (w.all fun letter => !isQuote letter && !isQuote letter.toUpper) = true)
    (h : spells w u = true) : Unquoted u := by
  induction w generalizing u with
  | nil =>
    obtain rfl : u = [] := List.length_eq_zero_iff.1 (length_of_spells h)
    exact fun x hx => absurd hx List.not_mem_nil
  | cons letter w ih =>
    obtain ⟨hletter, hrest⟩ := Bool.and_eq_true_iff.1 hw
    obtain ⟨hlow, hup⟩ := Bool.and_eq_true_iff.1 hletter
    rw [Bool.not_eq_true'] at hlow hup
    cases u with
    | nil => cases h
    | cons x u =>
      obtain ⟨hx, hu⟩ := Bool.and_eq_true_iff.1 h
      exact List.forall_mem_cons.2 ⟨outside_of_foldsTo (by decide) hlow hup hx, ih hrest hu⟩

namespace QuoteFree

variable {l m : Language Char}

theorem one : QuoteFree 1 := by
  intro u hu
  rw [(Language.mem_one u).1 hu]
  exact fun x hx => absurd hx List.not_mem_nil

theorem mul (hl : QuoteFree l) (hm : QuoteFree m) : QuoteFree (l * m) := by
  intro w hw
  obtain ⟨u, hu, v, hv, rfl⟩ := Language.mem_mul.1 hw
  exact unquoted_append.2 ⟨hl u hu, hm v hv⟩

theorem add (hl : QuoteFree l) (hm : QuoteFree m) : QuoteFree (l + m) := by
  intro u hu
  rcases (Language.mem_add l m u).1 hu with hu | hu
  · exact hl u hu
  · exact hm u hu

theorem spellings {w : String}
    (hw : (w.toList.all fun letter => !isQuote letter && !isQuote letter.toUpper) = true) :
    QuoteFree (spellings w) :=
  fun _ hu => unquoted_of_spells hw hu

theorem blanks : QuoteFree blanks :=
  fun _ hu x hx => isQuote_of_isBlank (hu.2 x hx)

theorem maybe (hl : QuoteFree l) : QuoteFree (l * Phrase.blanks + 1) :=
  (hl.mul blanks).add one

end QuoteFree

/-! ## Names -/

/-- Behind an opening quote: at least one character, and then another quote on the same line. -/
def Closes (behind : List Char) : Prop :=
  ∃ u q rest, behind = u ++ q :: rest ∧ u ≠ [] ∧ '\n' ∉ u ∧ isQuote q = true

/-- Behind an opening quote: the name, up to the first quote behind its first character. -/
def HasName (behind name : List Char) : Prop :=
  ∃ q rest, behind = name ++ q :: rest ∧ isQuote q = true ∧ Unbroken name

/-- Behind an opening quote: the name, the quote that closes it, and what follows. -/
def NameThen (behind name back : List Char) : Prop :=
  ∃ q, behind = name ++ q :: back ∧ isQuote q = true ∧ Unbroken name

variable {s t behind name name' back back' : List Char}

theorem hasName_iff : HasName behind name ↔ ∃ back, NameThen behind name back :=
  exists_comm

theorem NameThen.unique (h : NameThen behind name back) (h' : NameThen behind name' back') :
    name = name' ∧ back = back' := by
  obtain ⟨q, rfl, hq, hname⟩ := h
  obtain ⟨q', heq, hq', hname'⟩ := h'
  obtain ⟨x, v, rfl⟩ := List.exists_cons_of_ne_nil hname.ne
  obtain ⟨x', v', rfl⟩ := List.exists_cons_of_ne_nil hname'.ne
  obtain ⟨rfl, htail⟩ := List.cons.inj heq
  obtain ⟨rfl, rfl⟩ := eq_of_first_quote hname.unquoted_tail hname'.unquoted_tail hq hq' htail
  exact ⟨rfl, rfl⟩

theorem HasName.closes (h : HasName behind name) : Closes behind := by
  obtain ⟨q, rest, rfl, hq, hname⟩ := h
  refine ⟨name, q, rest, rfl, hname.ne, ?_, hq⟩
  intro hmem
  exact absurd (hname.lineFree _ hmem) (by decide)

/-- The first quote of a text that has one. -/
theorem exists_first_quote {q : Char} (hq : isQuote q = true) (u rest : List Char) :
    ∃ v q' rest', u ++ q :: rest = v ++ q' :: rest' ∧ isQuote q' = true ∧ Unquoted v ∧ v <+: u := by
  induction u with
  | nil => exact ⟨[], q, rest, rfl, hq, fun x hx => absurd hx List.not_mem_nil, List.nil_prefix⟩
  | cons x u ih =>
    by_cases hx : isQuote x = true
    · exact ⟨[], x, u ++ q :: rest, rfl, hx, fun y hy => absurd hy List.not_mem_nil,
        List.nil_prefix⟩
    · obtain ⟨v, q', rest', heq, hq', hv, hprefix⟩ := ih
      refine ⟨x :: v, q', rest', congrArg (x :: ·) heq, hq', ?_, (List.prefix_cons_inj x).2 hprefix⟩
      exact List.forall_mem_cons.2 ⟨Bool.eq_false_iff.2 hx, hv⟩

theorem Closes.exists_name (h : Closes behind) : ∃ name, HasName behind name := by
  obtain ⟨u, q, rest, rfl, hne, hline, hq⟩ := h
  obtain ⟨x, u, rfl⟩ := List.exists_cons_of_ne_nil hne
  obtain ⟨v, q', rest', heq, hq', hv, hprefix⟩ := exists_first_quote hq u rest
  refine ⟨x :: v, q', rest', congrArg (x :: ·) heq, hq', List.cons_ne_nil x v, hv, ?_⟩
  intro y hy
  refine bne_iff_ne.2 ?_
  rintro rfl
  exact hline (((List.prefix_cons_inj x).2 hprefix).subset hy)

/-- A quoted stretch captures the name behind its opening quote. -/
theorem run_quoted_of_nameThen {g : Group} {k : List Char → Option Captures} {q : Char}
    {d : Captures} (hq : isQuote q = true) (h : NameThen behind name back)
    (hk : k back = some d) :
    ∃ q', (quoted g).run k (q :: behind) = some (d.record g name (q' :: back)) := by
  obtain ⟨q', rfl, hq', hname⟩ := h
  exact ⟨q', run_quoted_of_close hq hq' hname hk⟩

/-- What follows never fails, so that the first closing quote is not given up for a later one. -/
theorem exists_of_run_quoted {g : Group} {k : List Char → Option Captures} {c : Captures}
    (hk : ∀ s, (k s).isSome = true) (h : (quoted g).run k s = some c) :
    ∃ q behind name back d q', s = q :: behind ∧ isQuote q = true ∧ NameThen behind name back ∧
      k back = some d ∧ c = d.record g name (q' :: back) := by
  obtain ⟨s', e, -, hway⟩ := exists_way_of_run h
  obtain ⟨u, hu, hne, hline, -⟩ := catches_quoted g hway
  obtain ⟨q, u', q', rfl, hq, hq', hu'⟩ := exists_of_way_quoted hway
  obtain rfl := Option.some.inj (hu.symm.trans hu')
  have hcloses : Closes (u ++ q' :: s') :=
    ⟨u, q', s', rfl, hne, fun hmem => absurd (hline _ hmem) (by decide), hq'⟩
  obtain ⟨name, hname⟩ := hcloses.exists_name
  obtain ⟨back, hthen⟩ := hasName_iff.1 hname
  obtain ⟨d, hd⟩ := Option.isSome_iff_exists.1 (hk back)
  obtain ⟨q'', hrun⟩ := run_quoted_of_nameThen (g := g) hq hthen hd
  obtain rfl := Option.some.inj (hrun.symm.trans h)
  exact ⟨q, _, name, back, d, q'', rfl, hq, hthen, hd, rfl⟩

/-! ## Names behind a form of words -/

/-- The text begins with words of the form and a quote, and `behind` it a name is closed. -/
def NameFirst (l : Language Char) (t behind : List Char) : Prop :=
  ∃ u q, t = u ++ q :: behind ∧ u ∈ l ∧ isQuote q = true ∧ Closes behind

/-- Behind the part `a` of the text stand words of the form and a quoted name. -/
def NameAt (l : Language Char) (s a behind : List Char) : Prop :=
  ∃ t, s = a ++ t ∧ NameFirst l t behind

/-- The leftmost place at which words of the form and a quoted name stand. -/
def LeftmostName (l : Language Char) (s behind : List Char) : Prop :=
  ∃ a, NameAt l s a behind ∧ ∀ a' behind', NameAt l s a' behind' → a.length ≤ a'.length

/-- The leftmost name behind the first of the forms that stand anywhere in front of one. -/
def FirstName (ls : List (Language Char)) (s behind : List Char) : Prop :=
  ∃ before l after, ls = before ++ l :: after ∧
    (∀ m ∈ before, ∀ a' behind', ¬ NameAt m s a' behind') ∧ LeftmostName l s behind

variable {p : Pattern} {l : Language Char} {ps qs more : List Pattern}
  {ls : List (Language Char)} {c : Captures}

/-- The words of a form hold no quote, so that the opening quote of the name is the first one. -/
theorem NameFirst.unique {behind' : List Char} (hl : QuoteFree l) (h : NameFirst l t behind)
    (h' : NameFirst l t behind') : behind = behind' := by
  obtain ⟨u, q, rfl, hu, hq, -⟩ := h
  obtain ⟨u', q', heq, hu', hq', -⟩ := h'
  exact (eq_of_first_quote (hl u hu) (hl u' hu') hq hq' heq).2

/-! ### Where a phrase stands -/

theorem exists_of_run_named (hqs : (Pattern.all qs).Speaks l)
    (hmore : ∀ s, ((Pattern.all more).run accept s).isSome = true)
    (hrun : (Pattern.all (qs ++ quoted .first :: more)).run accept t = some c) :
    ∃ behind name back d, NameFirst l t behind ∧ NameThen behind name back ∧
      (Pattern.all more).run accept back = some d ∧ c.text .first = some name ∧
      c.text .second = d.text .second := by
  rw [run_all_append] at hrun
  obtain ⟨s', e, hquoted, hway⟩ := exists_way_of_run hrun
  obtain ⟨rfl, u, hu, rfl⟩ := hqs.way_iff.1 hway
  rw [run_all_cons] at hquoted
  obtain ⟨q, behind, name, back, d, q', rfl, hq, hname, hd, rfl⟩ :=
    exists_of_run_quoted hmore hquoted
  refine ⟨behind, name, back, d, ⟨u, q, rfl, hu, hq, (hasName_iff.2 ⟨back, hname⟩).closes⟩, hname,
    hd, Captures.text_record _ .first name _, Captures.text_record_of_ne _ (by decide) name _⟩

theorem isSome_run_named (hqs : (Pattern.all qs).Speaks l)
    (hmore : ∀ s, ((Pattern.all more).run accept s).isSome = true)
    (hfirst : NameFirst l t behind) :
    ((Pattern.all (qs ++ quoted .first :: more)).run accept t).isSome = true := by
  obtain ⟨u, q, rfl, hu, hq, hcloses⟩ := hfirst
  obtain ⟨name, hname⟩ := hcloses.exists_name
  obtain ⟨back, hthen⟩ := hasName_iff.1 hname
  obtain ⟨d, hd⟩ := Option.isSome_iff_exists.1 (hmore back)
  obtain ⟨q', hquoted⟩ := run_quoted_of_nameThen (g := .first) hq hthen hd
  have hway : (Pattern.all qs).Way (u ++ q :: behind) (q :: behind) {} {} :=
    hqs.way_iff.2 ⟨rfl, u, hu, rfl⟩
  rw [run_all_append]
  refine isSome_run_of_way hway ?_
  rw [run_all_cons]
  exact Option.isSome_of_eq_some hquoted

/-- Where the pattern stands there are words of the form and a quoted name, and what it captures is
`Q` exactly if what stands behind the opening quote is `R`. -/
structure Finds (Q : Captures → Prop) (R : List Char → Prop) (p : Pattern) (l : Language Char) :
    Prop where
  run_eq_none_iff {t : List Char} : p.run accept t = none ↔ ∀ behind, ¬ NameFirst l t behind
  run_iff {t : List Char} :
    (∃ c, p.run accept t = some c ∧ Q c) ↔ ∃ behind, NameFirst l t behind ∧ R behind

variable {Q : Captures → Prop} {R : List Char → Prop}

/-- **What a phrase captures where it stands** is settled by what stands behind the opening quote. -/
theorem finds_of_speaks (hqs : (Pattern.all qs).Speaks l) (hl : QuoteFree l)
    (hmore : ∀ s, ((Pattern.all more).run accept s).isSome = true)
    (hread : ∀ behind name back d c, NameThen behind name back →
      (Pattern.all more).run accept back = some d → c.text .first = some name →
      c.text .second = d.text .second → (Q c ↔ R behind)) :
    Finds Q R (Pattern.all (qs ++ quoted .first :: more)) l where
  run_eq_none_iff := by
    intro t
    constructor
    · intro hrun behind hfirst
      have hsome := isSome_run_named hqs hmore hfirst
      rw [hrun] at hsome
      cases hsome
    · intro hnone
      rw [Option.eq_none_iff_forall_ne_some]
      intro c hrun
      obtain ⟨behind, -, -, -, hfirst, -⟩ := exists_of_run_named hqs hmore hrun
      exact hnone behind hfirst
  run_iff := by
    intro t
    constructor
    · rintro ⟨c, hrun, hc⟩
      obtain ⟨behind, name, back, d, hfirst, hname, hd, hone, htwo⟩ :=
        exists_of_run_named hqs hmore hrun
      exact ⟨behind, hfirst, (hread behind name back d c hname hd hone htwo).1 hc⟩
    · rintro ⟨behind, hfirst, hbehind⟩
      obtain ⟨c, hrun⟩ := Option.isSome_iff_exists.1 (isSome_run_named hqs hmore hfirst)
      obtain ⟨behind', name, back, d, hfirst', hname, hd, hone, htwo⟩ :=
        exists_of_run_named hqs hmore hrun
      obtain rfl := hfirst.unique hl hfirst'
      exact ⟨c, hrun, (hread behind name back d c hname hd hone htwo).2 hbehind⟩

/-! ### In a sentence -/

theorem Finds.search_eq_none_iff (h : Finds Q R p l) :
    p.search s = none ↔ ∀ a behind, ¬ NameAt l s a behind := by
  rw [Pattern.search_eq_none_iff]
  constructor
  · rintro hnone a behind ⟨t, rfl, hfirst⟩
    exact h.run_eq_none_iff.1 (hnone a t rfl) behind hfirst
  · intro hnone a t heq
    exact h.run_eq_none_iff.2 fun behind hfirst => hnone a behind ⟨t, heq, hfirst⟩

/-- **What a phrase captures in a sentence** is settled at the leftmost place. -/
theorem Finds.search_iff (h : Finds Q R p l) :
    (∃ c, p.search s = some c ∧ Q c) ↔ ∃ behind, LeftmostName l s behind ∧ R behind := by
  constructor
  · rintro ⟨c, hsearch, hc⟩
    obtain ⟨a, t, heq, hrun, hleft⟩ := search_eq_some_iff.1 hsearch
    obtain ⟨behind, hfirst, hbehind⟩ := h.run_iff.1 ⟨c, hrun, hc⟩
    refine ⟨behind, ⟨a, ⟨t, heq, hfirst⟩, ?_⟩, hbehind⟩
    rintro a' behind' ⟨t', heq', hfirst'⟩
    rw [← Nat.not_lt]
    intro hlt
    exact h.run_eq_none_iff.1 (hleft a' t' heq' hlt) behind' hfirst'
  · rintro ⟨behind, ⟨a, ⟨t, heq, hfirst⟩, hleft⟩, hbehind⟩
    obtain ⟨c, hrun, hc⟩ := h.run_iff.2 ⟨behind, hfirst, hbehind⟩
    refine ⟨c, search_eq_some_iff.2 ⟨a, t, heq, hrun, ?_⟩, hc⟩
    intro a' t' heq' hlt
    refine h.run_eq_none_iff.2 fun behind' hfirst' => ?_
    exact absurd (hleft a' behind' ⟨t', heq', hfirst'⟩) (Nat.not_le_of_lt hlt)

/-! ## Several forms -/

theorem firstName_cons_iff :
    FirstName (l :: ls) s behind ↔ LeftmostName l s behind ∨
      (∀ a' behind', ¬ NameAt l s a' behind') ∧ FirstName ls s behind := by
  constructor
  · rintro ⟨before, m, after, heq, hbefore, hleft⟩
    cases before with
    | nil =>
      obtain ⟨rfl, -⟩ := List.cons.inj heq
      exact Or.inl hleft
    | cons l' before =>
      obtain ⟨rfl, rfl⟩ := List.cons.inj heq
      obtain ⟨hl, hbefore⟩ := List.forall_mem_cons.1 hbefore
      exact Or.inr ⟨hl, before, m, after, rfl, hbefore, hleft⟩
  · rintro (hleft | ⟨hl, before, m, after, rfl, hbefore, hleft⟩)
    · exact ⟨[], l, ls, rfl, fun m hm => absurd hm List.not_mem_nil, hleft⟩
    · exact ⟨l :: before, m, after, rfl, List.forall_mem_cons.2 ⟨hl, hbefore⟩, hleft⟩

theorem Finds.exists_search_iff (h : List.Forall₂ (Finds Q R) ps ls) :
    (∃ p ∈ ps, (p.search s).isSome = true) ↔ ∃ l ∈ ls, ∃ a behind, NameAt l s a behind := by
  induction h with
  | nil => simp
  | cons hp _ ih =>
    rw [List.exists_mem_cons_iff, List.exists_mem_cons_iff, ih, Option.isSome_iff_ne_none, Ne,
      hp.search_eq_none_iff]
    simp

/-- **What several phrases capture** is settled at the first name. -/
theorem Finds.firstMatch_iff (h : List.Forall₂ (Finds Q R) ps ls) :
    (∃ c, firstMatch ps s = some c ∧ Q c) ↔ ∃ behind, FirstName ls s behind ∧ R behind := by
  induction h with
  | nil =>
    constructor
    · rintro ⟨c, hc, -⟩
      cases hc
    · rintro ⟨behind, ⟨before, l, after, heq, -⟩, -⟩
      cases before <;> cases heq
  | @cons p l ps ls hp _ ih =>
    simp only [firstName_cons_iff]
    cases hsearch : p.search s with
    | none =>
      have hnone := hp.search_eq_none_iff.1 hsearch
      rw [firstMatch_tail hsearch, ih]
      refine exists_congr fun behind => and_congr_left fun _ => ?_
      rw [or_iff_right]
      · exact (and_iff_right hnone).symm
      · rintro ⟨a, ha, -⟩
        exact hnone a behind ha
    | some c =>
      have hne : ¬ ∀ a' behind', ¬ NameAt l s a' behind' := by
        intro hnone
        rw [hp.search_eq_none_iff.2 hnone] at hsearch
        cases hsearch
      rw [firstMatch_head hsearch, ← hsearch, hp.search_iff]
      refine exists_congr fun behind => and_congr_left fun _ => ?_
      exact (or_iff_left fun hrest => hne hrest.1).symm

end PlainNotes.Phrase

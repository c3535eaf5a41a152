import PlainNotes.Proofs.Phrase.UpdateOrder

/-!
# Updates that add nothing

A match of an update phrase counts unless one of its groups is empty, and groups never are.  But the
blanks around an item and a pair of quotes around it come off later, and then nothing may be left of
it: such a sentence adds an empty item to the note, and the phrases behind are not tried.

* `Hollow`, `stripQuotes_trim_eq_nil_iff`: the items of which nothing is left.
* `search_add_quotes`: an item of nothing but quotes is captured.
* `search_updateWith_blanks`: blanks in the place of an item are captured.
* `updates_add_hollow_items`: when the item of an update is empty.
-/

namespace PlainNotes

namespace Phrase

open Text Pattern

/-! ## Items of which nothing is left -/

/-- Without the blanks around it, the item is empty or two equal quotes. -/
def Hollow (raw : List Char) : Prop :=
  trim raw = [] ∨ ∃ q, isQuote q = true ∧ trim raw = [q, q]

variable {q : Char} {s u : List Char}

theorem between?_eq_some_iff : between? q s = some u ↔ s = q :: (u ++ [q]) := by
  cases s with
  | nil => simp [between?]
  | cons c s =>
    rw [between?, Option.ite_none_right_eq_some, List.cons.injEq, and_assoc]
    refine and_congr_right fun _ => ?_
    rw [Option.some.injEq]
    constructor
    · rintro ⟨hlast, rfl⟩
      obtain ⟨v, rfl⟩ := List.getLast?_eq_some_iff.1 hlast
      rw [List.dropLast_concat]
    · rintro rfl
      exact ⟨List.getLast?_concat, List.dropLast_concat⟩

theorem stripQuotes_eq_nil_iff :
    stripQuotes s = [] ↔ s = [] ∨ ∃ q, isQuote q = true ∧ s = [q, q] := by
  rw [stripQuotes, Option.getD_eq_iff, Option.or_eq_some_iff, between?_eq_some_iff,
    between?_eq_some_iff]
  constructor
  · rintro ((h | ⟨-, h⟩) | ⟨-, h⟩)
    · exact Or.inr ⟨'"', by decide, h⟩
    · exact Or.inr ⟨'\'', by decide, h⟩
    · exact Or.inl h
  · rintro (rfl | ⟨q, hq, rfl⟩)
    · exact Or.inr ⟨rfl, rfl⟩
    · rcases Bool.or_eq_true_iff.1 hq with hq | hq
      · rw [beq_iff_eq.1 hq]
        exact Or.inl (Or.inr ⟨rfl, rfl⟩)
      · rw [beq_iff_eq.1 hq]
        exact Or.inl (Or.inl rfl)

theorem stripQuotes_trim_eq_nil_iff : stripQuotes (trim s) = [] ↔ Hollow s :=
  stripQuotes_eq_nil_iff

theorem hollow_quotes (hq : isQuote q = true) : Hollow [q, q] := by
  refine Or.inr ⟨q, hq, ?_⟩
  rcases Bool.or_eq_true_iff.1 hq with hq | hq
  · rw [beq_iff_eq.1 hq]
    decide
  · rw [beq_iff_eq.1 hq]
    decide

theorem hollow_blank (hq : isBlank q = true) : Hollow [q] :=
  Or.inl (trim_eq_nil_iff.2 (by rw [allBlank_cons, hq]; rfl))

/-! ## Sentences with hollow items -/

variable {q₁ q₂ x : Char} {name back : List Char}

/-- `Add '' to my 'name'`, and whatever follows. -/
def addQuotes (q q₁ q₂ : Char) (name back : List Char) : List Char :=
  "Add ".toList ++ ([q, q] ++ (" to my ".toList ++ (q₁ :: (name ++ q₂ :: back))))

/-- `Update my 'name' note with`, and blanks. -/
def updateWithBlanks (q : Char) (name blanks : List Char) : List Char :=
  "Update my ".toList ++ (q :: (name ++ q :: (" note with".toList ++ blanks)))

/-- Two quotes are an item like any other. -/
theorem search_add_quotes (hq : isQuote q = true) (hq₁ : isQuote q₁ = true)
    (hq₂ : isQuote q₂ = true) (hname : Unbroken name) (back : List Char) :
    ∃ found, (addTo "add").search (addQuotes q q₁ q₂ name back) = some found ∧
      found.text .first = some [q, q] ∧ found.text .second = some name := by
  have hquoted : (all [quoted .second]).run accept (q₁ :: (name ++ q₂ :: back)) =
      some (({} : Captures).record .second name (q₂ :: back)) :=
    run_quoted_of_close hq₁ hq₂ hname rfl
  have hto := (takes_toMy (startsOutside_quote (by decide) hq₁ _)).run_all hquoted
  have hline : ∀ y ∈ [q, q], inLine y = true := by
    simpa using inLine_of_isQuote hq
  have hblank : isBlank q = false := startsOutside_quote (by decide) hq [] q rfl
  have hitem : (all [group .first (few1 inLine), gap, word "to", gap, maybe "my",
      quoted .second]).run accept ([q, q] ++ (" to my ".toList ++ (q₁ :: (name ++ q₂ :: back)))) =
      some ((({} : Captures).record .second name (q₂ :: back)).record .first [q, q]
        (" to my ".toList ++ (q₁ :: (name ++ q₂ :: back)))) := by
    rw [run_all_cons]
    refine run_group_few1 .first (List.cons_ne_nil q [q]) hline ?_ hto
    intro a b hab _ hb
    obtain ⟨y, b, rfl⟩ := List.exists_cons_of_ne_nil hb
    obtain rfl : y = q := by
      have hy : y ∈ [q, q] := by rw [hab]; simp
      simpa using hy
    -- No gap begins with a quote, so that the group goes on to the end of the item.
    rw [run_all_cons, List.cons_append, gap, many1, run, run, runOne, hblank]
    rfl
  have hsearch := search_of_run
    ((takes_add (startsOutside_quote (by decide) hq _)).run_all hitem)
  refine ⟨_, hsearch, Captures.text_record _ .first [q, q] _, ?_⟩
  rw [Captures.text_record_of_ne _ (by decide), Captures.text_record]

/-- Where only blanks are left, the gap gives one of them back, and it is the item. -/
theorem search_updateWith_blanks (hq : isQuote q = true) (hname : Unbroken name)
    (hx : isBlank x = true) (hs : ∀ y ∈ s, isBlank y = true) (hline : ∃ y ∈ s, inLine y = true) :
    ∃ found y, updateWith.search (updateWithBlanks q name (x :: s)) = some found ∧
      found.text .first = some name ∧ found.text .second = some [y] ∧ isBlank y = true := by
  obtain ⟨y, hy⟩ : ∃ y, s.reverse.find? inLine = some y := by
    rw [← Option.isSome_iff_exists, List.find?_isSome]
    simpa using hline
  have hgap : (all [gap, group .second (many1 inLine)]).run accept (x :: s) =
      runMany isBlank ((group .second (many1 inLine)).run accept) s := if_pos hx
  have hspan := text_line_of_allBlank hs
  rw [hy, Option.map_some, Option.bind_eq_some_iff] at hspan
  obtain ⟨c, hc, htext⟩ := hspan
  have hback := (takes_noteWithWord (x :: s)).run_all (hgap.trans hc)
  have hquoted := run_quoted_of_close (g := .first) hq hq hname hback
  rw [← run_all_cons] at hquoted
  have hsearch := search_of_run
    ((takes_updateMy (startsOutside_quote (by decide) hq _)).run_all hquoted)
  refine ⟨_, y, hsearch, Captures.text_record _ .first name _, ?_, ?_⟩
  · rw [Captures.text_record_of_ne _ (by decide), htext]
  · exact hs y (List.mem_reverse.1 (List.mem_of_find?_eq_some hy))

end Phrase

open Text Phrase UpdatePhrase

namespace UpdatePhrase

/-- The group that becomes the item: the second one if the sentence says `update`. -/
def itemGroup (s : List Char) : Group :=
  if mentions ["update"] (lowercase s) then .second else .first

variable {s : List Char} {d : Draft}

theorem Chosen.ne_nil {r : UpdatePhrase} {found : Captures} {g : Group} {raw : List Char}
    (h : r.Chosen s found) (hraw : found.text g = some raw) : raw ≠ [] := by
  obtain ⟨-, -, -, -, hfound⟩ := h
  have hcatches : r.pattern.Catches g inLine := by
    cases g with
    | first => exact (update_catches r.pattern r.pattern_mem).1
    | second => exact (update_catches r.pattern r.pattern_mem).2
  obtain ⟨u, hu, hne, -⟩ := hcatches.search hfound
  obtain rfl := Option.some.inj (hraw.symm.trans hu)
  exact hne

/-- The item is what is left of the group, and the group is never empty. -/
theorem exists_item_of_updateDraft? (h : Family.updateDraft? s = some d) :
    ∃ r found raw, Chosen r s found ∧ found.text (itemGroup s) = some raw ∧ raw ≠ [] ∧
      d.content = some [String.ofList (stripQuotes (trim raw))] := by
  have hsome : Family.updateDraft? s ≠ none := by
    rw [h]
    exact Option.some_ne_none d
  obtain ⟨r, found, hchosen⟩ := exists_chosen_iff.2 (updateDraft?_ne_none_iff.1 hsome)
  obtain ⟨first, second, hfirst, hsecond, hd⟩ := hchosen.updateDraft?_eq
  obtain rfl := Option.some.inj (h.symm.trans hd)
  by_cases hmentions : mentions ["update"] (lowercase s) = true
  · rw [itemGroup, if_pos hmentions, if_pos hmentions]
    exact ⟨r, found, second, hchosen, hsecond, hchosen.ne_nil hsecond, rfl⟩
  · rw [itemGroup, if_neg hmentions, if_neg hmentions]
    exact ⟨r, found, first, hchosen, hfirst, hchosen.ne_nil hfirst, rfl⟩

end UpdatePhrase

namespace Family

variable {q q₁ q₂ x : Char} {s name back : List Char}

theorem updateDraft?_addQuotes (hq : isQuote q = true) (hq₁ : isQuote q₁ = true)
    (hq₂ : isQuote q₂ = true) (hname : Unbroken name)
    (hnot : mentions ["update"] (lowercase (addQuotes q q₁ q₂ name back)) = false) :
    updateDraft? (addQuotes q q₁ q₂ name back) = some (draft .update name (some [[]])) := by
  obtain ⟨found, hfound, hfirst, hsecond⟩ := search_add_quotes hq hq₁ hq₂ hname back
  refine updateDraft?_of_add hfound ?_
  rw [hnot, updateMatchDraft?_eq hfirst hsecond (List.cons_ne_nil q [q]) hname.ne,
    stripQuotes_trim_eq_nil_iff.2 (hollow_quotes hq)]
  rfl

theorem updateDraft?_updateWithBlanks (hq : isQuote q = true) (hne : name ≠ [])
    (hname : Unquoted name) (hnameline : ∀ y ∈ name, inLine y = true) (hx : isBlank x = true)
    (hs : ∀ y ∈ s, isBlank y = true) (hline : ∃ y ∈ s, inLine y = true) :
    updateDraft? (updateWithBlanks q name (x :: s)) = some (draft .update name (some [[]])) := by
  obtain ⟨found, y, hfound, hfirst, hsecond, hy⟩ :=
    search_updateWith_blanks hq (unbroken_of_unquoted hne hname hnameline) hx hs hline
  have hblanks : ∀ y ∈ x :: s, isBlank y = true := List.forall_mem_cons.2 ⟨hx, hs⟩
  have hback : Unquoted (" note with".toList ++ x :: s) :=
    unquoted_append.2 ⟨by decide, fun y hy => isQuote_of_isBlank (hblanks y hy)⟩
  have habsent : ((word "add").search "Update my ".toList).isSome = false := by decide
  have hadd : (addTo "add").search (updateWithBlanks q name (x :: s)) = none :=
    Quoting.search_addTo_eq_none
      (t := ⟨"Update my ".toList, q, name, _, hq, by decide, hname, hback⟩) (by decide) habsent
  refine updateDraft?_of_updateWith hadd hfound ?_
  rw [mentions_of_updateWith hfound,
    updateMatchDraft?_eq hfirst hsecond hne (List.cons_ne_nil y []), if_pos rfl,
    stripQuotes_trim_eq_nil_iff.2 (hollow_blank hy)]

end Family

/-- **When an update adds an empty item.**  Every draft takes its item from the first phrase that
occurs, and the group that becomes the item is never empty, so that no phrase is passed over for want
of one.  The item that is stored is empty exactly if nothing but blanks, or blanks around a pair of
equal quotes, was captured.  Both happen: with quotes that hold nothing, and where blanks stand in
the place of the item and the gap in front of it gives one of them back. -/
theorem updates_add_hollow_items (s : List Char) :
    (∀ d, Family.updateDraft? s = some d → ∃ r found raw, Chosen r s found ∧
      found.text (itemGroup s) = some raw ∧ raw ≠ [] ∧
      d.content = some [String.ofList (stripQuotes (trim raw))] ∧
      (d.content = some [""] ↔ Hollow raw)) ∧
    (∀ q q₁ q₂ name back, s = addQuotes q q₁ q₂ name back → isQuote q = true →
      isQuote q₁ = true → isQuote q₂ = true → Unbroken name →
      mentions ["update"] (lowercase s) = false →
      Family.updateDraft? s = some (Family.draft .update name (some [[]]))) ∧
    ∀ q name x gap, s = updateWithBlanks q name (x :: gap) → isQuote q = true → name ≠ [] →
      Unquoted name → (∀ y ∈ name, inLine y = true) → isBlank x = true →
      (∀ y ∈ gap, isBlank y = true) → (∃ y ∈ gap, inLine y = true) →
      Family.updateDraft? s = some (Family.draft .update name (some [[]])) := by
  refine ⟨?_, ?_, ?_⟩
  · intro d h
    obtain ⟨r, found, raw, hchosen, hraw, hne, hcontent⟩ := exists_item_of_updateDraft? h
    refine ⟨r, found, raw, hchosen, hraw, hne, hcontent, ?_⟩
    rw [hcontent, ← stripQuotes_trim_eq_nil_iff, Option.some_inj, List.singleton_inj,
      String.ofList_eq_empty_iff]
  · rintro q q₁ q₂ name back rfl hq hq₁ hq₂ hname hnot
    exact Family.updateDraft?_addQuotes hq hq₁ hq₂ hname hnot
  · rintro q name x gap rfl hq hne hname hline hx hgap hgapline
    exact Family.updateDraft?_updateWithBlanks hq hne hname hline hx hgap hgapline

/-- Quotes that hold nothing, and three blanks in the place of an item. -/
theorem updates_add_hollow_items_list :
    Family.updateDraft? "Add '' to my 'list' note".toList =
      some (Family.draft .update "list".toList (some [[]])) ∧
    (∃ r found raw, Chosen r "Add '' to my 'list' note".toList found ∧
      found.text (itemGroup "Add '' to my 'list' note".toList) = some raw ∧ raw ≠ [] ∧
      Hollow raw) ∧
    Family.updateDraft? "Update my 'list' note with   ".toList =
      some (Family.draft .update "list".toList (some [[]])) := by
  have hline : ∀ y ∈ "list".toList, inLine y = true := List.all_eq_true.1 (by decide)
  have hname : Unbroken "list".toList := unbroken_of_unquoted (by decide) (by decide) hline
  obtain ⟨hread, hquotes, -⟩ := updates_add_hollow_items "Add '' to my 'list' note".toList
  have hadd : Family.updateDraft? "Add '' to my 'list' note".toList =
      some (Family.draft .update "list".toList (some [[]])) :=
    hquotes '\'' '\'' '\'' "list".toList " note".toList rfl (by decide) (by decide) (by decide)
      hname (by decide +kernel)
  obtain ⟨r, found, raw, hchosen, hraw, hne, -, hiff⟩ := hread _ hadd
  obtain ⟨-, -, hblanks⟩ := updates_add_hollow_items "Update my 'list' note with   ".toList
  have hupdate : Family.updateDraft? "Update my 'list' note with   ".toList =
      some (Family.draft .update "list".toList (some [[]])) :=
    hblanks '\'' "list".toList ' ' "  ".toList rfl (by decide) (by decide) (by decide) hline
      (by decide) (List.all_eq_true.1 (by decide)) ⟨' ', by decide, by decide⟩
  exact ⟨hadd, ⟨r, found, raw, hchosen, hraw, hne, hiff.1 rfl⟩, hupdate⟩

end PlainNotes

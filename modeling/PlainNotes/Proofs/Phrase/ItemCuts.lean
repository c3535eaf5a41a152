import Mathlib.Data.List.Forall2
import PlainNotes.Proofs.Phrase.Items

/-!
# How a text is cut into items

A text is cut at its commas, or else at its line feeds, or else not at all.  What stands between two
cuts is an item once the blanks around it are gone.  Where lines are items, one bullet in front of a
line goes too, with the blanks behind it.  Nothing else is lost, and nothing is added.

* `LineItem`, `lineItem_iff`: what is left of a line that is an item.
* `length_splitItems`, `of_mem_splitItems`, `count_flatten_splitItems`: the items of any text.
* `splitItems_intercalate_eq_iff`: which items come back from the text that lists them.
* `items_by_cuts`: all of this together.
-/

namespace PlainNotes.Phrase

open Text

variable {s line item rest gap : List Char} {b c : Char} {items : List (List Char)}

/-! ## Lines with bullets -/

/-- What is left of a line that is an item: all of it, or what stands behind one bullet and the
blanks after it. -/
inductive LineItem : List Char → List Char → Prop
  | plain {line : List Char} (hline : ∀ c ∈ line.head?, isBullet c = false) : LineItem line line
  | bulleted {b : Char} {gap item : List Char} (hb : isBullet b = true)
    (hgap : ∀ c ∈ gap, isBlank c = true) (hitem : ∀ c ∈ item.head?, isBlank c = false) :
    LineItem (b :: (gap ++ item)) item

theorem isBlank_of_isBullet (h : isBullet c = true) : isBlank c = false := by
  simp only [isBullet, Bool.or_eq_true, beq_iff_eq] at h
  rcases h with (rfl | rfl) | rfl
  all_goals rfl

theorem lineItem_dropBullet (line : List Char) : LineItem line (dropBullet line) := by
  cases line with
  | nil => exact .plain fun c hc => by cases hc
  | cons c s =>
    by_cases hc : isBullet c = true
    · obtain ⟨gap, hs, hgap⟩ := exists_append_trimStart s
      rw [dropBullet, if_pos hc, congrArg (List.cons c) hs]
      refine .bulleted hc hgap fun x hx => ?_
      obtain ⟨t, ht⟩ := List.head?_eq_some_iff.1 hx
      exact head_trimStart ht
    · rw [dropBullet, if_neg hc]
      refine .plain fun x hx => ?_
      obtain rfl := Option.some.inj hx
      exact Bool.eq_false_iff.2 hc

theorem LineItem.dropBullet_eq (h : LineItem line item) : dropBullet line = item := by
  cases h with
  | plain hline =>
    cases line with
    | nil => rfl
    | cons c s => rw [dropBullet, if_neg (by simp [hline c rfl])]
  | bulleted hb hgap hitem =>
    rw [dropBullet, if_pos hb, trimStart_append_of_blank hgap, trimStart_of_head hitem]

/-- **What is left of a line** is one thing only. -/
theorem lineItem_iff : LineItem line item ↔ dropBullet line = item :=
  ⟨LineItem.dropBullet_eq, fun h => h ▸ lineItem_dropBullet line⟩

theorem LineItem.trimmed (h : LineItem line item) (hline : Trimmed line) : Trimmed item := by
  cases h with
  | plain => exact hline
  | bulleted hb hgap hitem =>
    refine trimmed_of_ends hitem fun x hx => ?_
    obtain ⟨t, rfl⟩ := List.getLast?_eq_some_iff.1 hx
    rw [← List.append_assoc, ← List.cons_append] at hline
    exact hline.last_eq

/-- Of the bullets in front of a line only the first goes. -/
theorem LineItem.eq_of_second {second : Char} (h : LineItem (b :: (gap ++ second :: rest)) item)
    (hb : isBullet b = true) (hgap : ∀ c ∈ gap, isBlank c = true)
    (hsecond : isBullet second = true) : item = second :: rest := by
  have hitem : LineItem (b :: (gap ++ second :: rest)) (second :: rest) := by
    refine .bulleted hb hgap fun c hc => ?_
    obtain rfl := Option.some.inj hc
    exact isBlank_of_isBullet hsecond
  exact (lineItem_iff.1 h).symm.trans (lineItem_iff.1 hitem)

theorem LineItem.count_eq (h : LineItem line item) (hblank : isBlank c = false)
    (hbullet : isBullet c = false) : item.count c = line.count c := by
  cases h with
  | plain => rfl
  | @bulleted b gap _ hb hgap hitem =>
    have hnone : gap.count c = 0 := by
      refine List.count_eq_zero.2 fun hc => ?_
      rw [hgap c hc] at hblank
      cases hblank
    have hne : b ≠ c := by
      rintro rfl
      rw [hb] at hbullet
      cases hbullet
    rw [List.count_cons_of_ne hne, List.count_append, hnone, Nat.zero_add]

/-! ## Any text -/

/-- There is one item more than there are cuts. -/
theorem length_splitItems (s : List Char) :
    (splitItems s).length = (if ',' ∈ s then s.count ',' else s.count '\n') + 1 := by
  by_cases hcomma : ',' ∈ s
  · rw [splitItems_of_comma hcomma, if_pos hcomma, List.length_map, length_pieces, List.count]
  · rw [if_neg hcomma]
    by_cases hline : '\n' ∈ s
    · rw [splitItems_of_line hcomma hline, List.length_map, length_pieces, List.count]
    · rw [splitItems_of_uncut hcomma hline, List.count_eq_zero.2 hline, List.length_singleton]

/-- An item is trimmed and has no comma. -/
theorem of_mem_splitItems (h : item ∈ splitItems s) : Trimmed item ∧ ',' ∉ item := by
  by_cases hcomma : ',' ∈ s
  · rw [splitItems_of_comma hcomma] at h
    obtain ⟨p, hp, rfl⟩ := List.mem_map.1 h
    refine ⟨trimmed_trim p, fun hmem => ?_⟩
    exact not_mem_of_mem_pieces hp ((trim_isInfix p).subset hmem)
  · by_cases hline : '\n' ∈ s
    · rw [splitItems_of_line hcomma hline] at h
      obtain ⟨p, hp, rfl⟩ := List.mem_map.1 h
      have hitem := lineItem_dropBullet (trim p)
      refine ⟨hitem.trimmed (trimmed_trim p), fun hmem => hcomma ?_⟩
      have hcount := hitem.count_eq (c := ',') rfl rfl
      have htrim : ',' ∈ trim p := by
        rw [← List.count_pos_iff, ← hcount, List.count_pos_iff]
        exact hmem
      exact (infix_of_mem_pieces hp).subset ((trim_isInfix p).subset htrim)
    · rw [splitItems_of_uncut hcomma hline, List.mem_singleton] at h
      rw [h]
      exact ⟨trimmed_trim s, fun hmem => hcomma ((trim_isInfix s).subset hmem)⟩

/-- Only blanks, the commas at which a text is cut, and bullets in front of lines are lost. -/
theorem count_flatten_splitItems (hblank : isBlank c = false) (hcomma : c ≠ ',')
    (hbullet : isBullet c = true → ',' ∈ s ∨ '\n' ∉ s) :
    (splitItems s).flatten.count c = s.count c := by
  have hfeed : c ≠ '\n' := by
    rintro rfl
    cases hblank
  by_cases hs : ',' ∈ s
  · have htrim : List.count c ∘ trim = List.count c := funext (count_trim hblank)
    rw [splitItems_of_comma hs, List.count_flatten, List.map_map, htrim, ← List.count_flatten,
      count_flatten_pieces (by simpa using hcomma)]
  · by_cases hline : '\n' ∈ s
    · have hplain : isBullet c = false := by
        rw [Bool.eq_false_iff]
        intro hc
        rcases hbullet hc with h | h
        · exact hs h
        · exact h hline
      have hdrop : (List.count c ∘ fun line => dropBullet (trim line)) = List.count c :=
        funext fun line =>
          ((lineItem_dropBullet (trim line)).count_eq hblank hplain).trans (count_trim hblank line)
      rw [splitItems_of_line hs hline, List.count_flatten, List.map_map, hdrop, ← List.count_flatten,
        count_flatten_pieces (by simpa using hfeed)]
    · rw [splitItems_of_uncut hs hline, List.flatten_singleton, count_trim hblank]

/-! ## Listed items -/

/-- **Items come back from the text that lists them** exactly if there are some, each of them is
trimmed and has no comma, and the only one, if there is but one, has no line feed. -/
theorem splitItems_intercalate_eq_iff : splitItems ([',', ' '].intercalate items) = items ↔
    items ≠ [] ∧ (∀ item ∈ items, Trimmed item ∧ ',' ∉ item) ∧
      ∀ item, items = [item] → '\n' ∉ item := by
  constructor
  · intro h
    have hitems : ∀ item ∈ items, Trimmed item ∧ ',' ∉ item := by
      intro item hitem
      rw [← h] at hitem
      exact of_mem_splitItems hitem
    refine ⟨?_, hitems, ?_⟩
    · rintro rfl
      cases h
    · rintro item rfl
      have hlength := length_splitItems item
      rw [List.intercalate_singleton] at h
      rw [h, if_neg (hitems item (by simp)).2, List.length_singleton] at hlength
      exact List.count_eq_zero.1 (by omega)
  · rintro ⟨hne, hitems, hline⟩
    rcases items with _ | ⟨x, _ | ⟨y, items⟩⟩
    · exact absurd rfl hne
    · obtain ⟨htrim, hcomma⟩ := hitems x (by simp)
      rw [List.intercalate_singleton]
      exact splitItems_of_free hcomma (hline x rfl) htrim
    · exact splitItems_intercalate_cons_cons (fun z hz => (hitems z hz).2)
        fun z hz => (hitems z hz).1

/-! ## Both together -/

/-- **Cutting a text into items loses, merges and invents nothing.**  Which lists of items come back
from the text that lists them is said by `splitItems_intercalate_eq_iff`.  Of any text, the items are
its parts between commas, if it has commas, and otherwise its lines, in order and without the blanks
around them; from the front of a line one bullet goes, with the blanks behind it, and a second one
stays. -/
theorem items_by_cuts :
    (∀ items : List (List Char), splitItems ([',', ' '].intercalate items) = items ↔
      items ≠ [] ∧ (∀ item ∈ items, Trimmed item ∧ ',' ∉ item) ∧
        ∀ item, items = [item] → '\n' ∉ item) ∧
    (∀ span : List Char,
      (splitItems span).length = (if ',' ∈ span then span.count ',' else span.count '\n') + 1 ∧
      (∀ item ∈ splitItems span, Trimmed item) ∧
      (',' ∈ span → ∃ parts, [','].intercalate parts = span ∧ (∀ p ∈ parts, ',' ∉ p) ∧
        splitItems span = parts.map trim) ∧
      (',' ∉ span → '\n' ∈ span → ∃ lines, ['\n'].intercalate lines = span ∧
        (∀ l ∈ lines, '\n' ∉ l) ∧ List.Forall₂ LineItem (lines.map trim) (splitItems span)) ∧
      (',' ∉ span → '\n' ∉ span → splitItems span = [trim span]) ∧
      ∀ c, isBlank c = false → c ≠ ',' → (isBullet c = true → ',' ∈ span ∨ '\n' ∉ span) →
        (splitItems span).flatten.count c = span.count c) ∧
    ∀ (b : Char) (gap : List Char) (second : Char) (rest item : List Char), isBullet b = true →
      (∀ c ∈ gap, isBlank c = true) → isBullet second = true →
      LineItem (b :: (gap ++ second :: rest)) item → item = second :: rest := by
  refine ⟨fun items => splitItems_intercalate_eq_iff, fun span => ⟨length_splitItems span,
    fun item hitem => (of_mem_splitItems hitem).1, fun hcomma => ?_, fun hcomma hline => ?_,
    splitItems_of_uncut, fun c => count_flatten_splitItems⟩,
    fun b gap second rest item hb hgap hsecond h => h.eq_of_second hb hgap hsecond⟩
  · exact ⟨_, intercalate_pieces ',' span, fun p => not_mem_of_mem_pieces,
      splitItems_of_comma hcomma⟩
  · refine ⟨_, intercalate_pieces '\n' span, fun l => not_mem_of_mem_pieces, ?_⟩
    rw [splitItems_of_line hcomma hline, List.forall₂_map_left_iff, List.forall₂_map_right_iff]
    exact List.forall₂_same.2 fun l _ => lineItem_dropBullet (trim l)

/-- Two items of which one has a line and a bullet of its own, and two lines of which one has two
bullets. -/
theorem items_by_cuts_bullets :
    splitItems "milk, eggs\n- bread".toList = ["milk".toList, "eggs\n- bread".toList] ∧
      (splitItems "- milk\n* • eggs".toList).length = 2 ∧
      ∀ item, LineItem "* • eggs".toList item → item = "• eggs".toList := by
  obtain ⟨hlisted, hcut, hsecond⟩ := items_by_cuts
  have hitems := (hlisted ["milk".toList, "eggs\n- bread".toList]).2
    ⟨by decide, by decide, fun item h => by cases h⟩
  have hlength := (hcut "- milk\n* • eggs".toList).1
  have hgap : ∀ c ∈ [' '], isBlank c = true := List.all_eq_true.1 rfl
  exact ⟨hitems, hlength, fun item => hsecond '*' [' '] '•' " eggs".toList item rfl hgap rfl⟩

end PlainNotes.Phrase

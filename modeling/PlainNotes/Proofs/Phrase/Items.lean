import PlainNotes.Phrase.Items
import PlainNotes.Proofs.Text.Pieces

/-!
# Items that come back

Trimmed items without commas and line feeds come back from the text that lists them.

* `splitItems_of_comma`, `splitItems_of_line`, `splitItems_of_uncut`: where a text is cut.
* `splitItems_of_lineFree`: a stretch of a line is cut at commas only.
* `splitItems_of_free`: a text without commas and line feeds is one item.
* `splitItems_intercalate`: items joined with a comma and a space are the items of their text.
* `stripQuotes_of_unquoted`: a text that does not begin with a quote is left alone.
-/

namespace PlainNotes.Phrase

open Text

/-! ## Items -/

theorem splitItems_of_comma {s : List Char} (hcomma : ',' ∈ s) :
    splitItems s = (pieces (· == ',') s).map trim :=
  if_pos (by simpa using hcomma)

theorem splitItems_of_line {s : List Char} (hcomma : ',' ∉ s) (hline : '\n' ∈ s) :
    splitItems s = (pieces (· == '\n') s).map fun line => dropBullet (trim line) := by
  rw [splitItems, if_neg (by simpa using hcomma), if_pos (by simpa using hline)]

theorem splitItems_of_uncut {s : List Char} (hcomma : ',' ∉ s) (hline : '\n' ∉ s) :
    splitItems s = [trim s] := by
  rw [splitItems, if_neg (by simpa using hcomma), if_neg (by simpa using hline)]

/-- The items of a line: what its commas separate, or else the line, without the blanks around. -/
def lineItems (line : List Char) : List (List Char) :=
  if ',' ∈ line then (pieces (· == ',') line).map trim else [trim line]

/-- A stretch of a line is never cut at line feeds. -/
theorem splitItems_of_lineFree {s : List Char} (hline : '\n' ∉ s) : splitItems s = lineItems s := by
  by_cases hcomma : ',' ∈ s
  · rw [splitItems_of_comma hcomma, lineItems, if_pos hcomma]
  · rw [splitItems_of_uncut hcomma hline, lineItems, if_neg hcomma]

/-- Without commas and line feeds a text is its own only item. -/
theorem splitItems_of_free {s : List Char} (hcomma : ',' ∉ s) (hline : '\n' ∉ s) (htrim : Trimmed s) :
    splitItems s = [s] := by
  have hs : trim s = s := htrim
  rw [splitItems_of_uncut hcomma hline, hs]

/-- Two items and more come back whatever line feeds they hold: commas come before line feeds. -/
theorem splitItems_intercalate_cons_cons {x y : List Char} {items : List (List Char)}
    (hcomma : ∀ z ∈ x :: y :: items, ',' ∉ z) (htrim : ∀ z ∈ x :: y :: items, Trimmed z) :
    splitItems ([',', ' '].intercalate (x :: y :: items)) = x :: y :: items := by
  have htrims : (x :: y :: items).map trim = (x :: y :: items).map id :=
    List.map_congr_left fun z hz => htrim z hz
  rw [splitItems_of_comma (by simp [List.intercalate_cons_cons]),
    map_trim_pieces_intercalate (by simp) hcomma, htrims, List.map_id]

/-- **Items come back from the text that lists them.** -/
theorem splitItems_intercalate {items : List (List Char)} (hne : items ≠ [])
    (hcomma : ∀ x ∈ items, ',' ∉ x) (hline : ∀ x ∈ items, '\n' ∉ x)
    (htrim : ∀ x ∈ items, Trimmed x) : splitItems ([',', ' '].intercalate items) = items := by
  rcases items with _ | ⟨x, _ | ⟨y, items⟩⟩
  · exact absurd rfl hne
  · rw [List.intercalate_singleton]
    exact splitItems_of_free (hcomma x (by simp)) (hline x (by simp)) (htrim x (by simp))
  · exact splitItems_intercalate_cons_cons hcomma htrim

/-- A list of items is empty only if it lists at most one item, and that one is empty. -/
theorem intercalate_ne_nil {items : List (List Char)} (hne : items ≠ []) (hempty : items ≠ [[]]) :
    [',', ' '].intercalate items ≠ [] := by
  rcases items with _ | ⟨x, _ | ⟨y, items⟩⟩
  · exact absurd rfl hne
  · rw [List.intercalate_singleton]
    rintro rfl
    exact hempty rfl
  · simp [List.intercalate_cons_cons]

theorem not_mem_intercalate {c : Char} {sep : List Char} {items : List (List Char)} (hsep : c ∉ sep)
    (h : ∀ x ∈ items, c ∉ x) : c ∉ sep.intercalate items := by
  induction items with
  | nil => simp
  | cons x items ih =>
    have hrest := ih fun y hy => h y (List.mem_cons_of_mem x hy)
    cases items with
    | nil =>
      rw [List.intercalate_singleton]
      exact h x (by simp)
    | cons y items =>
      rw [List.intercalate_cons_cons, List.append_assoc]
      simp only [List.mem_append, not_or]
      exact ⟨h x (by simp), hsep, hrest⟩

theorem between?_isInfix {q : Char} {s u : List Char} (h : between? q s = some u) : u <:+: s := by
  cases s with
  | nil => cases h
  | cons c s =>
    rw [between?, Option.ite_none_right_eq_some] at h
    obtain ⟨-, heq⟩ := h
    obtain rfl := Option.some.inj heq
    exact (List.dropLast_prefix s).isInfix.trans (List.suffix_cons c s).isInfix

/-- Quotes are taken off the ends. -/
theorem stripQuotes_isInfix (s : List Char) : stripQuotes s <:+: s := by
  rw [stripQuotes]
  cases h : (between? '"' s).or (between? '\'' s) with
  | none => exact List.infix_rfl
  | some u =>
    rcases Option.or_eq_some_iff.1 h with h | ⟨-, h⟩
    · exact between?_isInfix h
    · exact between?_isInfix h

theorem stripQuotes_of_unquoted {s : List Char} (h : ∀ c ∈ s, c ≠ '"' ∧ c ≠ '\'') :
    stripQuotes s = s := by
  cases s with
  | nil => rfl
  | cons c s =>
    obtain ⟨hdouble, hsingle⟩ := h c (by simp)
    simp [stripQuotes, between?, hdouble, hsingle]

end PlainNotes.Phrase

import PlainNotes.Proofs.Text.Pieces

/-!
# Words of a text

The words of a text are what its blanks separate.  Put together again with one space between them,
they are the words of the text they make, and this text has no other blanks.

* `mem_words`, `words_eq_nil_iff`: what words are, and which texts have none.
* `words_intercalate`: words come back from the text they are joined to.
* `singleSpaced_intercalate`: the blanks of that text.
-/

namespace PlainNotes.Text

variable {s w : List Char} {ws : List (List Char)}

/-- Words are not empty and have no blanks. -/
theorem mem_words (h : w ∈ words s) : w ≠ [] ∧ ∀ x ∈ w, isBlank x = false := by
  obtain ⟨hw, hne⟩ := List.mem_filter.1 h
  exact ⟨by simpa using hne, not_cut_of_mem_pieces hw⟩

theorem words_eq_nil_iff : words s = [] ↔ allBlank s = true := by
  induction s with
  | nil => exact iff_of_true rfl rfl
  | cons c s ih =>
    by_cases hc : isBlank c = true
    · rw [words_blank hc, ih, allBlank_cons, hc, Bool.true_and]
    · obtain ⟨p, ps, -, hcons⟩ := exists_pieces_cons (Bool.eq_false_iff.2 hc) s
      refine iff_of_false ?_ ?_
      · rw [words, hcons]
        simp
      · rw [allBlank_cons, Bool.eq_false_iff.2 hc]
        exact Bool.false_ne_true

/-! ## Words joined by spaces -/

/-- **Words come back from the text they are joined to.** -/
theorem words_intercalate (h : ∀ w ∈ ws, w ≠ [] ∧ ∀ x ∈ w, isBlank x = false) :
    words ([' '].intercalate ws) = ws := by
  by_cases hws : ws = []
  · rw [hws]
    rfl
  · rw [words, pieces_intercalate (by decide) hws fun w hw => (h w hw).2, List.filter_eq_self]
    intro w hw
    simpa using (h w hw).1

/-- Every blank of the text is a space, and it stands alone between two characters that are not
blank. -/
def SingleSpaced (s : List Char) : Prop :=
  ∀ a x b, s = a ++ x :: b → isBlank x = true →
    x = ' ' ∧ (∃ y ∈ a.getLast?, isBlank y = false) ∧ ∃ y ∈ b.head?, isBlank y = false

theorem singleSpaced_of_free (h : ∀ x ∈ w, isBlank x = false) : SingleSpaced w := by
  rintro a x b rfl hx
  rw [h x (by simp)] at hx
  cases hx

/-- A blank of a text stands behind the word that the text begins with. -/
theorem exists_append_of_blank {a b t : List Char} {x : Char} (hw : ∀ y ∈ w, isBlank y = false)
    (hx : isBlank x = true) (h : w ++ t = a ++ x :: b) : ∃ u, a = w ++ u ∧ t = u ++ x :: b := by
  rcases List.append_eq_append_iff.1 h with h | ⟨u, rfl, hrest⟩
  · exact h
  · cases u with
    | nil => exact ⟨[], by simp, hrest.symm⟩
    | cons y u =>
      obtain ⟨rfl, rfl⟩ := List.cons.inj hrest
      rw [hw x (by simp)] at hx
      cases hx

/-- A word in front of a text with single spaces, and one more space between them. -/
theorem SingleSpaced.cons (hne : w ≠ []) (hw : ∀ x ∈ w, isBlank x = false)
    (hstart : ∃ y ∈ s.head?, isBlank y = false) (hs : SingleSpaced s) :
    SingleSpaced (w ++ ' ' :: s) := by
  intro a x b heq hx
  obtain ⟨u, rfl, hrest⟩ := exists_append_of_blank hw hx heq
  cases u with
  | nil =>
    obtain ⟨rfl, rfl⟩ := List.cons.inj hrest
    rw [List.append_nil]
    exact ⟨rfl, ⟨_, List.getLast?_eq_some_getLast hne, hw _ (List.getLast_mem hne)⟩, hstart⟩
  | cons y u =>
    obtain ⟨rfl, rfl⟩ := List.cons.inj hrest
    obtain ⟨hspace, ⟨z, hz, hzblank⟩, hhead⟩ := hs u x b rfl hx
    refine ⟨hspace, ⟨z, ?_, hzblank⟩, hhead⟩
    rw [List.append_cons, List.getLast?_append, Option.mem_def.1 hz, Option.some_or]
    rfl

theorem singleSpaced_intercalate (h : ∀ w ∈ ws, w ≠ [] ∧ ∀ x ∈ w, isBlank x = false) :
    SingleSpaced ([' '].intercalate ws) := by
  induction ws with
  | nil => exact singleSpaced_of_free fun x hx => absurd hx List.not_mem_nil
  | cons w ws ih =>
    obtain ⟨⟨hne, hw⟩, hrest⟩ := List.forall_mem_cons.1 h
    cases ws with
    | nil =>
      rw [List.intercalate_singleton]
      exact singleSpaced_of_free hw
    | cons v ws =>
      rw [List.intercalate_cons_cons, List.append_assoc, List.singleton_append]
      refine SingleSpaced.cons hne hw ?_ (ih hrest)
      obtain ⟨hv, hfree⟩ := hrest v (by simp)
      have hhead : ([' '].intercalate (v :: ws)).head? = v.head? := by
        obtain ⟨y, v, rfl⟩ := List.exists_cons_of_ne_nil hv
        cases ws with
        | nil => rw [List.intercalate_singleton]
        | cons u ws => rw [List.intercalate_cons_cons, List.append_assoc, List.cons_append,
            List.head?_cons, List.head?_cons]
      rw [hhead]
      exact ⟨_, List.head?_eq_some_head hv, hfree _ (List.head_mem hv)⟩

/-- No blank stands alone at the ends of a text. -/
theorem SingleSpaced.trimmed (h : SingleSpaced s) : Trimmed s := by
  apply trimmed_of_ends
  · intro x hx
    rw [Bool.eq_false_iff]
    intro hblank
    obtain ⟨t, rfl⟩ : ∃ t, s = x :: t := by
      cases s with
      | nil => cases hx
      | cons y t =>
        obtain rfl := Option.some.inj hx
        exact ⟨t, rfl⟩
    obtain ⟨-, ⟨y, hy, -⟩, -⟩ := h [] x t rfl hblank
    cases hy
  · intro x hx
    rw [Bool.eq_false_iff]
    intro hblank
    obtain ⟨t, rfl⟩ := List.getLast?_eq_some_iff.1 hx
    obtain ⟨-, -, y, hy, -⟩ := h t x [] rfl hblank
    cases hy

end PlainNotes.Text

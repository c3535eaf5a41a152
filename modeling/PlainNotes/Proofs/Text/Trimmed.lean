import PlainNotes.Text.Blank

/-!
# Trimmed texts

A trimmed text has no blanks at its ends, and trimming a text leaves a part of it that is trimmed.

* `Trimmed.head_eq`, `Trimmed.last_eq`: the ends of a trimmed text.
* `trimmed_of_ends`: texts that do not begin or end with a blank are trimmed.
* `trim_isInfix`, `trimmed_trim`, `count_trim`: what trimming leaves.
* `trim_eq_nil_iff`: trimming leaves nothing of blank texts only.
-/

namespace PlainNotes.Text

variable {s : List Char} {c : Char}

/-- Nothing stands blank at the ends of the text. -/
def Trimmed (s : List Char) : Prop :=
  trim s = s

instance (s : List Char) : Decidable (Trimmed s) :=
  inferInstanceAs (Decidable (trim s = s))

theorem length_trimStart_le (s : List Char) : (trimStart s).length ≤ s.length :=
  (List.dropWhile_sublist _).length_le

theorem length_trimEnd_le (s : List Char) : (trimEnd s).length ≤ s.length := by
  have h := length_trimStart_le s.reverse
  simpa [trimEnd] using h

theorem Trimmed.trimStart_eq (h : Trimmed s) : trimStart s = s := by
  have hsub : (trimStart s).Sublist s := List.dropWhile_sublist _
  refine hsub.eq_of_length_le ?_
  calc s.length = (trim s).length := by rw [h]
    _ ≤ (trimStart s).length := length_trimEnd_le _

theorem Trimmed.trimEnd_eq (h : Trimmed s) : trimEnd s = s := by
  have htrim : trimEnd (trimStart s) = s := h
  rwa [h.trimStart_eq] at htrim

/-- A trimmed text does not begin with a blank. -/
theorem Trimmed.head_eq (h : Trimmed (c :: s)) : isBlank c = false := by
  have hstart := h.trimStart_eq
  rw [← Bool.not_eq_true]
  intro hc
  have hshort : (trimStart s).length = s.length + 1 := by
    rw [trimStart, List.dropWhile_cons_of_pos hc] at hstart
    rw [trimStart, hstart, List.length_cons]
  have hle := length_trimStart_le s
  omega

/-- A trimmed text does not end with a blank. -/
theorem Trimmed.last_eq (h : Trimmed (s ++ [c])) : isBlank c = false := by
  have hend := h.trimEnd_eq
  rw [← Bool.not_eq_true]
  intro hc
  have hshort : (trimEnd s).length = s.length + 1 := by
    rw [trimEnd, trimStart, List.reverse_append, List.reverse_singleton, List.singleton_append,
      List.dropWhile_cons_of_pos hc] at hend
    rw [trimEnd, trimStart, hend, List.length_append, List.length_singleton]
  have hle := length_trimEnd_le s
  omega

/-- The end of a trimmed text is the end of each of its last parts. -/
theorem Trimmed.getLast_eq {u : List Char} (hne : s ≠ []) (h : Trimmed (u ++ s)) :
    isBlank (s.getLast hne) = false := by
  refine Trimmed.last_eq (s := u ++ s.dropLast) ?_
  rw [List.append_assoc, List.dropLast_concat_getLast]
  exact h

theorem Trimmed.not_allBlank {u : List Char} (hne : s ≠ []) (h : Trimmed (u ++ s)) :
    allBlank s = false := by
  rw [allBlank, List.all_eq_false]
  exact ⟨s.getLast hne, List.getLast_mem hne, by simp [h.getLast_eq hne]⟩

theorem allBlank_of_feeds (hs : ∀ y ∈ s, y = '\n') : allBlank s = true := by
  rw [allBlank, List.all_eq_true]
  intro y hy
  rw [hs y hy]
  decide

theorem trim_blank (h : isBlank c = true) (s : List Char) : trim (c :: s) = trim s := by
  rw [trim, trimStart, List.dropWhile_cons_of_pos h]
  rfl

/-! ## Trimming -/

theorem trimStart_isSuffix (s : List Char) : trimStart s <:+ s :=
  List.dropWhile_suffix isBlank

theorem trimEnd_isPrefix (s : List Char) : trimEnd s <+: s := by
  rw [← List.reverse_suffix, trimEnd, List.reverse_reverse]
  exact trimStart_isSuffix s.reverse

theorem trim_isInfix (s : List Char) : trim s <:+: s :=
  (trimEnd_isPrefix (trimStart s)).isInfix.trans (trimStart_isSuffix s).isInfix

theorem head_trimStart {t : List Char} (h : trimStart s = c :: t) : isBlank c = false := by
  have hnot := List.head?_dropWhile_not isBlank s
  rw [trimStart] at h
  rw [h] at hnot
  exact hnot

theorem trimStart_cons (hc : isBlank c = false) (s : List Char) : trimStart (c :: s) = c :: s :=
  List.dropWhile_cons_of_neg (by simp [hc])

theorem trimStart_append_of_blank {gap : List Char} (h : ∀ x ∈ gap, isBlank x = true)
    (s : List Char) : trimStart (gap ++ s) = trimStart s :=
  List.dropWhile_append_of_pos h

theorem trimStart_of_head (h : ∀ x ∈ s.head?, isBlank x = false) : trimStart s = s := by
  cases s with
  | nil => rfl
  | cons x s => exact trimStart_cons (h x rfl) s

theorem trimStart_trimStart (s : List Char) : trimStart (trimStart s) = trimStart s := by
  cases h : trimStart s with
  | nil => rfl
  | cons c t => exact trimStart_cons (head_trimStart h) t

theorem trimEnd_trimEnd (s : List Char) : trimEnd (trimEnd s) = trimEnd s := by
  rw [trimEnd, trimEnd, List.reverse_reverse, trimStart_trimStart]

/-- Trimming the end leaves the beginning as it is. -/
theorem trimStart_trimEnd_trimStart (s : List Char) :
    trimStart (trimEnd (trimStart s)) = trimEnd (trimStart s) := by
  cases h : trimEnd (trimStart s) with
  | nil => rfl
  | cons c t =>
    obtain ⟨w, hw⟩ := trimEnd_isPrefix (trimStart s)
    rw [h, List.cons_append] at hw
    exact trimStart_cons (head_trimStart hw.symm) t

/-- A text is trimmed if neither its first nor its last character is a blank. -/
theorem trimmed_of_ends (hfirst : ∀ x ∈ s.head?, isBlank x = false)
    (hlast : ∀ x ∈ s.getLast?, isBlank x = false) : Trimmed s := by
  rw [Trimmed, trim, trimStart_of_head hfirst, trimEnd, trimStart_of_head (by simpa using hlast),
    List.reverse_reverse]

theorem trimmed_trim (s : List Char) : Trimmed (trim s) := by
  rw [Trimmed, trim, trim, trimStart_trimEnd_trimStart, trimEnd_trimEnd]

theorem trimStart_eq_nil_iff : trimStart s = [] ↔ allBlank s = true := by
  induction s with
  | nil => exact iff_of_true rfl rfl
  | cons x s ih =>
    rw [allBlank_cons, Bool.and_eq_true]
    by_cases hx : isBlank x = true
    · rw [trimStart, List.dropWhile_cons_of_pos hx, and_iff_right hx]
      exact ih
    · rw [trimStart_cons (Bool.eq_false_iff.2 hx)]
      exact iff_of_false (List.cons_ne_nil x s) fun h => hx h.1

theorem exists_cons_trimStart (hs : allBlank s = false) :
    ∃ x t, trimStart s = x :: t ∧ isBlank x = false := by
  cases h : trimStart s with
  | nil =>
    rw [trimStart_eq_nil_iff.1 h] at hs
    cases hs
  | cons x t => exact ⟨x, t, rfl, head_trimStart h⟩

theorem trim_eq_nil_iff : trim s = [] ↔ allBlank s = true := by
  rw [trim, trimEnd, List.reverse_eq_nil_iff, trimStart_eq_nil_iff, allBlank, List.all_reverse,
    ← allBlank]
  constructor
  · intro h
    cases hs : trimStart s with
    | nil => exact trimStart_eq_nil_iff.1 hs
    | cons x t =>
      rw [hs, allBlank_cons, head_trimStart hs] at h
      cases h
  · intro h
    rw [trimStart_eq_nil_iff.2 h]
    rfl

/-- A blank behind a text does not matter. -/
theorem trim_concat_blank (h : isBlank c = true) (s : List Char) : trim (s ++ [c]) = trim s := by
  by_cases hs : allBlank s = true
  · have hboth : allBlank (s ++ [c]) = true := by simp [allBlank] at hs ⊢; exact ⟨hs, h⟩
    rw [trim_eq_nil_iff.2 hs, trim_eq_nil_iff.2 hboth]
  · have hne : ¬ (s.dropWhile isBlank).isEmpty = true := by
      rw [List.isEmpty_iff]
      exact fun h => hs (trimStart_eq_nil_iff.1 h)
    have hstart : trimStart (s ++ [c]) = trimStart s ++ [c] := by
      rw [trimStart, List.dropWhile_append, if_neg hne]
      rfl
    rw [trim, hstart, trimEnd, List.reverse_append, List.reverse_singleton, List.singleton_append,
      trimStart, List.dropWhile_cons_of_pos h]
    rfl

/-- Trimming takes off nothing but blanks. -/
theorem count_trim (hc : isBlank c = false) (s : List Char) : (trim s).count c = s.count c := by
  have hstart : ∀ t : List Char, (trimStart t).count c = t.count c := by
    intro t
    obtain ⟨gap, hgap, hblank⟩ := exists_append_trimStart t
    have hnone : gap.count c = 0 := by
      refine List.count_eq_zero.2 fun hmem => ?_
      rw [hblank c hmem] at hc
      cases hc
    rw [congrArg (List.count c) hgap, List.count_append, hnone, Nat.zero_add]
  rw [trim, trimEnd, List.count_reverse, hstart, List.count_reverse, hstart]

end PlainNotes.Text

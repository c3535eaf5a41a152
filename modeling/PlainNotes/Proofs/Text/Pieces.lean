import PlainNotes.Proofs.Text.Trimmed

/-!
# Pieces of a text

The pieces of a text are what its cuts separate.

* `pieces_intercalate`: pieces come back from the text that they are joined to.
* `intercalate_pieces`: joined again, the pieces are the text.
* `map_trim_pieces_intercalate`: so do the items of a list, but for the blanks around them.
* `length_pieces`, `count_flatten_pieces`: the number of pieces, and what they hold together.
* `infix_of_mem_pieces`, `exists_piece_of_infix`: the pieces of a text, and what else is inside of
  it.
-/

namespace PlainNotes.Text

variable {cut : Char → Bool} {c : Char} {s u w : List Char}

/-! ## Joined pieces -/

theorem pieces_of_free (h : ∀ x ∈ u, cut x = false) : pieces cut u = [u] := by
  induction u with
  | nil => rfl
  | cons x u ih =>
    rw [pieces, ih fun y hy => h y (List.mem_cons_of_mem x hy), h x (by simp)]
    simp

/-- At a cut a text falls into two, and so do its pieces. -/
theorem pieces_append_cut (hc : cut c = true) (s t : List Char) :
    pieces cut (s ++ c :: t) = pieces cut s ++ pieces cut t := by
  induction s with
  | nil => rw [pieces_nil, List.nil_append, pieces, if_pos hc, List.singleton_append]
  | cons x s ih =>
    by_cases hx : cut x = true
    · rw [List.cons_append, pieces, if_pos hx, ih, pieces, if_pos hx, List.cons_append]
    · obtain ⟨p, ps, hs⟩ := List.exists_cons_of_ne_nil (pieces_ne_nil cut s)
      rw [List.cons_append, pieces, if_neg hx, ih, pieces, if_neg hx, hs]
      rfl

theorem pieces_of_not_mem (h : c ∉ u) : pieces (· == c) u = [u] :=
  pieces_of_free fun _ hx => beq_eq_false_iff_ne.2 (ne_of_mem_of_not_mem hx h)

theorem pieces_append_cons (h : ∀ x ∈ u, cut x = false) (hc : cut c = true) (s : List Char) :
    pieces cut (u ++ c :: s) = u :: pieces cut s := by
  rw [pieces_append_cut hc, pieces_of_free h, List.singleton_append]

/-- Texts without a cut are the pieces of the text that they are joined to. -/
theorem pieces_intercalate (hc : cut c = true) {us : List (List Char)} (hne : us ≠ [])
    (h : ∀ u ∈ us, ∀ x ∈ u, cut x = false) : pieces cut ([c].intercalate us) = us := by
  induction us with
  | nil => exact absurd rfl hne
  | cons u us ih =>
    cases us with
    | nil =>
      rw [List.intercalate_singleton]
      exact pieces_of_free (h u (by simp))
    | cons v us =>
      rw [List.intercalate_cons_cons, List.append_assoc, List.singleton_append,
        pieces_append_cons (h u (by simp)) hc,
        ih (by simp) fun w hw => h w (List.mem_cons_of_mem u hw)]

theorem pieces_eq_splitOnP (cut : Char → Bool) (s : List Char) : pieces cut s = s.splitOnP cut := by
  induction s with
  | nil => rfl
  | cons x s ih =>
    obtain ⟨p, ps, hs⟩ := List.exists_cons_of_ne_nil (pieces_ne_nil cut s)
    rw [List.splitOnP_cons_eq_if_modifyHead, pieces, ← ih, hs]
    rfl

/-- Joined again, the pieces of a text are the text. -/
theorem intercalate_pieces (c : Char) (s : List Char) :
    [c].intercalate (pieces (· == c) s) = s := by
  rw [pieces_eq_splitOnP]
  exact List.intercalate_splitOn c

/-! ## Items of a list -/

/-- The space behind a comma goes to the item behind it. -/
theorem intercalate_comma_space (x : List Char) (items : List (List Char)) :
    [',', ' '].intercalate (x :: items) = [','].intercalate (x :: items.map (' ' :: ·)) := by
  induction items generalizing x with
  | nil => simp
  | cons y items ih =>
    have hspace : [','].intercalate ((' ' :: y) :: items.map (' ' :: ·)) =
        ' ' :: [','].intercalate (y :: items.map (' ' :: ·)) := by
      cases items with
      | nil => simp
      | cons z items => simp [List.intercalate_cons_cons]
    rw [List.map_cons, List.intercalate_cons_cons, List.intercalate_cons_cons, ih, hspace]
    simp

/-- What is listed with a comma and a space behind each is what is between the commas, without the
blanks around. -/
theorem map_trim_pieces_intercalate {us : List (List Char)} (hne : us ≠ [])
    (hcomma : ∀ u ∈ us, ',' ∉ u) :
    (pieces (· == ',') ([',', ' '].intercalate us)).map trim = us.map trim := by
  obtain ⟨x, us, rfl⟩ := List.exists_cons_of_ne_nil hne
  have hfree : ∀ u ∈ x :: us.map (' ' :: ·), ∀ c ∈ u, (c == ',') = false := by
    intro u hu c hc
    refine beq_eq_false_iff_ne.2 ?_
    rintro rfl
    rcases List.mem_cons.1 hu with rfl | hu
    · exact hcomma u (by simp) hc
    · obtain ⟨z, hz, rfl⟩ := List.mem_map.1 hu
      rcases List.mem_cons.1 hc with heq | hc
      · exact absurd heq (by decide)
      · exact hcomma z (List.mem_cons_of_mem x hz) hc
  have hspace : ∀ z ∈ us, (trim ∘ (' ' :: ·)) z = trim z := fun z _ => trim_blank (by decide) z
  rw [intercalate_comma_space, pieces_intercalate (by decide) (by simp) hfree, List.map_cons,
    List.map_map, List.map_congr_left hspace, List.map_cons]

/-! ## The number of pieces, the first and the last of them -/

/-- A character at which the text is not cut goes to the first piece. -/
theorem exists_pieces_cons (hc : cut c = false) (s : List Char) :
    ∃ p ps, pieces cut s = p :: ps ∧ pieces cut (c :: s) = (c :: p) :: ps := by
  obtain ⟨p, ps, hs⟩ := List.exists_cons_of_ne_nil (pieces_ne_nil cut s)
  refine ⟨p, ps, hs, ?_⟩
  rw [pieces, hc, hs]
  rfl

/-- The pieces are one more than the cuts. -/
theorem length_pieces (cut : Char → Bool) (s : List Char) :
    (pieces cut s).length = s.countP cut + 1 := by
  induction s with
  | nil => rfl
  | cons c s ih =>
    by_cases hc : cut c = true
    · rw [pieces, if_pos hc, List.length_cons, ih, List.countP_cons_of_pos hc]
    · obtain ⟨p, ps, hs, hcons⟩ := exists_pieces_cons (Bool.eq_false_iff.2 hc) s
      rw [hs, List.length_cons] at ih
      rw [hcons, List.length_cons, ih, List.countP_cons_of_neg hc]

/-- No character is lost but those at which the text is cut. -/
theorem count_flatten_pieces (hc : cut c = false) (s : List Char) :
    (pieces cut s).flatten.count c = s.count c := by
  induction s with
  | nil => rfl
  | cons x s ih =>
    by_cases hx : cut x = true
    · have hne : x ≠ c := by
        rintro rfl
        rw [hx] at hc
        cases hc
      rw [pieces, if_pos hx, List.flatten_cons, List.nil_append, ih, List.count_cons_of_ne hne]
    · obtain ⟨p, ps, hs, hcons⟩ := exists_pieces_cons (Bool.eq_false_iff.2 hx) s
      rw [hs] at ih
      rw [hcons, List.flatten_cons, List.cons_append, List.count_cons, List.count_cons, ← ih,
        List.flatten_cons]

/-- A character at which the text is not cut goes to the last piece. -/
theorem exists_pieces_concat (hc : cut c = false) (s : List Char) :
    ∃ ps p, pieces cut s = ps ++ [p] ∧ pieces cut (s ++ [c]) = ps ++ [p ++ [c]] := by
  induction s with
  | nil => exact ⟨[], [], rfl, by simp [pieces, hc]⟩
  | cons x s ih =>
    obtain ⟨ps, p, hs, hconcat⟩ := ih
    by_cases hx : cut x = true
    · refine ⟨[] :: ps, p, ?_, ?_⟩
      · rw [pieces, if_pos hx, hs, List.cons_append]
      · rw [List.cons_append, pieces, if_pos hx, hconcat, List.cons_append]
    · cases ps with
      | nil => exact ⟨[], x :: p, by simp [pieces, hx, hs], by simp [pieces, hx, hconcat]⟩
      | cons q ps =>
        exact ⟨(x :: q) :: ps, p, by simp [pieces, hx, hs], by simp [pieces, hx, hconcat]⟩

/-! ## Pieces inside of a text -/

theorem prefix_and_infix_of_pieces {p : List Char} {ps : List (List Char)}
    (h : pieces cut s = p :: ps) : p <+: s ∧ ∀ q ∈ ps, q <:+: s := by
  induction s generalizing p ps with
  | nil =>
    obtain ⟨rfl, rfl⟩ := List.cons.inj h
    exact ⟨List.prefix_rfl, fun q hq => absurd hq List.not_mem_nil⟩
  | cons c s ih =>
    have htail : s <:+: c :: s := (List.suffix_cons c s).isInfix
    by_cases hc : cut c = true
    · rw [pieces, if_pos hc] at h
      obtain ⟨rfl, rfl⟩ := List.cons.inj h
      refine ⟨List.nil_prefix, ?_⟩
      intro q hq
      obtain ⟨p, ps, hs⟩ := List.exists_cons_of_ne_nil (pieces_ne_nil cut s)
      obtain ⟨hp, hps⟩ := ih hs
      rw [hs] at hq
      rcases List.mem_cons.1 hq with rfl | hq
      · exact hp.isInfix.trans htail
      · exact (hps q hq).trans htail
    · obtain ⟨p', ps', hs, hcons⟩ := exists_pieces_cons (Bool.eq_false_iff.2 hc) s
      obtain ⟨hp, hps⟩ := ih hs
      obtain ⟨rfl, rfl⟩ := List.cons.inj (hcons.symm.trans h)
      exact ⟨(List.prefix_cons_inj c).2 hp, fun q hq => (hps q hq).trans htail⟩

theorem infix_of_mem_pieces (h : w ∈ pieces cut s) : w <:+: s := by
  obtain ⟨p, ps, hs⟩ := List.exists_cons_of_ne_nil (pieces_ne_nil cut s)
  obtain ⟨hp, hps⟩ := prefix_and_infix_of_pieces hs
  rw [hs] at h
  rcases List.mem_cons.1 h with rfl | h
  · exact hp.isInfix
  · exact hps w h

theorem not_cut_of_mem_pieces (h : w ∈ pieces cut s) : ∀ x ∈ w, cut x = false := by
  induction s generalizing w with
  | nil =>
    rw [List.mem_singleton.1 h]
    exact fun x hx => absurd hx List.not_mem_nil
  | cons c s ih =>
    by_cases hc : cut c = true
    · rw [pieces, if_pos hc] at h
      rcases List.mem_cons.1 h with rfl | h
      · exact fun x hx => absurd hx List.not_mem_nil
      · exact ih h
    · obtain ⟨p, ps, hs, hcons⟩ := exists_pieces_cons (Bool.eq_false_iff.2 hc) s
      rw [hs] at ih
      rw [hcons] at h
      rcases List.mem_cons.1 h with rfl | h
      · exact List.forall_mem_cons.2 ⟨Bool.eq_false_iff.2 hc, ih (by simp)⟩
      · exact ih (List.mem_cons_of_mem p h)

theorem not_mem_of_mem_pieces (h : w ∈ pieces (· == c) s) : c ∉ w := by
  intro hc
  have hcut := not_cut_of_mem_pieces h c hc
  rw [beq_self_eq_true] at hcut
  cases hcut

theorem exists_pieces_append (hw : ∀ x ∈ w, cut x = false) (s : List Char) :
    ∃ p ps, pieces cut (w ++ s) = (w ++ p) :: ps := by
  induction w with
  | nil => exact List.exists_cons_of_ne_nil (pieces_ne_nil cut s)
  | cons x w ih =>
    obtain ⟨p, ps, hrest⟩ := ih fun y hy => hw y (List.mem_cons_of_mem x hy)
    obtain ⟨p', ps', hpieces, hcons⟩ := exists_pieces_cons (hw x (by simp)) (w ++ s)
    obtain ⟨rfl, rfl⟩ := List.cons.inj (hrest.symm.trans hpieces)
    exact ⟨p, ps, hcons⟩

/-- What is inside of a text and without a cut is inside of one of its pieces. -/
theorem exists_piece_of_infix (hw : ∀ x ∈ w, cut x = false) (h : w <:+: s) :
    ∃ line ∈ pieces cut s, w <:+: line := by
  obtain ⟨a, b, rfl⟩ := h
  rw [List.append_assoc]
  induction a with
  | nil =>
    obtain ⟨p, ps, hpieces⟩ := exists_pieces_append hw b
    rw [List.nil_append, hpieces]
    exact ⟨w ++ p, by simp, (List.prefix_append w p).isInfix⟩
  | cons c a ih =>
    obtain ⟨line, hline, hin⟩ := ih
    by_cases hc : cut c = true
    · refine ⟨line, ?_, hin⟩
      rw [List.cons_append, pieces, if_pos hc]
      exact List.mem_cons_of_mem [] hline
    · obtain ⟨p, ps, hpieces, hcons⟩ := exists_pieces_cons (Bool.eq_false_iff.2 hc) (a ++ (w ++ b))
      rw [List.cons_append, hcons]
      rw [hpieces] at hline
      rcases List.mem_cons.1 hline with rfl | hline
      · exact ⟨c :: line, by simp, hin.trans (List.suffix_cons c line).isInfix⟩
      · exact ⟨line, List.mem_cons_of_mem (c :: p) hline, hin⟩

end PlainNotes.Text

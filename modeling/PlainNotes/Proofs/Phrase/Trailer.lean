import PlainNotes.Phrase.Items
import PlainNotes.Proofs.Phrase.Spelling
import PlainNotes.Proofs.Text.Trimmed

/-!
# What stands behind a title

Behind the title of a new note the patterns leave out words, give blanks back and may do without
any items.  Here the same is said from left to right, without anything that is tried and given up:
the words `with items` come off, then a colon or an `of`, and the rest of the line holds the items.

* `run_gap`, `run_letters`, `run_oneOf`: gaps and words that are read once.
* `run_withItems`: the words in front of the items.
* `run_items_span`: the stretch that holds the items.
* `run_trailer`: both of them, behind a title.
-/

namespace PlainNotes.Phrase

open Text Pattern

variable {k : List Char → Option Captures} {s : List Char}

/-! ## Gaps and words -/

/-- What is left behind a gap, if there is one. -/
def skipGap? : List Char → Option (List Char)
  | [] => none
  | x :: s => if isBlank x then some (trimStart s) else none

/-- What is left behind a word in any case, if the text begins with it. -/
def skipWord? : List Char → List Char → Option (List Char)
  | [], s => some s
  | _ :: _, [] => none
  | letter :: w, x :: s => if foldsTo letter x then skipWord? w s else none

/-- What is left behind the first of some words. -/
def skipOneOf? (ws : List String) (s : List Char) : Option (List Char) :=
  ws.findSome? fun w => skipWord? w.toList s

/-- All blanks of a gap are taken if what follows does not begin with one. -/
theorem run_gap (hk : ∀ x s, isBlank x = true → k (x :: s) = none) (s : List Char) :
    gap.run k s = (skipGap? s).bind k := by
  cases s with
  | nil => rfl
  | cons x s =>
    rw [gap, many1, run, run, runOne, skipGap?]
    by_cases hx : isBlank x = true
    · rw [if_pos hx, if_pos hx, run, runMany_of_stuck hk]
      rfl
    · rw [if_neg hx, if_neg hx]
      rfl

theorem run_letters (w : List Char) (k : List Char → Option Captures) (s : List Char) :
    (letters w).run k s = (skipWord? w s).bind k := by
  induction w generalizing s with
  | nil => rfl
  | cons letter w ih =>
    rw [letters, List.map_cons, run_all_cons, run]
    cases s with
    | nil => rfl
    | cons x s =>
      rw [runOne, skipWord?]
      by_cases hx : foldsTo letter x = true
      · rw [if_pos hx, if_pos hx]
        exact ih s
      · rw [if_neg hx, if_neg hx]
        rfl

theorem run_word (w : String) (k : List Char → Option Captures) (s : List Char) :
    (word w).run k s = (skipWord? w.toList s).bind k :=
  run_letters w.toList k s

/-- Only the first word that is there counts, if what follows never fails. -/
theorem run_oneOf (hk : ∀ s, (k s).isSome = true) (ws : List String) (s : List Char) :
    (oneOf ws).run k s = (skipOneOf? ws s).bind k := by
  induction ws with
  | nil => exact run_any_nil k s
  | cons w ws ih =>
    rw [oneOf, List.map_cons, run_any_cons, run_word, skipOneOf?, List.findSome?_cons]
    cases hw : skipWord? w.toList s with
    | none =>
      rw [Option.bind_none, Option.none_or]
      exact ih
    | some t => exact Option.or_of_isSome (hk t)

theorem skipWord?_of_blank {letter x : Char} (w : List Char) (hlow : isBlank letter = false)
    (hup : isBlank letter.toUpper = false) (hx : isBlank x = true) (s : List Char) :
    skipWord? (letter :: w) (x :: s) = none := by
  refine if_neg ?_
  intro hfolds
  rw [not_isBlank_of_foldsTo hlow hup hfolds] at hx
  cases hx

/-- A text leaves what is behind the word that it begins with. -/
theorem skipWord?_eq_some_iff {w s t : List Char} :
    skipWord? w s = some t ↔ ∃ u, s = u ++ t ∧ spells w u = true := by
  constructor
  · intro h
    induction w generalizing s with
    | nil =>
      obtain rfl := Option.some.inj h
      exact ⟨[], rfl, rfl⟩
    | cons letter w ih =>
      cases s with
      | nil => cases h
      | cons x s =>
        rw [skipWord?, Option.ite_none_right_eq_some] at h
        obtain ⟨hx, hs⟩ := h
        obtain ⟨u, rfl, hu⟩ := ih hs
        refine ⟨x :: u, rfl, ?_⟩
        rw [spells, hx, hu, Bool.and_self]
  · rintro ⟨u, rfl, h⟩
    induction w generalizing u with
    | nil =>
      cases u with
      | nil => rfl
      | cons x u => cases h
    | cons letter w ih =>
      cases u with
      | nil => cases h
      | cons x u =>
        obtain ⟨hx, hu⟩ := Bool.and_eq_true_iff.1 h
        rw [List.cons_append, skipWord?, if_pos hx]
        exact ih u hu

/-! ## The words in front of the items -/

/-- What is left behind a colon and the blanks in front of it. -/
def skipColon? (s : List Char) : Option (List Char) :=
  match trimStart s with
  | [] => none
  | x :: t => if x == ':' then some t else none

/-- What is left behind the colon or the `of` that belongs to the words. -/
def skipMark (s : List Char) : List Char :=
  ((skipColon? s).or ((skipGap? s).bind (skipWord? "of".toList))).getD s

/-- What is left behind `with items`, and behind its colon or `of`. -/
def skipClause? (s : List Char) : Option (List Char) := do
  let s ← skipGap? s
  let s ← skipWord? "with".toList s
  let s ← skipGap? s
  let s ← skipOneOf? ["items", "content", "text"] s
  return skipMark s

/-- What is left of the text behind a title where the items can be. -/
def skipClause (s : List Char) : List Char :=
  (skipClause? s).getD s

/-- A choice that may be left out is made for good if what follows never fails. -/
theorem run_optional {p : Pattern} {rest? : Option (List Char)}
    (hk : ∀ s, (k s).isSome = true) (hp : p.run k s = rest?.bind k) :
    (Pattern.optional p).run k s = k (rest?.getD s) := by
  rw [Pattern.optional, run, hp]
  cases rest? with
  | none => rfl
  | some t => exact Option.or_of_isSome (hk t)

theorem run_colon (k : List Char → Option Captures) (s : List Char) :
    (seq (many isBlank) (one (· == ':'))).run k s = (skipColon? s).bind k := by
  have hstuck : ∀ x s, isBlank x = true → (one (· == ':')).run k (x :: s) = none := by
    intro x s hx
    refine if_neg ?_
    intro hcolon
    rw [beq_iff_eq.1 hcolon] at hx
    cases hx
  rw [run, run, runMany_of_stuck hstuck, skipColon?, trimStart]
  cases s.dropWhile isBlank with
  | nil => rfl
  | cons x t =>
    by_cases hx : (x == ':') = true
    · simp [run, runOne, hx]
    · simp [run, runOne, hx]

theorem run_of (k : List Char → Option Captures) (s : List Char) :
    (seq gap (word "of")).run k s = ((skipGap? s).bind (skipWord? "of".toList)).bind k := by
  have hstuck : ∀ x s, isBlank x = true → (word "of").run k (x :: s) = none := by
    intro x s hx
    rw [run_word]
    exact congrArg (Option.bind · k) (skipWord?_of_blank ['f'] (by decide) (by decide) hx s)
  rw [run, run_gap hstuck]
  cases skipGap? s with
  | none => rfl
  | some t => exact run_word "of" k t

theorem run_mark (hk : ∀ s, (k s).isSome = true) (s : List Char) :
    (optional (alt (seq (many isBlank) (one (· == ':'))) (seq gap (word "of")))).run k s =
      k (skipMark s) := by
  refine run_optional hk ?_
  rw [run, run_colon, run_of]
  cases skipColon? s with
  | none => rw [Option.bind_none, Option.none_or, Option.none_or]
  | some t => exact Option.or_of_isSome (hk t)

theorem skipOneOf?_of_blank {ws : List String} {x : Char}
    (hws : ∀ w ∈ ws, ∃ letter u, w.toList = letter :: u ∧ isBlank letter = false ∧
      isBlank letter.toUpper = false)
    (hx : isBlank x = true) (s : List Char) : skipOneOf? ws (x :: s) = none := by
  rw [skipOneOf?, List.findSome?_eq_none_iff]
  intro w hw
  obtain ⟨letter, u, hletters, hlow, hup⟩ := hws w hw
  rw [hletters]
  exact skipWord?_of_blank u hlow hup hx s

/-- The words in front of the items, read once from left to right. -/
theorem run_withItems (hk : ∀ s, (k s).isSome = true) (s : List Char) :
    withItems.run k s = (skipClause? s).bind k := by
  have hmark : ∀ s, (all [optional
      (alt (seq (many isBlank) (one (· == ':'))) (seq gap (word "of")))]).run k s =
      k (skipMark s) := run_mark hk
  have hkind : ∀ s, (all [oneOf ["items", "content", "text"], optional
      (alt (seq (many isBlank) (one (· == ':'))) (seq gap (word "of")))]).run k s =
      (skipOneOf? ["items", "content", "text"] s).bind fun s => k (skipMark s) := by
    intro s
    rw [run_all_cons, funext hmark]
    exact run_oneOf (fun s => hk (skipMark s)) _ s
  have hgap : ∀ s, (all [gap, oneOf ["items", "content", "text"], optional
      (alt (seq (many isBlank) (one (· == ':'))) (seq gap (word "of")))]).run k s =
      ((skipGap? s).bind (skipOneOf? ["items", "content", "text"])).bind
        fun s => k (skipMark s) := by
    intro s
    rw [run_all_cons, funext hkind, run_gap, Option.bind_assoc]
    intro x s hx
    rw [skipOneOf?_of_blank ?_ hx]
    · rfl
    · simp only [List.forall_mem_cons, List.not_mem_nil, false_implies, implies_true, and_true]
      exact ⟨⟨'i', "tems".toList, by decide⟩, ⟨'c', "ontent".toList, by decide⟩,
        ⟨'t', "ext".toList, by decide⟩⟩
  have hwith : ∀ s, (all [word "with", gap, oneOf ["items", "content", "text"], optional
      (alt (seq (many isBlank) (one (· == ':'))) (seq gap (word "of")))]).run k s =
      (skipWord? "with".toList s).bind fun s =>
        ((skipGap? s).bind (skipOneOf? ["items", "content", "text"])).bind
          fun s => k (skipMark s) := by
    intro s
    rw [run_all_cons, run_word, funext hgap]
  rw [withItems, run_all_cons, funext hwith, run_gap]
  · simp [skipClause?, Option.bind_assoc]
  · intro x s hx
    have hnone : skipWord? "with".toList (x :: s) = none :=
      skipWord?_of_blank "ith".toList (by decide) (by decide) hx s
    rw [hnone]
    rfl

/-! ## The stretch that holds the items -/

/-- The stretch that holds the items, where a gap comes first: from the first character that is no
blank to the end of its line.  Where all is blank, one blank is kept for the stretch, the last of
those that end no line; the gap cannot do without the first. -/
def itemsSpan? : List Char → Option (List Char)
  | [] => none
  | x :: s =>
    if isBlank x then
      if allBlank s then (s.reverse.find? inLine).map fun y => [y]
      else some (firstLine (trimStart s))
    else none

theorem firstLine_eq (s : List Char) : firstLine s = s.takeWhile inLine := rfl

/-- The rest of a line as a group. -/
theorem run_line (x : Char) (s : List Char) :
    (group .second (many1 inLine)).run accept (x :: s) =
      if inLine x then
        some (({} : Captures).record .second (firstLine (x :: s)) ((x :: s).dropWhile inLine))
      else none := by
  by_cases hx : inLine x = true
  · have hne : firstLine (x :: s) ≠ [] := by
      rw [firstLine_eq, List.takeWhile_cons_of_pos hx]
      exact List.cons_ne_nil _ _
    have hline : ∀ y ∈ firstLine (x :: s), inLine y = true :=
      List.all_eq_true.1 List.all_takeWhile
    have htakes := takes_many1 hne hline (startsOutside_dropWhile inLine (x :: s))
    have hrun := htakes.run_group .second (k := accept) (c := {}) rfl
    have hsplit : firstLine (x :: s) ++ (x :: s).dropWhile inLine = x :: s :=
      List.takeWhile_append_dropWhile
    rw [hsplit] at hrun
    rw [if_pos hx]
    exact hrun
  · simp [group, many1, run, runOne, hx]

/-- Among blanks only, the gap gives back as few of them as what follows can do with, if that takes
a blank that is in its line, but no end of a line. -/
theorem text_runMany_of_allBlank {g : Group} (hnil : k [] = none)
    (htext : ∀ ⦃s c⦄, k s = some c → ∃ u, c.text g = some u)
    (hline : ∀ x s, (∀ y ∈ s, isBlank y = true ∧ inLine y = false) →
      (k (x :: s)).bind (·.text g) = if inLine x then some [x] else none)
    (hs : ∀ x ∈ s, isBlank x = true) :
    (runMany isBlank k s).bind (·.text g) = (s.reverse.find? inLine).map fun y => [y] := by
  induction s with
  | nil =>
    rw [runMany, hnil]
    rfl
  | cons x s ih =>
    have hrest := ih fun y hy => hs y (List.mem_cons_of_mem x hy)
    rw [runMany, if_pos (hs x (by simp)), List.reverse_cons, List.find?_append]
    cases hrun : runMany isBlank k s with
    | some c =>
      obtain ⟨u, hu⟩ : ∃ u, c.text g = some u := by
        obtain ⟨b, t, -, -, ht⟩ := exists_of_runMany hrun
        exact htext ht
      rw [hrun, Option.bind_some, hu] at hrest
      cases hfind : s.reverse.find? inLine with
      | none =>
        rw [hfind] at hrest
        cases hrest
      | some y =>
        rw [hfind] at hrest
        rw [Option.some_or, Option.bind_some, hu, hrest, Option.some_or]
    | none =>
      rw [hrun, Option.bind_none] at hrest
      have hfind := Option.map_eq_none_iff.1 hrest.symm
      have hout : ∀ y ∈ s, isBlank y = true ∧ inLine y = false := by
        intro y hy
        refine ⟨hs y (List.mem_cons_of_mem x hy), ?_⟩
        exact Bool.eq_false_iff.2 (List.find?_eq_none.1 hfind y (List.mem_reverse.2 hy))
      rw [Option.none_or, hline x s hout, hfind, Option.none_or, List.find?_singleton]
      cases inLine x <;> rfl

/-- A gap in front of something else is taken whole. -/
theorem runMany_of_trimStart {c : Captures} (h : k (trimStart s) = some c) :
    runMany isBlank k s = some c := by
  obtain ⟨u, hu, hblank⟩ := exists_append_trimStart s
  have hrun := takes_many hblank (startsOutside_dropWhile isBlank s) h
  exact (congrArg (runMany isBlank k) hu).trans hrun

/-- Among blanks only, the rest of the line is one of them. -/
theorem text_line_of_allBlank (hs : ∀ x ∈ s, isBlank x = true) :
    (runMany isBlank ((group .second (many1 inLine)).run accept) s).bind (·.text .second) =
      (s.reverse.find? inLine).map fun y => [y] := by
  refine text_runMany_of_allBlank rfl ?_ ?_ hs
  · intro s c h
    cases s with
    | nil => cases h
    | cons x s =>
      rw [run_line, Option.ite_none_right_eq_some] at h
      obtain ⟨-, hc⟩ := h
      obtain rfl := Option.some.inj hc
      exact ⟨_, Captures.text_record _ .second _ _⟩
  · intro x s hout
    have hline : s.takeWhile inLine = [] :=
      takeWhile_of_startsOutside fun y hy => (hout y (List.mem_of_mem_head? hy)).2
    rw [run_line]
    by_cases hx : inLine x = true
    · rw [if_pos hx, if_pos hx, Option.bind_some, Captures.text_record, firstLine_eq,
        List.takeWhile_cons_of_pos hx, hline]
    · rw [if_neg hx, if_neg hx]
      rfl

/-- In front of something else, the gap leaves the rest of its line. -/
theorem runMany_of_not_allBlank (hs : allBlank s = false) :
    ∃ c, runMany isBlank ((group .second (many1 inLine)).run accept) s = some c ∧
      c.text .second = some (firstLine (trimStart s)) := by
  obtain ⟨x, t, ht, hx⟩ := exists_cons_trimStart hs
  have hline := run_line x t
  rw [if_pos (inLine_of_not_isBlank hx), ← ht] at hline
  exact ⟨_, runMany_of_trimStart hline, Captures.text_record _ .second _ _⟩

/-- **The stretch that holds the items** is what the last group captures. -/
theorem run_items_span (s : List Char) :
    ∃ c, (optional (seq gap (group .second (many1 inLine)))).run accept s = some c ∧
      c.text .second = itemsSpan? s := by
  cases s with
  | nil => exact ⟨{}, rfl, rfl⟩
  | cons x s =>
    have hgap : (seq gap (group .second (many1 inLine))).run accept (x :: s) =
        if isBlank x then runMany isBlank ((group .second (many1 inLine)).run accept) s
        else none := rfl
    rw [Pattern.optional, run, hgap, itemsSpan?]
    by_cases hx : isBlank x = true
    · rw [if_pos hx, if_pos hx]
      by_cases hs : allBlank s = true
      · rw [if_pos hs, ← text_line_of_allBlank (List.all_eq_true.1 hs)]
        cases runMany isBlank ((group .second (many1 inLine)).run accept) s with
        | none => exact ⟨{}, rfl, rfl⟩
        | some c => exact ⟨c, rfl, rfl⟩
      · obtain ⟨c, hrun, htext⟩ := runMany_of_not_allBlank (Bool.eq_false_iff.2 hs)
        rw [if_neg hs, hrun]
        exact ⟨c, rfl, htext⟩
    · rw [if_neg hx, if_neg hx]
      exact ⟨{}, rfl, rfl⟩

/-! ## Behind a title -/

/-- What may stand behind the title of a new note. -/
def trailer : List Pattern :=
  [optional withItems, optional (seq gap (group .second (many1 inLine)))]

/-- The items that a text behind a title holds. -/
def itemsBehind (s : List Char) : List (List Char) :=
  ((itemsSpan? (skipClause s)).map splitItems).getD []

/-- **What stands behind a title** decides about the items: the words in front of them come off
first, and the rest of the line holds them. -/
theorem run_trailer (s : List Char) :
    ∃ c, (all trailer).run accept s = some c ∧ c.text .second = itemsSpan? (skipClause s) := by
  have htotal : ∀ s, ((optional (seq gap (group .second (many1 inLine)))).run accept s).isSome =
      true := by
    intro s
    obtain ⟨c, hc, -⟩ := run_items_span s
    rw [hc]
    rfl
  obtain ⟨c, hrun, htext⟩ := run_items_span (skipClause s)
  refine ⟨c, ?_, htext⟩
  rw [trailer, run_all_cons]
  exact (run_optional htotal (run_withItems htotal s)).trans hrun

/-! ## Plain trailers -/

theorem skipClause_with {kind : String} (h : kind ∈ ["items", "content", "text"]) (s : List Char) :
    skipClause (" with ".toList ++ (kind.toList ++ s)) = skipMark s := by
  simp only [List.mem_cons, List.not_mem_nil, or_false] at h
  rcases h with rfl | rfl | rfl
  · rfl
  · rfl
  · rfl

theorem itemsBehind_with {kind : String} (h : kind ∈ ["items", "content", "text"])
    (s : List Char) : itemsBehind (" with ".toList ++ (kind.toList ++ s)) =
      ((itemsSpan? (skipMark s)).map splitItems).getD [] := by
  rw [itemsBehind, skipClause_with h]

@[simp] theorem skipMark_colon (s : List Char) : skipMark (':' :: s) = s := rfl

/-- A colon or an `of` right here, and what is left behind it. -/
def behindMark? : List Char → Option (List Char)
  | [] => none
  | x :: s => if x = ':' then some s else skipWord? "of".toList (x :: s)

theorem exists_append_of_behindMark? {t : List Char} (h : behindMark? s = some t) :
    ∃ u, s = u ++ t := by
  cases s with
  | nil => cases h
  | cons x s =>
    by_cases hx : x = ':'
    · rw [behindMark?, if_pos hx] at h
      obtain rfl := Option.some.inj h
      exact ⟨[x], rfl⟩
    · rw [behindMark?, if_neg hx] at h
      obtain ⟨u, hu, -⟩ := skipWord?_eq_some_iff.1 h
      exact ⟨u, hu⟩

/-- Behind a space, the colon or the `of` comes off where it stands. -/
theorem skipMark_space (hs : StartsOutside isBlank s) :
    skipMark (' ' :: s) = (behindMark? s).getD (' ' :: s) := by
  have hstart : s.dropWhile isBlank = s := dropWhile_of_startsOutside hs
  have htrim : trimStart (' ' :: s) = s :=
    (List.dropWhile_cons_of_pos (by decide)).trans hstart
  have hgap : skipGap? (' ' :: s) = some s := by
    rw [skipGap?, if_pos (by decide), trimStart, hstart]
  rw [skipMark, skipColon?, htrim, hgap, Option.bind_some]
  cases s with
  | nil => rfl
  | cons x s =>
    by_cases hx : x = ':'
    · simp [behindMark?, hx]
    · simp [behindMark?, hx]

/-- A gap in front of something else leaves the rest of its line, without the blanks. -/
theorem itemsSpan?_of_gap {x : Char} (hx : isBlank x = true) (hs : allBlank s = false) :
    itemsSpan? (x :: s) = some (firstLine (trimStart s)) := by
  rw [itemsSpan?, if_pos hx, hs]
  rfl

/-- The first line ends where something ends the line. -/
theorem firstLine_append {u : List Char} (hu : ∀ x ∈ u, inLine x = true)
    (hs : StartsOutside inLine s) : firstLine (u ++ s) = u := by
  rw [firstLine_eq, List.takeWhile_append_of_pos hu, takeWhile_of_startsOutside hs,
    List.append_nil]

theorem firstLine_of_lineFree (h : ∀ x ∈ s, inLine x = true) : firstLine s = s := by
  have hend : StartsOutside inLine [] := by
    intro x hx
    cases hx
  have hline := firstLine_append h hend
  rwa [List.append_nil] at hline

end PlainNotes.Phrase

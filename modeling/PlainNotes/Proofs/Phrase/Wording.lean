import PlainNotes.Phrase.Wording
import PlainNotes.Proofs.Pattern.Capture

/-!
# What the phrases capture

Every phrase that names a note captures a name: `create_catches`, `update_catches`,
`delete_catches`, `search_catches` and `topic_catches` say so for the lists of patterns, and
`exists_name` for the match that counts.  Names are not empty and stay on one line.
-/

namespace PlainNotes.Phrase

open Text Pattern

variable {g : Group}

/-! ## Words have no marks -/

@[simp] theorem spares_word (w : String) : (word w).Spares g := by
  simp [word]

@[simp] theorem spares_oneOf (ws : List String) : (oneOf ws).Spares g := by
  simp [oneOf]

@[simp] theorem spares_gap : gap.Spares g := by
  simp [gap]

@[simp] theorem spares_maybe (w : String) : (maybe w).Spares g := by
  simp [maybe]

/-! ## Names -/

/-- What stands between quotes. -/
theorem catches_quoted (g : Group) : (quoted g).Catches g inLine :=
  Catches.all [one isQuote] (catches_group way_few1.1) (by simp)

theorem catches_titled : titled.Catches .first inLine :=
  Catches.all [gap, oneOf ["titled", "called", "named"], gap] (catches_quoted .first)
    (by simp)

theorem create_catches : ∀ p ∈ createPatterns, p.Catches .first inLine := by
  simp only [createPatterns, List.forall_mem_cons, List.not_mem_nil, false_implies, implies_true,
    and_true]
  refine ⟨?_, ?_, ?_⟩
  · exact Catches.all [word "create", gap, maybe "a", word "note"] catches_titled (by simp)
  · exact Catches.all [oneOf ["make", "add"], gap, maybe "a", maybe "new", word "note"]
      catches_titled (by simp)
  · exact Catches.all [oneOf ["take", "write"], gap, maybe "a", word "note"]
      catches_titled (by simp)

theorem spares_quoted {g' : Group} (h : g' ≠ g) : (quoted g').Spares g := by
  have hgroup : (group g' (few1 inLine)).Spares g := spares_group h spares_few1
  simp [quoted, hgroup]

/-- The items behind a title can be left out. -/
theorem mayCatch_titled : titled.MayCatch .second inLine := by
  have hname : (quoted .first).Spares .second := spares_quoted (by decide)
  have hitems : (group .second (many1 inLine)).MayCatch .second inLine :=
    (catches_group way_many1.1).mayCatch
  refine MayCatch.all _ ?_
  simp only [List.forall_mem_cons, List.not_mem_nil, false_implies, implies_true, and_true]
  refine ⟨Spares.mayCatch spares_gap, Spares.mayCatch (spares_oneOf _),
    Spares.mayCatch spares_gap, hname.mayCatch, Spares.mayCatch (by simp [withItems]), ?_⟩
  have hgroup : (seq gap (group .second (many1 inLine))).MayCatch .second inLine :=
    MayCatch.all [gap, group .second (many1 inLine)]
      (by simpa using ⟨Spares.mayCatch spares_gap, hitems⟩)
  exact hgroup.optional

theorem create_mayCatch : ∀ p ∈ createPatterns, p.MayCatch .second inLine := by
  have hspares : ∀ ps : List Pattern, (∀ p ∈ ps, p.Spares .second) →
      (Pattern.all (ps ++ [titled])).MayCatch .second inLine := by
    intro ps hps
    refine MayCatch.all _ fun p hp => ?_
    rcases List.mem_append.1 hp with hp | hp
    · exact (hps p hp).mayCatch
    · rw [List.mem_singleton.1 hp]
      exact mayCatch_titled
  simp only [createPatterns, List.forall_mem_cons, List.not_mem_nil, false_implies, implies_true,
    and_true]
  refine ⟨?_, ?_, ?_⟩
  · exact hspares [word "create", gap, maybe "a", word "note"] (by simp)
  · exact hspares [oneOf ["make", "add"], gap, maybe "a", maybe "new", word "note"] (by simp)
  · exact hspares [oneOf ["take", "write"], gap, maybe "a", word "note"] (by simp)

theorem catches_addTo (verb : String) :
    (addTo verb).Catches .first inLine ∧ (addTo verb).Catches .second inLine := by
  have hitem : (group .first (few1 inLine)).Spares .second := spares_group (by decide) spares_few1
  constructor
  · exact Catches.all [word verb, gap] (catches_group way_few1.1) (by simp)
  · exact Catches.all
      [word verb, gap, group .first (few1 inLine), gap, word "to", gap, maybe "my"]
      (catches_quoted .second) (by simp [hitem])

theorem catches_updateWith :
    updateWith.Catches .first inLine ∧ updateWith.Catches .second inLine := by
  have hname : (quoted .first).Spares .second := spares_quoted (by decide)
  constructor
  · exact Catches.all [word "update", gap, maybe "my"] (catches_quoted .first) (by simp)
  · exact Catches.all
      [word "update", gap, maybe "my", quoted .first, optional (seq gap (word "note")), gap,
        alt (word "with") (seq (word "to") (optional (seq gap (word "add")))), gap]
      (catches_group way_many1.1) (by simp [hname])

/-- An update phrase captures both a name and an item. -/
theorem update_catches :
    ∀ p ∈ updatePatterns, p.Catches .first inLine ∧ p.Catches .second inLine := by
  simp only [updatePatterns, List.forall_mem_cons, List.not_mem_nil, false_implies, implies_true,
    and_true]
  exact ⟨catches_addTo "add", catches_updateWith, catches_addTo "append"⟩

theorem catches_verbNamed {verb : Pattern} (h : verb.Spares .first) :
    (verbNamed verb).Catches .first inLine :=
  Catches.all [verb, gap, maybe "my", maybe "note"] (catches_quoted .first) (by simp [h])

theorem delete_catches : ∀ p ∈ deletePatterns, p.Catches .first inLine := by
  simp only [deletePatterns, List.forall_mem_cons, List.not_mem_nil, false_implies, implies_true,
    and_true]
  refine ⟨?_, ?_, ?_, ?_⟩ <;> exact catches_verbNamed (by simp)

theorem search_catches : ∀ p ∈ searchPatterns, p.Catches .first inLine := by
  simp only [searchPatterns, List.forall_mem_cons, List.not_mem_nil, false_implies, implies_true,
    and_true]
  refine ⟨catches_verbNamed (by simp), ?_⟩
  exact Catches.all
    [oneOf ["search", "find", "look"], gap, maybe "for",
      optional (Pattern.all [word "note", optional (word "s"), gap]),
      oneOf ["with", "containing", "about"], gap]
    (catches_quoted .first) (by simp)

theorem topic_catches : ∀ p ∈ topicPatterns, p.Catches .first inLine := by
  simp only [topicPatterns, List.forall_mem_cons, List.not_mem_nil, false_implies, implies_true,
    and_true]
  refine ⟨catches_quoted .first, ?_⟩
  exact Catches.all [word "note", gap, oneOf ["about", "on", "for"], gap]
    (catches_group way_few1.1) (by simp)

theorem trip_catches : ∀ p ∈ tripPatterns, p.Catches .first inPlace := by
  have hword : tripWord.Spares .first := by simp [tripWord, exactly]
  simp only [tripPatterns, List.forall_mem_cons, List.not_mem_nil, false_implies, implies_true,
    and_true]
  constructor
  · exact Catches.all
      [tripWord, optional (seq gap (Pattern.any (["to", "for", "in"].map exactly))), gap]
      (catches_group way_many1.1) (by simp [hword, exactly])
  · exact Catches.all [] (catches_group way_many1.1) (by simp)

theorem firstMatch_head {p : Pattern} {s : List Char} {found : Captures}
    (h : p.search s = some found) (ps : List Pattern) : firstMatch (p :: ps) s = some found := by
  rw [firstMatch, List.findSome?_cons, h]

theorem firstMatch_tail {p : Pattern} {s : List Char} (h : p.search s = none) (ps : List Pattern) :
    firstMatch (p :: ps) s = firstMatch ps s := by
  rw [firstMatch, List.findSome?_cons, h, firstMatch]

/-- The match that counts captures what all patterns of the list capture. -/
theorem exists_name {ps : List Pattern} {cls : Char → Bool} {s : List Char} {found : Captures}
    (hps : ∀ p ∈ ps, p.Catches g cls) (h : firstMatch ps s = some found) :
    ∃ u, found.text g = some u ∧ u ≠ [] ∧ (∀ x ∈ u, cls x = true) ∧ u <:+: s := by
  obtain ⟨p, hp, hfound⟩ := List.exists_of_findSome?_eq_some h
  exact (hps p hp).search hfound

end PlainNotes.Phrase

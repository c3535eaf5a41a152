import PlainNotes.Proofs.Pattern.Occurrence
import PlainNotes.Proofs.Phrase.Items
import PlainNotes.Proofs.Phrase.Recognition
import PlainNotes.Proofs.Phrase.Spelling

/-!
# Plans for a trip

The two phrases of a trip take blanks and characters of a place on either side of each other, and one
of them has a small word that can also be part of the place.  For the question whether they occur at
all nothing of this matters: one blank and one character of a place beside a trip word are enough.

* `way_anyExactly_iff`: words in small letters.
* `isSome_search_placeBehind_iff`, `isSome_search_placeInFront_iff`: where the phrases occur.
* `TripShape.mentions`: the words are mentioned wherever a phrase occurs.
* `trips_by_shape`: what is read of a trip, and from which texts.
-/

namespace PlainNotes

namespace Phrase

open Text Pattern

variable {s s' g v : List Char} {c c' : Captures} {x : Char}

/-! ## Words in small letters -/

theorem way_sameLetters_iff {w : List Char} :
    (Pattern.all (w.map fun letter => one (· == letter))).Way s s' c c' ↔ c = c' ∧ s = w ++ s' := by
  induction w generalizing s with
  | nil => exact and_comm
  | cons letter w ih =>
    rw [List.map_cons, way_all_cons]
    constructor
    · rintro ⟨m, d, ⟨x, rfl, hx, rfl⟩, hrest⟩
      obtain ⟨rfl, rfl⟩ := ih.1 hrest
      exact ⟨rfl, by rw [beq_iff_eq.1 hx, List.cons_append]⟩
    · rintro ⟨rfl, rfl⟩
      exact ⟨w ++ s', c, ⟨letter, rfl, beq_self_eq_true letter, rfl⟩, ih.2 ⟨rfl, rfl⟩⟩

theorem way_exactly_iff {w : String} : (exactly w).Way s s' c c' ↔ c = c' ∧ s = w.toList ++ s' :=
  way_sameLetters_iff

theorem way_anyExactly_iff {ws : List String} :
    (Pattern.any (ws.map exactly)).Way s s' c c' ↔ c = c' ∧ ∃ w ∈ ws, s = w.toList ++ s' := by
  induction ws with
  | nil => simp
  | cons w ws ih =>
    rw [List.map_cons, way_any_cons, way_exactly_iff, ih, ← and_or_left]
    simp only [List.mem_cons, exists_eq_or_imp]

/-! ## Blanks beside a place -/

theorem inPlace_of_isBlank (h : isBlank x = true) : inPlace x = true := by
  rw [inPlace, h, Bool.or_true, Bool.true_or]

/-- Blanks in front of a character of a place begin with a blank, and then comes a character of a
place, be it a blank too. -/
theorem exists_blank_place (hg : g ≠ []) (hblank : ∀ y ∈ g, isBlank y = true)
    (hx : inPlace x = true) (v : List Char) :
    ∃ b y t, g ++ x :: v = b :: y :: t ∧ isBlank b = true ∧ inPlace y = true := by
  obtain ⟨b, g, rfl⟩ := List.exists_cons_of_ne_nil hg
  have hb : isBlank b = true := hblank b (by simp)
  cases g with
  | nil => exact ⟨b, x, v, rfl, hb, hx⟩
  | cons y g => exact ⟨b, y, g ++ x :: v, rfl, hb, inPlace_of_isBlank (hblank y (by simp))⟩

/-- The same from the other side. -/
theorem exists_place_blank (hg : g ≠ []) (hblank : ∀ y ∈ g, isBlank y = true)
    (hx : inPlace x = true) (v : List Char) :
    ∃ t y b, v ++ x :: g = t ++ [y, b] ∧ isBlank b = true ∧ inPlace y = true := by
  obtain ⟨b, y, t, heq, hb, hy⟩ := exists_blank_place (g := g.reverse) (by simpa using hg)
    (fun y hy => hblank y (List.mem_reverse.1 hy)) hx v.reverse
  refine ⟨t.reverse, y, b, ?_, hb, hy⟩
  have hrev := congrArg List.reverse heq
  simpa using hrev

/-! ## Where the phrases occur -/

/-- The phrase with the place behind the trip word. -/
def placeBehind : Pattern :=
  Pattern.all [tripWord, optional (seq gap (Pattern.any (["to", "for", "in"].map exactly))), gap,
    group .first (many1 inPlace)]

/-- The phrase with the place in front of the trip word. -/
def placeInFront : Pattern :=
  Pattern.all [group .first (many1 inPlace), gap, tripWord]

theorem tripPatterns_eq : tripPatterns = [placeBehind, placeInFront] := rfl

theorem exists_of_way_place (h : (group .first (many1 inPlace)).Way s s' c c') :
    ∃ v, v ≠ [] ∧ s = v ++ s' ∧ ∀ x ∈ v, inPlace x = true := by
  obtain ⟨m, d, ⟨rfl, -⟩, m', d', hmany, rfl, -⟩ := h
  obtain ⟨v, hv, rfl, hplace, -⟩ := way_many1.1 hmany
  exact ⟨v, hv, rfl, hplace⟩

theorem way_place (hx : inPlace x = true) (s : List Char) (c : Captures) :
    ∃ c', (group .first (many1 inPlace)).Way (x :: s) s c c' :=
  ⟨_, _, _, ⟨rfl, rfl⟩, _, _,
    way_many1.2 ⟨[x], by simp, rfl, List.forall_mem_singleton.2 hx, rfl⟩, rfl, rfl⟩

theorem way_gap (hx : isBlank x = true) (s : List Char) (c : Captures) :
    gap.Way (x :: s) s c c :=
  way_many1.2 ⟨[x], by simp, rfl, List.forall_mem_singleton.2 hx, rfl⟩

/-- Behind the trip word there are blanks and a character of a place.  If the small word is there, its
first letter is that character. -/
theorem exists_beside_of_way {m : List Char} {d : Captures}
    (hsmall : (optional (seq gap (Pattern.any (["to", "for", "in"].map exactly)))).Way s m d c')
    (hrest : (Pattern.all [gap, group .first (many1 inPlace)]).Way m s' c d) :
    ∃ g x r, s = g ++ x :: r ∧ g ≠ [] ∧ (∀ y ∈ g, isBlank y = true) ∧ inPlace x = true := by
  rcases hsmall with ⟨m', d', hgap, hword⟩ | ⟨rfl, -⟩
  · obtain ⟨g, hg, rfl, hblank, -⟩ := exists_of_way_gap hgap
    obtain ⟨-, u, hu, rfl⟩ := way_anyExactly_iff.1 hword
    simp only [List.mem_cons, List.not_mem_nil, or_false] at hu
    rcases hu with rfl | rfl | rfl
    · exact ⟨g, 't', 'o' :: m, rfl, hg, hblank, by decide⟩
    · exact ⟨g, 'f', 'o' :: 'r' :: m, rfl, hg, hblank, by decide⟩
    · exact ⟨g, 'i', 'n' :: m, rfl, hg, hblank, by decide⟩
  · obtain ⟨m', d', hgap, hplace⟩ := way_all_cons.1 hrest
    obtain ⟨g, hg, rfl, hblank, -⟩ := exists_of_way_gap hgap
    obtain ⟨v, hv, rfl, hplaces⟩ := exists_of_way_place hplace
    obtain ⟨x, v, rfl⟩ := List.exists_cons_of_ne_nil hv
    exact ⟨g, x, v ++ s', rfl, hg, hblank, hplaces x (by simp)⟩

/-- The small word can always be left out. -/
theorem isSome_search_placeBehind_iff :
    (placeBehind.search s).isSome = true ↔ ∃ w ∈ tripWords, ∃ b x, isBlank b = true ∧
      inPlace x = true ∧ w.toList ++ [b, x] <:+: s := by
  constructor
  · intro h
    obtain ⟨found, hfound⟩ := Option.isSome_iff_exists.1 h
    obtain ⟨a, t, s', rfl, hway⟩ := exists_way_of_search hfound
    obtain ⟨m₁, d₁, hword, h₁⟩ := way_all_cons.1 hway
    obtain ⟨m₂, d₂, hsmall, hrest⟩ := way_all_cons.1 h₁
    obtain ⟨-, w, hw, rfl⟩ := way_anyExactly_iff.1 hword
    obtain ⟨g, x, r, rfl, hg, hblank, hx⟩ := exists_beside_of_way hsmall hrest
    obtain ⟨b, y, t, heq, hb, hy⟩ := exists_blank_place hg hblank hx r
    refine ⟨w, hw, b, y, hb, hy, a, t, ?_⟩
    rw [heq]
    simp
  · rintro ⟨w, hw, b, x, hb, hx, a, r, rfl⟩
    obtain ⟨c, hplace⟩ := way_place hx r {}
    have hrest : (Pattern.all [optional (seq gap (Pattern.any (["to", "for", "in"].map exactly))),
        gap, group .first (many1 inPlace)]).Way (b :: x :: r) r {} c :=
      way_all_cons.2 ⟨_, _, Or.inr ⟨rfl, rfl⟩, way_all_cons.2 ⟨_, _, way_gap hb _ _, hplace⟩⟩
    have hway : placeBehind.Way (w.toList ++ b :: x :: r) r {} c :=
      way_all_cons.2 ⟨_, _, way_anyExactly_iff.2 ⟨rfl, w, hw, rfl⟩, hrest⟩
    have hsome := isSome_search_of_way hway a
    simpa using hsome

theorem isSome_search_placeInFront_iff :
    (placeInFront.search s).isSome = true ↔ ∃ w ∈ tripWords, ∃ b x, isBlank b = true ∧
      inPlace x = true ∧ x :: b :: w.toList <:+: s := by
  constructor
  · intro h
    obtain ⟨found, hfound⟩ := Option.isSome_iff_exists.1 h
    obtain ⟨a, t, s', rfl, hway⟩ := exists_way_of_search hfound
    obtain ⟨m₁, d₁, hplace, h₁⟩ := way_all_cons.1 hway
    obtain ⟨m₂, d₂, hgap, hword⟩ := way_all_cons.1 h₁
    obtain ⟨v, hv, rfl, hplaces⟩ := exists_of_way_place hplace
    obtain ⟨g, hg, rfl, hblank, -⟩ := exists_of_way_gap hgap
    obtain ⟨-, w, hw, rfl⟩ := way_anyExactly_iff.1 hword
    obtain ⟨t, y, b, heq, hb, hy⟩ :=
      exists_place_blank hg hblank (hplaces _ (List.getLast_mem hv)) v.dropLast
    have hsplit : v ++ g = t ++ [y, b] :=
      calc v ++ g = (v.dropLast ++ [v.getLast hv]) ++ g := by rw [List.dropLast_concat_getLast]
        _ = v.dropLast ++ v.getLast hv :: g := by simp
        _ = t ++ [y, b] := heq
    refine ⟨w, hw, b, y, hb, hy, a ++ t, s', ?_⟩
    rw [← List.append_assoc v, hsplit]
    simp
  · rintro ⟨w, hw, b, x, hb, hx, a, r, rfl⟩
    have hrest : (Pattern.all [gap, tripWord]).Way (b :: (w.toList ++ r)) r {} {} :=
      way_all_cons.2 ⟨_, _, way_gap hb _ _, way_anyExactly_iff.2 ⟨rfl, w, hw, rfl⟩⟩
    obtain ⟨c, hplace⟩ := way_place hx (b :: (w.toList ++ r)) {}
    have hway : placeInFront.Way (x :: b :: (w.toList ++ r)) r {} c :=
      way_all_cons.2 ⟨_, _, hplace, hrest⟩
    have hsome := isSome_search_of_way hway a
    simpa using hsome

/-- One of the trip words stands beside a blank with a character of a place behind it or, from the
other side, in front of it. -/
def TripShape (s : List Char) : Prop :=
  ∃ w ∈ tripWords, ∃ b x, isBlank b = true ∧ inPlace x = true ∧
    (w.toList ++ [b, x] <:+: s ∨ x :: b :: w.toList <:+: s)

/-- **Where a trip is recognised.** -/
theorem isSome_search_trip_iff :
    (∃ p ∈ tripPatterns, (p.search s).isSome = true) ↔ TripShape s := by
  simp only [tripPatterns_eq, List.mem_cons, List.not_mem_nil, or_false, exists_eq_or_imp,
    exists_eq_left, isSome_search_placeBehind_iff, isSome_search_placeInFront_iff]
  constructor
  · rintro (⟨w, hw, b, x, hb, hx, hin⟩ | ⟨w, hw, b, x, hb, hx, hin⟩)
    · exact ⟨w, hw, b, x, hb, hx, Or.inl hin⟩
    · exact ⟨w, hw, b, x, hb, hx, Or.inr hin⟩
  · rintro ⟨w, hw, b, x, hb, hx, hin | hin⟩
    · exact Or.inl ⟨w, hw, b, x, hb, hx, hin⟩
    · exact Or.inr ⟨w, hw, b, x, hb, hx, hin⟩

instance (s : List Char) : Decidable (TripShape s) :=
  decidable_of_iff _ isSome_search_trip_iff

theorem TripShape.exists_tripWord (h : TripShape s) : ∃ w ∈ tripWords, w.toList <:+: s := by
  obtain ⟨w, hw, b, x, -, -, hin | hin⟩ := h
  · exact ⟨w, hw, (List.prefix_append w.toList [b, x]).isInfix.trans hin⟩
  · exact ⟨w, hw, (List.suffix_append [x, b] w.toList).isInfix.trans hin⟩

/-- The word of a shape stands in the text, so that the text mentions it in small letters. -/
theorem TripShape.mentions (h : TripShape s) : mentions tripWords (lowercase s) = true := by
  obtain ⟨w, hw, hin⟩ := h.exists_tripWord
  have hsmall : ∀ w ∈ tripWords, (w.toList.all fun x => decide (x.toNat < 0x80)) = true ∧
      w.toList.map Char.toLower = w.toList := by decide
  obtain ⟨hall, hlower⟩ := hsmall w hw
  have hascii : ∀ x ∈ w.toList, x.toNat < 0x80 := fun x hx =>
    of_decide_eq_true (List.all_eq_true.1 hall x hx)
  have hmention := mentions_of_infix hascii hlower hin
  rw [Phrase.mentions, List.any_eq_true]
  exact ⟨w, hw, by simpa [Phrase.mentions] using hmention⟩

end Phrase

namespace Family

open Text Phrase

variable {s : List Char} {d : Draft}

theorem tripPlanDraft?_ne_none_iff : tripPlanDraft? s ≠ none ↔ TripShape s := by
  rw [← isSome_search_trip_iff, Ne, tripPlanDraft?_eq_none_iff]
  simp [Option.isSome_iff_ne_none]

/-- The place is a trimmed part of the text, empty where only blanks stand beside the word. -/
theorem exists_place_of_tripPlanDraft? (h : tripPlanDraft? s = some d) :
    ∃ place, d = draft .create ("Trip plan: ".toList ++ place) (some [s]) ∧ Trimmed place ∧
      place <:+: s ∧ ∀ x ∈ place, inPlace x = true := by
  obtain ⟨found, stretch, hfound, hstretch, rfl⟩ := exists_draft_of_tripPlanDraft? h
  obtain ⟨u, hu, -, hplace, hin⟩ := exists_name trip_catches hfound
  obtain rfl := Option.some.inj (hstretch.symm.trans hu)
  have htrim := trim_isInfix stretch
  exact ⟨trim stretch, rfl, trimmed_trim stretch, htrim.trans hin,
    fun x hx => hplace x (htrim.subset hx)⟩

/-- The family reads a trip exactly where the shape is, since its words are mentioned there. -/
theorem exists_reads_tripPlan_iff : (∃ c, tripPlan.Reads s c) ↔ TripShape s := by
  rw [← tripPlanDraft?_ne_none_iff]
  constructor
  · rintro ⟨c, -, d, hd, -⟩ hnone
    cases hnone.symm.trans hd
  · intro hne
    obtain ⟨d, hd⟩ := Option.ne_none_iff_exists'.1 hne
    obtain ⟨c, hc⟩ := valid_of_tripPlanDraft? hd
    exact ⟨c, (tripPlanDraft?_ne_none_iff.1 hne).mentions, d, hd, hc⟩

end Family

open Text Phrase Family

/-- Where a long text is not read as it is, a trip comes before all other phrases. -/
theorem exists_classify_tripPlan_iff {text : String}
    (hlong : ∀ c, classify text ≠ some ⟨.longText, c⟩) :
    (∃ c, classify text = some ⟨.tripPlan, c⟩) ↔ TripShape text.toList := by
  rw [← exists_reads_tripPlan_iff]
  constructor
  · rintro ⟨c, h⟩
    obtain ⟨-, -, -, hreads, -⟩ := classify_eq_some_iff.1 h
    exact ⟨c, hreads⟩
  · rintro ⟨c, hreads⟩
    refine ⟨c, classify_eq_some_iff.2 ⟨[longText], _, rfl, hreads, ?_⟩⟩
    intro g hg c' hc'
    obtain rfl := List.mem_singleton.1 hg
    exact hlong c' (classify_eq_longText_iff.2 hc')

/-- **When a text is about a trip.**  A place is found exactly if one of the trip words, in small
letters, has a blank and a character of a place beside it.  Then the words are mentioned too, so that
looking for them first changes nothing, and the draft is a command: the whole text, under a part of
it that names the place.  So the shape decides about every text that is not taken as a long one,
whatever else the text asks for. -/
theorem trips_by_shape (text : String) :
    (tripPlanDraft? text.toList ≠ none ↔ TripShape text.toList) ∧
    (∀ d, tripPlanDraft? text.toList = some d →
      tripPlan.applies text.toList = true ∧ (∃ c, d.validate = .ok c) ∧
      d.content = some [text] ∧ ∃ place, d.title = "Trip plan: " ++ String.ofList place ∧
        Trimmed place ∧ place <:+: text.toList ∧ ∀ x ∈ place, inPlace x = true) ∧
    ((∀ c, classify text ≠ some ⟨.longText, c⟩) →
      ((∃ c, classify text = some ⟨.tripPlan, c⟩) ↔ TripShape text.toList)) := by
  refine ⟨tripPlanDraft?_ne_none_iff, ?_, exists_classify_tripPlan_iff⟩
  intro d hd
  have hshape : TripShape text.toList := tripPlanDraft?_ne_none_iff.1 (by simp [hd])
  obtain ⟨place, heq, htrim, hin, hplace⟩ := exists_place_of_tripPlanDraft? hd
  have htitle : d.title = "Trip plan: " ++ String.ofList place := by
    rw [heq, draft, String.ofList_append, String.ofList_toList]
  have hcontent : d.content = some [text] := by
    rw [heq]
    simp [draft]
  exact ⟨hshape.mentions, valid_of_tripPlanDraft? hd, hcontent, place, htitle, htrim, hin, hplace⟩

/-- A trip comes before the note that the text asks to delete. -/
theorem trips_by_shape_delete :
    tripPlanDraft? "Delete my 'list' before the next\u3000trip".toList =
      some (draft .create "Trip plan: before the next".toList
        (some ["Delete my 'list' before the next\u3000trip".toList])) ∧
    tripPlan.applies "Delete my 'list' before the next\u3000trip".toList = true ∧
    ∃ c, classify "Delete my 'list' before the next\u3000trip" = some ⟨.tripPlan, c⟩ := by
  have hdraft : tripPlanDraft? "Delete my 'list' before the next\u3000trip".toList =
      some (draft .create "Trip plan: before the next".toList
        (some ["Delete my 'list' before the next\u3000trip".toList])) := by decide +kernel
  obtain ⟨hshape, hread, hclassify⟩ := trips_by_shape "Delete my 'list' before the next\u3000trip"
  have hne : tripPlanDraft? "Delete my 'list' before the next\u3000trip".toList ≠ none := by
    rw [hdraft]
    exact Option.some_ne_none _
  refine ⟨hdraft, (hread _ hdraft).1, (hclassify ?_).2 (hshape.1 hne)⟩
  intro c h
  obtain ⟨-, -, -, hreads, -⟩ := classify_eq_some_iff.1 h
  exact not_reads_of_applies (by decide) c hreads

end PlainNotes

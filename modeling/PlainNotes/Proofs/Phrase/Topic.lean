import PlainNotes.Proofs.Phrase.Form
import PlainNotes.Proofs.Phrase.LongText
import PlainNotes.Proofs.Phrase.Origin
import PlainNotes.Proofs.Phrase.QuotedSpan
import PlainNotes.Proofs.Phrase.Trailer
import PlainNotes.Proofs.Phrase.Trip
import PlainNotes.Proofs.Text.LetterCase

/-!
# Topics

A note that no phrase names has its topic for a title: the word behind `note about`, `note on` or
`note for`.  The gap in front of the topic takes as many blanks as it can, but where nothing else
follows it gives some back, and then one of these blanks is the topic.

* `Topic`, `topicBehind?_eq_some_iff`: the topic of what stands behind the words.
* `text_topicTail`: what the pattern captures there.
* `search_noteTopic_iff`: what it captures in a sentence.
* `reads_fallbackCreate_iff`: the notes that are made of texts without quotes.
-/

namespace PlainNotes

namespace Phrase

open Text Pattern

variable {s t behind title : List Char} {c : Captures}

/-! ## What stands behind the words -/

/-- Behind the words and a gap, the topic is the next word up to a blank or to the end.  If there is
no other word, it is the last of the blanks that end no line. -/
inductive Topic : List Char → List Char → Prop
  | word {gap w back : List Char} (hgap : gap ∈ blanks) (hne : w ≠ [])
      (hw : ∀ x ∈ w, isBlank x = false) (hback : ∀ x ∈ back.head?, isBlank x = true) :
      Topic (gap ++ (w ++ back)) w
  | blank {gap feeds : List Char} {y : Char} (hgap : gap ∈ blanks) (hy : isBlank y = true)
      (hline : y ≠ '\n') (hfeeds : ∀ x ∈ feeds, x = '\n') : Topic (gap ++ y :: feeds) [y]

/-- The same, read from left to right. -/
def topicBehind? : List Char → Option (List Char)
  | [] => none
  | x :: s =>
    if isBlank x then
      if allBlank s then (s.reverse.find? inLine).map fun y => [y]
      else some ((trimStart s).takeWhile fun y => !isBlank y)
    else none

theorem inLine_eq_false_iff {x : Char} : inLine x = false ↔ x = '\n' := by
  rw [inLine, bne_eq_false_iff_eq]

/-- The next word is the topic. -/
theorem topic_takeWhile {x : Char} (hx : isBlank x = true) (hs : allBlank s = false) :
    Topic (x :: s) ((trimStart s).takeWhile fun y => !isBlank y) := by
  obtain ⟨z, t, ht, hz⟩ := exists_cons_trimStart hs
  obtain ⟨gap, hgap, hblank⟩ := exists_append_trimStart s
  have hsplit : x :: s = (x :: gap) ++
      ((trimStart s).takeWhile (fun y => !isBlank y) ++
        (trimStart s).dropWhile fun y => !isBlank y) := by
    rw [List.takeWhile_append_dropWhile, List.cons_append, ← hgap]
  rw [hsplit]
  refine Topic.word ⟨List.cons_ne_nil _ _, List.forall_mem_cons.2 ⟨hx, hblank⟩⟩ ?_ ?_ ?_
  · rw [ht, List.takeWhile_cons_of_pos (by simp [hz])]
    exact List.cons_ne_nil _ _
  · intro y hy
    simpa using List.all_eq_true.1 List.all_takeWhile y hy
  · intro y hy
    simpa using startsOutside_dropWhile (fun y => !isBlank y) (trimStart s) y hy

/-- Of blanks, the last that ends no line is the topic. -/
theorem topic_of_find? {x y : Char} (hx : isBlank x = true) (hs : allBlank s = true)
    (hfind : s.reverse.find? inLine = some y) : Topic (x :: s) [y] := by
  have hblank : ∀ z ∈ s, isBlank z = true := List.all_eq_true.1 hs
  obtain ⟨hline, feeds, gap, hsplit, hfeeds⟩ := List.find?_eq_some_iff_append.1 hfind
  obtain rfl : s = gap.reverse ++ y :: feeds.reverse := by
    rw [← List.reverse_reverse s, hsplit]
    simp
  have hgap : x :: gap.reverse ∈ blanks :=
    ⟨List.cons_ne_nil _ _, List.forall_mem_cons.2 ⟨hx, fun z hz =>
      hblank z (List.mem_append_left _ hz)⟩⟩
  refine Topic.blank hgap (hblank y (by simp)) (bne_iff_ne.1 hline) fun z hz => ?_
  have hz := hfeeds z (List.mem_reverse.1 hz)
  rw [Bool.not_eq_true'] at hz
  exact inLine_eq_false_iff.1 hz

theorem topic_of_topicBehind? (h : topicBehind? s = some title) : Topic s title := by
  cases s with
  | nil => cases h
  | cons x s =>
    rw [topicBehind?, Option.ite_none_right_eq_some] at h
    obtain ⟨hx, h⟩ := h
    by_cases hs : allBlank s = true
    · rw [if_pos hs, Option.map_eq_some_iff] at h
      obtain ⟨y, hfind, rfl⟩ := h
      exact topic_of_find? hx hs hfind
    · rw [if_neg hs] at h
      obtain rfl := Option.some.inj h
      exact topic_takeWhile hx (Bool.eq_false_iff.2 hs)

theorem allBlank_append_feeds {gap feeds : List Char} {y : Char}
    (hgap : ∀ x ∈ gap, isBlank x = true) (hy : isBlank y = true) (hfeeds : ∀ x ∈ feeds, x = '\n') :
    allBlank (gap ++ y :: feeds) = true := by
  have hall := allBlank_of_feeds hfeeds
  rw [allBlank] at hall ⊢
  rw [List.all_append, List.all_cons, List.all_eq_true.2 hgap, hy, hall]
  rfl

theorem Topic.topicBehind?_eq (h : Topic s title) : topicBehind? s = some title := by
  cases h with
  | @word gap w back hgap hne hw hback =>
    obtain ⟨hgapne, hblank⟩ := hgap
    obtain ⟨x, gap, rfl⟩ := List.exists_cons_of_ne_nil hgapne
    obtain ⟨z, w, rfl⟩ := List.exists_cons_of_ne_nil hne
    obtain ⟨hx, hgap⟩ := List.forall_mem_cons.1 hblank
    have hz : isBlank z = false := hw z List.mem_cons_self
    have hall : allBlank (gap ++ (z :: w ++ back)) = false := by
      rw [allBlank, List.all_append, List.cons_append, List.all_cons, hz]
      simp
    have hstop : back.takeWhile (fun y => !isBlank y) = [] :=
      takeWhile_of_startsOutside fun y hy => by rw [hback y hy]; rfl
    rw [List.cons_append, topicBehind?, if_pos hx, hall, trimStart_append_of_blank hgap,
      List.cons_append, trimStart_cons hz, ← List.cons_append, List.takeWhile_append_of_pos ?_,
      hstop, List.append_nil]
    · rfl
    · intro y hy
      rw [hw y hy]
      rfl
  | @blank gap feeds y hgap hy hline hfeeds =>
    obtain ⟨hgapne, hblank⟩ := hgap
    obtain ⟨x, gap, rfl⟩ := List.exists_cons_of_ne_nil hgapne
    obtain ⟨hx, hgap⟩ := List.forall_mem_cons.1 hblank
    have hall := allBlank_append_feeds hgap hy hfeeds
    have hfind : (gap ++ y :: feeds).reverse.find? inLine = some y := by
      refine List.find?_eq_some_iff_append.2 ⟨bne_iff_ne.2 hline, feeds.reverse, gap.reverse,
        by simp, fun z hz => ?_⟩
      rw [hfeeds z (List.mem_reverse.1 hz)]
      decide
    rw [List.cons_append, topicBehind?, if_pos hx, if_pos hall, hfind]
    rfl

theorem topicBehind?_eq_some_iff : topicBehind? s = some title ↔ Topic s title :=
  ⟨topic_of_topicBehind?, Topic.topicBehind?_eq⟩

theorem Topic.unique {title' : List Char} (h : Topic s title) (h' : Topic s title') :
    title = title' := by
  have hsame := (topicBehind?_eq_some_iff.2 h).symm.trans (topicBehind?_eq_some_iff.2 h')
  exact Option.some.inj hsame

/-- Where something else follows than blanks, the topic is the whole next word. -/
theorem Topic.exists_word (h : Topic behind title) (hbehind : allBlank behind = false) :
    ∃ gap back, gap ∈ blanks ∧ behind = gap ++ (title ++ back) ∧ title ≠ [] ∧
      (∀ x ∈ title, isBlank x = false) ∧ ∀ x ∈ back.head?, isBlank x = true := by
  cases h with
  | word hgap hne hw hback => exact ⟨_, _, hgap, rfl, hne, hw, hback⟩
  | @blank gap feeds y hgap hy hline hfeeds =>
    rw [allBlank_append_feeds hgap.2 hy hfeeds] at hbehind
    cases hbehind

/-- Where only blanks follow, the topic is one of them. -/
theorem Topic.exists_blank (h : Topic behind title) (hbehind : allBlank behind = true) :
    ∃ gap y feeds, gap ∈ blanks ∧ behind = gap ++ y :: feeds ∧ title = [y] ∧ isBlank y = true ∧
      y ≠ '\n' ∧ ∀ x ∈ feeds, x = '\n' := by
  cases h with
  | @word gap w back hgap hne hw hback =>
    obtain ⟨x, w, rfl⟩ := List.exists_cons_of_ne_nil hne
    have hx := List.all_eq_true.1 hbehind x (by simp)
    rw [hw x List.mem_cons_self] at hx
    cases hx
  | blank hgap hy hline hfeeds => exact ⟨_, _, _, hgap, rfl, rfl, hy, hline, hfeeds⟩

/-! ## What the pattern captures there -/

/-- A blank or the end of the text. -/
def wordEnd : Pattern := alt (one isBlank) atEnd

/-- The gap, the topic and its end. -/
def topicTail : List Pattern := [gap, group .first (few1 inLine), wordEnd]

theorem run_wordEnd_cons (x : Char) (s : List Char) :
    wordEnd.run accept (x :: s) = if isBlank x then some {} else none := by
  rw [wordEnd, run, run, runOne, run]
  cases isBlank x <;> rfl

/-- From a character that ends no line, the topic goes on to the next blank or to the end. -/
theorem text_word (x : Char) (s : List Char) :
    ((group .first (few1 inLine)).run (wordEnd.run accept) (x :: s)).bind (·.text .first) =
      if inLine x then some (x :: s.takeWhile fun y => !isBlank y) else none := by
  by_cases hx : inLine x = true
  · have hword : ∀ y ∈ s.takeWhile (fun y => !isBlank y), isBlank y = false := by
      intro y hy
      simpa using List.all_eq_true.1 List.all_takeWhile y hy
    have hend : wordEnd.run accept (s.dropWhile fun y => !isBlank y) = some {} := by
      have hstart := startsOutside_dropWhile (fun y => !isBlank y) s
      cases hrest : s.dropWhile fun y => !isBlank y with
      | nil => rfl
      | cons z t =>
        rw [hrest] at hstart
        have hz : isBlank z = true := by simpa using hstart z rfl
        rw [run_wordEnd_cons, if_pos hz]
    have hrun := run_group_few1 .first (List.cons_ne_nil x (s.takeWhile fun y => !isBlank y))
      (List.forall_mem_cons.2 ⟨hx, fun y hy => inLine_of_not_isBlank (hword y hy)⟩)
      (fun a b hab ha hb => ?_) hend
    · rw [List.cons_append, List.takeWhile_append_dropWhile] at hrun
      rw [if_pos hx, hrun, Option.bind_some, Captures.text_record]
    · -- The word cannot end inside of itself.
      obtain ⟨x', a, rfl⟩ := List.exists_cons_of_ne_nil ha
      obtain ⟨y, b, rfl⟩ := List.exists_cons_of_ne_nil hb
      obtain ⟨-, hab⟩ := List.cons.inj hab
      have hy : isBlank y = false := hword y (by rw [hab]; simp)
      rw [List.cons_append, run_wordEnd_cons, hy]
      rfl
  · simp [group, few1, run, runOne, hx]

/-- Behind the first blank only blanks follow: the gap gives the last one back that ends no line. -/
theorem text_topic_of_allBlank (hs : allBlank s = true) :
    (runMany isBlank ((group .first (few1 inLine)).run (wordEnd.run accept)) s).bind
      (·.text .first) = (s.reverse.find? inLine).map fun y => [y] := by
  refine text_runMany_of_allBlank rfl ?_ ?_ (List.all_eq_true.1 hs)
  · intro t c ht
    cases t with
    | nil => cases ht
    | cons y t =>
      have htext := text_word y t
      rw [ht, Option.bind_some] at htext
      by_cases hy : inLine y = true
      · rw [if_pos hy] at htext
        exact ⟨_, htext⟩
      · simp [group, few1, run, runOne, hy] at ht
  · intro y t hout
    have hstop : t.takeWhile (fun z => !isBlank z) = [] :=
      takeWhile_of_startsOutside fun z hz => by
        rw [(hout z (List.mem_of_mem_head? hz)).1]
        rfl
    rw [text_word, hstop]

/-- Something else follows: the gap keeps all its blanks. -/
theorem text_topic_of_word (hs : allBlank s = false) :
    (runMany isBlank ((group .first (few1 inLine)).run (wordEnd.run accept)) s).bind
      (·.text .first) = some ((trimStart s).takeWhile fun y => !isBlank y) := by
  obtain ⟨y, t, ht, hy⟩ := exists_cons_trimStart hs
  have htext := text_word y t
  rw [if_pos (inLine_of_not_isBlank hy), ← ht] at htext
  obtain ⟨c, hrun, htext⟩ := Option.bind_eq_some_iff.1 htext
  rw [runMany_of_trimStart hrun, Option.bind_some, htext, ht,
    List.takeWhile_cons_of_pos (by simp [hy])]

theorem text_topicTail (s : List Char) :
    ((all topicTail).run accept s).bind (·.text .first) = topicBehind? s := by
  cases s with
  | nil => rfl
  | cons x s =>
    have hgap : (all topicTail).run accept (x :: s) =
        if isBlank x then
          runMany isBlank ((group .first (few1 inLine)).run (wordEnd.run accept)) s
        else none := rfl
    rw [hgap, topicBehind?]
    by_cases hx : isBlank x = true
    · rw [if_pos hx, if_pos hx]
      by_cases hs : allBlank s = true
      · rw [if_pos hs, text_topic_of_allBlank hs]
      · rw [if_neg hs, text_topic_of_word (Bool.eq_false_iff.2 hs)]
    · rw [if_neg hx, if_neg hx]
      rfl

/-! ## The words in front of a topic -/

/-- `note`, and behind a gap one of the words that name a topic. -/
def topicLead : List Pattern := [word "note", gap, oneOf ["about", "on", "for"]]

def topicForm : Language Char :=
  spellings "note" * (blanks * (spellings "about" + (spellings "on" + spellings "for")))

theorem noteTopic_eq : noteTopic = all (topicLead ++ topicTail) := rfl

theorem speaks_topicLead : (all topicLead).Speaks topicForm :=
  (speaks_word "note").cons (speaks_gap.cons
    (Speaks.single ((speaks_word "about").or ((speaks_word "on").or (speaks_word "for").last))))

theorem toLower_of_mem_topicWords {u : List Char}
    (hu : u ∈ spellings "about" + (spellings "on" + spellings "for")) :
    u.map Char.toLower ∈ ["about".toList, "on".toList, "for".toList] := by
  rcases (Language.mem_add _ _ _).1 hu with hu | hu
  · rw [(toLower_of_spells (by decide) hu).1]
    decide
  rcases (Language.mem_add _ _ _).1 hu with hu | hu
  · rw [(toLower_of_spells (by decide) hu).1]
    decide
  · rw [(toLower_of_spells (by decide) hu).1]
    decide

/-- The three words differ in their first letters, so one of them does not begin another. -/
theorem eq_of_topicWords {u u' behind' : List Char}
    (hu : u.map Char.toLower ∈ ["about".toList, "on".toList, "for".toList])
    (hu' : u'.map Char.toLower ∈ ["about".toList, "on".toList, "for".toList])
    (h : u ++ behind = u' ++ behind') : behind = behind' := by
  have hfirst : ∀ v ∈ ["about".toList, "on".toList, "for".toList],
      ∀ v' ∈ ["about".toList, "on".toList, "for".toList], v.head? = v'.head? → v = v' := by
    decide
  have hheads : (u.map Char.toLower).head? = (u'.map Char.toLower).head? := by
    cases u with
    | nil => exact absurd hu (by decide)
    | cons x u =>
      cases u' with
      | nil => exact absurd hu' (by decide)
      | cons x' u' => rw [List.map_cons, List.map_cons, (List.cons.inj h).1]; rfl
  have hlength := congrArg List.length (hfirst _ hu _ hu' hheads)
  rw [List.length_map, List.length_map] at hlength
  exact (List.append_inj h hlength).2

theorem startsOutside_of_topicWords {u : List Char}
    (hu : u.map Char.toLower ∈ ["about".toList, "on".toList, "for".toList]) (s : List Char) :
    ∃ x v, u ++ s = x :: v ∧ isBlank x = false := by
  have hfirst : ∀ v ∈ ["about".toList, "on".toList, "for".toList],
      v.head?.any isBlank = false := by
    decide
  cases u with
  | nil => exact absurd hu (by decide)
  | cons x u =>
    have hx : isBlank x.toLower = false := hfirst _ hu
    rw [isBlank_toLower] at hx
    exact ⟨x, u ++ s, rfl, hx⟩

/-- What stands behind the words is fixed by where they begin. -/
theorem eq_of_topicForm {u u' behind' : List Char} (hu : u ∈ topicForm) (hu' : u' ∈ topicForm)
    (h : u ++ behind = u' ++ behind') : behind = behind' := by
  obtain ⟨n, hn, v, hv, rfl⟩ := Language.mem_mul.1 hu
  obtain ⟨n', hn', v', hv', rfl⟩ := Language.mem_mul.1 hu'
  obtain ⟨gap, ⟨-, hgap⟩, w, hw, rfl⟩ := Language.mem_mul.1 hv
  obtain ⟨gap', ⟨-, hgap'⟩, w', hw', rfl⟩ := Language.mem_mul.1 hv'
  rw [List.append_assoc, List.append_assoc, List.append_assoc, List.append_assoc] at h
  have hlength : n.length = n'.length :=
    (length_of_spells hn).trans (length_of_spells hn').symm
  have hgaps := congrArg trimStart (List.append_inj h hlength).2
  have hword := toLower_of_mem_topicWords hw
  have hword' := toLower_of_mem_topicWords hw'
  obtain ⟨x, t, ht, hx⟩ := startsOutside_of_topicWords hword behind
  obtain ⟨x', t', ht', hx'⟩ := startsOutside_of_topicWords hword' behind'
  rw [trimStart_append_of_blank hgap, trimStart_append_of_blank hgap', ht, ht', trimStart_cons hx,
    trimStart_cons hx', ← ht, ← ht'] at hgaps
  exact eq_of_topicWords hword hword' hgaps

/-! ## Topics in a sentence -/

/-- The text begins with the words, and behind them is a topic. -/
def TopicFirst (t behind title : List Char) : Prop :=
  ∃ u ∈ topicForm, t = u ++ behind ∧ Topic behind title

/-- Behind the part `a` of the text stand the words and a topic. -/
def TopicAt (s a behind title : List Char) : Prop :=
  ∃ t, s = a ++ t ∧ TopicFirst t behind title

/-- The leftmost place at which the words stand with a topic behind them. -/
def LeftmostTopic (s behind title : List Char) : Prop :=
  ∃ a, TopicAt s a behind title ∧
    ∀ a' behind' title', TopicAt s a' behind' title' → a.length ≤ a'.length

theorem topicFirst_of_run (h : noteTopic.run accept t = some c) :
    ∃ behind title, TopicFirst t behind title ∧ c.text .first = some title := by
  obtain ⟨_, _, -, hnote⟩ := exists_way_of_run h
  obtain ⟨title, htitle, -⟩ := topic_catches noteTopic (by simp [topicPatterns]) hnote
  rw [noteTopic_eq, run_all_append] at h
  obtain ⟨behind, d, htail, hway⟩ := exists_way_of_run h
  obtain ⟨rfl, u, hu, rfl⟩ := speaks_topicLead.way_iff.1 hway
  have htext := text_topicTail behind
  rw [htail, Option.bind_some, htitle] at htext
  exact ⟨behind, title, ⟨u, hu, rfl, topicBehind?_eq_some_iff.1 htext.symm⟩, htitle⟩

theorem TopicFirst.exists_run (h : TopicFirst t behind title) :
    ∃ c, noteTopic.run accept t = some c ∧ c.text .first = some title := by
  obtain ⟨u, hu, rfl, htopic⟩ := h
  have htext := text_topicTail behind
  rw [topicBehind?_eq_some_iff.2 htopic] at htext
  obtain ⟨d, htail, -⟩ := Option.bind_eq_some_iff.1 htext
  have hway : (all topicLead).Way (u ++ behind) behind {} {} :=
    speaks_topicLead.way_iff.2 ⟨rfl, u, hu, rfl⟩
  have hsome : (noteTopic.run accept (u ++ behind)).isSome = true := by
    rw [noteTopic_eq, run_all_append]
    exact isSome_run_of_way hway (Option.isSome_of_eq_some htail)
  obtain ⟨c, hrun⟩ := Option.isSome_iff_exists.1 hsome
  obtain ⟨behind', title', ⟨u', hu', heq, htopic'⟩, htitle⟩ := topicFirst_of_run hrun
  obtain rfl := eq_of_topicForm hu hu' heq
  obtain rfl := htopic.unique htopic'
  exact ⟨c, hrun, htitle⟩

theorem run_noteTopic_eq_none_iff :
    noteTopic.run accept t = none ↔ ∀ behind title, ¬ TopicFirst t behind title := by
  constructor
  · intro hnone behind title hfirst
    obtain ⟨c, hrun, -⟩ := hfirst.exists_run
    rw [hnone] at hrun
    cases hrun
  · intro h
    rw [Option.eq_none_iff_forall_ne_some]
    intro c hrun
    obtain ⟨behind, title, hfirst, -⟩ := topicFirst_of_run hrun
    exact h behind title hfirst

/-- **The topic of a sentence** is the one at the leftmost place. -/
theorem search_noteTopic_iff :
    (∃ c, noteTopic.search s = some c ∧ c.text .first = some title) ↔
      ∃ behind, LeftmostTopic s behind title := by
  constructor
  · rintro ⟨c, hsearch, htitle⟩
    obtain ⟨a, t, heq, hrun, hleft⟩ := search_eq_some_iff.1 hsearch
    obtain ⟨behind, title', hfirst, htitle'⟩ := topicFirst_of_run hrun
    obtain rfl := Option.some.inj (htitle.symm.trans htitle')
    refine ⟨behind, a, ⟨t, heq, hfirst⟩, ?_⟩
    rintro a' behind' title' ⟨t', heq', hfirst'⟩
    rw [← Nat.not_lt]
    intro hlt
    exact run_noteTopic_eq_none_iff.1 (hleft a' t' heq' hlt) behind' title' hfirst'
  · rintro ⟨behind, a, ⟨t, rfl, hfirst⟩, hleft⟩
    obtain ⟨c, hrun, htitle⟩ := hfirst.exists_run
    refine ⟨c, search_eq_some_iff.2 ⟨a, t, rfl, hrun, fun a' t' heq hlt => ?_⟩, htitle⟩
    refine run_noteTopic_eq_none_iff.2 fun behind' title' hfirst' => ?_
    exact Nat.not_lt.2 (hleft a' behind' title' ⟨t', heq, hfirst'⟩) hlt

end Phrase

open Text Phrase

namespace Family

variable {s : List Char} {c : Command}

/-- Where nothing is quoted, the family makes an empty note of the topic. -/
theorem reads_fallbackCreate_iff (hs : ¬ HoldsQuotedSpan s) : fallbackCreate.Reads s c ↔
    mentions makingWords (lowercase s) = true ∧
      (∃ behind, LeftmostTopic s behind c.title.toList) ∧ c.action = .create ∧ c.content = [] ∧
      c.folder = none := by
  rw [← search_noteTopic_iff]
  constructor
  · intro hreads
    obtain ⟨-, found, hfound, htitle⟩ := topic_of_reads hs hreads
    obtain ⟨happ, d, hd, hvalid⟩ := hreads
    obtain ⟨-, title, -, -, rfl⟩ := exists_draft_of_titleDraft? hd
    obtain ⟨-, hcontent, hfolder⟩ := eq_of_validate hvalid
    exact ⟨happ, ⟨found, hfound, htitle⟩, (eq_of_validate_draft hvalid).1, hcontent, hfolder⟩
  · rintro ⟨happ, ⟨found, hfound, htitle⟩, haction, hcontent, hfolder⟩
    have hspan : quotedSpan.search s = none := by
      rw [holdsQuotedSpan_iff] at hs
      simpa using hs
    have hd : fallbackCreate.draft? s = some (draft c.action c.title.toList (some [])) := by
      have hmatch : firstMatch topicPatterns s = some found := by
        rw [topicPatterns, firstMatch_tail hspan]
        simpa [firstMatch, List.findSome?_singleton] using hfound
      rw [draft?, titleDraft?, hmatch, haction]
      simp [htitle]
    exact reads_of_draft? happ hd hcontent.symm hfolder

end Family

open Family

variable {text : String}

theorem not_reads_longText_iff {s : List Char} (h : Unquoted s) :
    (∀ c, ¬ longText.Reads s c) ↔ s.length ≤ 100 ∨ allBlank (firstLine s) = true := by
  have hfree : ∀ q, isQuote q = true → q ∉ s := by
    intro q hq hmem
    rw [h q hmem] at hq
    cases hq
  have happ : longText.applies s = true ↔ 100 < s.length := by
    rw [applies_longText_iff]
    exact and_iff_left ⟨hfree '\'' rfl, hfree '"' rfl⟩
  rw [← not_exists, exists_reads_longText_iff, happ, not_and_or, Nat.not_lt, Bool.not_eq_false]

/-- Where nothing is quoted, the family is left what is neither a long text nor a trip. -/
theorem classify_eq_fallbackCreate_iff {c : Command} (hs : ¬ HoldsQuotedSpan text.toList) :
    classify text = some ⟨.fallbackCreate, c⟩ ↔
      (∀ c, ¬ longText.Reads text.toList c) ∧ ¬ TripShape text.toList ∧
        fallbackCreate.Reads text.toList c := by
  constructor
  · intro h
    have hother : ∀ f c', f ≠ .fallbackCreate → classify text ≠ some ⟨f, c'⟩ := by
      intro f c' hf heq
      rw [h] at heq
      cases heq
      exact hf rfl
    obtain ⟨-, -, -, hreads, -⟩ := classify_eq_some_iff.1 h
    refine ⟨fun c' hc' => hother longText c' (by decide) (classify_eq_longText_iff.2 hc'), ?_,
      hreads⟩
    intro hshape
    obtain ⟨c', hc'⟩ := (exists_classify_tripPlan_iff
      fun c' => hother longText c' (by decide)).2 hshape
    exact hother tripPlan c' (by decide) hc'
  · rintro ⟨hlong, htrip, hreads⟩
    have hnamed : ∀ f : Family, f.namesNote = true → ∀ c, ¬ f.Reads text.toList c :=
      fun f hf c hreads => hs (holdsQuotedSpan_of_reads hf hreads)
    have hnotrip : ∀ c, ¬ tripPlan.Reads text.toList c :=
      fun c hreads => htrip (exists_reads_tripPlan_iff.1 ⟨c, hreads⟩)
    refine classify_eq_some_iff.2
      ⟨[longText, tripPlan, explicitCreate, update, delete, search], [], rfl, hreads, ?_⟩
    simp only [List.forall_mem_cons, List.not_mem_nil, false_implies, implies_true, and_true]
    exact ⟨hlong, hnotrip, hnamed _ rfl, hnamed _ rfl, hnamed _ rfl, hnamed _ rfl⟩

/-- **The topic is the next word**, unless no word is left.  A text without quotes becomes an empty
note of its topic exactly if it is not taken as a long text or as a trip, asks for a note and has a
topic; of the places of the words with a topic behind them the leftmost one counts.  The title is
the whole word behind the words if one follows.  Where only blanks follow, the gap gives one of them
back, and this blank is the title. -/
theorem topics_by_next_word (text : String) (hquotes : Unquoted text.toList) :
    (∀ c, classify text = some ⟨.fallbackCreate, c⟩ ↔
      (text.toList.length ≤ 100 ∨ allBlank (firstLine text.toList) = true) ∧
      ¬ TripShape text.toList ∧ mentions makingWords (lowercase text.toList) = true ∧
      (∃ behind, LeftmostTopic text.toList behind c.title.toList) ∧ c.action = .create ∧
      c.content = [] ∧ c.folder = none) ∧
    ∀ c, classify text = some ⟨.fallbackCreate, c⟩ → ∃ front u behind,
      text.toList = front ++ (u ++ behind) ∧ u ∈ topicForm ∧
      (allBlank behind = false → ∃ gap back, gap ∈ blanks ∧
        behind = gap ++ (c.title.toList ++ back) ∧ c.title.toList ≠ [] ∧
        (∀ x ∈ c.title.toList, isBlank x = false) ∧ ∀ x ∈ back.head?, isBlank x = true) ∧
      (allBlank behind = true → ∃ gap y feeds, gap ∈ blanks ∧ behind = gap ++ y :: feeds ∧
        c.title.toList = [y] ∧ isBlank y = true ∧ y ≠ '\n' ∧ ∀ x ∈ feeds, x = '\n') := by
  have hspan := not_holdsQuotedSpan_of_unquoted hquotes
  refine ⟨fun c => ?_, fun c h => ?_⟩
  · rw [classify_eq_fallbackCreate_iff hspan, not_reads_longText_iff hquotes,
      reads_fallbackCreate_iff hspan]
  · obtain ⟨-, -, hreads⟩ := (classify_eq_fallbackCreate_iff hspan).1 h
    obtain ⟨-, ⟨behind, a, ⟨t, heq, u, hu, rfl, htopic⟩, -⟩, -⟩ :=
      (reads_fallbackCreate_iff hspan).1 hreads
    exact ⟨a, u, behind, heq, hu, htopic.exists_word, htopic.exists_blank⟩

/-- Two blanks behind `about`: the gap takes one, and the other is the title. -/
theorem topics_by_next_word_blanks :
    classify "Make a note about  " = some ⟨.fallbackCreate, .create, " ", [], none, by decide⟩ ∧
    classify "Make a note about  gardens" =
      some ⟨.fallbackCreate, .create, "gardens", [], none, by decide⟩ ∧
    ∃ front u behind, "Make a note about  ".toList = front ++ (u ++ behind) ∧ u ∈ topicForm ∧
      allBlank behind = true := by
  have hblank : classify "Make a note about  " =
      some ⟨.fallbackCreate, .create, " ", [], none, by decide⟩ := by decide +kernel
  have hquotes : Unquoted "Make a note about  ".toList := by decide
  obtain ⟨-, hplace⟩ := topics_by_next_word "Make a note about  " hquotes
  obtain ⟨front, u, behind, heq, hu, hword, -⟩ := hplace _ hblank
  refine ⟨hblank, by decide +kernel, front, u, behind, heq, hu, ?_⟩
  rw [← Bool.not_eq_false]
  intro hbehind
  obtain ⟨-, -, -, -, -, hfree, -⟩ := hword hbehind
  exact absurd (hfree ' ' (by decide)) (by decide)

end PlainNotes

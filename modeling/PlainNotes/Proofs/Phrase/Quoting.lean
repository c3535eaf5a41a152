import PlainNotes.Phrase.Family
import PlainNotes.Proofs.Pattern.Occurrence
import PlainNotes.Proofs.Phrase.Spelling

/-!
# Sentences with one quoted name

In a sentence with one pair of quotes, a phrase that asks for a quoted name can only match around
these quotes, whatever words stand in the name or elsewhere.

* `Quoting.name_of_search`: the name is captured.
* `Quoting.isSome_of_search`: the verb of the phrase occurs in front of the quotes.
* `Quoting.last_of_create`: the last word in front of the quotes is that of a phrase that makes a
  note.
-/

namespace PlainNotes.Phrase

open Text Pattern

/-- No character is a quote. -/
def Unquoted (s : List Char) : Prop :=
  ∀ c ∈ s, isQuote c = false

instance (s : List Char) : Decidable (Unquoted s) :=
  decidable_of_iff ((s.all fun c => !isQuote c) = true) (by simp [Unquoted])

theorem isQuote_of_isBlank {c : Char} (h : isBlank c = true) : isQuote c = false := by
  rw [Bool.eq_false_iff]
  intro hquote
  rcases Bool.or_eq_true_iff.1 hquote with hc | hc
  · rw [beq_iff_eq.1 hc] at h
    exact absurd h (by decide)
  · rw [beq_iff_eq.1 hc] at h
    exact absurd h (by decide)

theorem inLine_of_isQuote {q : Char} (h : isQuote q = true) : inLine q = true := by
  rcases Bool.or_eq_true_iff.1 h with h | h
  · rw [beq_iff_eq.1 h]
    rfl
  · rw [beq_iff_eq.1 h]
    rfl

theorem unquoted_append {s t : List Char} : Unquoted (s ++ t) ↔ Unquoted s ∧ Unquoted t := by
  simp [Unquoted, or_imp, forall_and]

theorem countP_eq_zero_iff {s : List Char} : s.countP isQuote = 0 ↔ Unquoted s := by
  simp [List.countP_eq_zero, Unquoted]

/-- The first quote of a text is where it is. -/
theorem eq_of_first_quote {a a' b b' : List Char} {q q' : Char} (ha : Unquoted a)
    (ha' : Unquoted a') (hq : isQuote q = true) (hq' : isQuote q' = true)
    (h : a ++ q :: b = a' ++ q' :: b') : a = a' ∧ b = b' := by
  induction a generalizing a' with
  | nil =>
    cases a' with
    | nil => exact ⟨rfl, (List.cons.inj h).2⟩
    | cons x a' =>
      obtain rfl : q = x := (List.cons.inj h).1
      exact absurd hq (by simp [ha' q (by simp)])
  | cons x a ih =>
    cases a' with
    | nil =>
      obtain rfl : x = q' := (List.cons.inj h).1
      exact absurd hq' (by simp [ha x (by simp)])
    | cons y a' =>
      obtain ⟨rfl, htail⟩ := List.cons.inj h
      obtain ⟨rfl, rfl⟩ := ih (fun c hc => ha c (List.mem_cons_of_mem x hc))
        (fun c hc => ha' c (List.mem_cons_of_mem x hc)) htail
      exact ⟨rfl, rfl⟩

/-- A sentence with one name in quotes. -/
structure Quoting where
  /-- The sentence in front of the quotes. -/
  front : List Char
  quote : Char
  name : List Char
  /-- The sentence behind the quotes. -/
  back : List Char
  isQuote_quote : isQuote quote = true
  unquoted_front : Unquoted front
  unquoted_name : Unquoted name
  unquoted_back : Unquoted back

namespace Quoting

variable (t : Quoting)

/-- The name in its quotes, and the rest of the sentence. -/
def tail : List Char :=
  t.quote :: (t.name ++ t.quote :: t.back)

def text : List Char :=
  t.front ++ t.tail

/-- There is one pair of quotes only. -/
theorem eq_of_text {t : Quoting} {a u b : List Char} {q q' : Char} (hq : isQuote q = true)
    (hq' : isQuote q' = true) (h : t.text = a ++ q :: (u ++ q' :: b)) :
    a = t.front ∧ u = t.name ∧ b = t.back := by
  have hcount := congrArg (List.countP isQuote) h
  simp only [text, tail, List.countP_append, List.countP_cons_of_pos, t.isQuote_quote, hq, hq',
    countP_eq_zero_iff.2 t.unquoted_front, countP_eq_zero_iff.2 t.unquoted_name,
    countP_eq_zero_iff.2 t.unquoted_back] at hcount
  have ha : Unquoted a := countP_eq_zero_iff.1 (by omega)
  have hu : Unquoted u := countP_eq_zero_iff.1 (by omega)
  obtain ⟨hfront, htail⟩ := eq_of_first_quote t.unquoted_front ha t.isQuote_quote hq h
  obtain ⟨hname, hback⟩ := eq_of_first_quote t.unquoted_name hu t.isQuote_quote hq' htail
  exact ⟨hfront.symm, hname.symm, hback.symm⟩

end Quoting

/-! ## Ways through quoted names -/

theorem exists_of_way_quoted {g : Group} {s s' : List Char} {c c' : Captures}
    (h : (quoted g).Way s s' c c') :
    ∃ q u q', s = q :: (u ++ q' :: s') ∧ isQuote q = true ∧ isQuote q' = true ∧
      c'.text g = some u := by
  obtain ⟨m, d, ⟨q, rfl, hq, rfl⟩, hrest⟩ := way_all_cons.1 h
  obtain ⟨m', d', hgroup, hlast⟩ := way_all_cons.1 hrest
  obtain ⟨x, y, ⟨rfl, rfl⟩, m'', e, hfew, rfl, rfl⟩ := hgroup
  obtain ⟨u, -, rfl, -, rfl⟩ := way_few1.1 hfew
  obtain ⟨q', rfl, hq', rfl⟩ := hlast
  exact ⟨q, u, q', rfl, hq, hq', Captures.text_group _ g u _⟩

/-- A name that its quotes hold whole: nothing behind its first character could close it early. -/
structure Unbroken (name : List Char) : Prop where
  ne : name ≠ []
  unquoted_tail : Unquoted name.tail
  lineFree : ∀ x ∈ name, inLine x = true

theorem unbroken_of_unquoted {name : List Char} (hne : name ≠ []) (hname : Unquoted name)
    (hline : ∀ x ∈ name, inLine x = true) : Unbroken name :=
  ⟨hne, fun x hx => hname x (List.mem_of_mem_tail hx), hline⟩

/-- The quote that closes a name is the first one behind its first character, of either kind. -/
theorem run_quoted_of_close {g : Group} {k : List Char → Option Captures} {q q' : Char}
    {name back : List Char} {c : Captures} (hq : isQuote q = true) (hq' : isQuote q' = true)
    (hname : Unbroken name) (h : k back = some c) :
    (quoted g).run k (q :: (name ++ q' :: back)) = some (c.record g name (q' :: back)) := by
  have hclose : (one isQuote).run k (q' :: back) = some c := by
    rw [run, runOne, if_pos hq', h]
  rw [quoted, run_all_cons, run, runOne, if_pos hq, run_all_cons]
  refine run_group_few1 g hname.ne hname.lineFree ?_ hclose
  rintro a b rfl ha hb
  obtain ⟨y, a, rfl⟩ := List.exists_cons_of_ne_nil ha
  obtain ⟨z, b, rfl⟩ := List.exists_cons_of_ne_nil hb
  have hz : isQuote z = false := hname.unquoted_tail z (by simp)
  rw [List.cons_append, all, run, runOne, hz]
  rfl

/-- The quotes around a name are passed, and the name is recorded. -/
theorem run_quoted {g : Group} {k : List Char → Option Captures} {q : Char} {name back : List Char}
    {c : Captures} (hq : isQuote q = true) (hne : name ≠ []) (hname : Unquoted name)
    (hline : ∀ x ∈ name, inLine x = true) (h : k back = some c) :
    (quoted g).run k (q :: (name ++ q :: back)) = some (c.record g name (q :: back)) :=
  run_quoted_of_close hq hq (unbroken_of_unquoted hne hname hline) h

namespace Quoting

variable {t : Quoting} {g : Group} {p : Pattern} {ps qs : List Pattern} {s s' u : List Char}
  {c c' : Captures}

/-- A way through a pattern with a quoted name passes the quotes of the sentence there. -/
theorem exists_of_way (ps : List Pattern) (h : (all (ps ++ quoted g :: qs)).Way s s' c c')
    (hs : t.text = u ++ s) :
    ∃ v d, t.front = u ++ v ∧ (all ps).Way (v ++ t.tail) t.tail d c' ∧ d.text g = some t.name := by
  obtain ⟨m, d, hps, hrest⟩ := way_all_append.1 h
  obtain ⟨m', d', hquoted, -⟩ := way_all_cons.1 hrest
  obtain ⟨q, n, q', rfl, hq, hq', hn⟩ := exists_of_way_quoted hquoted
  obtain ⟨v, rfl⟩ := hps.exists_append
  rw [← List.append_assoc] at hs
  obtain ⟨hfront, rfl, -⟩ := eq_of_text hq hq' hs
  have htail : q :: (t.name ++ q' :: m') = t.tail := by
    rw [text, ← hfront] at hs
    exact (List.append_cancel_left hs).symm
  rw [htail] at hps
  exact ⟨v, d, hfront.symm, hps, hn⟩

/-- **The name in the quotes is captured**, whatever matches. -/
theorem name_of_search (ps : List Pattern) (hps : ∀ p ∈ ps, p.Spares g)
    (h : (all (ps ++ quoted g :: qs)).search t.text = some c) : c.text g = some t.name := by
  obtain ⟨u, s, s', hs, hway⟩ := exists_way_of_search h
  obtain ⟨v, d, -, hps', hd⟩ := exists_of_way ps hway hs
  exact (hps'.text_eq (spares_all.2 hps)).trans hd

/-- **The verb of a phrase stands in front of the quotes.** -/
theorem isSome_of_search (hp : p.endFree = true)
    (h : (all (p :: ps ++ quoted g :: qs)).search t.text = some c) :
    (p.search t.front).isSome := by
  obtain ⟨u, s, s', hs, hway⟩ := exists_way_of_search h
  obtain ⟨v, d, hfront, hps, -⟩ := exists_of_way (p :: ps) hway hs
  obtain ⟨m, e, hverb, hrest⟩ := way_all_cons.1 hps
  obtain ⟨w, rfl⟩ := hrest.exists_append
  obtain ⟨w', hw'⟩ := hverb.exists_append
  obtain rfl : v = w' ++ w := List.append_cancel_right (hw'.trans (List.append_assoc _ _ _).symm)
  rw [hfront]
  exact isSome_search_of_cut hp hverb u

theorem search_eq_none (ps : List Pattern) (hp : p.endFree = true)
    (hfront : (p.search t.front).isSome = false) :
    (all (p :: ps ++ quoted g :: qs)).search t.text = none := by
  rw [Option.eq_none_iff_forall_ne_some]
  intro c hc
  rw [isSome_of_search hp hc] at hfront
  cases hfront

/-! ## Phrases that make a note -/

/-- All words that may stand in front of the title of a new note end in `d`. -/
theorem exists_last_of_titledWord {w : String} (h : w ∈ ["titled", "called", "named"])
    {u : List Char} (hu : spells w.toList u = true) :
    ∃ v x, u = v ++ [x] ∧ foldsTo 'd' x = true := by
  simp only [List.mem_cons, List.not_mem_nil, or_false] at h
  rcases h with rfl | rfl | rfl
  · exact exists_last_of_spells (w := "title".toList) hu
  · exact exists_last_of_spells (w := "calle".toList) hu
  · exact exists_last_of_spells (w := "name".toList) hu

theorem last_of_titled (h : titled.Way s s' c c') (hs : t.text = u ++ s) :
    ∃ a x w, t.front = a ++ x :: w ∧ foldsTo 'd' x = true ∧ ∀ y ∈ w, isBlank y = true := by
  obtain ⟨v, d, hfront, hway, -⟩ :=
    exists_of_way [gap, oneOf ["titled", "called", "named"], gap] h hs
  obtain ⟨m₁, d₁, hgap, hrest⟩ := way_all_cons.1 hway
  obtain ⟨m₂, d₂, hword, hlast⟩ := way_all_cons.1 hrest
  obtain ⟨b, -, hb, -, -⟩ := exists_of_way_gap hgap
  obtain ⟨w, hw, u', rfl, hspells, -⟩ := exists_of_way_oneOf hword
  obtain ⟨b', -, rfl, hblank, -⟩ := exists_of_way_gap hlast
  obtain ⟨v', x, rfl, hx⟩ := exists_last_of_titledWord hw hspells
  have hv : v = b ++ (v' ++ [x] ++ b') := by
    refine List.append_cancel_right (hb.trans ?_)
    simp
  refine ⟨u ++ b ++ v', x, b', ?_, hx, hblank⟩
  rw [hfront, hv]
  simp

/-- The last letter in front of the quotes is a `d` in all phrases that make a note. -/
theorem last_of_create (hp : p ∈ createPatterns) (h : p.search t.text = some c) :
    ∃ a x w, t.front = a ++ x :: w ∧ foldsTo 'd' x = true ∧ ∀ y ∈ w, isBlank y = true := by
  obtain ⟨u, s, s', hs, hway⟩ := exists_way_of_search h
  have hlast : ∀ ps, (all (ps ++ [titled])).Way s s' {} c →
      ∃ a x w, t.front = a ++ x :: w ∧ foldsTo 'd' x = true ∧ ∀ y ∈ w, isBlank y = true := by
    intro ps hps
    obtain ⟨m, d, hhead, htitled⟩ := way_all_append.1 hps
    obtain ⟨v, rfl⟩ := hhead.exists_append
    rw [← List.append_assoc] at hs
    exact last_of_titled htitled hs
  simp only [createPatterns, List.mem_cons, List.not_mem_nil, or_false] at hp
  rcases hp with rfl | rfl | rfl
  · exact hlast [word "create", gap, maybe "a", word "note"] hway
  · exact hlast [oneOf ["make", "add"], gap, maybe "a", maybe "new", word "note"] hway
  · exact hlast [oneOf ["take", "write"], gap, maybe "a", word "note"] hway

/-- A sentence makes no note if the last letter in front of the quotes is another one. -/
theorem explicitCreateDraft?_eq_none {a : List Char} {x : Char} (hfront : t.front = a ++ [x, ' '])
    (hx : isBlank x = false) (hd : foldsTo 'd' x = false) :
    Family.explicitCreateDraft? t.text = none := by
  have hnone : firstMatch createPatterns t.text = none := by
    rw [firstMatch, List.findSome?_eq_none_iff]
    intro p hp
    rw [Option.eq_none_iff_forall_ne_some]
    intro c hc
    obtain ⟨a', x', w, heq, hx', hw⟩ := last_of_create hp hc
    obtain ⟨-, rfl⟩ := eq_of_last hx (not_isBlank_of_foldsTo (by decide) (by decide) hx')
      blank_space hw (hfront.symm.trans heq)
    rw [hd] at hx'
    cases hx'
  rw [Family.explicitCreateDraft?, hnone]
  rfl

/-! ## Phrases that add to a note -/

theorem search_addTo_eq_none {verb : String} (hverb : (word verb).endFree = true)
    (hfront : ((word verb).search t.front).isSome = false) : (addTo verb).search t.text = none :=
  search_eq_none [gap, group .first (few1 inLine), gap, word "to", gap, maybe "my"] hverb hfront

theorem search_updateWith_eq_none (hfront : ((word "update").search t.front).isSome = false) :
    updateWith.search t.text = none :=
  search_eq_none [gap, maybe "my"] (by decide) hfront

/-- A sentence adds to no note if it has none of the verbs in front of the quotes. -/
theorem updateDraft?_eq_none (hadd : ((word "add").search t.front).isSome = false)
    (hupdate : ((word "update").search t.front).isSome = false)
    (happend : ((word "append").search t.front).isSome = false) :
    Family.updateDraft? t.text = none := by
  have h₁ : (addTo "add").search t.text = none := search_addTo_eq_none (by decide) hadd
  have h₂ : updateWith.search t.text = none := search_updateWith_eq_none hupdate
  have h₃ : (addTo "append").search t.text = none := search_addTo_eq_none (by decide) happend
  simp [Family.updateDraft?, updatePatterns, h₁, h₂, h₃]

/-! ## Phrases that remove a note -/

theorem search_verbNamed_eq_none {verb : Pattern} (hverb : verb.endFree = true)
    (hfront : (verb.search t.front).isSome = false) : (verbNamed verb).search t.text = none :=
  search_eq_none [gap, maybe "my", maybe "note"] hverb hfront

/-- A sentence removes no note if it has none of the verbs in front of the quotes. -/
theorem deleteDraft?_eq_none (hdelete : ((word "delete").search t.front).isSome = false)
    (hremove : ((word "remove").search t.front).isSome = false)
    (htrash : ((word "trash").search t.front).isSome = false)
    (hget : ((all [word "get", gap, word "rid", gap, word "of"]).search t.front).isSome = false) :
    Family.delete.draft? t.text = none := by
  have h₁ : (verbNamed (word "delete")).search t.text = none :=
    search_verbNamed_eq_none (by decide) hdelete
  have h₂ : (verbNamed (word "remove")).search t.text = none :=
    search_verbNamed_eq_none (by decide) hremove
  have h₃ : (verbNamed (word "trash")).search t.text = none :=
    search_verbNamed_eq_none (by decide) htrash
  have h₄ : (verbNamed (all [word "get", gap, word "rid", gap, word "of"])).search t.text = none :=
    search_verbNamed_eq_none (by decide) hget
  simp [Family.draft?, Family.titleDraft?, firstMatch, deletePatterns, h₁, h₂, h₃, h₄]

end Quoting

end PlainNotes.Phrase

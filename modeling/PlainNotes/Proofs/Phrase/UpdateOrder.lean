import PlainNotes.Proofs.Phrase.PlainWording
import PlainNotes.Proofs.Phrase.Recognition

/-!
# Titles of updates

Each phrase that adds to a note captures two groups, one of them in quotes.  Which of the two is the
title does not depend on the phrase but on whether the sentence says `update` anywhere.  A sentence in
which the phrase with that verb is found says it, however it spells the verb, so that the name in
this phrase is the title.  The names in the other two are the title unless the verb stands somewhere
else in the sentence.

* `Chosen`: the phrase that counts, and its match.
* `exists_quoted_of_search`: what one of the groups captures stands between quotes.
* `mentions_of_updateWith`: the phrase with the verb is found only where the verb is mentioned.
* `updates_by_first_phrase`: the title and the item of an update.
-/

namespace PlainNotes

open Text Phrase Pattern

/-- The phrases that add to a note. -/
inductive UpdatePhrase
  | add
  | update
  | append
  deriving DecidableEq, Repr

namespace UpdatePhrase

/-- The phrases in the order in which they are tried. -/
def all : List UpdatePhrase := [add, update, append]

def pattern : UpdatePhrase → Pattern
  | add => addTo "add"
  | update => updateWith
  | append => addTo "append"

/-- The group that the phrase has in quotes. -/
def quotedGroup : UpdatePhrase → Group
  | add | append => .second
  | update => .first

/-- The group that the phrase has without quotes. -/
def openGroup : UpdatePhrase → Group
  | add | append => .first
  | update => .second

/-- The phrase is the first one that occurs in the sentence, and this is its match. -/
def Chosen (r : UpdatePhrase) (s : List Char) (found : Captures) : Prop :=
  ∃ before after, all = before ++ r :: after ∧ (∀ r' ∈ before, r'.pattern.search s = none) ∧
    r.pattern.search s = some found

variable {r : UpdatePhrase} {s : List Char} {found : Captures}

theorem mem_all (r : UpdatePhrase) : r ∈ all := by
  cases r <;> decide

theorem updatePatterns_eq : updatePatterns = all.map pattern := rfl

theorem pattern_mem (r : UpdatePhrase) : r.pattern ∈ updatePatterns :=
  updatePatterns_eq ▸ List.mem_map_of_mem r.mem_all

/-- Where any of the phrases occurs, one of them is the first. -/
theorem exists_chosen_iff :
    (∃ r found, Chosen r s found) ↔ ∃ r : UpdatePhrase, r.pattern.search s ≠ none := by
  constructor
  · rintro ⟨r, found, -, -, -, -, hfound⟩
    exact ⟨r, by simp [hfound]⟩
  · rintro ⟨r, hr⟩
    have hsome : (all.findSome? fun r => (r.pattern.search s).map (r, ·)).isSome = true := by
      rw [List.findSome?_isSome_iff]
      exact ⟨r, r.mem_all, by simpa [Option.isSome_iff_ne_none] using hr⟩
    obtain ⟨⟨r', found⟩, h⟩ := Option.isSome_iff_exists.1 hsome
    obtain ⟨before, r'', after, hall, hfound, hbefore⟩ := List.findSome?_eq_some_iff.1 h
    obtain ⟨found', hfound', heq⟩ := Option.map_eq_some_iff.1 hfound
    obtain ⟨rfl, rfl⟩ := Prod.mk.inj heq
    exact ⟨r'', found', before, after, hall, by simpa using hbefore, hfound'⟩

/-! ## Groups -/

/-- What a quoted group captures stands between quotes. -/
theorem exists_quoted_of_search {g : Group} (ps : List Pattern) {qs : List Pattern}
    (hps : ∀ p ∈ ps, p.Spares g) (h : (Pattern.all (ps ++ quoted g :: qs)).search s = some found) :
    ∃ q name q', found.text g = some name ∧ isQuote q = true ∧ isQuote q' = true ∧
      q :: (name ++ [q']) <:+: s := by
  obtain ⟨a, t, s', rfl, hway⟩ := exists_way_of_search h
  obtain ⟨m, d, hfront, hrest⟩ := way_all_append.1 hway
  obtain ⟨m', d', hquoted, -⟩ := way_all_cons.1 hrest
  obtain ⟨q, name, q', rfl, hq, hq', hname⟩ := exists_of_way_quoted hquoted
  obtain ⟨v, rfl⟩ := hfront.exists_append
  refine ⟨q, name, q', (hfront.text_eq (spares_all.2 hps)).trans hname, hq, hq', a ++ v, m', ?_⟩
  simp

theorem exists_quotedGroup (h : r.pattern.search s = some found) :
    ∃ q name q', found.text r.quotedGroup = some name ∧ isQuote q = true ∧ isQuote q' = true ∧
      q :: (name ++ [q']) <:+: s := by
  have haddTo : ∀ verb, (addTo verb).search s = some found →
      ∃ q name q', found.text .second = some name ∧ isQuote q = true ∧ isQuote q' = true ∧
        q :: (name ++ [q']) <:+: s := by
    have hitem : (group .first (few1 inLine)).Spares .second :=
      spares_group (by decide) spares_few1
    intro verb
    exact exists_quoted_of_search
      [word verb, gap, group .first (few1 inLine), gap, word "to", gap, maybe "my"]
      (by simp [hitem])
  cases r with
  | add => exact haddTo "add" h
  | update => exact exists_quoted_of_search [word "update", gap, maybe "my"] (by simp) h
  | append => exact haddTo "append" h

/-- **The phrase with the verb is found only where the verb is mentioned.**  Nothing above ASCII
folds to one of its letters, so that all its spellings have the same lowercase. -/
theorem mentions_of_updateWith (h : updateWith.search s = some found) :
    mentions ["update"] (lowercase s) = true := by
  obtain ⟨a, t, s', rfl, hway⟩ := exists_way_of_search h
  obtain ⟨m, d, hverb, -⟩ := way_all_cons.1 hway
  obtain ⟨u, rfl, hu, -⟩ := exists_of_way_word hverb
  obtain ⟨hlower, hascii⟩ := toLower_of_spells (by decide) hu
  exact mentions_of_infix hascii hlower (List.infix_append' a u m)

/-! ## Drafts -/

/-- The draft that adds an item to a note. -/
def made (title item : List Char) : Draft :=
  Family.draft .update title (some [stripQuotes (trim item)])

/-- Every match counts, since both groups are captured. -/
theorem Chosen.updateDraft?_eq (h : r.Chosen s found) :
    ∃ first second, found.text .first = some first ∧ found.text .second = some second ∧
      Family.updateDraft? s = some
        (if mentions ["update"] (lowercase s) then made first second else made second first) := by
  obtain ⟨before, after, hall, hbefore, hfound⟩ := h
  obtain ⟨hfirst, hsecond⟩ := update_catches r.pattern r.pattern_mem
  obtain ⟨first, htext, hne, -⟩ := hfirst.search hfound
  obtain ⟨second, htext', hne', -⟩ := hsecond.search hfound
  refine ⟨first, second, htext, htext', ?_⟩
  have hd : Family.updateMatchDraft? (mentions ["update"] (lowercase s)) found = some
      (if mentions ["update"] (lowercase s) then made first second else made second first) :=
    updateMatchDraft?_eq htext htext' hne hne'
  rw [Family.updateDraft?, updatePatterns_eq, hall, List.findSome?_map, List.findSome?_eq_some_iff]
  refine ⟨before, r, after, rfl, ?_, ?_⟩
  · simp [hfound, hd]
  · intro r' hr'
    simp [hbefore r' hr']

theorem updateDraft?_ne_none_iff :
    Family.updateDraft? s ≠ none ↔ ∃ r : UpdatePhrase, r.pattern.search s ≠ none := by
  rw [Ne, Family.updateDraft?_eq_none_iff, updatePatterns_eq]
  simp [mem_all]

/-- The group in quotes is the first one only in the phrase with the verb `update`. -/
theorem groups_cases {first second : List Char} (hfirst : found.text .first = some first)
    (hsecond : found.text .second = some second) :
    r = update ∧ found.text r.quotedGroup = some first ∧ found.text r.openGroup = some second ∨
      r ≠ update ∧ found.text r.quotedGroup = some second ∧
        found.text r.openGroup = some first := by
  cases r with
  | update => exact Or.inl ⟨rfl, hfirst, hsecond⟩
  | add | append => exact Or.inr ⟨by decide, hsecond, hfirst⟩

end UpdatePhrase

open UpdatePhrase

/-- **Which group is the title of an update.**  There is a draft exactly if one of the phrases
occurs, and the first one that does decides, whatever it captures.  If the sentence does not mention
`update`, the title is the group in quotes, and the phrase is one of the other two.  If it does, the
title is the first group, which for these two is the group without quotes. -/
theorem updates_by_first_phrase (s : List Char) :
    (Family.updateDraft? s ≠ none ↔ ∃ r : UpdatePhrase, r.pattern.search s ≠ none) ∧
    ((∃ r : UpdatePhrase, r.pattern.search s ≠ none) → ∃ r found, Chosen r s found) ∧
    ∀ r found, Chosen r s found → ∃ first second name item,
      found.text .first = some first ∧ found.text .second = some second ∧
      found.text r.quotedGroup = some name ∧ found.text r.openGroup = some item ∧
      (∃ q q', isQuote q = true ∧ isQuote q' = true ∧ q :: (name ++ [q']) <:+: s) ∧
      (mentions ["update"] (lowercase s) = false →
        r ≠ .update ∧ Family.updateDraft? s = some (made name item)) ∧
      (mentions ["update"] (lowercase s) = true →
        Family.updateDraft? s = some (made first second)) ∧
      (r = .update → mentions ["update"] (lowercase s) = true ∧
        Family.updateDraft? s = some (made name item)) ∧
      (r ≠ .update → mentions ["update"] (lowercase s) = true →
        Family.updateDraft? s = some (made item name)) := by
  refine ⟨updateDraft?_ne_none_iff, exists_chosen_iff.2, ?_⟩
  intro r found h
  obtain ⟨first, second, hfirst, hsecond, hd⟩ := h.updateDraft?_eq
  obtain ⟨-, -, -, -, hfound⟩ := h
  obtain ⟨q, name, q', hname, hq, hq', hin⟩ := exists_quotedGroup hfound
  rcases groups_cases (r := r) hfirst hsecond with ⟨rfl, hquoted, hopen⟩ | ⟨hr, hquoted, hopen⟩
  · obtain rfl := Option.some.inj (hname.symm.trans hquoted)
    have hmentions := mentions_of_updateWith hfound
    rw [hmentions, if_pos rfl] at hd
    refine ⟨name, second, name, second, hfirst, hsecond, hname, hopen, ⟨q, q', hq, hq', hin⟩,
      ?_, fun _ => hd, fun _ => ⟨hmentions, hd⟩, fun hne => absurd rfl hne⟩
    intro hnot
    rw [hmentions] at hnot
    cases hnot
  · obtain rfl := Option.some.inj (hname.symm.trans hquoted)
    refine ⟨first, name, name, first, hfirst, hsecond, hname, hopen, ⟨q, q', hq, hq', hin⟩,
      ?_, ?_, fun heq => absurd heq hr, ?_⟩
    · intro hnot
      rw [hnot] at hd
      exact ⟨hr, hd⟩
    · intro hmentions
      rwa [hmentions, if_pos rfl] at hd
    · intro _ hmentions
      rwa [hmentions, if_pos rfl] at hd

/-- With `update` in it, the item becomes the title. -/
example : Family.updateDraft? "Append an update to 'list'".toList =
    some (made "an update".toList "list".toList) := by
  decide +kernel

end PlainNotes

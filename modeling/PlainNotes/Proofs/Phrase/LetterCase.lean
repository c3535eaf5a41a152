import PlainNotes.Proofs.Pattern.Mapped
import PlainNotes.Proofs.Phrase.Origin
import PlainNotes.Proofs.Text.LetterCase

/-!
# Sentences in another case

Apart from plans for a trip, a sentence is read regardless of the case of its letters: what is read
of the sentence in small letters is what is read of the sentence itself, in small letters.

* `create_blind`, `update_blind`, `delete_blind`, `search_blind`, `topic_blind`: phrases do not see
  the case of letters.
* `draft?_toLower`: the drafts of the families.
* `classify_toLower`: commands.
* `classify_ignores_case`: two sentences that differ in the case of letters.
-/

namespace PlainNotes

namespace Phrase

open Text Pattern

/-! ## Phrases -/

/-- The word has no letters but small ones. -/
def IsSmall (w : String) : Prop :=
  ∀ letter ∈ w.toList, letter ∈ capitals.map Char.toLower

instance (w : String) : Decidable (IsSmall w) :=
  decidable_of_iff
    ((w.toList.all fun letter => decide (letter ∈ capitals.map Char.toLower)) = true)
    (by simp [IsSmall])

@[simp] theorem blind_word {w : String} (hw : IsSmall w) : (word w).Blind Char.toLower := by
  rw [word, blind_all]
  intro p hp
  obtain ⟨letter, hletter, rfl⟩ := List.mem_map.1 hp
  exact foldsTo_toLower (hw letter hletter)

@[simp] theorem blind_oneOf {ws : List String} (hws : ∀ w ∈ ws, IsSmall w) :
    (oneOf ws).Blind Char.toLower := by
  rw [oneOf, blind_any]
  intro p hp
  obtain ⟨w, hw, rfl⟩ := List.mem_map.1 hp
  exact blind_word (hws w hw)

@[simp] theorem blind_gap : gap.Blind Char.toLower := blind_many1 isBlank_toLower

@[simp] theorem blind_maybe {w : String} (hw : IsSmall w) : (maybe w).Blind Char.toLower :=
  blind_optional.2 ⟨blind_word hw, blind_gap⟩

theorem isQuote_toLower (c : Char) : isQuote c.toLower = isQuote c :=
  class_toLower (forall_mem_of_all (by decide)) c

theorem inLine_toLower (c : Char) : inLine c.toLower = inLine c :=
  class_toLower (forall_mem_of_all (by decide)) c

@[simp] theorem blind_few1_inLine : (few1 inLine).Blind Char.toLower := blind_few1 inLine_toLower

@[simp] theorem blind_many1_inLine : (many1 inLine).Blind Char.toLower :=
  blind_many1 inLine_toLower

@[simp] theorem blind_quoted (g : Group) : (quoted g).Blind Char.toLower := by
  have hquote : (one isQuote).Blind Char.toLower := isQuote_toLower
  simp [quoted, hquote]

@[simp] theorem blind_withItems : withItems.Blind Char.toLower := by
  have hcolon : (seq (many isBlank) (one (· == ':'))).Blind Char.toLower :=
    ⟨isBlank_toLower, beq_toLower (by decide)⟩
  rw [withItems]
  simp +decide [hcolon]

@[simp] theorem blind_titled : titled.Blind Char.toLower := by
  rw [titled]
  simp +decide

theorem create_blind : ∀ p ∈ createPatterns, p.Blind Char.toLower := by
  simp +decide [createPatterns]

theorem update_blind : ∀ p ∈ updatePatterns, p.Blind Char.toLower := by
  simp +decide [updatePatterns, addTo, updateWith]

theorem delete_blind : ∀ p ∈ deletePatterns, p.Blind Char.toLower := by
  simp +decide [deletePatterns, verbNamed]

theorem search_blind : ∀ p ∈ searchPatterns, p.Blind Char.toLower := by
  simp +decide [searchPatterns, verbNamed]

theorem topic_blind : ∀ p ∈ topicPatterns, p.Blind Char.toLower := by
  have hend : (alt (one isBlank) atEnd).Blind Char.toLower := ⟨isBlank_toLower, trivial⟩
  simp +decide [topicPatterns, quotedSpan, noteTopic, hend]

/-! ## Matches -/

theorem firstMatch_map {f : Char → Char} {ps : List Pattern} (hps : ∀ p ∈ ps, p.Blind f)
    (s : List Char) : firstMatch ps (s.map f) = (firstMatch ps s).map (Captures.map f) := by
  induction ps with
  | nil => rfl
  | cons p ps ih =>
    obtain ⟨hp, hrest⟩ := List.forall_mem_cons.1 hps
    have hsearch := search_map hp s
    cases hfound : p.search s with
    | none =>
      rw [hfound] at hsearch
      rw [firstMatch_tail hsearch, firstMatch_tail hfound, ih hrest]
    | some found =>
      rw [hfound] at hsearch
      rw [firstMatch_head hsearch, firstMatch_head hfound, Option.map_some]

end Phrase

open Text Phrase Pattern

/-! ## Drafts and commands -/

theorem toList_toLower (s : String) : s.toLower.toList = s.toList.map Char.toLower :=
  String.toList_map

theorem ofList_toLower (s : List Char) :
    String.ofList (s.map Char.toLower) = (String.ofList s).toLower := by
  rw [← String.toList_inj, toList_toLower, String.toList_ofList, String.toList_ofList]

theorem toLower_eq_empty_iff {s : String} : s.toLower = "" ↔ s = "" := by
  rw [← String.toList_inj, ← String.toList_inj, toList_toLower]
  simp

/-- The draft with its title and items in small letters. -/
def Draft.small (d : Draft) : Draft :=
  { d with title := d.title.toLower, content := d.content.map (List.map String.toLower) }

/-- The command with its title and items in small letters. -/
def Command.small (c : Command) : Command where
  action := c.action
  title := c.title.toLower
  content := c.content.map String.toLower
  folder := c.folder
  title_ne := fun h => c.title_ne (toLower_eq_empty_iff.1 h)

/-- The draft of an intent, in small letters. -/
def Intent.small (i : Intent) : Intent :=
  ⟨i.family, i.command.small⟩

theorem validate_small (d : Draft) : d.small.validate = d.validate.map Command.small := by
  rw [Draft.validate, Draft.validate, Draft.small]
  cases Action.ofName? d.action with
  | none => rfl
  | some action =>
    by_cases htitle : d.title = ""
    · have hsmall : d.title.toLower = "" := toLower_eq_empty_iff.2 htitle
      dsimp only
      rw [dif_pos hsmall, dif_pos htitle]
      rfl
    · have hsmall : d.title.toLower ≠ "" := fun h => htitle (toLower_eq_empty_iff.1 h)
      dsimp only
      rw [dif_neg hsmall, dif_neg htitle, Except.map, Command.small]
      cases d.content <;> simp

namespace Family

variable {f : Family}

theorem draft_toLower (action : Action) (title : List Char) (content : Option (List (List Char))) :
    draft action (title.map Char.toLower) (content.map (List.map (List.map Char.toLower))) =
      (draft action title content).small := by
  simp [draft, Draft.small, ofList_toLower, Function.comp_def]

theorem titleDraft?_toLower {action : Action} {content : Option (List (List Char))}
    {ps : List Pattern} (hps : ∀ p ∈ ps, p.Blind Char.toLower)
    (hcontent : content.map (List.map (List.map Char.toLower)) = content) (s : List Char) :
    titleDraft? action content ps (s.map Char.toLower) =
      (titleDraft? action content ps s).map Draft.small := by
  have hdraft : ∀ title, draft action (title.map Char.toLower) content =
      (draft action title content).small := by
    intro title
    rw [← draft_toLower, hcontent]
  simp only [titleDraft?, firstMatch_map hps, Option.bind_eq_bind, Option.pure_def]
  cases firstMatch ps s with
  | none => rfl
  | some found =>
    simp only [Option.map_some, Option.bind_some, Captures.text_map]
    cases found.text .first with
    | none => rfl
    | some title => exact congrArg some (hdraft title)

theorem explicitCreateDraft?_toLower (s : List Char) :
    explicitCreateDraft? (s.map Char.toLower) = (explicitCreateDraft? s).map Draft.small := by
  simp only [explicitCreateDraft?, firstMatch_map create_blind, Option.bind_eq_bind,
    Option.pure_def]
  cases firstMatch createPatterns s with
  | none => rfl
  | some found =>
    simp only [Option.map_some, Option.bind_some, Captures.text_map]
    cases found.text .first with
    | none => rfl
    | some title =>
      have hitems : (((found.text .second).map (List.map Char.toLower)).map splitItems).getD [] =
          (((found.text .second).map splitItems).getD []).map (List.map Char.toLower) := by
        cases found.text .second with
        | none => rfl
        | some span => exact splitItems_toLower span
      simp only [Option.map_some, Option.bind_some, hitems]
      exact congrArg some (draft_toLower .create title (some _))

theorem updateMatchDraft?_toLower (titleFirst : Bool) (found : Captures) :
    updateMatchDraft? titleFirst (found.map Char.toLower) =
      (updateMatchDraft? titleFirst found).map Draft.small := by
  have hgroup : ∀ g, ((found.map Char.toLower).text g).getD [] =
      ((found.text g).getD []).map Char.toLower := by
    intro g
    rw [Captures.text_map]
    cases found.text g <;> rfl
  have hmade : ∀ title item : List Char,
      (if (title.map Char.toLower).isEmpty || (item.map Char.toLower).isEmpty then none
        else some (draft .update (title.map Char.toLower)
          (some [stripQuotes (trim (item.map Char.toLower))]))) =
      (if title.isEmpty || item.isEmpty then none
        else some (draft .update title (some [stripQuotes (trim item)]))).map Draft.small := by
    intro title item
    rw [List.isEmpty_map, List.isEmpty_map, trim_toLower, stripQuotes_toLower]
    split
    · rfl
    · exact congrArg some (draft_toLower .update title (some [_]))
  simp only [updateMatchDraft?, hgroup]
  rw [List.isEmpty_map]
  cases titleFirst && !((found.text .first).getD []).isEmpty with
  | true => exact hmade _ _
  | false => exact hmade _ _

theorem updateDraft?_toLower (s : List Char) :
    updateDraft? (s.map Char.toLower) = (updateDraft? s).map Draft.small := by
  rw [updateDraft?, updateDraft?, lowercase_toLower]
  have hps := update_blind
  generalize updatePatterns = ps at hps ⊢
  induction ps with
  | nil => rfl
  | cons p ps ih =>
    obtain ⟨hp, hrest⟩ := List.forall_mem_cons.1 hps
    rw [List.findSome?_cons, List.findSome?_cons, ih hrest, search_map hp]
    cases p.search s with
    | none => rfl
    | some found =>
      simp only [Option.map_some, Option.bind_eq_bind, Option.bind_some, updateMatchDraft?_toLower]
      cases updateMatchDraft? (mentions ["update"] (lowercase s)) found <;> rfl

/-- **What a family reads from a sentence in small letters** is what it reads from the sentence.
Only the words of trips are asked for in exactly their case. -/
theorem draft?_toLower (hf : f ≠ tripPlan) (s : List Char) :
    f.draft? (s.map Char.toLower) = (f.draft? s).map Draft.small := by
  cases f with
  | tripPlan => exact absurd rfl hf
  | longText =>
    refine congrArg some ?_
    rw [longTextDraft, leadingWords_toLower]
    exact draft_toLower .create _ (some [s])
  | explicitCreate => exact explicitCreateDraft?_toLower s
  | update => exact updateDraft?_toLower s
  | delete => exact titleDraft?_toLower delete_blind rfl s
  | search => exact titleDraft?_toLower search_blind rfl s
  | fallbackCreate => exact titleDraft?_toLower topic_blind rfl s

theorem applies_toLower (f : Family) (s : List Char) :
    f.applies (s.map Char.toLower) = f.applies s := by
  have hquote : isQuote ∘ Char.toLower = isQuote := funext isQuote_toLower
  cases f with
  | longText => rw [applies, applies, List.length_map, List.any_map, hquote]
  | tripPlan | fallbackCreate => rw [applies, applies, lowercase_toLower]
  | explicitCreate | update | delete | search => rfl

theorem command?_toLower (hf : f ≠ tripPlan) (s : List Char) :
    f.command? (s.map Char.toLower) = (f.command? s).map Command.small := by
  rw [command?, command?, applies_toLower, draft?_toLower hf]
  split
  · cases f.draft? s with
    | none => rfl
    | some d =>
      simp only [Option.map_some, Option.bind_some, validate_small]
      cases d.validate <;> rfl
  · rfl

theorem command?_tripPlan {s : List Char} (h : mentions tripWords (lowercase s) = false) :
    tripPlan.command? s = none := by
  rw [command?, applies, h]
  rfl

end Family

open Family

/-- **A sentence in small letters** is read as the sentence is, if it is about no trip. -/
theorem classify_toLower {text : String}
    (htrip : mentions tripWords (lowercase text.toList) = false) :
    classify text.toLower = (classify text).map Intent.small := by
  have hsmall : mentions tripWords (lowercase text.toLower.toList) = false := by
    rw [toList_toLower, lowercase_toLower, htrip]
  rw [classify, findings, classify, findings, findSome?_findingsAmong, findSome?_findingsAmong,
    List.map_findSome?]
  refine congrArg (List.findSome? · Family.all) (funext fun f => ?_)
  by_cases hf : f = tripPlan
  · subst hf
    simp [command?_tripPlan htrip, command?_tripPlan hsmall]
  · simp only [Function.comp, toList_toLower, command?_toLower hf, Option.map_map]
    rfl

/-! ## Sentences that differ in the case of letters -/

/-- The command writes its title and its items as the text does.  They are stretches of its lines,
or else its first words and the whole of it. -/
def Family.KeepsCase : Family → String → Command → Prop
  | longText, text, c =>
    c.title.toList = leadingWords longTextTitleWords text.toList ∧ c.content = [text]
  | tripPlan, text, c | explicitCreate, text, c | update, text, c | delete, text, c
  | search, text, c | fallbackCreate, text, c =>
    ∀ part ∈ c.title :: c.content, StretchOf part.toList text.toList

theorem Family.keepsCase_of_reads {f : Family} {text : String} {c : Command} (hf : f ≠ tripPlan)
    (h : f.Reads text.toList c) : f.KeepsCase text c := by
  have hpromise := promise_of_reads h
  cases f with
  | tripPlan => exact absurd rfl hf
  | longText =>
    obtain ⟨-, d, hd, hvalid⟩ := h
    obtain rfl := Option.some.inj hd
    exact ⟨(eq_of_validate hvalid).1, hpromise⟩
  | explicitCreate =>
    obtain ⟨htitle, hitems, -⟩ := hpromise
    exact List.forall_mem_cons.2 ⟨htitle, fun item hitem => (hitems item hitem).1⟩
  | update =>
    obtain ⟨htitle, item, hcontent, hitem⟩ := hpromise
    rw [KeepsCase, hcontent]
    simpa using ⟨htitle, hitem⟩
  | delete | search | fallbackCreate =>
    obtain ⟨htitle, hcontent⟩ := hpromise
    rw [KeepsCase, hcontent]
    simpa using htitle

theorem keepsCase_of_classify {text : String} {f : Family} {c : Command}
    (htrip : mentions tripWords (lowercase text.toList) = false)
    (h : classify text = some ⟨f, c⟩) : f.KeepsCase text c := by
  obtain ⟨-, -, -, hreads, -⟩ := classify_eq_some_iff.1 h
  refine keepsCase_of_reads ?_ hreads
  rintro rfl
  have happlies : tripPlan.applies text.toList = false := htrip
  exact not_reads_of_applies happlies c hreads

/-- **The case of letters does not change what is understood**, apart from trips.  Two sentences that
differ in it alone have the same full lowercase.  Either neither is understood, or the same family
reads both, for the same action, with titles and items that differ in the case of letters alone and
are written as their own sentence writes them. -/
theorem classify_ignores_case {text text' : String} (hcase : text.toLower = text'.toLower)
    (htrip : mentions tripWords (lowercase text.toList) = false) :
    lowercase text.toList = lowercase text'.toList ∧
    (classify text = none ∧ classify text' = none ∨
      ∃ f c c', classify text = some ⟨f, c⟩ ∧ classify text' = some ⟨f, c'⟩ ∧
        c.action = c'.action ∧ c.content.length = c'.content.length ∧
        c.title.toLower = c'.title.toLower ∧
        c.content.map String.toLower = c'.content.map String.toLower ∧
        f.KeepsCase text c ∧ f.KeepsCase text' c') := by
  have hlower : lowercase text.toList = lowercase text'.toList := by
    rw [← lowercase_toLower, ← toList_toLower, hcase, toList_toLower, lowercase_toLower]
  have htrip' : mentions tripWords (lowercase text'.toList) = false := hlower ▸ htrip
  have hsame : (classify text).map Intent.small = (classify text').map Intent.small := by
    rw [← classify_toLower htrip, hcase, classify_toLower htrip']
  refine ⟨hlower, ?_⟩
  cases hread : classify text with
  | none =>
    rw [hread, Option.map_none, eq_comm, Option.map_eq_none_iff] at hsame
    exact Or.inl ⟨rfl, hsame⟩
  | some i =>
    obtain ⟨f, c⟩ := i
    rw [hread, Option.map_some, eq_comm, Option.map_eq_some_iff] at hsame
    obtain ⟨⟨f', c'⟩, hread', hsmall⟩ := hsame
    obtain ⟨rfl, hcommand⟩ := Intent.mk.inj hsmall
    obtain ⟨haction, htitle, hcontent, -⟩ := Command.mk.inj hcommand
    have hlength := congrArg List.length hcontent
    rw [List.length_map, List.length_map] at hlength
    exact Or.inr ⟨f', c, c', rfl, hread', haction.symm, hlength.symm, htitle.symm, hcontent.symm,
      keepsCase_of_classify htrip hread, keepsCase_of_classify htrip' hread'⟩

/-- A sigma in front of a letter is in the middle of a word, whatever the case of that letter. -/
theorem classify_ignores_case_sigma :
    classify "Make a note about ΟΔΟΣa" =
      some ⟨.fallbackCreate, ⟨.create, "ΟΔΟΣa", [], none, by decide⟩⟩ ∧
    ∃ c, classify "mAKE a NOTE about ΟΔΟΣA" = some ⟨.fallbackCreate, c⟩ ∧ c.action = .create ∧
      c.content.length = 0 ∧ c.title.toLower = "ΟΔΟΣa".toLower := by
  have hread : classify "Make a note about ΟΔΟΣa" =
      some ⟨.fallbackCreate, ⟨.create, "ΟΔΟΣa", [], none, by decide⟩⟩ := by decide +kernel
  have hcase : "Make a note about ΟΔΟΣa".toLower = "mAKE a NOTE about ΟΔΟΣA".toLower := by
    rw [← String.toList_inj, toList_toLower, toList_toLower]
    decide +kernel
  have htrip : mentions tripWords (lowercase "Make a note about ΟΔΟΣa".toList) = false := by
    decide +kernel
  refine ⟨hread, ?_⟩
  obtain ⟨-, ⟨hnone, -⟩ | ⟨f, c, c', hc, hc', haction, hlength, htitle, -⟩⟩ :=
    classify_ignores_case hcase htrip
  · rw [hread] at hnone
    cases hnone
  · obtain ⟨rfl, rfl⟩ := Intent.mk.inj (Option.some.inj (hread.symm.trans hc))
    exact ⟨c', hc', haction.symm, hlength.symm, htitle.symm⟩

end PlainNotes

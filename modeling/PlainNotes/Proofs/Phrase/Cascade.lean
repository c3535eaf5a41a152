import PlainNotes.Phrase.Family
import PlainNotes.Proofs.Phrase.Wording

/-!
# The first family that reads a command

A family reads a command from a sentence if it applies and the draft it reads is valid.  A reading
could also end at a draft that is no command, since most families reject the sentence then; it never
does.  `valid_of_draft?` says that every draft but that of a long text is valid, and
`first_family_reads` draws the consequence: a sentence is read by the first family that reads a
command from it, and not understood only if no family does.
-/

namespace PlainNotes

open Phrase Pattern

namespace Family

/-- The family applies to the sentence, and its draft is the command. -/
def Reads (f : Family) (s : List Char) (c : Command) : Prop :=
  f.applies s = true ∧ ∃ d, f.draft? s = some d ∧ d.validate = .ok c

/-! ## Drafts that are commands -/

/-- A draft with a title is valid, and is the command of the same action, title and items. -/
theorem validate_draft (action : Action) {title : List Char} (content : Option (List (List Char)))
    (h : title ≠ []) :
    (draft action title content).validate =
      .ok ⟨action, String.ofList title, (content.map (·.map String.ofList)).getD [], none,
        by simpa using h⟩ := by
  simp [draft, Draft.validate, h]

theorem validate_draft_nil (action : Action) (content : Option (List (List Char))) :
    (draft action [] content).validate = .error .emptyTitle := by
  simp [draft, Draft.validate]

variable {s : List Char} {d : Draft}

theorem exists_draft_of_titleDraft? {action : Action} {content : Option (List (List Char))}
    {ps : List Pattern} (h : titleDraft? action content ps s = some d) :
    ∃ found title, firstMatch ps s = some found ∧ found.text .first = some title ∧
      d = draft action title content := by
  simp only [titleDraft?, Option.bind_eq_bind, Option.bind_eq_some_iff, Option.pure_def,
    Option.some.injEq] at h
  obtain ⟨found, hfound, title, htitle, rfl⟩ := h
  exact ⟨found, title, hfound, htitle, rfl⟩

theorem exists_draft_of_explicitCreateDraft? (h : explicitCreateDraft? s = some d) :
    ∃ found title, firstMatch createPatterns s = some found ∧ found.text .first = some title ∧
      d = draft .create title (some (((found.text .second).map splitItems).getD [])) := by
  simp only [explicitCreateDraft?, Option.bind_eq_bind, Option.bind_eq_some_iff, Option.pure_def,
    Option.some.injEq] at h
  obtain ⟨found, hfound, title, htitle, rfl⟩ := h
  exact ⟨found, title, hfound, htitle, rfl⟩

theorem exists_draft_of_tripPlanDraft? (h : tripPlanDraft? s = some d) :
    ∃ found place, firstMatch tripPatterns s = some found ∧ found.text .first = some place ∧
      d = draft .create ("Trip plan: ".toList ++ Text.trim place) (some [s]) := by
  simp only [tripPlanDraft?, Option.bind_eq_bind, Option.bind_eq_some_iff, Option.pure_def,
    Option.some.injEq] at h
  obtain ⟨found, hfound, place, hplace, rfl⟩ := h
  exact ⟨found, place, hfound, hplace, rfl⟩

theorem valid_of_titleDraft? {action : Action} {content : Option (List (List Char))}
    {ps : List Pattern} (hps : ∀ p ∈ ps, p.Catches .first inLine)
    (h : titleDraft? action content ps s = some d) : ∃ c, d.validate = .ok c := by
  obtain ⟨found, title, hfound, htitle, rfl⟩ := exists_draft_of_titleDraft? h
  obtain ⟨u, hu, hne, -⟩ := exists_name hps hfound
  obtain rfl := Option.some.inj (htitle.symm.trans hu)
  exact ⟨_, validate_draft action content hne⟩

theorem valid_of_explicitCreateDraft? (h : explicitCreateDraft? s = some d) :
    ∃ c, d.validate = .ok c := by
  obtain ⟨found, title, hfound, htitle, rfl⟩ := exists_draft_of_explicitCreateDraft? h
  obtain ⟨u, hu, hne, -⟩ := exists_name create_catches hfound
  obtain rfl := Option.some.inj (htitle.symm.trans hu)
  exact ⟨_, validate_draft .create _ hne⟩

theorem valid_of_updateMatchDraft? {titleFirst : Bool} {found : Captures} {d : Draft}
    (h : updateMatchDraft? titleFirst found = some d) : ∃ c, d.validate = .ok c := by
  simp only [updateMatchDraft?, Option.ite_none_left_eq_some, Bool.or_eq_true, List.isEmpty_iff,
    not_or, Option.some.injEq] at h
  obtain ⟨⟨htitle, -⟩, rfl⟩ := h
  exact ⟨_, validate_draft .update _ htitle⟩

theorem valid_of_updateDraft? {s : List Char} {d : Draft} (h : updateDraft? s = some d) :
    ∃ c, d.validate = .ok c := by
  obtain ⟨p, -, hp⟩ := List.exists_of_findSome?_eq_some h
  cases hfound : p.search s with
  | none => simp [hfound] at hp
  | some found => exact valid_of_updateMatchDraft? (by simpa [hfound] using hp)

theorem valid_of_tripPlanDraft? {s : List Char} {d : Draft} (h : tripPlanDraft? s = some d) :
    ∃ c, d.validate = .ok c := by
  obtain ⟨found, place, -, -, rfl⟩ := exists_draft_of_tripPlanDraft? h
  exact ⟨_, validate_draft .create _ (by simp)⟩

/-- **Every draft is valid but that of a long text**, whether its family applies or not. -/
theorem valid_of_draft? {f : Family} {s : List Char} {d : Draft} (hf : f ≠ longText)
    (h : f.draft? s = some d) : ∃ c, d.validate = .ok c := by
  cases f with
  | longText => exact absurd rfl hf
  | tripPlan => exact valid_of_tripPlanDraft? h
  | explicitCreate => exact valid_of_explicitCreateDraft? h
  | update => exact valid_of_updateDraft? h
  | delete => exact valid_of_titleDraft? delete_catches h
  | search => exact valid_of_titleDraft? search_catches h
  | fallbackCreate => exact valid_of_titleDraft? topic_catches h

/-- The draft of a long text lacks at most its title. -/
theorem eq_emptyTitle_of_longTextDraft {s : List Char} {fault : DraftFault}
    (h : (longTextDraft s).validate = .error fault) : fault = .emptyTitle := by
  by_cases htitle : leadingWords longTextTitleWords s = []
  · rw [longTextDraft, htitle, validate_draft_nil] at h
    exact (Except.error.inj h).symm
  · rw [longTextDraft, validate_draft .create _ htitle] at h
    cases h

/-- A draft that is no command is that of a long text without words in its first line. -/
theorem eq_longText_of_error {f : Family} {s : List Char} {d : Draft} {fault : DraftFault}
    (hd : f.draft? s = some d) (h : d.validate = .error fault) :
    f = longText ∧ fault = .emptyTitle := by
  by_cases hf : f = longText
  · subst hf
    obtain rfl : longTextDraft s = d := Option.some.inj hd
    exact ⟨rfl, eq_emptyTitle_of_longTextDraft h⟩
  · obtain ⟨c, hc⟩ := valid_of_draft? hf hd
    rw [hc] at h
    cases h

/-! ## The course of a reading -/

theorem not_reads_of_applies {f : Family} {s : List Char} (h : f.applies s = false) (c : Command) :
    ¬ f.Reads s c := by
  rintro ⟨happ, -⟩
  rw [h] at happ
  cases happ

theorem not_reads_of_draft? {f : Family} {s : List Char} (h : f.draft? s = none) (c : Command) :
    ¬ f.Reads s c := by
  rintro ⟨-, d, hd, -⟩
  rw [h] at hd
  cases hd

/-- A family that applies reads the command that its draft spells. -/
theorem reads_of_draft? {f : Family} {s : List Char} {c : Command}
    {content : Option (List (List Char))} (happ : f.applies s = true)
    (hd : f.draft? s = some (draft c.action c.title.toList content))
    (hcontent : (content.map (·.map String.ofList)).getD [] = c.content)
    (hfolder : c.folder = none) : f.Reads s c := by
  have hne : c.title.toList ≠ [] := by simpa using c.title_ne
  refine ⟨happ, _, hd, ?_⟩
  rw [validate_draft c.action content hne]
  cases c with
  | mk action title items folder title_ne =>
    cases hfolder
    simpa using hcontent

/-- The command that a family reads. -/
def command? (f : Family) (s : List Char) : Option Command :=
  if f.applies s then (f.draft? s).bind fun d => d.validate.toOption else none

theorem command?_eq_some_iff {f : Family} {s : List Char} {c : Command} :
    f.command? s = some c ↔ f.Reads s c := by
  simp only [command?, Option.ite_none_right_eq_some, Option.bind_eq_some_iff, Reads,
    Except.toOption]
  refine and_congr_right fun _ => exists_congr fun d => and_congr_right fun _ => ?_
  cases d.validate <;> simp

theorem command?_eq_none_iff {f : Family} {s : List Char} :
    f.command? s = none ↔ ∀ c, ¬ f.Reads s c := by
  simp only [← command?_eq_some_iff, Option.eq_none_iff_forall_ne_some, ne_eq]

end Family

open Family

/-- What a reading comes to is the command of the first family that reads one. -/
theorem findSome?_findingsAmong (s : List Char) (fs : List Family) :
    (findingsAmong s fs).findSome? Finding.intent? =
      fs.findSome? fun f => (f.command? s).map (⟨f, ·⟩) := by
  induction fs with
  | nil => rfl
  | cons f fs ih =>
    rw [List.findSome?_cons, ← ih, findingsAmong]
    by_cases happ : f.applies s = true
    · rw [if_pos happ]
      cases hd : f.draft? s with
      | none =>
        have hf : f.command? s = none := by simp [command?, hd]
        rw [hf, Option.map_none]
      | some d =>
        have hf : f.command? s = d.validate.toOption := by simp [command?, happ, hd]
        cases hv : d.validate with
        | ok c =>
          simp only [hf, hv]
          rfl
        | error fault =>
          -- The families that reject a sentence have no draft like this one.
          obtain ⟨rfl, -⟩ := eq_longText_of_error hd hv
          simp only [hf, hv]
          rfl
    · have hf : f.command? s = none := by simp [command?, happ]
      rw [if_neg happ, hf, Option.map_none]

/-- A draft is refused only at the family of long texts. -/
theorem eq_longText_of_rejected {s : List Char} {fs : List Family} {f : Family}
    {fault : DraftFault} (h : .rejected f fault ∈ findingsAmong s fs) :
    f = .longText ∧ fault = .emptyTitle := by
  induction fs with
  | nil => simp [findingsAmong] at h
  | cons g fs ih =>
    rw [findingsAmong] at h
    split at h
    · split at h
      · exact ih h
      · next d hd =>
        split at h
        · simp at h
        · next fault' hv =>
          rcases List.mem_cons.1 h with heq | h
          · obtain ⟨rfl, rfl⟩ := Finding.rejected.inj heq
            exact eq_longText_of_error hd hv
          · split at h
            · simp at h
            · exact ih h
    · exact ih h

/-- A sentence is read by the first family that reads a command from it. -/
theorem classify_eq_some_iff {text : String} {f : Family} {c : Command} :
    classify text = some ⟨f, c⟩ ↔
      ∃ before after, Family.all = before ++ f :: after ∧ f.Reads text.toList c ∧
        ∀ g ∈ before, ∀ c', ¬ g.Reads text.toList c' := by
  rw [classify, findings, findSome?_findingsAmong, List.findSome?_eq_some_iff]
  constructor
  · rintro ⟨before, g, after, hall, hg, hbefore⟩
    obtain ⟨c', hc', heq⟩ := Option.map_eq_some_iff.1 hg
    obtain ⟨rfl, rfl⟩ := Intent.mk.inj heq
    exact ⟨before, after, hall, command?_eq_some_iff.1 hc', fun g' hg' =>
      command?_eq_none_iff.1 (Option.map_eq_none_iff.1 (hbefore g' hg'))⟩
  · rintro ⟨before, after, hall, hf, hbefore⟩
    refine ⟨before, f, after, hall, ?_, fun g hg => ?_⟩
    · rw [command?_eq_some_iff.2 hf]
      rfl
    · exact Option.map_eq_none_iff.2 (command?_eq_none_iff.2 (hbefore g hg))

/-- The family of long texts comes first. -/
theorem classify_eq_longText_iff {text : String} {c : Command} :
    classify text = some ⟨longText, c⟩ ↔ longText.Reads text.toList c := by
  rw [classify_eq_some_iff]
  constructor
  · rintro ⟨-, -, -, hreads, -⟩
    exact hreads
  · intro hreads
    exact ⟨[], _, rfl, hreads, fun g hg => absurd hg List.not_mem_nil⟩

/-- Where the families in front of some read nothing, and one of these reads a command, one of these
reads the sentence. -/
theorem exists_classify_of_reads {text : String} {before fs after : List Family}
    (hall : Family.all = before ++ (fs ++ after))
    (hbefore : ∀ g ∈ before, ∀ c, ¬ g.Reads text.toList c)
    (hfs : ∃ f ∈ fs, ∃ c, f.Reads text.toList c) :
    ∃ f ∈ fs, ∃ c, classify text = some ⟨f, c⟩ := by
  have hnone : before.findSome? (fun f => (f.command? text.toList).map (Intent.mk f)) = none := by
    rw [List.findSome?_eq_none_iff]
    intro g hg
    exact Option.map_eq_none_iff.2 (command?_eq_none_iff.2 (hbefore g hg))
  have hsome :
      (fs.findSome? fun f => (f.command? text.toList).map (Intent.mk f)).isSome = true := by
    obtain ⟨f, hf, c, hc⟩ := hfs
    rw [List.findSome?_isSome_iff]
    refine ⟨f, hf, ?_⟩
    rw [command?_eq_some_iff.2 hc]
    rfl
  obtain ⟨intent, hintent⟩ := Option.isSome_iff_exists.1 hsome
  obtain ⟨f, hf, hread⟩ := List.exists_of_findSome?_eq_some hintent
  obtain ⟨c, -, rfl⟩ := Option.map_eq_some_iff.1 hread
  refine ⟨f, hf, c, ?_⟩
  rw [classify, findings, findSome?_findingsAmong, hall, List.findSome?_append,
    List.findSome?_append, hnone, hintent]
  rfl

/-- **A sentence is read by the first family that reads a command from it.**  Every draft but that
of a long text is valid, and that one can lack nothing but its title; so no sentence is rejected,
and none is left to a later family or to nobody while an earlier one reads a command from it. -/
theorem first_family_reads :
    (∀ f s d, f ≠ Family.longText → f.draft? s = some d → ∃ c, d.validate = .ok c) ∧
    (∀ s d fault, Family.longText.draft? s = some d → d.validate = .error fault →
      fault = .emptyTitle) ∧
    (∃ s, Family.longText.applies s = true ∧ (longTextDraft s).validate = .error .emptyTitle) ∧
    (∀ text f c, classify text = some ⟨f, c⟩ ↔
      ∃ before after, Family.all = before ++ f :: after ∧ f.Reads text.toList c ∧
        ∀ g ∈ before, ∀ c', ¬ g.Reads text.toList c') ∧
    (∀ text, classify text = none ↔ ∀ (f : Family) c, ¬ f.Reads text.toList c) ∧
    (∀ text f fault, .rejected f fault ∈ findings text →
      f = .longText ∧ fault = .emptyTitle ∧ f.onInvalid = .fallThrough) := by
  refine ⟨fun f s d => valid_of_draft?, ?_, ?_, fun _ _ _ => classify_eq_some_iff, ?_, ?_⟩
  · intro s d fault hd hv
    exact (eq_longText_of_error hd hv).2
  · exact ⟨List.replicate 101 '\n', by decide, rfl⟩
  · intro text
    rw [classify, findings, findSome?_findingsAmong, List.findSome?_eq_none_iff]
    constructor
    · intro h f
      exact command?_eq_none_iff.1 (Option.map_eq_none_iff.1 (h f (mem_all f)))
    · intro h f _
      exact Option.map_eq_none_iff.2 (command?_eq_none_iff.2 (h f))
  · intro text f fault h
    obtain ⟨rfl, rfl⟩ := eq_longText_of_rejected h
    exact ⟨rfl, rfl, rfl⟩

end PlainNotes

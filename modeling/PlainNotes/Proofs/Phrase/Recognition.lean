import PlainNotes.Proofs.Phrase.Cascade

/-!
# What families recognise

Every family but that of long texts reads a draft exactly from the sentences in which one of its
phrases occurs: wherever a phrase matches, it also captures what the draft needs.

* `draft?_eq_none_iff`: no draft is read where no phrase occurs, and only there.
* `exists_found_of_reads`: a command comes from the match of a phrase.
* `action_of_reads`: the family decides about the action.
-/

namespace PlainNotes

open Phrase Pattern

namespace Family

/-- The phrases of a family.  Long texts are recognised by their length alone. -/
def phrases : Family → List Pattern
  | longText => []
  | tripPlan => tripPatterns
  | explicitCreate => createPatterns
  | update => updatePatterns
  | delete => deletePatterns
  | search => searchPatterns
  | fallbackCreate => topicPatterns

/-- One of the phrases of the family occurs in the sentence. -/
def OccursIn (f : Family) (s : List Char) : Prop :=
  ∃ p ∈ f.phrases, (p.search s).isSome = true

instance (f : Family) (s : List Char) : Decidable (f.OccursIn s) :=
  inferInstanceAs (Decidable (∃ p ∈ f.phrases, (p.search s).isSome = true))

variable {f : Family} {s : List Char} {c : Command}

theorem not_occursIn_iff : ¬ f.OccursIn s ↔ ∀ p ∈ f.phrases, p.search s = none := by
  simp [OccursIn]

/-! ## Matches and drafts -/

theorem firstMatch_eq_none_iff {ps : List Pattern} :
    firstMatch ps s = none ↔ ∀ p ∈ ps, p.search s = none :=
  List.findSome?_eq_none_iff

/-- A family whose phrases all capture a name reads a draft from every match. -/
theorem eq_none_iff_of_catches {ps : List Pattern} {cls : Char → Bool} {d? : Option Draft}
    (hps : ∀ p ∈ ps, p.Catches .first cls) (hnone : firstMatch ps s = none → d? = none)
    (hsome : ∀ found name, firstMatch ps s = some found → found.text .first = some name →
      d?.isSome = true) :
    d? = none ↔ ∀ p ∈ ps, p.search s = none := by
  rw [← firstMatch_eq_none_iff]
  refine ⟨?_, hnone⟩
  intro hd
  cases hfound : firstMatch ps s with
  | none => rfl
  | some found =>
    obtain ⟨name, hname, -⟩ := exists_name hps hfound
    have hread := hsome found name hfound hname
    rw [hd] at hread
    cases hread

theorem titleDraft?_eq_none_iff {action : Action} {content : Option (List (List Char))}
    {ps : List Pattern} {cls : Char → Bool} (hps : ∀ p ∈ ps, p.Catches .first cls) :
    titleDraft? action content ps s = none ↔ ∀ p ∈ ps, p.search s = none := by
  apply eq_none_iff_of_catches hps
  · intro hfound
    simp [titleDraft?, hfound]
  · intro found name hfound hname
    simp [titleDraft?, hfound, hname]

theorem explicitCreateDraft?_eq_none_iff :
    explicitCreateDraft? s = none ↔ ∀ p ∈ createPatterns, p.search s = none := by
  apply eq_none_iff_of_catches create_catches
  · intro hfound
    simp [explicitCreateDraft?, hfound]
  · intro found name hfound hname
    simp [explicitCreateDraft?, hfound, hname]

theorem tripPlanDraft?_eq_none_iff :
    tripPlanDraft? s = none ↔ ∀ p ∈ tripPatterns, p.search s = none := by
  apply eq_none_iff_of_catches trip_catches
  · intro hfound
    simp [tripPlanDraft?, hfound]
  · intro found name hfound hname
    simp [tripPlanDraft?, hfound, hname]

/-- Both groups of an update phrase are captured, so that every match counts. -/
theorem isSome_updateMatchDraft? {p : Pattern} {found : Captures} (titleFirst : Bool)
    (hp : p ∈ updatePatterns) (hfound : p.search s = some found) :
    (updateMatchDraft? titleFirst found).isSome = true := by
  obtain ⟨hfirst, hsecond⟩ := update_catches p hp
  obtain ⟨a, ha, hane, -⟩ := hfirst.search hfound
  obtain ⟨b, hb, hbne, -⟩ := hsecond.search hfound
  cases titleFirst <;> simp [updateMatchDraft?, ha, hb, hane, hbne]

theorem updateDraft?_eq_none_iff :
    updateDraft? s = none ↔ ∀ p ∈ updatePatterns, p.search s = none := by
  rw [updateDraft?, List.findSome?_eq_none_iff]
  refine forall₂_congr fun p hp => ?_
  cases hfound : p.search s with
  | none => simp
  | some found =>
    have hsome := isSome_updateMatchDraft? (mentions ["update"] (Text.lowercase s)) hp hfound
    have hne := Option.ne_none_iff_isSome.2 hsome
    simp [hne]

/-- **A family reads nothing exactly where none of its phrases occurs.** -/
theorem draft?_eq_none_iff (hf : f ≠ longText) : f.draft? s = none ↔ ¬ f.OccursIn s := by
  rw [not_occursIn_iff]
  cases f with
  | longText => exact absurd rfl hf
  | tripPlan => exact tripPlanDraft?_eq_none_iff
  | explicitCreate => exact explicitCreateDraft?_eq_none_iff
  | update => exact updateDraft?_eq_none_iff
  | delete => exact titleDraft?_eq_none_iff delete_catches
  | search => exact titleDraft?_eq_none_iff search_catches
  | fallbackCreate => exact titleDraft?_eq_none_iff topic_catches

/-- A command that a family reads comes from the match of one of its phrases. -/
theorem exists_found_of_reads (hf : f ≠ longText) (h : f.Reads s c) :
    ∃ p ∈ f.phrases, ∃ found, p.search s = some found := by
  obtain ⟨-, d, hd, -⟩ := h
  by_cases hoccurs : f.OccursIn s
  · obtain ⟨p, hp, hfound⟩ := hoccurs
    exact ⟨p, hp, Option.isSome_iff_exists.1 hfound⟩
  · rw [(draft?_eq_none_iff hf).2 hoccurs] at hd
    cases hd

/-- A family that always applies reads some command wherever one of its phrases occurs. -/
theorem exists_reads_of_occursIn (hf : f ≠ longText) (happ : f.applies s = true)
    (h : f.OccursIn s) : ∃ c, f.Reads s c := by
  have hne : f.draft? s ≠ none := fun hnone => (draft?_eq_none_iff hf).1 hnone h
  obtain ⟨d, hd⟩ := Option.ne_none_iff_exists'.1 hne
  obtain ⟨c, hc⟩ := valid_of_draft? hf hd
  exact ⟨c, happ, d, hd, hc⟩

theorem not_reads_of_not_occursIn (hf : f ≠ longText) (h : ¬ f.OccursIn s) (c : Command) :
    ¬ f.Reads s c :=
  not_reads_of_draft? ((draft?_eq_none_iff hf).2 h) c

/-! ## Actions -/

/-- What the family does with the note. -/
def action : Family → Action
  | longText | tripPlan | explicitCreate | fallbackCreate => .create
  | update => .update
  | delete => .delete
  | search => .search

theorem exists_draft_of_updateMatchDraft? {titleFirst : Bool} {found : Captures} {d : Draft}
    (h : updateMatchDraft? titleFirst found = some d) :
    ∃ title content, d = draft .update title content := by
  simp only [updateMatchDraft?, Option.ite_none_left_eq_some, Option.some.injEq] at h
  exact ⟨_, _, h.2.symm⟩

/-- The drafts of a family all have its action. -/
theorem exists_draft_of_draft? {d : Draft} (h : f.draft? s = some d) :
    ∃ title content, d = draft f.action title content := by
  cases f with
  | longText => exact ⟨_, _, (Option.some.inj h).symm⟩
  | tripPlan =>
    obtain ⟨found, place, -, -, rfl⟩ := exists_draft_of_tripPlanDraft? h
    exact ⟨_, _, rfl⟩
  | explicitCreate =>
    obtain ⟨found, title, -, -, rfl⟩ := exists_draft_of_explicitCreateDraft? h
    exact ⟨_, _, rfl⟩
  | update =>
    obtain ⟨p, -, hp⟩ := List.exists_of_findSome?_eq_some h
    obtain ⟨found, -, hfound⟩ := Option.bind_eq_some_iff.1 hp
    exact exists_draft_of_updateMatchDraft? hfound
  | delete | search | fallbackCreate =>
    obtain ⟨found, title, -, -, rfl⟩ := exists_draft_of_titleDraft? h
    exact ⟨_, _, rfl⟩

theorem eq_of_validate_draft {action : Action} {title : List Char}
    {content : Option (List (List Char))} (h : (draft action title content).validate = .ok c) :
    c.action = action ∧ c.title.toList = title := by
  have hne : title ≠ [] := by
    rintro rfl
    rw [validate_draft_nil] at h
    cases h
  rw [validate_draft action content hne] at h
  obtain rfl := Except.ok.inj h
  exact ⟨rfl, String.toList_ofList⟩

/-- **The family decides about the action.** -/
theorem action_of_reads (h : f.Reads s c) : c.action = f.action := by
  obtain ⟨-, d, hd, hvalid⟩ := h
  obtain ⟨title, content, rfl⟩ := exists_draft_of_draft? hd
  exact (eq_of_validate_draft hvalid).1

end Family

end PlainNotes

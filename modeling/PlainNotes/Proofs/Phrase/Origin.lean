import PlainNotes.Proofs.Phrase.ItemCuts
import PlainNotes.Proofs.Phrase.QuotedSpan

/-!
# Where commands come from

A command is made of the text it was read from and of nothing else: titles and items are parts of
single lines of the text, or the whole text, in the case of letters that the text has.

* `stretch_of_catches`, `stretch_of_mayCatch`: what a phrase captures is a part of a line.
* `stretch_of_mem_splitItems`: the items of a stretch of a line.
* `made_from_text`: what each family promises about its commands.
-/

namespace PlainNotes

open Text Phrase Pattern

/-! ## Parts of lines -/

namespace Text

/-- The first text is part of a line of the second. -/
def StretchOf (u s : List Char) : Prop :=
  u <:+: s ∧ '\n' ∉ u

variable {u v s : List Char}

theorem StretchOf.of_infix (h : v <:+: u) (hu : StretchOf u s) : StretchOf v s :=
  ⟨h.trans hu.1, fun hmem => hu.2 (h.subset hmem)⟩

theorem stretchOf_of_inLine (h : u <:+: s) (hline : ∀ x ∈ u, inLine x = true) : StretchOf u s :=
  ⟨h, fun hmem => absurd (hline '\n' hmem) (by decide)⟩

end Text

namespace Phrase

variable {g : Group} {ps : List Pattern} {s u : List Char} {found : Captures}

theorem stretch_of_catches (hps : ∀ p ∈ ps, p.Catches g inLine) (h : firstMatch ps s = some found)
    (hu : found.text g = some u) : StretchOf u s := by
  obtain ⟨v, hv, -, hline, hin⟩ := exists_name hps h
  obtain rfl := Option.some.inj (hu.symm.trans hv)
  exact stretchOf_of_inLine hin hline

theorem stretch_of_mayCatch (hps : ∀ p ∈ ps, p.MayCatch g inLine)
    (h : firstMatch ps s = some found) (hu : found.text g = some u) : StretchOf u s := by
  obtain ⟨p, hp, hfound⟩ := List.exists_of_findSome?_eq_some h
  obtain ⟨-, hline, hin⟩ := (hps p hp).search hfound hu
  exact stretchOf_of_inLine hin hline

/-! ## Items -/

/-- Without line feeds, items are what commas separate, or the whole. -/
theorem mem_splitItems {x : List Char} (hline : '\n' ∉ u) (h : x ∈ splitItems u) :
    ∃ v ∈ pieces (· == ',') u, x = trim v := by
  rw [splitItems_of_lineFree hline, lineItems] at h
  by_cases hcomma : ',' ∈ u
  · rw [if_pos hcomma] at h
    obtain ⟨v, hv, rfl⟩ := List.mem_map.1 h
    exact ⟨v, hv, rfl⟩
  · rw [if_neg hcomma] at h
    refine ⟨u, ?_, List.mem_singleton.1 h⟩
    rw [pieces_of_not_mem hcomma]
    exact List.mem_singleton_self u

theorem stretch_of_mem_splitItems {x : List Char} (hu : StretchOf u s) (h : x ∈ splitItems u) :
    StretchOf x s ∧ Trimmed x := by
  obtain ⟨v, hv, rfl⟩ := mem_splitItems hu.2 h
  exact ⟨hu.of_infix ((trim_isInfix v).trans (infix_of_mem_pieces hv)), trimmed_trim v⟩

end Phrase

/-! ## Commands -/

namespace Family

variable {s : List Char} {c : Command}

theorem eq_of_validate {action : Action} {title : List Char} {content : Option (List (List Char))}
    (h : (draft action title content).validate = .ok c) :
    c.title.toList = title ∧ c.content = (content.map (·.map String.ofList)).getD [] ∧
      c.folder = none := by
  have hne : title ≠ [] := by
    rintro rfl
    rw [validate_draft_nil] at h
    cases h
  rw [validate_draft action content hne] at h
  obtain rfl := Except.ok.inj h
  exact ⟨String.toList_ofList, rfl, rfl⟩

/-- No phrase sets a folder. -/
theorem folder_of_reads {f : Family} (h : f.Reads s c) : c.folder = none := by
  obtain ⟨-, d, hd, hvalid⟩ := h
  obtain ⟨title, content, rfl⟩ := exists_draft_of_draft? hd
  exact (eq_of_validate hvalid).2.2

/-- What a family promises about a command that it reads from a text. -/
def Promise : Family → String → Command → Prop
  | longText, text, c => c.content = [text]
  | tripPlan, text, c =>
    c.content = [text] ∧
      ∃ place, c.title = "Trip plan: " ++ place ∧ place.toList <:+: text.toList
  | explicitCreate, text, c =>
    StretchOf c.title.toList text.toList ∧
      (∀ item ∈ c.content, StretchOf item.toList text.toList ∧ Trimmed item.toList) ∧
      (1 < c.content.length → ∀ item ∈ c.content, ',' ∉ item.toList)
  | update, text, c =>
    StretchOf c.title.toList text.toList ∧
      ∃ item, c.content = [item] ∧ StretchOf item.toList text.toList
  | delete, text, c | search, text, c | fallbackCreate, text, c =>
    StretchOf c.title.toList text.toList ∧ c.content = []

variable {text : String}

theorem promise_longText (h : longText.Reads text.toList c) : Promise longText text c := by
  obtain ⟨-, d, hd, hvalid⟩ := h
  obtain rfl := Option.some.inj hd
  obtain ⟨-, hcontent, -⟩ := eq_of_validate hvalid
  simpa [Promise] using hcontent

theorem promise_tripPlan (h : tripPlan.Reads text.toList c) : Promise tripPlan text c := by
  obtain ⟨-, d, hd, hvalid⟩ := h
  obtain ⟨found, place, hfound, hplace, rfl⟩ := exists_draft_of_tripPlanDraft? hd
  obtain ⟨htitle, hcontent, -⟩ := eq_of_validate hvalid
  obtain ⟨v, hv, -, -, hin⟩ := exists_name trip_catches hfound
  obtain rfl := Option.some.inj (hplace.symm.trans hv)
  refine ⟨by simpa using hcontent, String.ofList (trim place), ?_, ?_⟩
  · rw [← String.toList_inj, htitle]
    simp
  · rw [String.toList_ofList]
    exact (trim_isInfix place).trans hin

theorem promise_explicitCreate (h : explicitCreate.Reads text.toList c) :
    Promise explicitCreate text c := by
  obtain ⟨-, d, hd, hvalid⟩ := h
  obtain ⟨found, title, hfound, hname, rfl⟩ := exists_draft_of_explicitCreateDraft? hd
  obtain ⟨htitle, hcontent, -⟩ := eq_of_validate hvalid
  have hstretch : StretchOf c.title.toList text.toList := by
    rw [htitle]
    exact stretch_of_catches create_catches hfound hname
  cases hspan : found.text .second with
  | none =>
    have hnil : c.content = [] := by simpa [hspan] using hcontent
    refine ⟨hstretch, ?_, ?_⟩
    · simp [hnil]
    · simp [hnil]
  | some span =>
    have hitems : c.content = (splitItems span).map String.ofList := by
      simpa [hspan] using hcontent
    have hline := stretch_of_mayCatch create_mayCatch hfound hspan
    refine ⟨hstretch, ?_, ?_⟩
    · intro item hitem
      rw [hitems] at hitem
      obtain ⟨x, hx, rfl⟩ := List.mem_map.1 hitem
      rw [String.toList_ofList]
      exact stretch_of_mem_splitItems hline hx
    · intro _ item hitem
      rw [hitems] at hitem
      obtain ⟨x, hx, rfl⟩ := List.mem_map.1 hitem
      rw [String.toList_ofList]
      exact (of_mem_splitItems hx).2

/-- Whichever group holds the name, the other holds the item. -/
theorem promise_updateMatch {titleFirst : Bool} {found : Captures} {first second : List Char}
    {d : Draft} (hfirst : found.text .first = some first) (hsecond : found.text .second = some second)
    (hf : StretchOf first text.toList) (hs : StretchOf second text.toList)
    (hd : updateMatchDraft? titleFirst found = some d) (hvalid : d.validate = .ok c) :
    Promise update text c := by
  have hmade : ∀ title item, StretchOf title text.toList → StretchOf item text.toList →
      draft .update title (some [stripQuotes (trim item)]) = d → Promise update text c := by
    rintro title item htitle hitem rfl
    obtain ⟨hname, hcontent, -⟩ := eq_of_validate hvalid
    refine ⟨hname ▸ htitle, _, by simpa using hcontent, ?_⟩
    rw [String.toList_ofList]
    exact hitem.of_infix ((stripQuotes_isInfix _).trans (trim_isInfix item))
  simp only [updateMatchDraft?, hfirst, hsecond, Option.getD_some, Option.ite_none_left_eq_some,
    Option.some.injEq] at hd
  obtain ⟨-, hd⟩ := hd
  by_cases hswap : (titleFirst && !first.isEmpty) = true
  · rw [if_pos hswap, if_pos hswap] at hd
    exact hmade first second hf hs hd
  · rw [if_neg hswap, if_neg hswap] at hd
    exact hmade second first hs hf hd

theorem promise_update (h : update.Reads text.toList c) : Promise update text c := by
  obtain ⟨-, d, hd, hvalid⟩ := h
  obtain ⟨p, hp, hmatch⟩ := List.exists_of_findSome?_eq_some hd
  obtain ⟨found, hfound, hdraft⟩ := Option.bind_eq_some_iff.1 hmatch
  obtain ⟨hfirst, hsecond⟩ := update_catches p hp
  obtain ⟨u, hu, -, huline, huin⟩ := hfirst.search hfound
  obtain ⟨v, hv, -, hvline, hvin⟩ := hsecond.search hfound
  exact promise_updateMatch hu hv (stretchOf_of_inLine huin huline)
    (stretchOf_of_inLine hvin hvline) hdraft hvalid

/-- A family whose phrases capture a title and nothing else. -/
theorem promise_title {action : Action} {content : Option (List (List Char))} {ps : List Pattern}
    {d : Draft} (hps : ∀ p ∈ ps, p.Catches .first inLine)
    (hcontent : (content.map (·.map String.ofList)).getD [] = [])
    (hd : titleDraft? action content ps text.toList = some d) (hvalid : d.validate = .ok c) :
    StretchOf c.title.toList text.toList ∧ c.content = [] := by
  obtain ⟨found, title, hfound, hname, rfl⟩ := exists_draft_of_titleDraft? hd
  obtain ⟨htitle, hitems, -⟩ := eq_of_validate hvalid
  rw [htitle, hitems]
  exact ⟨stretch_of_catches hps hfound hname, hcontent⟩

/-- Every family keeps its promise. -/
theorem promise_of_reads {f : Family} (h : f.Reads text.toList c) : f.Promise text c := by
  cases f with
  | longText => exact promise_longText h
  | tripPlan => exact promise_tripPlan h
  | explicitCreate => exact promise_explicitCreate h
  | update => exact promise_update h
  | delete =>
    obtain ⟨-, d, hd, hvalid⟩ := h
    exact promise_title delete_catches rfl hd hvalid
  | search =>
    obtain ⟨-, d, hd, hvalid⟩ := h
    exact promise_title search_catches rfl hd hvalid
  | fallbackCreate =>
    obtain ⟨-, d, hd, hvalid⟩ := h
    exact promise_title topic_catches rfl hd hvalid

end Family

/-- **A command is made from its text.**  It has a title and no folder, its action is that of the
family of the phrase, and its title and items are what the family promises: parts of single lines of
the text, as the text writes them, or the text itself. -/
theorem made_from_text {text : String} {f : Family} {c : Command}
    (h : classify text = some ⟨f, c⟩) :
    c.folder = none ∧ c.title ≠ "" ∧ c.action = f.action ∧ f.Promise text c := by
  obtain ⟨-, -, -, hreads, -⟩ := classify_eq_some_iff.1 h
  exact ⟨Family.folder_of_reads hreads, c.title_ne, Family.action_of_reads hreads,
    Family.promise_of_reads hreads⟩

/-- A list of two items, with blanks and a line behind it that is not read. -/
theorem made_from_text_milkAndEggs :
    classify "Please create a note titled 'list' with items:  milk , eggs\nand more" =
      some ⟨.explicitCreate, ⟨.create, "list", ["milk", "eggs"], none, by decide⟩⟩ ∧
    Family.Promise .explicitCreate
      "Please create a note titled 'list' with items:  milk , eggs\nand more"
      ⟨.create, "list", ["milk", "eggs"], none, by decide⟩ := by
  have hread : classify "Please create a note titled 'list' with items:  milk , eggs\nand more" =
      some ⟨.explicitCreate, ⟨.create, "list", ["milk", "eggs"], none, by decide⟩⟩ := by
    decide +kernel
  exact ⟨hread, (made_from_text hread).2.2.2⟩

end PlainNotes

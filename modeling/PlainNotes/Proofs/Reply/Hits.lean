import PlainNotes.Proofs.Text.Pieces
import PlainNotes.Reply

/-!
# Names in the output of a search

The names that a search finds come as one line, with a comma and a space between them.  A name with a
comma in it looks like several there, blanks at the ends of a name are lost, and one empty name looks
like none; all other lists of names come back.

* `hits_eq_nil_iff`, `length_hits`, `mem_hits`: what is read of any output.
* `hits_outputOf_eq_iff`: which names come back.
* `summary_of_hits`, `summary_eq_nothing_iff`: what is said of them.
-/

namespace PlainNotes.Reply

open Text

variable {output name : String} {names : List String} {c : Command}

/-! ## Any output -/

theorem hits_of_not_blank (h : allBlank output.toList = false) :
    hits output = (pieces (· == ',') output.toList).map fun name => String.ofList (trim name) :=
  if_neg (by simp [h])

theorem hits_eq_nil_iff : hits output = [] ↔ allBlank output.toList = true := by
  cases hblank : allBlank output.toList with
  | true => exact iff_of_true (if_pos hblank) rfl
  | false =>
    rw [hits_of_not_blank hblank, List.map_eq_nil_iff]
    exact iff_of_false (pieces_ne_nil _ _) Bool.false_ne_true

/-- There is one name more than there are commas. -/
theorem length_hits (h : allBlank output.toList = false) :
    (hits output).length = output.toList.count ',' + 1 := by
  rw [hits_of_not_blank h, List.length_map, length_pieces, List.count]

/-- What is read as a name has neither commas nor blanks at its ends. -/
theorem mem_hits (h : name ∈ hits output) : Trimmed name.toList ∧ ',' ∉ name.toList := by
  have hblank : allBlank output.toList = false := by
    rw [Bool.eq_false_iff]
    intro hall
    rw [hits_eq_nil_iff.2 hall] at h
    cases h
  rw [hits_of_not_blank hblank] at h
  obtain ⟨piece, hpiece, rfl⟩ := List.mem_map.1 h
  rw [String.toList_ofList]
  refine ⟨trimmed_trim piece, fun hcomma => ?_⟩
  exact not_mem_of_mem_pieces hpiece ((trim_isInfix piece).subset hcomma)

/-! ## Joined names -/

/-- The line that lists the names. -/
def outputOf (names : List String) : String :=
  ", ".intercalate names ++ "\n"

/-- Names that can be told from the line that lists them. -/
def Legible (names : List String) : Prop :=
  names ≠ [""] ∧ ∀ name ∈ names, Trimmed name.toList ∧ ',' ∉ name.toList

instance (names : List String) : Decidable (Legible names) :=
  inferInstanceAs (Decidable (_ ∧ _))

theorem toList_outputOf (names : List String) :
    (outputOf names).toList = [',', ' '].intercalate (names.map String.toList) ++ ['\n'] := by
  rw [outputOf, String.toList_append, String.toList_intercalate]
  rfl

/-- A line is blank only if it lists nothing but one blank name, or nothing at all. -/
theorem eq_singleton_of_allBlank (hne : names ≠ [])
    (h : allBlank (outputOf names).toList = true) :
    ∃ name, names = [name] ∧ allBlank name.toList = true := by
  rw [toList_outputOf, allBlank, List.all_append, Bool.and_eq_true] at h
  obtain ⟨hnames, -⟩ := h
  rcases names with _ | ⟨name, _ | ⟨next, names⟩⟩
  · exact absurd rfl hne
  · rw [List.map_cons, List.map_nil, List.intercalate_singleton] at hnames
    exact ⟨name, rfl, hnames⟩
  · rw [List.map_cons, List.map_cons, List.intercalate_cons_cons, List.all_append,
      List.all_append, Bool.and_eq_true, Bool.and_eq_true] at hnames
    exact absurd hnames.1.2 (by decide)

theorem Legible.not_allBlank (h : Legible names) (hne : names ≠ []) :
    allBlank (outputOf names).toList = false := by
  rw [Bool.eq_false_iff]
  intro hblank
  obtain ⟨name, rfl, hname⟩ := eq_singleton_of_allBlank hne hblank
  refine h.1 ?_
  have htrim : trim name.toList = name.toList := (h.2 name (List.mem_singleton_self name)).1
  rw [trim_eq_nil_iff.2 hname] at htrim
  rw [← String.ofList_toList (s := name), ← htrim]

/-- The line feed goes to the last of the names and comes off with its blanks. -/
theorem hits_outputOf (h : Legible names) : hits (outputOf names) = names := by
  by_cases hne : names = []
  · subst hne
    rfl
  obtain ⟨ps, p, hpieces, hconcat⟩ := @exists_pieces_concat (· == ',') '\n' rfl
    ([',', ' '].intercalate (names.map String.toList))
  have hcomma : ∀ u ∈ names.map String.toList, ',' ∉ u := by
    intro u hu
    obtain ⟨name, hname, rfl⟩ := List.mem_map.1 hu
    exact (h.2 name hname).2
  have htrim : (ps ++ [p ++ ['\n']]).map trim = (names.map String.toList).map trim := by
    rw [← map_trim_pieces_intercalate (by simpa using hne) hcomma, hpieces, List.map_append,
      List.map_append, List.map_singleton, List.map_singleton, trim_concat_blank (by decide)]
  have hback : ∀ name ∈ names, String.ofList (trim name.toList) = name := by
    intro name hname
    have hname : trim name.toList = name.toList := (h.2 name hname).1
    rw [hname, String.ofList_toList]
  calc hits (outputOf names)
      = ((ps ++ [p ++ ['\n']]).map trim).map String.ofList := by
        rw [hits_of_not_blank (h.not_allBlank hne), toList_outputOf, hconcat, List.map_map]
        rfl
    _ = names.map fun name => String.ofList (trim name.toList) := by
        rw [htrim, List.map_map, List.map_map]
        rfl
    _ = names := by rw [List.map_congr_left hback, List.map_id']

/-- **Names come back from the line that lists them** exactly if they can be told from it. -/
theorem hits_outputOf_eq_iff : hits (outputOf names) = names ↔ Legible names := by
  constructor
  · intro h
    refine ⟨?_, fun name hname => mem_hits (h.symm ▸ hname)⟩
    rintro rfl
    have hnone : hits (outputOf [""]) = [] := hits_eq_nil_iff.2 (by decide)
    rw [hnone] at h
    cases h
  · exact hits_outputOf

/-! ## What is said of a search -/

theorem summary_of_hits (hc : c.action = .search) (h : hits output = names) (hne : names ≠ []) :
    summary c output = "Found " ++ natText names.length ++ " note(s) matching '" ++ c.title ++
      "':\n" ++ "\n".intercalate (names.map ("- " ++ ·)) := by
  obtain ⟨name, rest, rfl⟩ := List.exists_cons_of_ne_nil hne
  rw [summary, hc]
  dsimp only
  rw [h]
  rfl

/-- The two wordings differ from their first letter on. -/
theorem summary_eq_nothing_iff (hc : c.action = .search) :
    summary c output = "No notes found matching '" ++ c.title ++ "'" ↔ hits output = [] := by
  cases h : hits output with
  | nil =>
    refine iff_of_true ?_ rfl
    rw [summary, hc]
    dsimp only
    rw [h]
  | cons name rest =>
    refine iff_of_false (fun heq => ?_) (List.cons_ne_nil _ _)
    rw [summary_of_hits hc h (List.cons_ne_nil _ _)] at heq
    have hhead := congrArg (fun s => s.toList.head?) heq
    simp at hhead

/-- **A search tells the names it finds** exactly if they can be told from the line that lists them:
no single empty name, no commas, no blanks at the ends.  It then says that there are none if there
are none, and otherwise how many there are and each of them in turn.  Output that is not blank is
always read as names without blanks at their ends, one more than it has commas. -/
theorem names_told_from_output :
    (∀ names : List String, hits (", ".intercalate names ++ "\n") = names ↔
      names ≠ [""] ∧ ∀ name ∈ names, Trimmed name.toList ∧ ',' ∉ name.toList) ∧
    (∀ (names : List String) (c : Command), c.action = .search → Legible names →
      (summary c (outputOf names) = "No notes found matching '" ++ c.title ++ "'" ↔ names = []) ∧
      (names ≠ [] → summary c (outputOf names) =
        "Found " ++ natText names.length ++ " note(s) matching '" ++ c.title ++ "':\n" ++
          "\n".intercalate (names.map ("- " ++ ·)))) ∧
    ∀ output : String,
      (hits output = [] ↔ allBlank output.toList = true) ∧
      (allBlank output.toList = false →
        (hits output).length = output.toList.count ',' + 1 ∧
        ∀ name ∈ hits output, Trimmed name.toList) := by
  refine ⟨fun names => hits_outputOf_eq_iff, fun names c hc hnames => ⟨?_, fun hne => ?_⟩,
    fun output => ⟨hits_eq_nil_iff, fun hblank => ⟨length_hits hblank, fun name hname => ?_⟩⟩⟩
  · rw [summary_eq_nothing_iff hc, hits_outputOf hnames]
  · exact summary_of_hits hc (hits_outputOf hnames) hne
  · exact (mem_hits hname).1

/-- Two names, and the reply that lists them. -/
theorem names_told_from_output_two :
    hits "plan, shopping list\n" = ["plan", "shopping list"] ∧
      summary ⟨.search, "l", [], none, by decide⟩ "plan, shopping list\n" =
        "Found 2 note(s) matching 'l':\n- plan\n- shopping list" := by
  have hlisted : outputOf ["plan", "shopping list"] = "plan, shopping list\n" := by decide
  obtain ⟨hread, hsaid, -⟩ := names_told_from_output
  rw [← hlisted]
  refine ⟨(hread _).2 (by decide), ?_⟩
  rw [(hsaid _ _ rfl (by decide)).2 (by decide)]
  decide

end PlainNotes.Reply

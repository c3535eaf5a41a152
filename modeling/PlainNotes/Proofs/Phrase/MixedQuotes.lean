import PlainNotes.Proofs.Phrase.PlainRequest
import PlainNotes.Proofs.Phrase.Recognition

/-!
# Apostrophes between double quotes

A quote of either kind closes a name, whichever kind opened it.  So a name between double quotes
ends at its first apostrophe, unless that is its first character, which belongs to the name in any
case.  What is behind the apostrophe is left to the rest of the sentence, and together with the
words in front of it may also make a phrase of another family.

* `upToQuote`, `behindQuote`: where a name is cut, and what is left.
* `NamedRequest`: the requests that have nothing but a name.
* `classify_named`: how they are read with an apostrophe in the name.
-/

namespace PlainNotes

namespace Phrase

open Text Pattern

/-! ## Where a name ends -/

/-- A name up to the first quote behind its first character. -/
def upToQuote : List Char → List Char
  | [] => []
  | x :: s => x :: s.takeWhile fun y => !isQuote y

/-- What is left of a name, the double quote behind it and the rest of the sentence, where a quote
has closed the name. -/
def behindQuote (name back : List Char) : List Char :=
  (name ++ '"' :: back).drop ((upToQuote name).length + 1)

variable {name back : List Char}

theorem unquoted_takeWhile (s : List Char) : Unquoted (s.takeWhile fun y => !isQuote y) := by
  intro y hy
  have hquote := List.all_eq_true.1 List.all_takeWhile y hy
  simpa using hquote

theorem upToQuote_sublist (name : List Char) : (upToQuote name).Sublist name := by
  cases name with
  | nil => exact List.Sublist.refl []
  | cons x s => exact (List.takeWhile_sublist _).cons_cons x

theorem unbroken_upToQuote (hne : name ≠ []) (hline : '\n' ∉ name) :
    Unbroken (upToQuote name) := by
  refine ⟨?_, ?_, inLine_of_lineFree fun h => hline ((upToQuote_sublist name).mem h)⟩
  · cases name with
    | nil => exact absurd rfl hne
    | cons x s => exact List.cons_ne_nil x _
  · cases name with
    | nil => exact absurd rfl hne
    | cons x s => exact unquoted_takeWhile s

/-- Nothing is cut off if the first character is the only quote. -/
theorem upToQuote_eq_self_iff : upToQuote name = name ↔ Unquoted name.tail := by
  cases name with
  | nil => exact iff_of_true rfl fun x hx => absurd hx List.not_mem_nil
  | cons x s =>
    constructor
    · intro h
      have htake : s.takeWhile (fun y => !isQuote y) = s := (List.cons.inj h).2
      rw [List.tail_cons, ← htake]
      exact unquoted_takeWhile s
    · intro h
      have hall : (s ++ []).takeWhile (fun y => !isQuote y) = s ++ [] :=
        List.takeWhile_append_of_pos fun y hy => by simp [h y hy]
      rw [List.append_nil] at hall
      rw [upToQuote, hall]

/-- Some quote closes the name, at the latest the double quote behind it. -/
theorem exists_close (hne : name ≠ []) (back : List Char) :
    ∃ q, isQuote q = true ∧
      name ++ '"' :: back = upToQuote name ++ q :: behindQuote name back := by
  obtain ⟨q, rest, hq, hsplit⟩ : ∃ q rest, isQuote q = true ∧
      name ++ '"' :: back = upToQuote name ++ q :: rest := by
    cases name with
    | nil => exact absurd rfl hne
    | cons x s =>
      have hcut : s.takeWhile (fun y => !isQuote y) ++ s.dropWhile (fun y => !isQuote y) = s :=
        List.takeWhile_append_dropWhile
      have hstart := startsOutside_dropWhile (fun y => !isQuote y) s
      cases hrest : s.dropWhile fun y => !isQuote y with
      | nil =>
        rw [hrest, List.append_nil] at hcut
        exact ⟨'"', back, by decide, by rw [upToQuote, hcut]⟩
      | cons z t =>
        rw [hrest] at hcut hstart
        have hz : isQuote z = true := by simpa using hstart z rfl
        refine ⟨z, t ++ '"' :: back, hz, ?_⟩
        calc (x :: s) ++ '"' :: back
            = x :: ((s.takeWhile (fun y => !isQuote y) ++ z :: t) ++ '"' :: back) := by
              rw [hcut, List.cons_append]
          _ = upToQuote (x :: s) ++ z :: (t ++ '"' :: back) := by
              rw [List.append_assoc, upToQuote, List.cons_append, List.cons_append]
  have hbehind : behindQuote name back = rest := by
    rw [behindQuote, hsplit, List.append_cons]
    exact List.drop_left' (by simp)
  exact ⟨q, hq, hbehind ▸ hsplit⟩

theorem behindQuote_of_unquoted (h : Unquoted name.tail) (back : List Char) :
    behindQuote name back = back := by
  rw [behindQuote, upToQuote_eq_self_iff.2 h, List.append_cons]
  exact List.drop_left' (by simp)

end Phrase

open Text Phrase Pattern Family

/-! ## Requests with nothing but a name -/

/-- A name with apostrophes, but without double quotes. -/
structure ApostropheName where
  text : String
  apostrophe : '\'' ∈ text.toList
  doubleFree : '"' ∉ text.toList
  lineFree : '\n' ∉ text.toList

theorem ApostropheName.ne_nil (name : ApostropheName) : name.text.toList ≠ [] :=
  List.ne_nil_of_mem name.apostrophe

theorem ApostropheName.upToQuote_ne (name : ApostropheName) :
    String.ofList (upToQuote name.text.toList) ≠ "" := by
  have hne := (unbroken_upToQuote name.ne_nil name.lineFree).ne
  simpa using hne

/-- What can be asked for with a name alone. -/
inductive NamedRequest
  | create
  | delete
  | find
  deriving DecidableEq, Repr

namespace NamedRequest

def front : NamedRequest → String
  | create => "Create a note titled "
  | delete => "Delete my "
  | find => "Find notes about "

def back : NamedRequest → String
  | create | find => ""
  | delete => " note"

/-- The request, with the name between double quotes. -/
def text (r : NamedRequest) (name : String) : String :=
  r.front ++ QuoteMark.double.around name ++ r.back

def family : NamedRequest → Family
  | create => .explicitCreate
  | delete => .delete
  | find => .search

/-- The families that come before that of the request, and always apply. -/
def earlier : NamedRequest → List Family
  | create => []
  | delete => [.explicitCreate, .update]
  | find => [.explicitCreate, .update, .delete]

/-- The phrases that come before that of the request. -/
def rivals : NamedRequest → List Pattern
  | create => []
  | delete => createPatterns ++ updatePatterns
  | find => createPatterns ++ updatePatterns ++ deletePatterns ++ [findNamed]

/-- Only a new note has items: those that are behind the quote that closes its name. -/
def items (name : ApostropheName) : NamedRequest → List (List Char)
  | create => itemsBehind (behindQuote name.text.toList [])
  | delete | find => []

/-- The request for the name up to the quote that closes it. -/
def command (r : NamedRequest) (name : ApostropheName) : Command :=
  ⟨r.family.action, String.ofList (upToQuote name.text.toList), (r.items name).map String.ofList,
    none, name.upToQuote_ne⟩

variable {r : NamedRequest} {name : ApostropheName}

theorem toList_text (r : NamedRequest) (name : String) :
    (r.text name).toList = r.front.toList ++ ('"' :: (name.toList ++ '"' :: r.back.toList)) := by
  show (r.front ++ QuoteMark.double.around name ++ r.back).toList = _
  simp only [String.toList_append, PlainRequest.toList_around, QuoteMark.char, List.append_assoc,
    List.cons_append, List.nil_append]

/-- The request, with the quote that closes the name. -/
theorem exists_toList_text (r : NamedRequest) (name : ApostropheName) :
    ∃ q, isQuote q = true ∧ (r.text name.text).toList = r.front.toList ++
      ('"' :: (upToQuote name.text.toList ++ q :: behindQuote name.text.toList r.back.toList)) := by
  obtain ⟨q, hq, hsplit⟩ := exists_close name.ne_nil r.back.toList
  exact ⟨q, hq, by rw [toList_text, hsplit]⟩

theorem mem_text (r : NamedRequest) (name : String) :
    QuoteMark.double.char ∈ (r.text name).toList := by
  rw [toList_text]
  simp [QuoteMark.char]

theorem all_eq (r : NamedRequest) :
    ∃ after, Family.all = [longText, tripPlan] ++ (r.earlier ++ r.family :: after) := by
  cases r with
  | create => exact ⟨_, rfl⟩
  | delete => exact ⟨_, rfl⟩
  | find => exact ⟨_, rfl⟩

theorem explicitCreateDraft?_text (name : ApostropheName) :
    explicitCreateDraft? (create.text name.text).toList =
      some (draft .create (upToQuote name.text.toList) (some (create.items name))) := by
  have hsplit : create.front.toList = "Create a note".toList ++ " titled ".toList := by decide
  obtain ⟨q, hq, htext⟩ := exists_toList_text create name
  have hname := unbroken_upToQuote name.ne_nil name.lineFree
  rw [htext, hsplit, List.append_assoc]
  exact explicitCreateDraft?_of_close (q := '"') (by decide) hq hname

theorem search_delete_text (name : ApostropheName) :
    ∃ found, (verbNamed (word "delete")).search (delete.text name.text).toList = some found ∧
      found.text .first = some (upToQuote name.text.toList) := by
  obtain ⟨q, hq, htext⟩ := exists_toList_text delete name
  have hname := unbroken_upToQuote name.ne_nil name.lineFree
  rw [htext]
  refine ⟨_, search_delete_of_close (q := '"') (by decide) hq hname, ?_⟩
  exact Captures.text_record _ .first _ _

theorem search_find_text (name : ApostropheName) :
    ∃ found, findAbout.search (find.text name.text).toList = some found ∧
      found.text .first = some (upToQuote name.text.toList) := by
  obtain ⟨q, hq, htext⟩ := exists_toList_text find name
  have hname := unbroken_upToQuote name.ne_nil name.lineFree
  rw [htext]
  refine ⟨_, search_find_of_close (q := '"') (by decide) hq hname, ?_⟩
  exact Captures.text_record _ .first _ _

/-- A phrase of its family occurs in every request. -/
theorem occursIn_text (r : NamedRequest) (name : ApostropheName) :
    r.family.OccursIn (r.text name.text).toList := by
  cases r with
  | create =>
    have hne : explicitCreate.draft? (create.text name.text).toList ≠ none :=
      Option.ne_none_iff_exists'.2 ⟨_, explicitCreateDraft?_text name⟩
    exact Decidable.not_not.1 fun h => hne ((draft?_eq_none_iff (by decide)).2 h)
  | delete =>
    obtain ⟨found, hfound, -⟩ := search_delete_text name
    exact ⟨_, List.mem_cons_self, by rw [hfound, Option.isSome_some]⟩
  | find =>
    obtain ⟨found, hfound, -⟩ := search_find_text name
    exact ⟨findAbout, List.mem_cons_of_mem _ List.mem_cons_self,
      by rw [hfound, Option.isSome_some]⟩

/-- Where no phrase comes before that of the request, the name up to the quote that closes it is the
title. -/
theorem exists_draft_text (name : ApostropheName)
    (hrivals : ∀ p ∈ r.rivals, p.search (r.text name.text).toList = none) :
    ∃ content, r.family.draft? (r.text name.text).toList =
        some (draft r.family.action (upToQuote name.text.toList) content) ∧
      (content.map (·.map String.ofList)).getD [] = (r.items name).map String.ofList := by
  cases r with
  | create => exact ⟨_, explicitCreateDraft?_text name, rfl⟩
  | delete =>
    obtain ⟨found, hfound, htitle⟩ := search_delete_text name
    exact ⟨none, titleDraft?_eq (firstMatch_head hfound deletePatterns.tail) htitle, rfl⟩
  | find =>
    obtain ⟨found, hfound, htitle⟩ := search_find_text name
    have hnamed : findNamed.search (find.text name.text).toList = none :=
      hrivals findNamed (by simp [rivals])
    have hmatch : firstMatch searchPatterns (find.text name.text).toList = some found :=
      (firstMatch_tail hnamed [findAbout]).trans (firstMatch_head hfound [])
    exact ⟨none, titleDraft?_eq hmatch htitle, rfl⟩

theorem applies_family (r : NamedRequest) (s : List Char) : r.family.applies s = true := by
  cases r <;> rfl

theorem family_ne_longText (r : NamedRequest) : r.family ≠ longText := by
  cases r <;> decide

theorem reads_command (name : ApostropheName)
    (hrivals : ∀ p ∈ r.rivals, p.search (r.text name.text).toList = none) :
    r.family.Reads (r.text name.text).toList (r.command name) := by
  obtain ⟨content, hdraft, hcontent⟩ := exists_draft_text name hrivals
  have htitle : (r.command name).title.toList = upToQuote name.text.toList := String.toList_ofList
  rw [← htitle] at hdraft
  exact reads_of_draft? (applies_family r _) hdraft hcontent rfl

theorem mem_rivals {f : Family} {p : Pattern} (hf : f ∈ r.earlier) (hp : p ∈ f.phrases) :
    p ∈ r.rivals := by
  cases r with
  | create => cases hf
  | delete =>
    simp only [earlier, List.mem_cons, List.not_mem_nil, or_false] at hf
    rcases hf with rfl | rfl
    · exact List.mem_append_left _ hp
    · exact List.mem_append_right _ hp
  | find =>
    simp only [earlier, List.mem_cons, List.not_mem_nil, or_false] at hf
    rcases hf with rfl | rfl | rfl
    · exact List.mem_append_left _ (List.mem_append_left _ (List.mem_append_left _ hp))
    · exact List.mem_append_left _ (List.mem_append_left _ (List.mem_append_right _ hp))
    · exact List.mem_append_left _ (List.mem_append_right _ hp)

theorem ne_longText_of_mem_earlier : ∀ f ∈ r.earlier, f ≠ longText := by
  cases r <;> simp [earlier]

theorem applies_of_mem_earlier (s : List Char) : ∀ f ∈ r.earlier, f.applies s = true := by
  cases r <;> simp [earlier, applies]

/-! ## The course of a reading -/

/-- The families that are tried before read nothing where there is no trip. -/
theorem not_reads_before (name : String)
    (htrip : mentions tripWords (lowercase (r.text name).toList) = false) :
    ∀ f ∈ [longText, tripPlan], ∀ c, ¬ f.Reads (r.text name).toList c := by
  have hlong : ∀ c, ¬ longText.Reads (r.text name).toList c :=
    not_reads_of_applies (PlainRequest.longText_applies_eq_false (mem_text r name))
  have hplan : ∀ c, ¬ tripPlan.Reads (r.text name).toList c := not_reads_of_applies htrip
  simp [hlong, hplan]

/-- Neither do the families without a phrase in the sentence. -/
theorem not_reads_front (htrip : mentions tripWords (lowercase (r.text name.text).toList) = false)
    (hno : ∀ g ∈ r.earlier, ¬ g.OccursIn (r.text name.text).toList) :
    ∀ g ∈ [longText, tripPlan] ++ r.earlier, ∀ c, ¬ g.Reads (r.text name.text).toList c := by
  intro g hg
  rcases List.mem_append.1 hg with hg | hg
  · exact not_reads_before name.text htrip g hg
  · exact not_reads_of_not_occursIn (ne_longText_of_mem_earlier g hg) (hno g hg)

theorem classify_of_rivals
    (htrip : mentions tripWords (lowercase (r.text name.text).toList) = false)
    (hrivals : ∀ p ∈ r.rivals, p.search (r.text name.text).toList = none) :
    classify (r.text name.text) = some ⟨r.family, r.command name⟩ := by
  have hno : ∀ g ∈ r.earlier, ¬ g.OccursIn (r.text name.text).toList := by
    intro g hg
    rw [not_occursIn_iff]
    exact fun p hp => hrivals p (mem_rivals hg hp)
  obtain ⟨after, hall⟩ := all_eq r
  rw [classify_eq_some_iff]
  refine ⟨[longText, tripPlan] ++ r.earlier, after, ?_, reads_command name hrivals,
    not_reads_front htrip hno⟩
  rw [hall, List.append_assoc]

/-- An earlier family with a phrase in the sentence comes first. -/
theorem exists_classify_of_occursIn {g : Family}
    (htrip : mentions tripWords (lowercase (r.text name.text).toList) = false)
    (hg : g ∈ r.earlier) (hin : g.OccursIn (r.text name.text).toList) :
    ∃ f ∈ r.earlier, ∃ c, classify (r.text name.text) = some ⟨f, c⟩ := by
  obtain ⟨after, hall⟩ := all_eq r
  have hreads := exists_reads_of_occursIn (ne_longText_of_mem_earlier g hg)
    (applies_of_mem_earlier _ g hg) hin
  exact exists_classify_of_reads hall (not_reads_before name.text htrip) ⟨g, hg, hreads⟩

/-- Without such a family, that of the request reads the sentence. -/
theorem exists_classify_of_not_occursIn
    (htrip : mentions tripWords (lowercase (r.text name.text).toList) = false)
    (hno : ∀ g ∈ r.earlier, ¬ g.OccursIn (r.text name.text).toList) :
    ∃ c, classify (r.text name.text) = some ⟨r.family, c⟩ := by
  obtain ⟨after, hall⟩ := all_eq r
  have hfront : Family.all = ([longText, tripPlan] ++ r.earlier) ++ ([r.family] ++ after) := by
    rw [hall, List.append_assoc, List.singleton_append]
  have hreads := exists_reads_of_occursIn (family_ne_longText r) (applies_family r _)
    (occursIn_text r name)
  obtain ⟨f, hf, hread⟩ := exists_classify_of_reads hfront (not_reads_front htrip hno)
    ⟨r.family, List.mem_singleton_self _, hreads⟩
  rwa [List.mem_singleton.1 hf] at hread

/-- The whole name is the title if the first character is the only apostrophe. -/
theorem title_command_eq_iff :
    (r.command name).title = name.text ↔ '\'' ∉ name.text.toList.tail := by
  have hquotes : Unquoted name.text.toList.tail ↔ '\'' ∉ name.text.toList.tail := by
    constructor
    · intro h hmem
      have hquote := h '\'' hmem
      cases hquote
    · intro h x hx
      refine Bool.or_eq_false_iff.2 ⟨beq_eq_false_iff_ne.2 ?_, beq_eq_false_iff_ne.2 ?_⟩
      · rintro rfl
        exact h hx
      · rintro rfl
        exact name.doubleFree (List.mem_of_mem_tail hx)
  rw [command, ← String.toList_inj, String.toList_ofList, upToQuote_eq_self_iff, hquotes]

/-- Nothing is left for the items if the whole name is the title. -/
theorem content_command_eq_nil (h : (r.command name).title = name.text) :
    (r.command name).content = [] := by
  rw [command, ← String.toList_inj, String.toList_ofList, upToQuote_eq_self_iff] at h
  cases r with
  | create =>
    rw [command, items, behindQuote_of_unquoted h]
    rfl
  | delete => rfl
  | find => rfl

/-- **A request with an apostrophe in the name** is read for the name up to the quote that closes
it, unless the sentence holds a phrase that comes before that of the request.  It is always read:
by an earlier family if one of its phrases occurs, and by that of the request otherwise. -/
theorem classify_named (r : NamedRequest) (name : ApostropheName)
    (htrip : mentions tripWords (lowercase (r.text name.text).toList) = false) :
    ((∀ p ∈ r.rivals, p.search (r.text name.text).toList = none) →
      classify (r.text name.text) = some ⟨r.family, r.command name⟩) ∧
    (∃ f c, classify (r.text name.text) = some ⟨f, c⟩ ∧
      ((∃ g ∈ r.earlier, g.OccursIn (r.text name.text).toList) → f ∈ r.earlier) ∧
      ((∀ g ∈ r.earlier, ¬ g.OccursIn (r.text name.text).toList) → f = r.family)) ∧
    ((r.command name).title = name.text ↔ '\'' ∉ name.text.toList.tail) ∧
    ((r.command name).title = name.text → (r.command name).content = []) := by
  refine ⟨classify_of_rivals htrip, ?_, title_command_eq_iff, content_command_eq_nil⟩
  by_cases hoccurs : ∃ g ∈ r.earlier, g.OccursIn (r.text name.text).toList
  · obtain ⟨g, hg, hin⟩ := hoccurs
    obtain ⟨f, hf, c, hread⟩ := exists_classify_of_occursIn htrip hg hin
    exact ⟨f, c, hread, fun _ => hf, fun hno => absurd hin (hno g hg)⟩
  · have hno : ∀ g ∈ r.earlier, ¬ g.OccursIn (r.text name.text).toList := by
      intro g hg hin
      exact hoccurs ⟨g, hg, hin⟩
    obtain ⟨c, hread⟩ := exists_classify_of_not_occursIn htrip hno
    exact ⟨r.family, c, hread, fun h => absurd h hoccurs, fun _ => rfl⟩

theorem classify_named_dontForget :
    classify "Delete my \"don't forget\" note" =
      some ⟨.delete, ⟨.delete, "don", [], none, by decide⟩⟩ := by
  let name : ApostropheName := ⟨"don't forget", by decide, by decide, by decide⟩
  have hrivals : ∀ p ∈ delete.rivals, p.search (delete.text name.text).toList = none := by
    decide +kernel
  have hread := (classify_named delete name (by decide)).1 hrivals
  have hcommand : delete.command name = ⟨.delete, "don", [], none, by decide⟩ := by decide
  rw [hcommand] at hread
  exact hread

/-- The apostrophe closes the name, and what it leaves may even be a phrase of another family. -/
theorem named_not_whole :
    mentions tripWords (lowercase "Delete my \"don't forget\" note".toList) = false ∧
    classify "Delete my \"don't forget\" note" =
      some ⟨.delete, ⟨.delete, "don", [], none, by decide⟩⟩ ∧
    mentions tripWords (lowercase "Delete my \"add milk to 'list\" note".toList) = false ∧
    classify "Delete my \"add milk to 'list\" note" =
      some ⟨.update, ⟨.update, "list", ["milk"], none, by decide⟩⟩ := by
  decide +kernel

end NamedRequest

end PlainNotes

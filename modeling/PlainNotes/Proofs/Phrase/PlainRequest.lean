import PlainNotes.Proofs.Phrase.Cascade
import PlainNotes.Proofs.Phrase.PlainWording

/-!
# Requests in their plainest wording

Each action has a plain wording, in which the name of the note stands in quotes.  It is read as the
command that it spells, whatever the name and the items are: they may well hold the words of other
phrases.

* `PlainRequest`: the requests, with names and items that fit into their wordings.
* `classify_text`: a request is read by the family of its wording, as its command.
-/

namespace PlainNotes

open Text Phrase Pattern

/-- A name that can stand in quotes. -/
structure QuotableName where
  text : String
  ne : text ≠ ""
  unquoted : Unquoted text.toList
  lineFree : '\n' ∉ text.toList

/-- An item that can stand in the middle of a sentence. -/
structure SentenceItem where
  text : String
  ne : text ≠ ""
  trimmed : Trimmed text.toList
  unquoted : Unquoted text.toList
  lineFree : '\n' ∉ text.toList

/-- Items that can be listed behind a colon. -/
structure ListedItems where
  items : List String
  ne_nil : items ≠ []
  ne_blank : items ≠ [""]
  trimmed : ∀ x ∈ items, Trimmed x.toList
  commaFree : ∀ x ∈ items, ',' ∉ x.toList
  lineFree : ∀ x ∈ items, '\n' ∉ x.toList

inductive QuoteMark
  | single
  | double
  deriving DecidableEq, Repr

def QuoteMark.char : QuoteMark → Char
  | single => '\''
  | double => '"'

def QuoteMark.around (q : QuoteMark) (text : String) : String :=
  String.singleton q.char ++ text ++ String.singleton q.char

/-- What can be asked for in plain words. -/
inductive PlainRequest
  | create (name : QuotableName)
  | createWith (name : QuotableName) (items : ListedItems)
  | add (item : SentenceItem) (name : QuotableName)
  | update (name : QuotableName) (item : SentenceItem)
  | delete (name : QuotableName)
  | find (name : QuotableName)

namespace PlainRequest

def text (q : QuoteMark) : PlainRequest → String
  | create name => "Create a note titled " ++ q.around name.text
  | createWith name items =>
    "Create a note titled " ++ q.around name.text ++ " with items: " ++ ", ".intercalate items.items
  | add item name => "Add " ++ item.text ++ " to my " ++ q.around name.text ++ " note"
  | update name item => "Update my " ++ q.around name.text ++ " note with " ++ item.text
  | delete name => "Delete my " ++ q.around name.text ++ " note"
  | find name => "Find notes about " ++ q.around name.text

def family : PlainRequest → Family
  | create _ | createWith .. => .explicitCreate
  | add .. | update .. => .update
  | delete _ => .delete
  | find _ => .search

def command : PlainRequest → Command
  | create name => ⟨.create, name.text, [], none, name.ne⟩
  | createWith name items => ⟨.create, name.text, items.items, none, name.ne⟩
  | add item name | update name item => ⟨.update, name.text, [item.text], none, name.ne⟩
  | delete name => ⟨.delete, name.text, [], none, name.ne⟩
  | find name => ⟨.search, name.text, [], none, name.ne⟩

end PlainRequest

theorem QuoteMark.isQuote_char (q : QuoteMark) : isQuote q.char = true := by
  cases q <;> rfl

namespace PlainRequest

variable {q : QuoteMark}

theorem toList_around (q : QuoteMark) (name : String) :
    (q.around name).toList = q.char :: (name.toList ++ [q.char]) := by
  rw [QuoteMark.around, String.toList_append, String.toList_append, String.toList_singleton,
    List.append_assoc, List.singleton_append]

theorem toList_create (q : QuoteMark) (name : QuotableName) :
    ((create name).text q).toList = "Create a note".toList ++
      (" titled ".toList ++ (q.char :: (name.text.toList ++ q.char :: []))) := by
  have hsplit : "Create a note titled ".toList = "Create a note".toList ++ " titled ".toList := by
    decide
  show ("Create a note titled " ++ q.around name.text).toList = _
  simp only [String.toList_append, toList_around, hsplit, List.append_assoc]

theorem toList_createWith (q : QuoteMark) (name : QuotableName) (items : ListedItems) :
    ((createWith name items).text q).toList = "Create a note".toList ++
      (" titled ".toList ++ (q.char :: (name.text.toList ++ q.char :: (" with items: ".toList ++
        [',', ' '].intercalate (items.items.map String.toList))))) := by
  have hsplit : "Create a note titled ".toList = "Create a note".toList ++ " titled ".toList := by
    decide
  have hcomma : ", ".toList = [',', ' '] := by decide
  show ("Create a note titled " ++ q.around name.text ++ " with items: " ++
    ", ".intercalate items.items).toList = _
  simp only [String.toList_append, toList_around, hsplit, String.toList_intercalate,
    hcomma, List.append_assoc, List.cons_append, List.nil_append]

theorem toList_add (q : QuoteMark) (item : SentenceItem) (name : QuotableName) :
    ((add item name).text q).toList = ("Add ".toList ++ (item.text.toList ++ " to my ".toList)) ++
      (q.char :: (name.text.toList ++ q.char :: " note".toList)) := by
  show ("Add " ++ item.text ++ " to my " ++ q.around name.text ++ " note").toList = _
  simp only [String.toList_append, toList_around, List.append_assoc, List.cons_append,
    List.nil_append]

theorem toList_update (q : QuoteMark) (name : QuotableName) (item : SentenceItem) :
    ((update name item).text q).toList = "Update my ".toList ++
      (q.char :: (name.text.toList ++ q.char :: (" note with ".toList ++ item.text.toList))) := by
  show ("Update my " ++ q.around name.text ++ " note with " ++ item.text).toList = _
  simp only [String.toList_append, toList_around, List.append_assoc, List.cons_append,
    List.nil_append]

theorem toList_delete (q : QuoteMark) (name : QuotableName) :
    ((delete name).text q).toList = "Delete my ".toList ++
      (q.char :: (name.text.toList ++ q.char :: " note".toList)) := by
  show ("Delete my " ++ q.around name.text ++ " note").toList = _
  simp only [String.toList_append, toList_around, List.append_assoc, List.cons_append,
    List.nil_append]

theorem toList_find (q : QuoteMark) (name : QuotableName) :
    ((find name).text q).toList = "Find notes about ".toList ++
      (q.char :: (name.text.toList ++ q.char :: [])) := by
  show ("Find notes about " ++ q.around name.text).toList = _
  simp only [String.toList_append, toList_around]

/-! ## The families that read the requests -/

open Family

/-- A sentence with quotes is no long text. -/
theorem longText_applies_eq_false {s : List Char} (h : q.char ∈ s) :
    longText.applies s = false := by
  have hany : s.any isQuote = true := List.any_eq_true.2 ⟨q.char, h, q.isQuote_char⟩
  rw [applies, hany, Bool.not_true, Bool.and_false]

def quoting (q : QuoteMark) (name : QuotableName) (front back : List Char)
    (hfront : Unquoted front) (hback : Unquoted back) : Quoting :=
  ⟨front, q.char, name.text.toList, back, q.isQuote_char, hfront, name.unquoted, hback⟩

theorem explicitCreateDraft?_create (q : QuoteMark) (name : QuotableName) :
    explicitCreateDraft? ((create name).text q).toList =
      some (draft .create name.text.toList (some [])) := by
  rw [toList_create]
  exact explicitCreateDraft?_titled q.isQuote_char (by simpa using name.ne) name.unquoted
    (inLine_of_lineFree name.lineFree)

theorem explicitCreateDraft?_createWith (q : QuoteMark) (name : QuotableName)
    (items : ListedItems) :
    explicitCreateDraft? ((createWith name items).text q).toList =
      some (draft .create name.text.toList (some (items.items.map String.toList))) := by
  have hne : items.items.map String.toList ≠ [] := by simpa using items.ne_nil
  have hempty : items.items.map String.toList ≠ [[]] := by
    intro h
    have hblank := congrArg (List.map String.ofList) h
    exact items.ne_blank (by simpa using hblank)
  have hcomma : ∀ x ∈ items.items.map String.toList, ',' ∉ x :=
    List.forall_mem_map.2 items.commaFree
  have hline : ∀ x ∈ items.items.map String.toList, '\n' ∉ x :=
    List.forall_mem_map.2 items.lineFree
  have htrim : ∀ x ∈ items.items.map String.toList, Trimmed x :=
    List.forall_mem_map.2 items.trimmed
  rw [toList_createWith, explicitCreateDraft?_titled q.isQuote_char (by simpa using name.ne)
    name.unquoted (inLine_of_lineFree name.lineFree),
    itemsBehind_withItems (intercalate_ne_nil hne hempty) (startsOutside_intercalate hempty htrim)
      (inLine_of_lineFree (not_mem_intercalate (by decide) hline)),
    splitItems_intercalate hne hcomma hline htrim]

theorem unquoted_addFront (item : SentenceItem) :
    Unquoted ("Add ".toList ++ (item.text.toList ++ " to my ".toList)) :=
  unquoted_append.2 ⟨by decide, unquoted_append.2 ⟨item.unquoted, by decide⟩⟩

theorem unquoted_updateBack (item : SentenceItem) :
    Unquoted (" note with ".toList ++ item.text.toList) :=
  unquoted_append.2 ⟨by decide, item.unquoted⟩

theorem updateDraft?_add (q : QuoteMark) (item : SentenceItem) (name : QuotableName)
    (h : mentions ["update"] (lowercase ((add item name).text q).toList) = false) :
    updateDraft? ((add item name).text q).toList =
      some (draft .update name.text.toList (some [item.text.toList])) := by
  have hname : name.text.toList ≠ [] := by simpa using name.ne
  have hitem : item.text.toList ≠ [] := by simpa using item.ne
  obtain ⟨found, hsearch, hfirst, hsecond⟩ := search_add
    (t := quoting q name _ " note".toList (unquoted_addFront item) (by decide)) hitem
    item.trimmed item.unquoted (inLine_of_lineFree item.lineFree) hname
    (inLine_of_lineFree name.lineFree) rfl
  rw [toList_add] at h ⊢
  refine updateDraft?_of_add hsearch ?_
  rw [h, updateMatchDraft?_eq hfirst hsecond hitem hname, if_neg Bool.false_ne_true,
    stripQuotes_trim item.trimmed item.unquoted]
  rfl

theorem updateDraft?_update (q : QuoteMark) (name : QuotableName) (item : SentenceItem) :
    updateDraft? ((update name item).text q).toList =
      some (draft .update name.text.toList (some [item.text.toList])) := by
  have hname : name.text.toList ≠ [] := by simpa using name.ne
  have hitem : item.text.toList ≠ [] := by simpa using item.ne
  have habsent : ((word "add").search "Update my ".toList).isSome = false := by decide
  have hadd : (addTo "add").search
      (quoting q name "Update my ".toList _ (by decide) (unquoted_updateBack item)).text = none :=
    Quoting.search_addTo_eq_none (by decide) habsent
  obtain ⟨found, hsearch, hfirst, hsecond⟩ := search_updateWith q.isQuote_char hname name.unquoted
    (inLine_of_lineFree name.lineFree) hitem item.trimmed (inLine_of_lineFree item.lineFree)
  have hsplit : "Update my ".toList = "Update".toList ++ " my ".toList := by decide
  have hmentions : mentions ["update"] (lowercase ((update name item).text q).toList) = true := by
    rw [toList_update, hsplit, List.append_assoc]
    exact mentions_append (by decide) (by decide) _
  rw [toList_update] at hmentions ⊢
  refine updateDraft?_of_updateWith hadd hsearch ?_
  rw [hmentions, updateMatchDraft?_eq hfirst hsecond hname hitem, if_pos rfl,
    stripQuotes_trim item.trimmed item.unquoted]

theorem draft?_delete (q : QuoteMark) (name : QuotableName) :
    Family.delete.draft? ((delete name).text q).toList =
      some (draft .delete name.text.toList none) := by
  have hname : name.text.toList ≠ [] := by simpa using name.ne
  have hfound := firstMatch_delete
    (t := quoting q name "Delete my ".toList " note".toList (by decide) (by decide)) rfl hname
    (inLine_of_lineFree name.lineFree)
  rw [toList_delete]
  exact titleDraft?_eq hfound (Captures.text_record _ .first _ _)

theorem draft?_find (q : QuoteMark) (name : QuotableName) :
    Family.search.draft? ((find name).text q).toList =
      some (draft .search name.text.toList none) := by
  have hname : name.text.toList ≠ [] := by simpa using name.ne
  obtain ⟨found, hfound, htitle⟩ := firstMatch_find
    (t := quoting q name "Find notes about ".toList [] (by decide) (by decide)) rfl hname
    (inLine_of_lineFree name.lineFree)
  rw [toList_find]
  exact titleDraft?_eq hfound htitle

/-- The last letter in front of the quotes keeps a sentence from making a note. -/
theorem not_reads_explicitCreate {t : Quoting} {a : List Char} {x : Char}
    (hfront : t.front = a ++ [x, ' ']) (hx : isBlank x = false ∧ foldsTo 'd' x = false)
    (c : Command) : ¬ explicitCreate.Reads t.text c :=
  not_reads_of_draft? (f := explicitCreate)
    (Quoting.explicitCreateDraft?_eq_none hfront hx.1 hx.2) c

/-- A sentence without the verbs of the family in front of the quotes adds to no note. -/
theorem not_reads_update {t : Quoting} {front : String} (hfront : t.front = front.toList)
    (h : ((word "add").search front.toList).isSome = false ∧
      ((word "update").search front.toList).isSome = false ∧
      ((word "append").search front.toList).isSome = false) (c : Command) :
    ¬ Family.update.Reads t.text c := by
  rw [← hfront] at h
  exact not_reads_of_draft? (f := .update) (Quoting.updateDraft?_eq_none h.1 h.2.1 h.2.2) c

/-- A sentence without the verbs of the family in front of the quotes removes no note. -/
theorem not_reads_delete {t : Quoting} {front : String} (hfront : t.front = front.toList)
    (h : ((word "delete").search front.toList).isSome = false ∧
      ((word "remove").search front.toList).isSome = false ∧
      ((word "trash").search front.toList).isSome = false ∧
      ((all [word "get", gap, word "rid", gap, word "of"]).search front.toList).isSome = false)
    (c : Command) : ¬ Family.delete.Reads t.text c := by
  rw [← hfront] at h
  exact not_reads_of_draft? (Quoting.deleteDraft?_eq_none h.1 h.2.1 h.2.2.1 h.2.2.2) c

theorem mem_text (q : QuoteMark) (r : PlainRequest) : q.char ∈ (r.text q).toList := by
  cases r with
  | create name =>
    rw [toList_create]
    simp
  | createWith name items =>
    rw [toList_createWith]
    simp
  | add item name =>
    rw [toList_add]
    simp
  | update name item =>
    rw [toList_update]
    simp
  | delete name =>
    rw [toList_delete]
    simp
  | find name =>
    rw [toList_find]
    simp

/-- Only requests for a note read as the making of one. -/
theorem not_explicitCreate (q : QuoteMark) (r : PlainRequest) (h : r.family ≠ explicitCreate) :
    ∀ c, ¬ explicitCreate.Reads (r.text q).toList c := by
  cases r with
  | create name => exact absurd rfl h
  | createWith name items => exact absurd rfl h
  | add item name =>
    rw [toList_add]
    exact not_reads_explicitCreate
      (t := quoting q name _ " note".toList (unquoted_addFront item) (by decide))
      (a := "Add ".toList ++ (item.text.toList ++ " to m".toList)) (x := 'y') (by simp [quoting])
      (by decide)
  | update name item =>
    rw [toList_update]
    exact not_reads_explicitCreate
      (t := quoting q name "Update my ".toList _ (by decide) (unquoted_updateBack item))
      (a := "Update m".toList) (x := 'y') (by simp [quoting]) (by decide)
  | delete name =>
    rw [toList_delete]
    exact not_reads_explicitCreate
      (t := quoting q name "Delete my ".toList " note".toList (by decide) (by decide))
      (a := "Delete m".toList) (x := 'y') (by simp [quoting]) (by decide)
  | find name =>
    rw [toList_find]
    exact not_reads_explicitCreate
      (t := quoting q name "Find notes about ".toList [] (by decide) (by decide))
      (a := "Find notes abou".toList) (x := 't') (by simp [quoting]) (by decide)

theorem not_update_delete (q : QuoteMark) (name : QuotableName) :
    ∀ c, ¬ Family.update.Reads ((delete name).text q).toList c := by
  rw [toList_delete]
  exact not_reads_update
    (t := quoting q name "Delete my ".toList " note".toList (by decide) (by decide)) rfl (by decide)

theorem not_update_find (q : QuoteMark) (name : QuotableName) :
    ∀ c, ¬ Family.update.Reads ((find name).text q).toList c := by
  rw [toList_find]
  exact not_reads_update
    (t := quoting q name "Find notes about ".toList [] (by decide) (by decide)) rfl (by decide)

theorem not_delete_find (q : QuoteMark) (name : QuotableName) :
    ∀ c, ¬ Family.delete.Reads ((find name).text q).toList c := by
  rw [toList_find]
  exact not_reads_delete
    (t := quoting q name "Find notes about ".toList [] (by decide) (by decide)) rfl (by decide)

/-- The family of a wording reads what is asked for, whatever the other families do. -/
theorem reads_command (q : QuoteMark) (r : PlainRequest)
    (hupdate : ∀ item name, r = add item name →
      mentions ["update"] (lowercase (r.text q).toList) = false) :
    r.family.Reads (r.text q).toList r.command := by
  cases r with
  | create name => exact reads_of_draft? rfl (explicitCreateDraft?_create q name) rfl rfl
  | createWith name items =>
    exact reads_of_draft? rfl (explicitCreateDraft?_createWith q name items) (by simp [command]) rfl
  | add item name =>
    exact reads_of_draft? rfl (updateDraft?_add q item name (hupdate item name rfl))
      (by simp [command]) rfl
  | update name item =>
    exact reads_of_draft? rfl (updateDraft?_update q name item) (by simp [command]) rfl
  | delete name => exact reads_of_draft? rfl (draft?_delete q name) rfl rfl
  | find name => exact reads_of_draft? rfl (draft?_find q name) rfl rfl

/-- **A request in plain words is read as it is meant**: by the family of its wording, and as the
command that it spells.  Trips must not be spoken of, since they come first, and what is added must
not speak of updates, which tell what is the name and what the item. -/
theorem classify_text (q : QuoteMark) (r : PlainRequest)
    (htrip : mentions tripWords (lowercase (r.text q).toList) = false)
    (hupdate : ∀ item name, r = add item name →
      mentions ["update"] (lowercase (r.text q).toList) = false) :
    classify (r.text q) = some ⟨r.family, r.command⟩ := by
  have hlong : ∀ c, ¬ longText.Reads (r.text q).toList c :=
    not_reads_of_applies (longText_applies_eq_false (mem_text q r))
  have hplan : ∀ c, ¬ tripPlan.Reads (r.text q).toList c := not_reads_of_applies htrip
  have hcreate := not_explicitCreate q r
  have hreads := reads_command q r hupdate
  rw [classify_eq_some_iff]
  -- The families in front of that of the wording read nothing.
  cases r with
  | create | createWith =>
    exact ⟨[longText, tripPlan], _, rfl, hreads, by simp [hlong, hplan]⟩
  | add | update =>
    have hcreate := hcreate (by simp [family])
    exact ⟨[longText, tripPlan, explicitCreate], _, rfl, hreads, by simp [hlong, hplan, hcreate]⟩
  | delete name =>
    have hcreate := hcreate (by simp [family])
    exact ⟨[longText, tripPlan, explicitCreate, .update], _, rfl, hreads,
      by simp [hlong, hplan, hcreate, not_update_delete q name]⟩
  | find name =>
    have hcreate := hcreate (by simp [family])
    exact ⟨[longText, tripPlan, explicitCreate, .update, .delete], _, rfl, hreads,
      by simp [hlong, hplan, hcreate, not_update_find q name, not_delete_find q name]⟩

/-- The words of other requests in the item and in the name do not matter. -/
theorem classify_text_otherWords :
    classify "Add delete it to my to my 'note about tea titled' note" =
      some ⟨.update, ⟨.update, "note about tea titled", ["delete it to my"], none, by decide⟩⟩ :=
  classify_text .single (add ⟨"delete it to my", by decide, by decide, by decide, by decide⟩
    ⟨"note about tea titled", by decide, by decide, by decide⟩) (by decide) fun _ _ _ => by decide

end PlainRequest

end PlainNotes

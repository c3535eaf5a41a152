import PlainNotes.Proofs.Phrase.PlainRequest

/-!
# What stands behind the title of a new note

A request for a note with a title may go on behind the title.  Whatever it says there, a note is
made under the title, and `itemsBehind` tells its items.

* `classify_titled`: the request with any text behind the title.
* `classify_bulletList`: a list of lines with bullets.  The stretch with the items ends with its
  line, so that only the first line counts, and one line is not cut and keeps its bullet.
* `classify_contentClause`: any text behind `with content`.  A colon or an `of` at its front belongs
  to the words, not to the items.
-/

namespace PlainNotes

open Text Phrase Pattern Family

/-- A request for a note with a title, and what stands behind the title. -/
def titledRequest (q : QuoteMark) (name : QuotableName) (back : String) : String :=
  "Create a note titled " ++ q.around name.text ++ back

variable {s : List Char}

theorem toList_titledRequest (q : QuoteMark) (name : QuotableName) (back : String) :
    (titledRequest q name back).toList = "Create a note".toList ++
      (" titled ".toList ++ (q.char :: (name.text.toList ++ q.char :: back.toList))) := by
  have hsplit : "Create a note titled ".toList = "Create a note".toList ++ " titled ".toList := by
    decide
  show ("Create a note titled " ++ q.around name.text ++ back).toList = _
  simp only [String.toList_append, PlainRequest.toList_around, hsplit, List.append_assoc,
    List.cons_append, List.nil_append]

/-- **A note is made under its title**, whatever stands behind it. -/
theorem classify_titled (q : QuoteMark) (name : QuotableName) (back : String)
    (htrip : mentions tripWords (lowercase (titledRequest q name back).toList) = false) :
    classify (titledRequest q name back) = some ⟨.explicitCreate,
      ⟨.create, name.text, (itemsBehind back.toList).map String.ofList, none, name.ne⟩⟩ := by
  have htext := toList_titledRequest q name back
  have hdraft : explicitCreateDraft? (titledRequest q name back).toList =
      some (draft .create name.text.toList (some (itemsBehind back.toList))) := by
    rw [htext]
    exact explicitCreateDraft?_titled q.isQuote_char (by simpa using name.ne) name.unquoted
      (inLine_of_lineFree name.lineFree)
  have hquote : q.char ∈ (titledRequest q name back).toList := by
    rw [htext]
    simp
  have hlong : ∀ c, ¬ longText.Reads (titledRequest q name back).toList c :=
    not_reads_of_applies (PlainRequest.longText_applies_eq_false hquote)
  have hplan : ∀ c, ¬ tripPlan.Reads (titledRequest q name back).toList c :=
    not_reads_of_applies htrip
  rw [classify_eq_some_iff]
  refine ⟨[longText, tripPlan], _, rfl, ?_, by simp [hlong, hplan]⟩
  exact reads_of_draft? rfl hdraft rfl rfl

/-! ## Lines with bullets -/

/-- An item that can stand on a line of its own. -/
structure LineItem where
  text : String
  ne : text ≠ ""
  trimmed : Trimmed text.toList
  commaFree : ',' ∉ text.toList
  lineFree : '\n' ∉ text.toList

/-- Items on lines of their own, each behind a bullet. -/
def bulletList (items : List LineItem) : String :=
  " with items:" ++ String.join (items.map fun item => "\n- " ++ item.text)

/-- A text stays trimmed behind something that does not begin with a blank. -/
theorem trimmed_append {x : Char} (u : List Char) (hx : isBlank x = false) (hne : s ≠ [])
    (hs : Trimmed s) : Trimmed (x :: (u ++ s)) := by
  have hend := trimEnd_append (a := x :: (u ++ s.dropLast)) (hs.getLast_eq (u := []) hne)
    (w := []) (by simp)
  have hwhole : (x :: (u ++ s.dropLast)) ++ [s.getLast hne] = x :: (u ++ s) := by
    rw [List.cons_append, List.append_assoc, List.dropLast_concat_getLast]
  rw [hwhole] at hend
  rw [Trimmed, trim, trimStart, List.dropWhile_cons_of_neg (by simp [hx])]
  exact hend

theorem startsOutside_bullets (items : List LineItem) :
    StartsOutside inLine (String.join (items.map fun item => "\n- " ++ item.text)).toList := by
  cases items with
  | nil =>
    intro x hx
    cases hx
  | cons item items =>
    have hbullet : "\n- ".toList = ['\n', '-', ' '] := by decide
    rw [String.toList_join, List.map_cons, List.flatMap_cons, String.toList_append, hbullet]
    exact startsOutside_cons (by decide) _

theorem toList_bulletList (first : LineItem) (rest : List LineItem) :
    (bulletList (first :: rest)).toList = " with ".toList ++ ("items".toList ++
      (':' :: '\n' :: ('-' :: ' ' :: first.text.toList ++
        (String.join (rest.map fun item => "\n- " ++ item.text)).toList))) := by
  have hbullet : "\n- ".toList = ['\n', '-', ' '] := by decide
  have hwith : " with items:".toList = " with ".toList ++ ("items".toList ++ [':']) := by decide
  simp only [bulletList, String.toList_append, String.toList_join, List.map_cons,
    List.flatMap_cons, hbullet, hwith, List.append_assoc, List.cons_append, List.nil_append]

theorem itemsBehind_bulletList (first : LineItem) (rest : List LineItem) :
    itemsBehind (bulletList (first :: rest)).toList = ['-' :: ' ' :: first.text.toList] := by
  have hne : first.text.toList ≠ [] := by simpa using first.ne
  have hline : '\n' ∉ '-' :: ' ' :: first.text.toList := by simp [first.lineFree]
  have hcomma : ',' ∉ '-' :: ' ' :: first.text.toList := by simp [first.commaFree]
  have htrim : Trimmed ('-' :: ' ' :: first.text.toList) :=
    trimmed_append [' '] (by decide) hne first.trimmed
  rw [toList_bulletList, itemsBehind_line (by decide) (List.cons_ne_nil _ _)
    (startsOutside_cons (by decide) _) (inLine_of_lineFree hline) (startsOutside_bullets rest)]
  exact splitItems_of_free hcomma hline htrim

/-- **A list of lines with bullets comes to its first line**, with the bullet.  So the items are
never those of the list: one bullet always stays, and all lines but the first are lost. -/
theorem classify_bulletList (q : QuoteMark) (name : QuotableName) (first : LineItem)
    (rest : List LineItem)
    (htrip : mentions tripWords
      (lowercase (titledRequest q name (bulletList (first :: rest))).toList) = false) :
    classify (titledRequest q name (bulletList (first :: rest))) = some ⟨.explicitCreate,
      ⟨.create, name.text, ["- " ++ first.text], none, name.ne⟩⟩ ∧
    ["- " ++ first.text] ≠ (first :: rest).map LineItem.text := by
  have hbullet : String.ofList ('-' :: ' ' :: first.text.toList) = "- " ++ first.text := by
    rw [← String.toList_inj, String.toList_ofList, String.toList_append]
    rfl
  constructor
  · have hread := classify_titled q name (bulletList (first :: rest)) htrip
    rw [itemsBehind_bulletList, List.map_singleton, hbullet] at hread
    exact hread
  · intro h
    have hlength := congrArg String.length (List.cons.inj h).1
    rw [String.length_append] at hlength
    have htwo : "- ".length = 2 := by decide
    omega

theorem classify_bulletList_milkAndEggs :
    classify "Create a note titled 'list' with items:\n- milk\n- eggs" =
      some ⟨.explicitCreate, ⟨.create, "list", ["- milk"], none, by decide⟩⟩ ∧
    ["- milk"] ≠ ["milk", "eggs"] :=
  classify_bulletList .single ⟨"list", by decide, by decide, by decide⟩
    ⟨"milk", by decide, by decide, by decide, by decide⟩
    [⟨"eggs", by decide, by decide, by decide, by decide⟩] (by decide)

/-! ## The words `with content` -/

/-- What can stand behind the words, on the same line. -/
structure ClauseText where
  text : String
  ne : text ≠ ""
  trimmed : Trimmed text.toList
  lineFree : '\n' ∉ text.toList

theorem itemsBehind_content {x : List Char} (hx : StartsOutside isBlank x) :
    itemsBehind (" with content ".toList ++ x) =
      ((itemsSpan? ((behindMark? x).getD (' ' :: x))).map splitItems).getD [] := by
  have hsplit : " with content ".toList ++ x =
      " with ".toList ++ ("content".toList ++ (' ' :: x)) := by simp
  rw [hsplit, itemsBehind_with (by decide), skipMark_space hx]

/-- A gap in front of the last line leaves all of it. -/
theorem itemsSpan?_of_lineFree {x : Char} (hx : isBlank x = true) (hs : allBlank s = false)
    (hline : '\n' ∉ s) : itemsSpan? (x :: s) = some (trimStart (x :: s)) := by
  have hstart : trimStart (x :: s) = trimStart s := List.dropWhile_cons_of_pos hx
  have hfree : '\n' ∉ trimStart s := fun h => hline ((List.dropWhile_sublist _).mem h)
  rw [itemsSpan?_of_gap hx hs, hstart, firstLine_of_lineFree (inLine_of_lineFree hfree)]

/-- Where no colon and no `of` comes first, the text holds the items. -/
theorem itemsBehind_content_of_none (x : ClauseText) (h : behindMark? x.text.toList = none) :
    itemsBehind (" with content ".toList ++ x.text.toList) = splitItems x.text.toList := by
  have hne : x.text.toList ≠ [] := by simpa using x.ne
  have hstart := startsOutside_item hne x.trimmed []
  have hblank : allBlank x.text.toList = false :=
    x.trimmed.not_allBlank (u := []) hne
  have htrim : trimStart (' ' :: x.text.toList) = x.text.toList :=
    (List.dropWhile_cons_of_pos (by decide)).trans x.trimmed.trimStart_eq
  rw [List.append_nil] at hstart
  rw [itemsBehind_content hstart, h, Option.getD_none,
    itemsSpan?_of_lineFree (by decide) hblank x.lineFree, htrim]
  rfl

/-- Behind a colon or an `of`, a gap comes in front of the items, unless there are none. -/
theorem itemsBehind_content_of_some (x : ClauseText) {rest : List Char}
    (h : behindMark? x.text.toList = some rest) (hrest : ∀ y ∈ rest.head?, isBlank y = true) :
    itemsBehind (" with content ".toList ++ x.text.toList) =
      if rest = [] then [] else splitItems (trimStart rest) := by
  have hne : x.text.toList ≠ [] := by simpa using x.ne
  have hstart := startsOutside_item hne x.trimmed []
  rw [List.append_nil] at hstart
  rw [itemsBehind_content hstart, h, Option.getD_some]
  obtain ⟨u, hu⟩ := exists_append_of_behindMark? h
  cases rest with
  | nil => rfl
  | cons y rest =>
    have hy : isBlank y = true := hrest y rfl
    have htrim : Trimmed (u ++ y :: rest) := hu ▸ x.trimmed
    have hall := htrim.not_allBlank (List.cons_ne_nil y rest)
    have hblank : allBlank rest = false := by simpa [allBlank, hy] using hall
    have hline : '\n' ∉ rest := by
      intro hmem
      refine x.lineFree ?_
      rw [hu]
      exact List.mem_append_right u (List.mem_cons_of_mem y hmem)
    rw [itemsSpan?_of_lineFree hy hblank hline, if_neg (List.cons_ne_nil y rest)]
    rfl

/-- **What stands behind the words `with content` is cut into items.**  A colon or an `of` at its
front comes off first; then the rest, with a gap in front of it, is cut. -/
theorem classify_contentClause (q : QuoteMark) (name : QuotableName) (x : ClauseText)
    (htrip : mentions tripWords
      (lowercase (titledRequest q name (" with content " ++ x.text)).toList) = false) :
    ∃ items, classify (titledRequest q name (" with content " ++ x.text)) =
        some ⟨.explicitCreate, ⟨.create, name.text, items, none, name.ne⟩⟩ ∧
      (behindMark? x.text.toList = none → items = (splitItems x.text.toList).map String.ofList) ∧
      (∀ rest, behindMark? x.text.toList = some rest → (∀ y ∈ rest.head?, isBlank y = true) →
        items = if rest = [] then [] else (splitItems (trimStart rest)).map String.ofList) := by
  have hread := classify_titled q name (" with content " ++ x.text) htrip
  rw [String.toList_append] at hread
  refine ⟨_, hread, ?_, ?_⟩
  · intro h
    rw [itemsBehind_content_of_none x h]
  · intro rest h hrest
    rw [itemsBehind_content_of_some x h hrest]
    by_cases hnil : rest = []
    · rw [if_pos hnil, if_pos hnil, List.map_nil]
    · rw [if_neg hnil, if_neg hnil]

theorem classify_contentClause_ofMilk :
    classify "Create a note titled 'list' with content of milk" =
      some ⟨.explicitCreate, ⟨.create, "list", ["milk"], none, by decide⟩⟩ := by
  obtain ⟨items, hread, -, hmark⟩ := classify_contentClause .single
    ⟨"list", by decide, by decide, by decide⟩ ⟨"of milk", by decide, by decide, by decide⟩
    (by decide)
  have hblank : ∀ y ∈ " milk".toList.head?, isBlank y = true := by
    intro y hy
    obtain rfl : ' ' = y := Option.some.inj hy
    decide
  have hitems : items = ["milk"] := hmark " milk".toList (by decide) hblank
  rw [hitems] at hread
  exact hread

/-- The `of` is no part of the items, as it would be if the whole text were cut. -/
theorem contentClause_of_not_item :
    mentions tripWords
      (lowercase "Create a note titled 'list' with content of milk".toList) = false ∧
    classify "Create a note titled 'list' with content of milk" ≠
      some ⟨.explicitCreate, ⟨.create, "list",
        (splitItems "of milk".toList).map String.ofList, none, by decide⟩⟩ := by
  decide +kernel

end PlainNotes

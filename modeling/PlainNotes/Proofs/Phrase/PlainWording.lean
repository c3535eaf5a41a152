import PlainNotes.Proofs.Phrase.Items
import PlainNotes.Proofs.Phrase.Quoting
import PlainNotes.Proofs.Phrase.Trailer

/-!
# Matches of plain wordings

Each kind of phrase has a plain wording, with single spaces and without words that may be left out.
The patterns take such a wording word by word, so that what they capture in it is known.

* `explicitCreateDraft?_of_close`, `search_delete_of_close`, `search_find_of_close`: a name ends at
  the quote that closes it, of either kind.
* `explicitCreateDraft?_titled`: a note is made of the title and what is behind it.
* `search_add`, `search_updateWith`: an item and the name of a note are captured.
* `firstMatch_delete`, `firstMatch_find`: the name of a note is captured.
-/

namespace PlainNotes.Phrase

open Text Pattern

theorem inLine_of_lineFree {s : List Char} (h : '\n' ∉ s) : ∀ c ∈ s, inLine c = true := by
  intro c hc
  refine bne_iff_ne.2 ?_
  rintro rfl
  exact h hc

variable {s : List Char} {t : Quoting}

/-! ## What the patterns take of the wordings -/

theorem takes_create (s : List Char) :
    (all [word "create", gap, maybe "a", word "note"]).Takes "Create a note".toList s := by
  have hsplit : "Create a note".toList =
      "Create".toList ++ ([' '] ++ (("a".toList ++ [' ']) ++ "note".toList)) := by decide
  have hnote := Takes.single (takes_word (w := "note") "note" (by decide) s)
  have ha := Takes.cons (takes_maybe (w := "a") "a" (by decide)
    (startsOutside_append (by decide) s)) hnote
  have hgap := Takes.cons (takes_gap (startsOutside_append (by decide) s)) ha
  rw [hsplit]
  exact Takes.cons (takes_word "Create" (by decide) _) hgap

theorem takes_titled (hs : StartsOutside isBlank s) :
    (all [gap, oneOf ["titled", "called", "named"], gap]).Takes " titled ".toList s := by
  have hsplit : " titled ".toList = [' '] ++ ("titled".toList ++ [' ']) := by decide
  have hword := Takes.cons
    (Takes.any (takes_word (w := "titled") "titled" (by decide) _) (["called", "named"].map word))
    (Takes.single (takes_gap hs))
  rw [hsplit]
  exact Takes.cons (takes_gap (startsOutside_append (by decide) s)) hword

theorem takes_add (hs : StartsOutside isBlank s) :
    (all [word "add", gap]).Takes "Add ".toList s := by
  have hsplit : "Add ".toList = "Add".toList ++ [' '] := by decide
  rw [hsplit]
  exact Takes.cons (takes_word "Add" (by decide) _) (Takes.single (takes_gap hs))

theorem takes_toMy (hs : StartsOutside isBlank s) :
    (all [gap, word "to", gap, maybe "my"]).Takes " to my ".toList s := by
  have hsplit : " to my ".toList =
      [' '] ++ ("to".toList ++ ([' '] ++ ("my".toList ++ [' ']))) := by decide
  have hmy := Takes.single (takes_maybe (w := "my") "my" (by decide) hs)
  have hgap := Takes.cons (takes_gap (startsOutside_append (by decide) s)) hmy
  have hto := Takes.cons (takes_word (w := "to") "to" (by decide) _) hgap
  rw [hsplit]
  exact Takes.cons (takes_gap (startsOutside_append (by decide) s)) hto

theorem takes_updateMy (hs : StartsOutside isBlank s) :
    (all [word "update", gap, maybe "my"]).Takes "Update my ".toList s := by
  have hsplit : "Update my ".toList =
      "Update".toList ++ ([' '] ++ ("my".toList ++ [' '])) := by decide
  have hmy := Takes.single (takes_maybe (w := "my") "my" (by decide) hs)
  have hgap := Takes.cons (takes_gap (startsOutside_append (by decide) s)) hmy
  rw [hsplit]
  exact Takes.cons (takes_word "Update" (by decide) _) hgap

theorem takes_noteWithWord (s : List Char) :
    (all [optional (seq gap (word "note")), gap,
      alt (word "with") (seq (word "to") (optional (seq gap (word "add"))))]).Takes
      " note with".toList s := by
  have hsplit : " note with".toList = ([' '] ++ "note".toList) ++ ([' '] ++ "with".toList) := by
    decide
  have hwith := Takes.single (Takes.alt (takes_word (w := "with") "with" (by decide) s)
    (seq (word "to") (optional (seq gap (word "add")))))
  have hgap := Takes.cons (takes_gap (startsOutside_append (by decide) s)) hwith
  have hnote := Takes.seq (takes_gap (startsOutside_append (by decide) _))
    (takes_word (w := "note") "note" (by decide) ([' '] ++ "with".toList ++ s))
  rw [hsplit]
  exact Takes.cons (Takes.optional hnote) hgap

theorem takes_noteWith (hs : StartsOutside isBlank s) :
    (all [optional (seq gap (word "note")), gap,
      alt (word "with") (seq (word "to") (optional (seq gap (word "add")))), gap]).Takes
      " note with ".toList s := by
  have hsplit : " note with ".toList = " note with".toList ++ [' '] := by decide
  intro k c hk
  have hgap : (all [gap]).run k ([' '] ++ s) = some c := takes_gap hs hk
  rw [hsplit, List.append_assoc]
  exact (takes_noteWithWord ([' '] ++ s)).run_all hgap

theorem takes_deleteMy (hs : StartsOutside isBlank s) (hn : StartsOutside (foldsTo 'n') s) :
    (all [word "delete", gap, maybe "my", maybe "note"]).Takes "Delete my ".toList s := by
  have hsplit : "Delete my ".toList =
      "Delete".toList ++ ([' '] ++ (("my".toList ++ [' ']) ++ [])) := by decide
  have hnote := Takes.single (takes_maybe_nil (w := "note") 'n' (by decide) hn)
  have hmy := Takes.cons (takes_maybe (w := "my") (s := [] ++ s) "my" (by decide) hs) hnote
  have hgap := Takes.cons (takes_gap (startsOutside_append (by decide) s)) hmy
  rw [hsplit]
  exact Takes.cons (takes_word "Delete" (by decide) _) hgap

theorem takes_findNotesAbout (hs : StartsOutside isBlank s) :
    (all [oneOf ["search", "find", "look"], gap, maybe "for",
      optional (all [word "note", optional (word "s"), gap]),
      oneOf ["with", "containing", "about"], gap]).Takes "Find notes about ".toList s := by
  have hsplit : "Find notes about ".toList =
      "Find".toList ++ ([' '] ++ ([] ++ (("note".toList ++ ("s".toList ++ [' '])) ++
        ("about".toList ++ [' '])))) := by decide
  have habout : (oneOf ["with", "containing", "about"]).Takes "about".toList ([' '] ++ s) :=
    Takes.any_tail
      (run_word_eq_none 'w' (by decide) (startsOutside_append (by decide) _)) <|
    Takes.any_tail
      (run_word_eq_none 'c' (by decide) (startsOutside_append (by decide) _)) <|
    Takes.any (takes_word "about" (by decide) _) []
  have hword := Takes.cons habout (Takes.single (takes_gap hs))
  have hnotes : (all [word "note", optional (word "s"), gap]).Takes
      ("note".toList ++ ("s".toList ++ [' '])) (("about".toList ++ [' ']) ++ s) :=
    Takes.cons (takes_word "note" (by decide) _) <|
    Takes.cons (Takes.optional (takes_word "s" (by decide) _)) <|
    Takes.single (takes_gap (startsOutside_append (by decide) s))
  have hfor := Takes.cons
    (takes_maybe_nil (w := "for") 'f' (by decide) (startsOutside_append (by decide) _))
    (Takes.cons (Takes.optional hnotes) hword)
  have hgap := Takes.cons (takes_gap (startsOutside_append (by decide) s)) hfor
  have hfind : (oneOf ["search", "find", "look"]).Takes "Find".toList
      ([' '] ++ ([] ++ (("note".toList ++ ("s".toList ++ [' '])) ++
        ("about".toList ++ [' ']))) ++ s) :=
    Takes.any_tail
      (run_word_eq_none 's' (by decide) (startsOutside_append (by decide) _)) <|
    Takes.any (takes_word "Find" (by decide) _) [word "look"]
  rw [hsplit]
  exact Takes.cons hfind hgap

/-! ## Making a note -/

variable {q : Char} {name back : List Char}

theorem startsOutside_quote {cls : Char → Bool} (hcls : cls '\'' = false ∧ cls '"' = false)
    (hq : isQuote q = true) (s : List Char) : StartsOutside cls (q :: s) := by
  refine startsOutside_cons ?_ s
  rcases Bool.or_eq_true_iff.1 hq with h | h
  · rw [beq_iff_eq.1 h]
    exact hcls.1
  · rw [beq_iff_eq.1 h]
    exact hcls.2

theorem startsOutside_item {x : List Char} (hne : x ≠ []) (h : Trimmed x) (s : List Char) :
    StartsOutside isBlank (x ++ s) := by
  cases x with
  | nil => exact absurd rfl hne
  | cons c x => exact startsOutside_cons h.head_eq (x ++ s)

/-- Listed items do not begin with a blank: where the first is empty, a comma comes first. -/
theorem startsOutside_intercalate {items : List (List Char)} (hempty : items ≠ [[]])
    (htrim : ∀ x ∈ items, Trimmed x) :
    StartsOutside isBlank ([',', ' '].intercalate items) := by
  rcases items with _ | ⟨x, _ | ⟨y, items⟩⟩
  · intro c hc
    cases hc
  · have hx : x ≠ [] := by
      rintro rfl
      exact hempty rfl
    rw [List.intercalate_singleton, ← List.append_nil x]
    exact startsOutside_item hx (htrim x (by simp)) []
  · rw [List.intercalate_cons_cons, List.append_assoc]
    by_cases hx : x = []
    · rw [hx, List.nil_append]
      exact startsOutside_append (by decide) _
    · exact startsOutside_item hx (htrim x (by simp)) _

/-- The title ends at the first quote behind its first character, and what is behind that quote
decides about the items. -/
theorem explicitCreateDraft?_of_close {q' : Char} (hq : isQuote q = true) (hq' : isQuote q' = true)
    (hname : Unbroken name) :
    Family.explicitCreateDraft?
        ("Create a note".toList ++ (" titled ".toList ++ (q :: (name ++ q' :: back)))) =
      some (Family.draft .create name (some (itemsBehind back))) := by
  obtain ⟨c, hback, hspan⟩ := run_trailer back
  have hquoted : (all (quoted .first :: trailer)).run accept (q :: (name ++ q' :: back)) =
      some (c.record .first name (q' :: back)) := by
    rw [run_all_cons]
    exact run_quoted_of_close hq hq' hname hback
  have htitled : (all [titled]).run accept (" titled ".toList ++ (q :: (name ++ q' :: back))) =
      some (c.record .first name (q' :: back)) :=
    (takes_titled (startsOutside_quote (by decide) hq _)).run_all hquoted
  have hsearch := search_of_run ((takes_create _).run_all htitled)
  have hmatch : firstMatch createPatterns
      ("Create a note".toList ++ (" titled ".toList ++ (q :: (name ++ q' :: back)))) =
      some (c.record .first name (q' :: back)) := firstMatch_head hsearch createPatterns.tail
  rw [Family.explicitCreateDraft?, hmatch, itemsBehind, ← hspan]
  simp [Captures.text_record_of_ne]

theorem explicitCreateDraft?_titled (hq : isQuote q = true) (hne : name ≠ [])
    (hname : Unquoted name) (hline : ∀ x ∈ name, inLine x = true) :
    Family.explicitCreateDraft?
        ("Create a note".toList ++ (" titled ".toList ++ (q :: (name ++ q :: back)))) =
      some (Family.draft .create name (some (itemsBehind back))) :=
  explicitCreateDraft?_of_close hq hq (unbroken_of_unquoted hne hname hline)

/-- Behind the words `with items`, a colon and a gap, the rest of the line is cut into items. -/
theorem itemsBehind_line {x : Char} {text rest : List Char} (hx : isBlank x = true)
    (hne : text ≠ []) (hs : StartsOutside isBlank text) (hline : ∀ c ∈ text, inLine c = true)
    (hrest : StartsOutside inLine rest) :
    itemsBehind (" with ".toList ++ ("items".toList ++ (':' :: x :: (text ++ rest)))) =
      splitItems text := by
  obtain ⟨y, s, rfl⟩ := List.exists_cons_of_ne_nil hne
  have hy : isBlank y = false := hs y rfl
  have htrim : trimStart (y :: s ++ rest) = y :: s ++ rest :=
    List.dropWhile_cons_of_neg (by simp [hy])
  have hblank : allBlank (y :: s ++ rest) = false := by simp [allBlank, hy]
  rw [itemsBehind_with (by decide), skipMark_colon, itemsSpan?_of_gap hx hblank, htrim,
    firstLine_append hline hrest]
  rfl

/-- Items that are listed behind the title. -/
theorem itemsBehind_withItems {text : List Char} (hne : text ≠ [])
    (hs : StartsOutside isBlank text) (hline : ∀ x ∈ text, inLine x = true) :
    itemsBehind (" with items: ".toList ++ text) = splitItems text := by
  have hend : StartsOutside inLine [] := by
    intro x hx
    cases hx
  have hitems := itemsBehind_line (x := ' ') (by decide) hne hs hline hend
  rw [List.append_nil] at hitems
  exact hitems

/-! ## Updating a note -/

/-- The words behind the item of an `add` phrase can only be found at its end. -/
theorem blank_of_toMy {v : List Char} {c c' : Captures}
    (h : (all [gap, word "to", gap, maybe "my"]).Way (v ++ " to my ".toList) [] c c') :
    ∀ x ∈ v, isBlank x = true := by
  obtain ⟨m₁, d₁, hgap, h₁⟩ := way_all_cons.1 h
  obtain ⟨m₂, d₂, hto, h₂⟩ := way_all_cons.1 h₁
  obtain ⟨m₃, d₃, hgap', hmy⟩ := way_all_cons.1 h₂
  obtain ⟨b, -, hb, hblank, -⟩ := exists_of_way_gap hgap
  obtain ⟨u, rfl, hu, -⟩ := exists_of_way_word hto
  obtain ⟨b', -, rfl, hblank', -⟩ := exists_of_way_gap hgap'
  obtain ⟨u₀, o, rfl, ho⟩ := exists_last_of_spells (w := ['t']) hu
  have hoBlank := not_isBlank_of_foldsTo (by decide) (by decide) ho
  have hlast : (v ++ " to m".toList) ++ 'y' :: [' '] = v ++ " to my ".toList := by simp
  rcases exists_of_way_maybe hmy with ⟨rfl, -⟩ | ⟨u', b'', rfl, hu', -, hblank'', -⟩
  · -- Without the second word, the last letter would be that of the first.
    have heq : (v ++ " to m".toList) ++ 'y' :: [' '] = (b ++ u₀) ++ o :: b' := by
      rw [hlast, hb]
      simp
    obtain ⟨-, rfl⟩ := eq_of_last (by decide) hoBlank blank_space hblank' heq
    exact absurd ho (by decide)
  · obtain ⟨u₁, y, rfl, hy⟩ := exists_last_of_spells (w := ['m']) hu'
    have hyBlank := not_isBlank_of_foldsTo (by decide) (by decide) hy
    have heq : (v ++ " to m".toList) ++ 'y' :: [' '] =
        ((b ++ u₀ ++ o :: b') ++ u₁) ++ y :: b'' := by
      rw [hlast, hb]
      simp
    obtain ⟨hm, -⟩ := eq_of_last (by decide) hyBlank blank_space hblank'' heq
    have hm' : (v ++ " t".toList ++ 'o' :: [' ']) ++ ['m'] = (b ++ u₀ ++ o :: b') ++ u₁ := by
      rw [← hm]
      simp
    have hlength : u₁.length = 1 := by simpa using length_of_spells hu'
    obtain ⟨hto', -⟩ := List.append_inj' hm' hlength.symm
    obtain ⟨ht, -⟩ := eq_of_last (by decide) hoBlank blank_space hblank' hto'
    have ht' : (v ++ [' ']) ++ ['t'] = b ++ u₀ := by
      rw [← ht]
      simp
    have hlength' : u₀.length = 1 := by simpa using length_of_spells hu
    obtain ⟨rfl, -⟩ := List.append_inj' ht' hlength'.symm
    exact fun x hx => hblank x (List.mem_append_left _ hx)

/-- The words behind the item are not found before its last word is passed. -/
theorem run_toMy_eq_none {v : List Char} {x : Char} (hfront : t.front = v ++ " to my ".toList)
    (hv : x ∈ v) (hx : isBlank x = false) :
    (all [gap, word "to", gap, maybe "my", quoted .second]).run accept t.text = none := by
  rw [Option.eq_none_iff_forall_ne_some]
  intro c hc
  obtain ⟨s', c₀, -, hway⟩ := exists_way_of_run hc
  obtain ⟨v', d, hv', hps, -⟩ :=
    Quoting.exists_of_way [gap, word "to", gap, maybe "my"] hway (u := []) rfl
  obtain rfl : v' = v ++ " to my ".toList := hv'.symm.trans hfront
  have hwhole : (all [gap, word "to", gap, maybe "my"]).Way (v ++ " to my ".toList ++ t.tail)
      ([] ++ t.tail) d c := hps
  obtain ⟨d', hcut⟩ := hwhole.cut (by decide) {}
  have hblank := blank_of_toMy hcut x hv
  rw [hx] at hblank
  cases hblank

/-- An item, whatever words it holds, and the name of the note are captured. -/
theorem search_add {x : List Char} (hx : x ≠ []) (hxtrim : Trimmed x) (hxquotes : Unquoted x)
    (hxline : ∀ c ∈ x, inLine c = true) (hname : t.name ≠ [])
    (hline : ∀ c ∈ t.name, inLine c = true)
    (hfront : t.front = "Add ".toList ++ (x ++ " to my ".toList)) :
    ∃ found, (addTo "add").search t.text = some found ∧ found.text .first = some x ∧
      found.text .second = some t.name := by
  have hquoted : (all [quoted .second]).run accept t.tail =
      some (({} : Captures).record .second t.name (t.quote :: t.back)) :=
    run_quoted t.isQuote_quote hname t.unquoted_name hline rfl
  have hto := (takes_toMy (startsOutside_quote (by decide) t.isQuote_quote _)).run_all hquoted
  have hitem : (all [group .first (few1 inLine), gap, word "to", gap, maybe "my",
      quoted .second]).run accept (x ++ (" to my ".toList ++ t.tail)) = some
      ((({} : Captures).record .second t.name (t.quote :: t.back)).record .first x
        (" to my ".toList ++ t.tail)) := by
    rw [run_all_cons]
    refine run_group_few1 .first hx hxline ?_ hto
    intro a b hab _ hb
    have hz : isBlank (b.getLast hb) = false := Trimmed.getLast_eq hb (hab ▸ hxtrim)
    have hquotes : Unquoted b := (unquoted_append.1 (hab ▸ hxquotes)).2
    have hnone := run_toMy_eq_none (v := b)
      (t := { t with
        front := b ++ " to my ".toList
        unquoted_front := unquoted_append.2 ⟨hquotes, by decide⟩ }) rfl (List.getLast_mem hb) hz
    rwa [Quoting.text, List.append_assoc] at hnone
  have hsearch := search_of_run ((takes_add (startsOutside_item hx hxtrim _)).run_all hitem)
  rw [Quoting.text, hfront, List.append_assoc, List.append_assoc]
  refine ⟨_, hsearch, Captures.text_record _ .first x (" to my ".toList ++ t.tail), ?_⟩
  rw [Captures.text_record_of_ne _ (by decide), Captures.text_record]

/-- The name of the note and the rest of the sentence are captured. -/
theorem search_updateWith {x : List Char} (hq : isQuote q = true) (hne : name ≠ [])
    (hname : Unquoted name) (hline : ∀ c ∈ name, inLine c = true) (hx : x ≠ [])
    (hxtrim : Trimmed x) (hxline : ∀ c ∈ x, inLine c = true) :
    ∃ found, updateWith.search
        ("Update my ".toList ++ (q :: (name ++ q :: (" note with ".toList ++ x)))) = some found ∧
      found.text .first = some name ∧ found.text .second = some x := by
  have hitem : (all [group .second (many1 inLine)]).run accept x =
      some (({} : Captures).record .second x []) := run_group_many1 .second hx hxline
  have hstart := startsOutside_item hx hxtrim []
  rw [List.append_nil] at hstart
  have hback := (takes_noteWith hstart).run_all hitem
  have hquoted := run_quoted (g := .first) hq hne hname hline hback
  rw [← run_all_cons] at hquoted
  have hsearch := search_of_run
    ((takes_updateMy (startsOutside_quote (by decide) hq _)).run_all hquoted)
  refine ⟨_, hsearch, Captures.text_record _ .first name (q :: (" note with ".toList ++ x)), ?_⟩
  rw [Captures.text_record_of_ne _ (by decide), Captures.text_record]

/-- The draft of a match that captures both a name and an item. -/
theorem updateMatchDraft?_eq {titleFirst : Bool} {found : Captures} {a b : List Char}
    (hfirst : found.text .first = some a) (hsecond : found.text .second = some b) (ha : a ≠ [])
    (hb : b ≠ []) :
    Family.updateMatchDraft? titleFirst found = some
      (if titleFirst then Family.draft .update a (some [stripQuotes (trim b)])
      else Family.draft .update b (some [stripQuotes (trim a)])) := by
  cases titleFirst <;> simp [Family.updateMatchDraft?, hfirst, hsecond, ha, hb]

theorem updateDraft?_of_add {s : List Char} {found : Captures} {d : Draft}
    (hfound : (addTo "add").search s = some found)
    (hd : Family.updateMatchDraft? (mentions ["update"] (lowercase s)) found = some d) :
    Family.updateDraft? s = some d := by
  simp [Family.updateDraft?, updatePatterns, hfound, hd]

theorem updateDraft?_of_updateWith {s : List Char} {found : Captures} {d : Draft}
    (hadd : (addTo "add").search s = none) (hfound : updateWith.search s = some found)
    (hd : Family.updateMatchDraft? (mentions ["update"] (lowercase s)) found = some d) :
    Family.updateDraft? s = some d := by
  simp [Family.updateDraft?, updatePatterns, hadd, hfound, hd]

theorem stripQuotes_trim {x : List Char} (h : Trimmed x) (hquotes : Unquoted x) :
    stripQuotes (trim x) = x := by
  have htrim : trim x = x := h
  rw [htrim]
  refine stripQuotes_of_unquoted fun c hc => ?_
  have hcq := hquotes c hc
  constructor
  · rintro rfl
    cases hcq
  · rintro rfl
    cases hcq

/-! ## Removing and finding notes -/

/-- Whichever pattern matches, the name in the quotes is the title. -/
theorem titleDraft?_eq {action : Action} {content : Option (List (List Char))} {found : Captures}
    {ps : List Pattern} {s : List Char} (hfound : firstMatch ps s = some found)
    (hname : found.text .first = some name) :
    Family.titleDraft? action content ps s = some (Family.draft action name content) := by
  simp [Family.titleDraft?, hfound, hname]

/-- The name of the note ends at the first quote behind its first character. -/
theorem search_delete_of_close {q' : Char} (hq : isQuote q = true) (hq' : isQuote q' = true)
    (hname : Unbroken name) :
    (verbNamed (word "delete")).search ("Delete my ".toList ++ (q :: (name ++ q' :: back))) =
      some (({} : Captures).record .first name (q' :: back)) := by
  have hquoted : (all [quoted .first]).run accept (q :: (name ++ q' :: back)) =
      some (({} : Captures).record .first name (q' :: back)) :=
    run_quoted_of_close hq hq' hname rfl
  have hn : StartsOutside (foldsTo 'n') (q :: (name ++ q' :: back)) :=
    startsOutside_quote (by decide) hq _
  exact search_of_run
    ((takes_deleteMy (startsOutside_quote (by decide) hq _) hn).run_all hquoted)

theorem firstMatch_delete (hfront : t.front = "Delete my ".toList) (hne : t.name ≠ [])
    (hline : ∀ c ∈ t.name, inLine c = true) :
    firstMatch deletePatterns t.text =
      some (({} : Captures).record .first t.name (t.quote :: t.back)) := by
  have hname := unbroken_of_unquoted hne t.unquoted_name hline
  rw [Quoting.text, hfront]
  exact firstMatch_head (search_delete_of_close t.isQuote_quote t.isQuote_quote hname)
    deletePatterns.tail

/-- The pattern for notes that are about something. -/
def findAbout : Pattern :=
  all [oneOf ["search", "find", "look"], gap, maybe "for",
    optional (all [word "note", optional (word "s"), gap]),
    oneOf ["with", "containing", "about"], gap, quoted .first]

/-- What is searched for ends at the first quote behind its first character. -/
theorem search_find_of_close {q' : Char} (hq : isQuote q = true) (hq' : isQuote q' = true)
    (hname : Unbroken name) :
    findAbout.search ("Find notes about ".toList ++ (q :: (name ++ q' :: back))) =
      some (({} : Captures).record .first name (q' :: back)) := by
  have hquoted : (all [quoted .first]).run accept (q :: (name ++ q' :: back)) =
      some (({} : Captures).record .first name (q' :: back)) :=
    run_quoted_of_close hq hq' hname rfl
  exact search_of_run
    ((takes_findNotesAbout (startsOutside_quote (by decide) hq _)).run_all hquoted)

/-- The pattern for notes of a name, which comes first. -/
def findNamed : Pattern :=
  verbNamed (Pattern.any [word "search", word "find", all [word "look", gap, word "for"]])

theorem searchPatterns_eq : searchPatterns = [findNamed, findAbout] := rfl

theorem firstMatch_find (hfront : t.front = "Find notes about ".toList) (hne : t.name ≠ [])
    (hline : ∀ c ∈ t.name, inLine c = true) :
    ∃ found, firstMatch searchPatterns t.text = some found ∧ found.text .first = some t.name := by
  have hname := unbroken_of_unquoted hne t.unquoted_name hline
  have hsearch : findAbout.search t.text =
      some (({} : Captures).record .first t.name (t.quote :: t.back)) := by
    rw [Quoting.text, hfront]
    exact search_find_of_close t.isQuote_quote t.isQuote_quote hname
  rw [searchPatterns_eq]
  cases hverb : findNamed.search t.text with
  | none =>
    have hfound := (firstMatch_tail hverb [findAbout]).trans (firstMatch_head hsearch [])
    exact ⟨_, hfound, Captures.text_record _ .first t.name _⟩
  | some found =>
    refine ⟨found, firstMatch_head hverb [findAbout], ?_⟩
    exact Quoting.name_of_search
      [Pattern.any [word "search", word "find", Pattern.all [word "look", gap, word "for"]], gap,
        maybe "my", maybe "note"] (by simp) hverb

end PlainNotes.Phrase

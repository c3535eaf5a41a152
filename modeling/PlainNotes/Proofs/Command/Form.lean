import Mathlib.Data.List.Nodup
import PlainNotes.Command.Data
import PlainNotes.Proofs.Json.Front

/-!
# The form of drafts among values

Which values are drafts, without the steps in which they are read: objects and lists whose parts
have the right kinds, of which two may be missing or null.

* `stringOf_eq_ok_iff`, `stringsOf_eq_ok_iff`, `optionalOf_eq_ok_iff`: the parts of a draft.
* `addAll_eq_ok_iff`: the fields of an object, by induction over them.
* `fillsAll_perm`, `ofJson_object_perm`: the order of the fields.
* `draft_ofJson_eq_ok_iff`: whole drafts.
-/

namespace PlainNotes

open Json

variable {α β ε : Type} {value : Json} {name : String} {d : Draft}

/-! ## Parts -/

/-- A part that may be missing or null, and then stands for nothing. -/
inductive Optionally (form : α → Json) : Option Json → Option α → Prop
  | missing : Optionally form none none
  | null : Optionally form (some .null) none
  | given (x : α) : Optionally form (some (form x)) (some x)

theorem stringOf_eq_ok_iff {text : String} : stringOf value = .ok text ↔ value = .str text := by
  cases value <;> simp [stringOf]

theorem mapM_stringOf_eq_ok_iff {items : List Json} {texts : List String} :
    items.mapM stringOf = .ok texts ↔ items = texts.map .str := by
  induction items generalizing texts with
  | nil => cases texts <;> simp [pure, Except.pure]
  | cons item items ih =>
    simp only [List.mapM_cons, bind_eq_ok_iff, pure_eq_ok_iff, stringOf_eq_ok_iff, ih]
    constructor
    · rintro ⟨text, rfl, rest, rfl, rfl⟩
      rfl
    · intro h
      cases texts with
      | nil => cases h
      | cons text texts =>
        obtain ⟨hitem, hitems⟩ := List.cons.inj h
        exact ⟨text, hitem, texts, hitems, rfl⟩

theorem stringsOf_eq_ok_iff {texts : List String} :
    stringsOf value = .ok texts ↔ value = .strings texts := by
  cases value with
  | list items => simp [stringsOf, mapM_stringOf_eq_ok_iff, Json.strings]
  | _ => simp [stringsOf, Json.strings]

/-- A part that may be null is read as its form says, since null is no form of anything. -/
theorem optionalOf_eq_ok_iff {read : Json → Except ShapeFault α} {form : α → Json}
    (hread : ∀ value x, read value = .ok x ↔ value = form x) (hform : ∀ x, form x ≠ .null)
    {part : Option α} : optionalOf read value = .ok part ↔ Optionally form (some value) part := by
  by_cases hnull : value = .null
  · subst hnull
    constructor
    · intro h
      cases h
      exact .null
    · intro h
      generalize hpart : some Json.null = o at h
      cases h with
      | missing => cases hpart
      | null => rfl
      | given x => exact absurd (Option.some.inj hpart).symm (hform x)
  · have hmap : optionalOf read value = (read value).map some := by
      cases value <;> first | rfl | exact absurd rfl hnull
    rw [hmap, map_eq_ok_iff]
    constructor
    · rintro ⟨x, hx, rfl⟩
      rw [(hread value x).1 hx]
      exact .given x
    · intro h
      generalize hvalue : some value = o at h
      cases h with
      | missing => cases hvalue
      | null => exact absurd (Option.some.inj hvalue) hnull
      | given x => exact ⟨x, (hread value x).2 (Option.some.inj hvalue), rfl⟩

theorem optionalOf_stringsOf_eq_ok_iff {part : Option (List String)} :
    optionalOf stringsOf value = .ok part ↔ Optionally Json.strings (some value) part :=
  optionalOf_eq_ok_iff (fun _ _ => stringsOf_eq_ok_iff) (fun _ h => by cases h)

theorem optionalOf_stringOf_eq_ok_iff {part : Option String} :
    optionalOf stringOf value = .ok part ↔ Optionally Json.str (some value) part :=
  optionalOf_eq_ok_iff (fun _ _ => stringOf_eq_ok_iff) (fun _ h => by cases h)

/-! ## Fields -/

/-- What fields of different names make of the slot of one name: it is filled if it is empty and a
field of the name is there. -/
def Fills (read : Json → Except ShapeFault α) (name : String) (fields : List (String × Json))
    (old new : Option α) : Prop :=
  match fields.find? (·.1 == name) with
  | none => new = old
  | some f => old = none ∧ ∃ x, read f.2 = .ok x ∧ new = some x

/-- What fields of different names make of all slots. -/
structure FillsAll (fields : List (String × Json)) (old new : DraftFields) : Prop where
  action : Fills stringOf "action" fields old.action new.action
  title : Fills stringOf "title" fields old.title new.title
  content : Fills (optionalOf stringsOf) "content" fields old.content new.content
  folder : Fills (optionalOf stringOf) "folder" fields old.folder new.folder

theorem fills_nil {read : Json → Except ShapeFault α} {old new : Option α} :
    Fills read name [] old new ↔ new = old := Iff.rfl

theorem fills_of_eq {read : Json → Except ShapeFault α} {old new : Option α} :
    Fills read name [(name, value)] old new ↔
      old = none ∧ ∃ x, read value = .ok x ∧ new = some x := by
  simp [Fills]

theorem fills_of_ne {read : Json → Except ShapeFault α} {n : String} {old new : Option α}
    (h : n ≠ name) : Fills read name [(n, value)] old new ↔ new = old := by
  simp [Fills, h]

theorem setOnce_eq_ok_iff {old : Option α} {read : Except ShapeFault α} {x : α} :
    setOnce name old read = .ok x ↔ old = none ∧ read = .ok x := by
  cases old <;> simp [setOnce]

theorem fillsAll_iff {fields : List (String × Json)} {old new : DraftFields} :
    FillsAll fields old new ↔
      Fills stringOf "action" fields old.action new.action ∧
      Fills stringOf "title" fields old.title new.title ∧
      Fills (optionalOf stringsOf) "content" fields old.content new.content ∧
      Fills (optionalOf stringOf) "folder" fields old.folder new.folder :=
  ⟨fun h => ⟨h.action, h.title, h.content, h.folder⟩, fun ⟨ha, ht, hc, hf⟩ => ⟨ha, ht, hc, hf⟩⟩

/-- A field of one of the four names fills the slot of that name and leaves the others, and a field
of another name leaves all of them. -/
theorem add_eq_ok_iff {old new : DraftFields} :
    old.add name value = .ok new ↔ FillsAll [(name, value)] old new := by
  cases new with
  | mk action title content folder =>
    rw [fillsAll_iff]
    unfold DraftFields.add
    split
    case h_5 haction htitle hcontent hfolder =>
      rw [fills_of_ne haction, fills_of_ne htitle, fills_of_ne hcontent, fills_of_ne hfolder,
        Except.ok.injEq, eq_comm]
      cases old
      simp
    all_goals
      simp only [bind_eq_ok_iff, pure_eq_ok_iff, setOnce_eq_ok_iff, fills_of_eq, ne_eq,
        String.reduceEq, not_false_eq_true, fills_of_ne, DraftFields.mk.injEq]
      grind

/-- A slot is filled by the first field or by those behind it, since the name stands once. -/
theorem fills_cons {read : Json → Except ShapeFault α} {f : String × Json}
    {fields : List (String × Json)} {old new : Option α} (hf : f.1 ∉ fields.map Prod.fst) :
    Fills read name (f :: fields) old new ↔
      ∃ slot, Fills read name [f] old slot ∧ Fills read name fields slot new := by
  obtain ⟨n, value⟩ := f
  by_cases hname : n = name
  · subst hname
    have hnone : fields.find? (·.1 == n) = none := by
      rw [List.find?_eq_none]
      intro g hg heq
      exact hf (List.mem_map.2 ⟨g, hg, by simpa using heq⟩)
    simp [Fills, hnone]
  · simp [Fills, hname]

theorem fillsAll_cons {f : String × Json} {fields : List (String × Json)} {old new : DraftFields}
    (hf : f.1 ∉ fields.map Prod.fst) :
    FillsAll (f :: fields) old new ↔
      ∃ slots, FillsAll [f] old slots ∧ FillsAll fields slots new := by
  simp only [fillsAll_iff, fills_cons hf]
  constructor
  · rintro ⟨⟨action, ha, ha'⟩, ⟨title, ht, ht'⟩, ⟨content, hc, hc'⟩, ⟨folder, hf, hf'⟩⟩
    exact ⟨⟨action, title, content, folder⟩, ⟨ha, ht, hc, hf⟩, ha', ht', hc', hf'⟩
  · rintro ⟨slots, ⟨ha, ht, hc, hf⟩, ha', ht', hc', hf'⟩
    exact ⟨⟨_, ha, ha'⟩, ⟨_, ht, ht'⟩, ⟨_, hc, hc'⟩, ⟨_, hf, hf'⟩⟩

theorem addAll_eq_ok_iff {fields : List (String × Json)} {old new : DraftFields}
    (h : (fields.map Prod.fst).Nodup) : old.addAll fields = .ok new ↔ FillsAll fields old new := by
  induction fields generalizing old with
  | nil =>
    rw [DraftFields.addAll, fillsAll_iff, Except.ok.injEq, eq_comm]
    cases old
    cases new
    simp [fills_nil]
  | cons f fields ih =>
    obtain ⟨hf, hfields⟩ := List.nodup_cons.1 h
    rw [fillsAll_cons hf, DraftFields.addAll]
    constructor
    · intro hadd
      split at hadd
      case h_1 => cases hadd
      case h_2 slots hslots =>
        exact ⟨slots, add_eq_ok_iff.1 hslots, (ih hfields).1 hadd⟩
    · rintro ⟨slots, hslots, hnew⟩
      rw [add_eq_ok_iff.2 hslots]
      exact (ih hfields).2 hnew

/-! ## The last of each name -/

theorem any_name_iff {fields : List (String × Json)} :
    fields.any (·.1 == name) = true ↔ name ∈ fields.map Prod.fst := by
  simp only [List.any_eq_true, beq_iff_eq, List.mem_map]

theorem mem_names_lastOfEach {fields : List (String × Json)} :
    name ∈ (lastOfEach fields).map Prod.fst ↔ name ∈ fields.map Prod.fst := by
  induction fields with
  | nil => rfl
  | cons f fields ih =>
    rw [lastOfEach, List.map_cons, List.mem_cons]
    split
    case isTrue hany =>
      rw [ih]
      constructor
      · exact Or.inr
      · rintro (rfl | hn)
        · exact any_name_iff.1 hany
        · exact hn
    case isFalse => rw [List.map_cons, List.mem_cons, ih]

theorem nodup_lastOfEach (fields : List (String × Json)) :
    ((lastOfEach fields).map Prod.fst).Nodup := by
  induction fields with
  | nil => exact List.nodup_nil
  | cons f fields ih =>
    rw [lastOfEach]
    split
    case isTrue => exact ih
    case isFalse hany =>
      rw [List.map_cons, List.nodup_cons, mem_names_lastOfEach, ← any_name_iff]
      exact ⟨hany, ih⟩

theorem lastOfEach_of_nodup {fields : List (String × Json)} (h : (fields.map Prod.fst).Nodup) :
    lastOfEach fields = fields := by
  induction fields with
  | nil => rfl
  | cons f fields ih =>
    obtain ⟨hf, hfields⟩ := List.nodup_cons.1 h
    rw [lastOfEach, if_neg (mt any_name_iff.1 hf), ih hfields]

theorem field?_cons (f : String × Json) (fields : List (String × Json)) (name : String) :
    (Json.object (f :: fields)).field? name =
      ((Json.object fields).field? name).or (if f.1 == name then some f.2 else none) := by
  rw [field?, field?, List.reverse_cons, List.find?_append, Option.map_or]
  cases h : f.1 == name <;> simp [h]

theorem field?_eq_none_iff {fields : List (String × Json)} :
    (Json.object fields).field? name = none ↔ name ∉ fields.map Prod.fst := by
  rw [field?, Option.map_eq_none_iff, List.find?_eq_none]
  simp only [List.mem_reverse, beq_iff_eq, List.mem_map, not_exists, not_and]

/-- Of repeated fields the last counts, as in a lookup. -/
theorem find?_lastOfEach (fields : List (String × Json)) (name : String) :
    ((lastOfEach fields).find? (·.1 == name)).map Prod.snd = (Json.object fields).field? name := by
  induction fields with
  | nil => rfl
  | cons f fields ih =>
    rw [field?_cons, lastOfEach]
    cases hf : f.1 == name with
    | false =>
      split
      · simp [ih]
      · simp [hf, ih]
    | true =>
      obtain rfl : f.1 = name := by simpa using hf
      split
      case isTrue hany =>
        obtain ⟨x, hx⟩ : ∃ x, (Json.object fields).field? f.1 = some x := by
          refine Option.ne_none_iff_exists'.1 fun hnone => ?_
          exact field?_eq_none_iff.1 hnone (any_name_iff.1 hany)
        rw [ih, hx]
        rfl
      case isFalse hany =>
        have hnone : (Json.object fields).field? f.1 = none :=
          field?_eq_none_iff.2 fun hmem => hany (any_name_iff.2 hmem)
        rw [hnone]
        simp

/-! ## Fields in another order -/

/-- Where no name stands twice, a field is found by being there. -/
theorem find?_field_eq_some_iff {fields : List (String × Json)} (h : (fields.map Prod.fst).Nodup)
    {f : String × Json} : fields.find? (·.1 == name) = some f ↔ f ∈ fields ∧ f.1 = name := by
  constructor
  · intro hf
    exact ⟨List.mem_of_find?_eq_some hf, by simpa using List.find?_some hf⟩
  · rintro ⟨hf, rfl⟩
    obtain ⟨g, hg⟩ : ∃ g, fields.find? (·.1 == f.1) = some g := by
      rw [← Option.isSome_iff_exists, List.find?_isSome]
      exact ⟨f, hf, beq_self_eq_true f.1⟩
    have hname : g.1 = f.1 := by simpa using List.find?_some hg
    rw [hg, List.inj_on_of_nodup_map h (List.mem_of_find?_eq_some hg) hf hname]

theorem fills_perm {read : Json → Except ShapeFault α} {fields fields' : List (String × Json)}
    (hperm : fields'.Perm fields) (h : (fields.map Prod.fst).Nodup) {old new : Option α} :
    Fills read name fields' old new ↔ Fills read name fields old new := by
  have hfind : fields'.find? (·.1 == name) = fields.find? (·.1 == name) := by
    refine Option.ext fun f => ?_
    rw [find?_field_eq_some_iff h,
      find?_field_eq_some_iff ((hperm.map Prod.fst).nodup_iff.2 h), hperm.mem_iff]
  rw [Fills, Fills, hfind]

/-- Fields of different names come to the same in every order. -/
theorem fillsAll_perm {fields fields' : List (String × Json)} (hperm : fields'.Perm fields)
    (h : (fields.map Prod.fst).Nodup) {old new : DraftFields} :
    FillsAll fields' old new ↔ FillsAll fields old new := by
  simp only [fillsAll_iff, fills_perm hperm h]

theorem visited_perm (fields : List (String × Json)) : (visited fields).Perm (lastOfEach fields) :=
  List.mergeSort_perm _ _

theorem nodup_visited (fields : List (String × Json)) : ((visited fields).map Prod.fst).Nodup :=
  ((visited_perm fields).map Prod.fst).nodup_iff.2 (nodup_lastOfEach fields)

theorem pairwise_visited (fields : List (String × Json)) :
    (visited fields).Pairwise fun f g => f.1 ≤ g.1 := by
  have htrans : ∀ f g h : String × Json, decide (f.1 ≤ g.1) = true → decide (g.1 ≤ h.1) = true →
      decide (f.1 ≤ h.1) = true := by
    intro f g h hfg hgh
    exact decide_eq_true (String.le_trans (of_decide_eq_true hfg) (of_decide_eq_true hgh))
  have htotal : ∀ f g : String × Json, (decide (f.1 ≤ g.1) || decide (g.1 ≤ f.1)) = true := by
    intro f g
    simpa using String.le_total f.1 g.1
  exact (List.pairwise_mergeSort htrans htotal (lastOfEach fields)).imp of_decide_eq_true

/-- The order of the fields does not count, not even for the fault that is found first. -/
theorem ofJson_object_perm {fields fields' : List (String × Json)} (hperm : fields'.Perm fields)
    (h : (fields.map Prod.fst).Nodup) :
    Draft.ofJson (.object fields') = Draft.ofJson (.object fields) := by
  have h' : (fields'.map Prod.fst).Nodup := (hperm.map Prod.fst).nodup_iff.2 h
  have hvisited : (visited fields').Perm (visited fields) := by
    refine (visited_perm fields').trans (List.Perm.trans ?_ (visited_perm fields).symm)
    rwa [lastOfEach_of_nodup h, lastOfEach_of_nodup h']
  have hsame : visited fields' = visited fields := by
    refine hvisited.eq_of_pairwise ?_ (pairwise_visited fields') (pairwise_visited fields)
    intro f g hf hg hfg hgf
    exact List.inj_on_of_nodup_map (nodup_visited fields) (hvisited.mem_iff.1 hf) hg
      (String.le_antisymm hfg hgf)
  rw [Draft.ofJson, Draft.ofJson, hsame]

/-! ## Whole drafts -/

/-- The values that are drafts: objects with the four fields, of whose names the last of each
counts, and lists of the four parts in this order. -/
inductive DraftForm : Json → Draft → Prop
  | object {fields : List (String × Json)} {d : Draft}
      (haction : (Json.object fields).field? "action" = some (.str d.action))
      (htitle : (Json.object fields).field? "title" = some (.str d.title))
      (hcontent : Optionally Json.strings ((Json.object fields).field? "content") d.content)
      (hfolder : Optionally Json.str ((Json.object fields).field? "folder") d.folder) :
      DraftForm (.object fields) d
  | list {items : List Json} {d : Draft} (hlength : items.length ≤ 4)
      (haction : items[0]? = some (.str d.action)) (htitle : items[1]? = some (.str d.title))
      (hcontent : Optionally Json.strings items[2]? d.content)
      (hfolder : Optionally Json.str items[3]? d.folder) : DraftForm (.list items) d

theorem toDraft_eq_ok_iff {fields : DraftFields} :
    fields.toDraft = .ok d ↔ fields.action = some d.action ∧ fields.title = some d.title ∧
      fields.content.join = d.content ∧ fields.folder.join = d.folder := by
  cases d
  unfold DraftFields.toDraft
  cases fields.action with
  | none => simp
  | some action =>
    cases fields.title with
    | none => simp
    | some title => simp

/-- What a slot holds of a part that was looked up. -/
def Holds (read : Json → Except ShapeFault α) : Option Json → Option α → Prop
  | none, slot => slot = none
  | some value, slot => ∃ x, read value = .ok x ∧ slot = some x

theorem holds_string_iff {part : Option Json} {text : String} :
    Holds stringOf part (some text) ↔ part = some (.str text) := by
  cases part <;> simp [Holds, stringOf_eq_ok_iff]

theorem exists_holds_iff {read : Json → Except ShapeFault (Option α)} {form : α → Json}
    (hread : ∀ value x, read value = .ok x ↔ Optionally form (some value) x) {part : Option Json}
    {x : Option α} : (∃ slot, Holds read part slot ∧ slot.join = x) ↔ Optionally form part x := by
  cases part with
  | none =>
    constructor
    · rintro ⟨slot, rfl, rfl⟩
      exact .missing
    · rintro ⟨⟩
      exact ⟨none, rfl, rfl⟩
  | some value =>
    constructor
    · rintro ⟨slot, ⟨x, hx, rfl⟩, rfl⟩
      exact (hread value x).1 hx
    · intro h
      exact ⟨some x, ⟨x, (hread value x).2 h, rfl⟩, rfl⟩

theorem exists_holds_strings_iff {part : Option Json} {x : Option (List String)} :
    (∃ slot, Holds (optionalOf stringsOf) part slot ∧ slot.join = x) ↔
      Optionally Json.strings part x :=
  exists_holds_iff fun _ _ => optionalOf_stringsOf_eq_ok_iff

theorem exists_holds_str_iff {part : Option Json} {x : Option String} :
    (∃ slot, Holds (optionalOf stringOf) part slot ∧ slot.join = x) ↔
      Optionally Json.str part x :=
  exists_holds_iff fun _ _ => optionalOf_stringOf_eq_ok_iff

theorem fills_visited_iff {read : Json → Except ShapeFault α} {fields : List (String × Json)}
    {slot : Option α} :
    Fills read name (visited fields) none slot ↔
      Holds read ((Json.object fields).field? name) slot := by
  rw [fills_perm (visited_perm fields) (nodup_lastOfEach fields), ← find?_lastOfEach, Fills]
  cases (lastOfEach fields).find? (·.1 == name) <;> simp [Holds]

theorem itemOf_eq_ok_iff {read : Json → Except ShapeFault α} {items : List Json} {place : Nat}
    {slot : Option α} : itemOf read items place = .ok slot ↔ Holds read items[place]? slot := by
  unfold itemOf
  cases items[place]? with
  | none => simp [Holds, eq_comm]
  | some value =>
    refine map_eq_ok_iff.trans ?_
    simp only [Holds, eq_comm]

theorem ofJson_object_eq_ok_iff {fields : List (String × Json)} :
    Draft.ofJson (.object fields) = .ok d ↔
      (Json.object fields).field? "action" = some (.str d.action) ∧
      (Json.object fields).field? "title" = some (.str d.title) ∧
      Optionally Json.strings ((Json.object fields).field? "content") d.content ∧
      Optionally Json.str ((Json.object fields).field? "folder") d.folder := by
  simp only [Draft.ofJson, bind_eq_ok_iff, addAll_eq_ok_iff (nodup_visited fields),
    toDraft_eq_ok_iff, fillsAll_iff, fills_visited_iff, ← exists_holds_strings_iff,
    ← exists_holds_str_iff, ← holds_string_iff]
  constructor
  · rintro ⟨slots, ⟨ha, ht, hc, hf⟩, haction, htitle, hcontent, hfolder⟩
    exact ⟨haction ▸ ha, htitle ▸ ht, ⟨_, hc, hcontent⟩, ⟨_, hf, hfolder⟩⟩
  · rintro ⟨ha, ht, ⟨content, hc, hcontent⟩, ⟨folder, hf, hfolder⟩⟩
    exact ⟨⟨some d.action, some d.title, content, folder⟩, ⟨ha, ht, hc, hf⟩, rfl, rfl, hcontent,
      hfolder⟩

theorem ofJson_list_eq_ok_iff {items : List Json} :
    Draft.ofJson (.list items) = .ok d ↔ items.length ≤ 4 ∧
      items[0]? = some (.str d.action) ∧ items[1]? = some (.str d.title) ∧
      Optionally Json.strings items[2]? d.content ∧ Optionally Json.str items[3]? d.folder := by
  rw [Draft.ofJson, draftOfItems, ← exists_holds_strings_iff, ← exists_holds_str_iff,
    ← holds_string_iff, ← holds_string_iff]
  simp only [← itemOf_eq_ok_iff, bind_eq_ok_iff]
  constructor
  · rintro ⟨_ | action, haction, h⟩
    · cases h
    obtain ⟨_ | title, htitle, h⟩ := bind_eq_ok_iff.1 h
    · cases h
    obtain ⟨content, hcontent, h⟩ := bind_eq_ok_iff.1 h
    obtain ⟨folder, hfolder, h⟩ := bind_eq_ok_iff.1 h
    split at h
    · cases h
    · obtain rfl := pure_eq_ok_iff.1 h
      exact ⟨by omega, haction, htitle, ⟨content, hcontent, rfl⟩, ⟨folder, hfolder, rfl⟩⟩
  · rintro ⟨hlength, haction, htitle, ⟨content, hcontent, hc⟩, ⟨folder, hfolder, hf⟩⟩
    refine ⟨_, haction, bind_eq_ok_iff.2 ⟨_, htitle, bind_eq_ok_iff.2 ⟨_, hcontent,
      bind_eq_ok_iff.2 ⟨_, hfolder, ?_⟩⟩⟩⟩
    rw [if_neg (by omega), hc, hf]
    rfl

/-- The values that are read as drafts are those that have the form of one. -/
theorem draft_ofJson_eq_ok_iff : Draft.ofJson value = .ok d ↔ DraftForm value d := by
  cases value with
  | object fields =>
    rw [ofJson_object_eq_ok_iff]
    constructor
    · rintro ⟨haction, htitle, hcontent, hfolder⟩
      exact .object haction htitle hcontent hfolder
    · intro h
      cases h with
      | object haction htitle hcontent hfolder => exact ⟨haction, htitle, hcontent, hfolder⟩
  | list items =>
    rw [ofJson_list_eq_ok_iff]
    constructor
    · rintro ⟨hlength, haction, htitle, hcontent, hfolder⟩
      exact .list hlength haction htitle hcontent hfolder
    · intro h
      cases h with
      | list hlength haction htitle hcontent hfolder =>
        exact ⟨hlength, haction, htitle, hcontent, hfolder⟩
  | _ =>
    constructor
    · intro h
      cases h
    · rintro ⟨⟩

end PlainNotes

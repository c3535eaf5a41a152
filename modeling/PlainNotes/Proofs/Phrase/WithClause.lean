import PlainNotes.Proofs.Phrase.Form
import PlainNotes.Proofs.Phrase.Trailer

/-!
# The clause in front of the items

Between the title of a new note and its items there may stand `with items`, and a colon or an `of`.
The functions that take these words off go through the text from left to right.  Here the words are
languages, and a function is described by the language whose texts it takes off.

* `Skips`: what a function takes off, with `Skips.bind`, `Skips.behindGap` and `Skips.or`.
* `WithoutMark`, `WithoutClause`: what is left without the words.
* `skipClause_eq_iff`: the functions leave this and nothing else.
-/

namespace PlainNotes.Phrase

open Text Pattern

variable {f g : List Char → Option (List Char)} {l m : Language Char} {s t : List Char}
  {cls cls' : Char → Bool}

/-! ## Taking words off -/

/-- The text is one of the language and then `t`. -/
def Behind (l : Language Char) (s t : List Char) : Prop :=
  ∃ u ∈ l, s = u ++ t

/-- The function takes a text of the language off, and fails where there is none. -/
def Skips (f : List Char → Option (List Char)) (l : Language Char) : Prop :=
  ∀ s t, f s = some t ↔ Behind l s t

/-- Every text of the language begins with a character of the class. -/
def Starts (l : Language Char) (cls : Char → Bool) : Prop :=
  ∀ u ∈ l, ∃ x v, u = x :: v ∧ cls x = true

theorem behind_mul : Behind (l * m) s t ↔ ∃ r, Behind l s r ∧ Behind m r t := by
  constructor
  · rintro ⟨w, hw, rfl⟩
    obtain ⟨u, hu, v, hv, rfl⟩ := Language.mem_mul.1 hw
    exact ⟨v ++ t, ⟨u, hu, List.append_assoc u v t⟩, v, hv, rfl⟩
  · rintro ⟨r, ⟨u, hu, rfl⟩, v, hv, rfl⟩
    exact ⟨u ++ v, Language.mem_mul.2 ⟨u, hu, v, hv, rfl⟩, (List.append_assoc u v t).symm⟩

theorem behind_add : Behind (l + m) s t ↔ Behind l s t ∨ Behind m s t := by
  simp only [Behind, Language.mem_add, or_and_right, exists_or]

theorem Skips.eq_none_iff (hf : Skips f l) : f s = none ↔ ∀ t, ¬ Behind l s t := by
  rw [Option.eq_none_iff_forall_ne_some]
  exact forall_congr' fun t => not_congr (hf s t)

theorem Skips.bind (hf : Skips f l) (hg : Skips g m) : Skips (fun s => (f s).bind g) (l * m) := by
  intro s t
  rw [Option.bind_eq_some_iff, behind_mul]
  exact exists_congr fun r => and_congr (hf s r) (hg r t)

/-- Of two languages with different first characters it does not matter which is tried first. -/
theorem Skips.or (hf : Skips f l) (hg : Skips g m) (hl : Starts l cls) (hm : Starts m cls')
    (hapart : ∀ x, cls x = true → cls' x = false) : Skips (fun s => (f s).or (g s)) (l + m) := by
  intro s t
  rw [Option.or_eq_some_iff, behind_add, hf s t, hf.eq_none_iff, hg s t]
  refine or_congr_right (and_iff_right_of_imp ?_)
  rintro ⟨v, hv, rfl⟩ t' ⟨u, hu, heq⟩
  obtain ⟨x, u', rfl, hx⟩ := hl u hu
  obtain ⟨y, v', rfl, hy⟩ := hm v hv
  obtain ⟨rfl, -⟩ := List.cons.inj heq
  rw [hapart y hx] at hy
  cases hy

theorem skips_word (w : String) : Skips (skipWord? w.toList) (spellings w) := by
  intro s t
  rw [skipWord?_eq_some_iff]
  exact exists_congr fun u => and_comm

/-! ## Gaps -/

/-- The whole gap comes off. -/
theorem skipGap?_eq_some_iff : skipGap? s = some t ↔ Behind blanks s t ∧ StartsOutside isBlank t := by
  constructor
  · intro h
    cases s with
    | nil => cases h
    | cons x s =>
      rw [skipGap?, Option.ite_none_right_eq_some] at h
      obtain ⟨hx, ht⟩ := h
      obtain rfl := Option.some.inj ht
      obtain ⟨u, hu, hblank⟩ := exists_append_trimStart s
      refine ⟨⟨x :: u, ⟨List.cons_ne_nil x u, ?_⟩, ?_⟩, startsOutside_dropWhile isBlank s⟩
      · exact List.forall_mem_cons.2 ⟨hx, hblank⟩
      · rw [List.cons_append, ← hu]
  · rintro ⟨⟨u, ⟨hne, hu⟩, rfl⟩, ht⟩
    obtain ⟨x, u, rfl⟩ := List.exists_cons_of_ne_nil hne
    obtain ⟨hx, hu⟩ := List.forall_mem_cons.1 hu
    rw [List.cons_append, skipGap?, if_pos hx, trimStart, List.dropWhile_append_of_pos hu,
      dropWhile_of_startsOutside ht]

theorem Skips.behindGap (hf : Skips f l) (hl : Starts l cls)
    (hblank : ∀ x, cls x = true → isBlank x = false) :
    Skips (fun s => (skipGap? s).bind f) (blanks * l) := by
  intro s t
  rw [Option.bind_eq_some_iff, behind_mul]
  refine exists_congr fun r => ?_
  rw [skipGap?_eq_some_iff, hf r t, and_assoc]
  refine and_congr_right fun _ => and_iff_right_of_imp ?_
  rintro ⟨u, hu, rfl⟩
  obtain ⟨x, v, rfl, hx⟩ := hl u hu
  intro y hy
  obtain rfl := Option.some.inj hy
  exact hblank x hx

/-! ## The first letters of words -/

theorem starts_spellings {w : String} (letter : Char) (letters : List Char)
    (hw : w.toList = letter :: letters) : Starts (spellings w) (foldsTo letter) := by
  intro u hu
  have hspells : spells (letter :: letters) u = true := hw ▸ hu
  cases u with
  | nil => cases hspells
  | cons x u => exact ⟨x, u, rfl, (Bool.and_eq_true_iff.1 hspells).1⟩

theorem Starts.add (hl : Starts l cls) (hm : Starts m cls') :
    Starts (l + m) fun x => cls x || cls' x := by
  intro u hu
  rcases (Language.mem_add l m u).1 hu with hu | hu
  · obtain ⟨x, v, rfl, hx⟩ := hl u hu
    exact ⟨x, v, rfl, by simp [hx]⟩
  · obtain ⟨x, v, rfl, hx⟩ := hm u hu
    exact ⟨x, v, rfl, by simp [hx]⟩

theorem Starts.mul (hl : Starts l cls) : Starts (l * m) cls := by
  intro w hw
  obtain ⟨u, hu, v, -, rfl⟩ := Language.mem_mul.1 hw
  obtain ⟨x, u, rfl, hx⟩ := hl u hu
  exact ⟨x, u ++ v, rfl, hx⟩

/-! ## The clause -/

/-- A gap, `with`, a gap, and what the items are called. -/
def clauseForm : Language Char :=
  blanks * (spellings "with" * (blanks *
    (spellings "items" + (spellings "content" + spellings "text"))))

/-- A colon, perhaps behind a gap. -/
def colonForm : Language Char :=
  (blanks + 1) * {[':']}

/-- A gap and `of`. -/
def ofForm : Language Char :=
  blanks * spellings "of"

/-- What is left without the mark that the text begins with: a colon, or else an `of`. -/
def WithoutMark (s rest : List Char) : Prop :=
  Behind colonForm s rest ∨
    (∀ t, ¬ Behind colonForm s t) ∧
      (Behind ofForm s rest ∨ (∀ t, ¬ Behind ofForm s t) ∧ rest = s)

/-- What is left without the clause that the text begins with, and without the mark behind it. -/
def WithoutClause (back rest : List Char) : Prop :=
  (∃ s, Behind clauseForm back s ∧ WithoutMark s rest) ∨
    (∀ s, ¬ Behind clauseForm back s) ∧ rest = back

/-- The first letters of `items`, `content` and `text`, in any case. -/
def beginsKind (x : Char) : Bool :=
  foldsTo 'i' x || (foldsTo 'c' x || foldsTo 't' x)

theorem starts_kind :
    Starts (spellings "items" + (spellings "content" + spellings "text")) beginsKind :=
  (starts_spellings 'i' "tems".toList (by decide)).add <|
    (starts_spellings 'c' "ontent".toList (by decide)).add
      (starts_spellings 't' "ext".toList (by decide))

theorem not_isBlank_of_beginsKind (x : Char) (hx : beginsKind x = true) : isBlank x = false := by
  simp only [beginsKind, Bool.or_eq_true] at hx
  rcases hx with hx | hx | hx
  · exact not_isBlank_of_foldsTo (by decide) (by decide) hx
  · exact not_isBlank_of_foldsTo (by decide) (by decide) hx
  · exact not_isBlank_of_foldsTo (by decide) (by decide) hx

theorem skipOneOf?_cons (w : String) (ws : List String) (s : List Char) :
    skipOneOf? (w :: ws) s = (skipWord? w.toList s).or (skipOneOf? ws s) := by
  rw [skipOneOf?, List.findSome?_cons]
  cases skipWord? w.toList s with
  | none => rfl
  | some t => rfl

/-- No two of the words begin with the same letter. -/
theorem skips_kind : Skips (skipOneOf? ["items", "content", "text"])
    (spellings "items" + (spellings "content" + spellings "text")) := by
  have hcontent := starts_spellings (w := "content") 'c' "ontent".toList (by decide)
  have htext := starts_spellings (w := "text") 't' "ext".toList (by decide)
  have hrest : Skips (skipOneOf? ["content", "text"]) (spellings "content" + spellings "text") := by
    have hor := (skips_word "content").or (skips_word "text") hcontent htext fun x hx =>
      outside_of_foldsTo (by decide) (by decide) (by decide) hx
    intro s t
    rw [skipOneOf?_cons, skipOneOf?_cons]
    simpa [skipOneOf?] using hor s t
  have hitems := starts_spellings (w := "items") 'i' "tems".toList (by decide)
  have hapart : ∀ x, foldsTo 'i' x = true → (foldsTo 'c' x || foldsTo 't' x) = false := fun x hx =>
    @outside_of_foldsTo (fun x => foldsTo 'c' x || foldsTo 't' x) 'i' x (by decide) (by decide)
      (by decide) hx
  have hor := (skips_word "items").or hrest hitems (hcontent.add htext) hapart
  intro s t
  rw [skipOneOf?_cons]
  exact hor s t

/-- The words in front of the items, without the mark behind them. -/
theorem skips_clause : Skips
    (fun s => (skipGap? s).bind fun s => (skipWord? "with".toList s).bind fun s =>
      (skipGap? s).bind (skipOneOf? ["items", "content", "text"])) clauseForm := by
  have hwith := starts_spellings (w := "with") 'w' "ith".toList (by decide)
  have hkind := skips_kind.behindGap starts_kind not_isBlank_of_beginsKind
  exact ((skips_word "with").bind hkind).behindGap hwith.mul fun x hx =>
    not_isBlank_of_foldsTo (by decide) (by decide) hx

theorem behind_colonForm : Behind colonForm s t ↔ trimStart s = ':' :: t := by
  constructor
  · rintro ⟨w, hw, rfl⟩
    obtain ⟨u, hu, v, hv, rfl⟩ := Language.mem_mul.1 hw
    obtain rfl : v = [':'] := hv
    have hblank : ∀ y ∈ u, isBlank y = true := by
      rcases (Language.mem_add _ _ u).1 hu with hu | hu
      · exact hu.2
      · rw [(Language.mem_one u).1 hu]
        exact fun y hy => absurd hy List.not_mem_nil
    rw [trimStart, List.append_assoc, List.dropWhile_append_of_pos hblank]
    rfl
  · intro h
    obtain ⟨u, hu, hblank⟩ := exists_append_trimStart s
    refine ⟨u ++ [':'], Language.mem_mul.2 ⟨u, ?_, _, rfl, rfl⟩, ?_⟩
    · rw [Language.mem_add, Language.mem_one]
      by_cases hnil : u = []
      · exact Or.inr hnil
      · exact Or.inl ⟨hnil, hblank⟩
    · rw [List.append_assoc, List.singleton_append, ← h, ← hu]

theorem skips_colon : Skips skipColon? colonForm := by
  intro s t
  rw [behind_colonForm, skipColon?]
  cases trimStart s with
  | nil => simp
  | cons x r =>
    by_cases hx : x = ':'
    · simp [hx]
    · simp [hx]

theorem skips_of : Skips (fun s => (skipGap? s).bind (skipWord? "of".toList)) ofForm :=
  (skips_word "of").behindGap (starts_spellings 'o' "f".toList (by decide)) fun x hx =>
    not_isBlank_of_foldsTo (by decide) (by decide) hx

theorem skipMark_eq_iff {rest : List Char} : skipMark s = rest ↔ WithoutMark s rest := by
  have hof : (skipGap? s).bind (skipWord? "of".toList) = some rest ↔ Behind ofForm s rest :=
    skips_of s rest
  have hnot : (skipGap? s).bind (skipWord? "of".toList) = none ↔ ∀ t, ¬ Behind ofForm s t :=
    skips_of.eq_none_iff
  rw [skipMark, Option.getD_eq_iff, Option.or_eq_some_iff, Option.or_eq_none_iff,
    skips_colon s rest, skips_colon.eq_none_iff, hof, hnot, WithoutMark, or_assoc, and_assoc,
    ← and_or_left, eq_comm]

/-- **What is left without the clause** is what the functions leave. -/
theorem skipClause_eq_iff {back rest : List Char} :
    skipClause back = rest ↔ WithoutClause back rest := by
  have hclause : skipClause? back = ((skipGap? back).bind fun s =>
      (skipWord? "with".toList s).bind fun s =>
        (skipGap? s).bind (skipOneOf? ["items", "content", "text"])).map skipMark := by
    simp [skipClause?, Option.bind_assoc, Option.map_eq_bind]
  rw [skipClause, hclause, Option.getD_eq_iff, Option.map_eq_none_iff, Option.map_eq_some_iff,
    skips_clause.eq_none_iff, WithoutClause, eq_comm]
  refine or_congr_left (exists_congr fun s => ?_)
  exact and_congr (skips_clause back s) skipMark_eq_iff

end PlainNotes.Phrase

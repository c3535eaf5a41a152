import PlainNotes.Proofs.Json.Spelling
import PlainNotes.Proofs.Json.Written

/-!
# Readers take from the front

What a reader leaves is the end of what it was given, however it goes, so whatever it tells stands in
these bytes.

* `takesFront_readValue`: whole values, by one lemma for each reader and induction on the depth.
* `readAs_of_run`: what a value is read as, by its first byte.
* `FieldsFrom`: the fields of an object with the spellings of their names;
  `exists_fieldsFrom_of_run`, and `FieldsFrom.fieldIn` for what the bytes tell of each.
* `ofBytesWithin_object`: a text that holds an object.
-/

namespace PlainNotes

variable {α β ε : Type}

/-! ## Steps that succeed -/

theorem bind_eq_ok_iff {x : Except ε α} {f : α → Except ε β} {b : β} :
    (x >>= f) = .ok b ↔ ∃ a, x = .ok a ∧ f a = .ok b := by
  cases x <;> simp [bind, Except.bind]

theorem pure_eq_ok_iff {a b : α} : (pure a : Except ε α) = .ok b ↔ a = b :=
  ⟨Except.ok.inj, congrArg Except.ok⟩

theorem map_eq_ok_iff {x : Except ε α} {f : α → β} {b : β} :
    x.map f = .ok b ↔ ∃ a, x = .ok a ∧ f a = b := by
  cases x <;> simp [Except.map]

namespace Json

open Utf8

variable {s t u : List UInt8} {text : String} {a : α} {b : β}

namespace Reader

theorem run_bind_eq_ok_iff {x : Reader α} {f : α → Reader β} :
    (x >>= f).run s = .ok (b, t) ↔ ∃ a u, x.run s = .ok (a, u) ∧ (f a).run u = .ok (b, t) := by
  rw [StateT.run_bind, bind_eq_ok_iff, Prod.exists]

/-! ## What is left -/

/-- What the reader leaves is the end of what it was given. -/
def TakesFront (x : Reader α) : Prop :=
  ∀ ⦃s a t⦄, x.run s = .ok (a, t) → t <:+ s

theorem takesFront_pure (a : α) : TakesFront (pure a) := by
  intro s b t h
  cases h
  exact List.suffix_refl s

theorem takesFront_throw (fault : Fault) : TakesFront (throw fault : Reader α) := by
  intro s a t h
  cases h

theorem TakesFront.bind {x : Reader α} {f : α → Reader β} (hx : TakesFront x)
    (hf : ∀ a, TakesFront (f a)) : TakesFront (x >>= f) := by
  intro s b t h
  obtain ⟨a, u, hfirst, hrest⟩ := run_bind_eq_ok_iff.1 h
  exact (hf a hrest).trans (hx hfirst)

theorem takesFront_lift {f : List UInt8 → Except Fault (α × List UInt8)}
    (hf : ∀ ⦃s a t⦄, f s = .ok (a, t) → t <:+ s) : TakesFront (lift f) := by
  intro s a t h
  rw [run_lift_eq] at h
  exact hf h

theorem takesFront_peek : TakesFront peek := by
  intro s o t h
  rw [run_peek_eq] at h
  cases h
  exact List.dropWhile_suffix isSpace

theorem takesFront_skip : TakesFront skip := by
  intro s o t h
  cases h
  exact List.tail_suffix s

theorem run_word_cons (letter : UInt8) (letters : List UInt8) :
    (word (letter :: letters)).run s =
      match s with
      | [] => .error .unfinishedValue
      | b :: s => if b == letter then (word letters).run s else .error .expectedWord := by
  unfold word
  rw [List.forIn_cons]
  cases s with
  | nil => rfl
  | cons b s =>
    simp only [bind_assoc, StateT.run_bind, StateT.run_get, pure_bind]
    split <;> rfl

theorem takesFront_word (letters : List UInt8) : TakesFront (word letters) := by
  induction letters with
  | nil => exact takesFront_pure ()
  | cons letter letters ih =>
    intro s a t h
    rw [run_word_cons] at h
    split at h
    · cases h
    split at h
    · exact (ih h).trans (List.suffix_cons _ _)
    · cases h

theorem takesFront_string : TakesFront string :=
  takesFront_skip.bind fun _ => takesFront_lift fun _ _ _ h => (spelledIn_of_readString h).2

/-! ## Numbers -/

theorem takeDigits1_suffix {ds : List Nat} (h : takeDigits1 s = .ok (ds, t)) : t <:+ s := by
  have hdrop : (takeDigits s).2 <:+ s := List.dropWhile_suffix isDigit
  unfold takeDigits1 at h
  split at h
  · cases h
  · cases h
  · rw [Except.ok.inj h] at hdrop
    exact hdrop

theorem takeSign_suffix (s : List UInt8) : (takeSign s).2 <:+ s := by
  cases s with
  | nil => exact List.suffix_refl _
  | cons b s =>
    rw [takeSign]
    split
    · exact List.suffix_cons b s
    split
    · exact List.suffix_cons b s
    · exact List.suffix_refl _

theorem readExponent_suffix {negative : Bool} {significand : Nat} {exponent : Int} {n : Number}
    (h : readExponent negative significand exponent s = .ok (n, t)) : t <:+ s := by
  cases s with
  | nil =>
    rw [readExponent] at h
    obtain ⟨_, _, h⟩ := bind_eq_ok_iff.1 h
    cases h
    exact List.suffix_refl _
  | cons b s =>
    rw [readExponent] at h
    split at h
    · obtain ⟨⟨ds, rest⟩, hds, h⟩ := bind_eq_ok_iff.1 h
      obtain ⟨_, _, h⟩ := bind_eq_ok_iff.1 h
      cases h
      exact ((takeDigits1_suffix hds).trans (takeSign_suffix s)).trans (List.suffix_cons b s)
    · obtain ⟨_, _, h⟩ := bind_eq_ok_iff.1 h
      cases h
      exact List.suffix_refl _

theorem readNumeral_suffix {negative : Bool} {n : Number}
    (h : readNumeral negative s = .ok (n, t)) : t <:+ s := by
  unfold readNumeral at h
  obtain ⟨⟨ds, rest⟩, hds, h⟩ := bind_eq_ok_iff.1 h
  have hrest := takeDigits1_suffix hds
  dsimp only at h
  split at h
  · cases h
  cases rest with
  | nil =>
    dsimp only at h
    split at h
    · cases h
      exact hrest
    · exact (readExponent_suffix h).trans hrest
  | cons b u =>
    dsimp only at h
    split at h
    · obtain ⟨⟨fs, v⟩, hfs, h⟩ := bind_eq_ok_iff.1 h
      have hfraction := (takeDigits1_suffix hfs).trans (List.suffix_cons b u)
      exact ((readExponent_suffix h).trans hfraction).trans hrest
    split at h
    · exact (readExponent_suffix h).trans hrest
    · cases h
      exact hrest

theorem takesFront_number : TakesFront number := by
  intro s n t h
  cases s with
  | nil => cases h
  | cons b s =>
    have hrun : number.run (b :: s) =
        if b == byte '-' then readNumeral true s else readNumeral false (b :: s) := by
      rw [← run_lift_eq (readNumeral true) s, ← run_lift_eq (readNumeral false) (b :: s)]
      simp only [number, StateT.run_bind, StateT.run_get, pure_bind]
      split <;> rfl
    rw [hrun] at h
    split at h
    · exact (readNumeral_suffix h).trans (List.suffix_cons b s)
    · exact readNumeral_suffix h

/-! ## Parts -/

theorem takesFront_nextItem (first : Bool) : TakesFront (nextItem first) := by
  refine takesFront_peek.bind fun o => ?_
  cases o with
  | none => exact takesFront_throw _
  | some b =>
    dsimp only
    split
    · exact takesFront_pure _
    split
    · exact takesFront_pure _
    split
    · refine takesFront_skip.bind fun _ => takesFront_peek.bind fun o => ?_
      cases o with
      | none => exact takesFront_throw _
      | some b =>
        dsimp only
        split
        · exact takesFront_throw _
        · exact takesFront_pure _
    · exact takesFront_throw _

theorem takesFront_endList : TakesFront endList := by
  refine takesFront_peek.bind fun o => ?_
  cases o with
  | none => exact takesFront_throw _
  | some b =>
    dsimp only
    split
    · exact takesFront_skip
    split
    · exact takesFront_skip.bind fun _ => takesFront_peek.bind fun _ => takesFront_throw _
    · exact takesFront_throw _

theorem takesFront_colon : TakesFront colon := by
  refine takesFront_peek.bind fun o => ?_
  cases o with
  | none => exact takesFront_throw _
  | some b =>
    dsimp only
    split
    · exact takesFront_skip
    · exact takesFront_throw _

/-- A field begins at the quote of its name. -/
theorem of_run_nextField {first more : Bool} (h : (nextField first).run s = .ok (more, t)) :
    t <:+ s ∧ (more = true → ∃ u, t = byte '"' :: u) := by
  have hquote : ∀ {m : List UInt8} {b : UInt8}, m.head? = some b → (b == byte '"') = true →
      ∃ u, m = byte '"' :: u := by
    intro m b hm hb
    obtain ⟨u, rfl⟩ := List.head?_eq_some_iff.1 hm
    exact ⟨u, by rw [eq_of_beq hb]⟩
  unfold nextField at h
  obtain ⟨o, m, hpeek, h⟩ := run_bind_eq_ok_iff.1 h
  have hm := takesFront_peek hpeek
  rw [run_peek_eq] at hpeek
  cases hpeek
  split at h
  · cases h
  case h_2 b hhead =>
    split at h
    · cases h
      exact ⟨hm, fun h => by cases h⟩
    split at h
    · split at h
      case isTrue hb =>
        cases h
        exact ⟨hm, fun _ => hquote hhead hb⟩
      case isFalse => cases h
    split at h
    · obtain ⟨_, v, hskip, hrest⟩ := run_bind_eq_ok_iff.1 h
      have hv := (takesFront_skip hskip).trans hm
      obtain ⟨o, m, hpeek, hlast⟩ := run_bind_eq_ok_iff.1 hrest
      have hm := (takesFront_peek hpeek).trans hv
      rw [run_peek_eq] at hpeek
      cases hpeek
      split at hlast
      · cases hlast
      case h_2 b hhead =>
        split at hlast
        case isTrue hb =>
          cases hlast
          exact ⟨hm, fun _ => hquote hhead hb⟩
        case isFalse => cases hlast
    · cases h

theorem takesFront_items {item : Reader α} (hitem : TakesFront item) (bound : Nat) (first : Bool) :
    TakesFront (items item bound first) := by
  induction bound generalizing first with
  | zero => exact takesFront_throw _
  | succ bound ih =>
    refine (takesFront_nextItem first).bind fun more => ?_
    split
    · exact hitem.bind fun x => (ih false).bind fun xs => takesFront_pure _
    · exact takesFront_endList.bind fun _ => takesFront_pure _

theorem takesFront_fields {value : Reader α} (hvalue : TakesFront value) (bound : Nat)
    (first : Bool) : TakesFront (fields value bound first) := by
  induction bound generalizing first with
  | zero => exact takesFront_throw _
  | succ bound ih =>
    have hnext : TakesFront (nextField first) := fun _ _ _ h => (of_run_nextField h).1
    refine hnext.bind fun more => ?_
    split
    · refine takesFront_string.bind fun name => takesFront_colon.bind fun _ => ?_
      exact hvalue.bind fun x => (ih false).bind fun xs => takesFront_pure _
    · exact takesFront_skip.bind fun _ => takesFront_pure _

end Reader

open Reader

/-! ## Values -/

/-- What a value is read as from its first byte on, with what is left behind it. -/
inductive ReadAs (nested : Option (Reader Json)) : List UInt8 → Json → List UInt8 → Prop
  | null {s t : List UInt8} (h : (word [byte 'u', byte 'l', byte 'l']).run s = .ok ((), t)) :
      ReadAs nested (byte 'n' :: s) .null t
  | yes {s t : List UInt8} (h : (word [byte 'r', byte 'u', byte 'e']).run s = .ok ((), t)) :
      ReadAs nested (byte 't' :: s) (.bool true) t
  | no {s t : List UInt8}
      (h : (word [byte 'a', byte 'l', byte 's', byte 'e']).run s = .ok ((), t)) :
      ReadAs nested (byte 'f' :: s) (.bool false) t
  | num {s t : List UInt8} {n : Number} (h : number.run s = .ok (n, t)) :
      ReadAs nested s (.num n) t
  | str {s t : List UInt8} {text : String} (h : readString s = .ok (text, t)) :
      ReadAs nested (byte '"' :: s) (.str text) t
  | list {s t : List UInt8} {item : Reader Json} {xs : List Json} (hitem : nested = some item)
      (h : (items item (s.length + 1) true).run s = .ok (xs, t)) :
      ReadAs nested (byte '[' :: s) (.list xs) t
  | object {s t : List UInt8} {value : Reader Json} {fs : List (String × Json)}
      (hvalue : nested = some value)
      (h : (fields value (s.length + 1) true).run s = .ok (fs, t)) :
      ReadAs nested (byte '\x7b' :: s) (.object fs) t

theorem of_run_within {nested : Option α} (h : (within nested : Reader α).run s = .ok (a, t)) :
    nested = some a ∧ t = s := by
  cases nested with
  | none => cases h
  | some x =>
    cases h
    exact ⟨rfl, rfl⟩

theorem of_run_constant {letters : List UInt8} {c : UInt8} {x y : Json}
    (h : (do skip; word letters; return y : Reader Json).run (c :: s) = .ok (x, t)) :
    x = y ∧ (word letters).run s = .ok ((), t) := by
  obtain ⟨_, _, hskip, hrest⟩ := run_bind_eq_ok_iff.1 h
  cases hskip
  obtain ⟨_, _, hword, hpure⟩ := run_bind_eq_ok_iff.1 hrest
  cases hpure
  exact ⟨rfl, hword⟩

theorem of_run_string {c : UInt8} (h : string.run (c :: s) = .ok (text, t)) :
    readString s = .ok (text, t) := by
  obtain ⟨_, _, hskip, hread⟩ := run_bind_eq_ok_iff.1 h
  cases hskip
  rw [run_lift_eq] at hread
  exact hread

/-- Lists and objects are read alike: their parts are read behind the bracket. -/
theorem of_run_parts (parts : α → Nat → Reader β) {nested : Option α} {whole : β → Json} {c : UInt8}
    {x : Json}
    (h : (do
      let part ← within nested
      skip
      return whole (← parts part (← partsLeft)) : Reader Json).run (c :: s) = .ok (x, t)) :
    ∃ part b, nested = some part ∧ x = whole b ∧
      (parts part (s.length + 1)).run s = .ok (b, t) := by
  obtain ⟨part, _, hwithin, hrest⟩ := run_bind_eq_ok_iff.1 h
  obtain ⟨hnested, rfl⟩ := of_run_within hwithin
  obtain ⟨_, _, hskip, hrest⟩ := run_bind_eq_ok_iff.1 hrest
  cases hskip
  obtain ⟨_, _, hbound, hparts⟩ := run_bind_eq_ok_iff.1 hrest
  cases hbound
  obtain ⟨b, _, hparts, hpure⟩ := run_bind_eq_ok_iff.1 hparts
  cases hpure
  exact ⟨part, b, hnested, rfl, hparts⟩

theorem readAs_of_run {nested : Option (Reader Json)} {x : Json}
    (h : (readWith nested).run s = .ok (x, t)) : ReadAs nested (s.dropWhile isSpace) x t := by
  unfold readWith at h
  obtain ⟨o, m, hpeek, h⟩ := run_bind_eq_ok_iff.1 h
  rw [run_peek_eq] at hpeek
  cases hpeek
  generalize s.dropWhile isSpace = m at h ⊢
  cases m with
  | nil => cases h
  | cons b m =>
    dsimp only [List.head?_cons] at h
    split at h
    case isTrue hb =>
      obtain ⟨rfl, hword⟩ := of_run_constant h
      rw [eq_of_beq hb]
      exact .null hword
    split at h
    case isTrue hb =>
      obtain ⟨rfl, hword⟩ := of_run_constant h
      rw [eq_of_beq hb]
      exact .yes hword
    split at h
    case isTrue hb =>
      obtain ⟨rfl, hword⟩ := of_run_constant h
      rw [eq_of_beq hb]
      exact .no hword
    split at h
    · obtain ⟨n, _, hnumber, h⟩ := run_bind_eq_ok_iff.1 h
      cases h
      exact .num hnumber
    split at h
    case isTrue hb =>
      obtain ⟨text, _, hstring, h⟩ := run_bind_eq_ok_iff.1 h
      cases h
      rw [eq_of_beq hb]
      exact .str (of_run_string hstring)
    split at h
    case isTrue hb =>
      obtain ⟨item, xs, hitem, rfl, hitems⟩ :=
        of_run_parts (fun item bound => items item bound true) h
      rw [eq_of_beq hb]
      exact .list hitem hitems
    split at h
    case isTrue hb =>
      obtain ⟨value, fs, hvalue, rfl, hfields⟩ :=
        of_run_parts (fun value bound => fields value bound true) h
      rw [eq_of_beq hb]
      exact .object hvalue hfields
    case isFalse => cases h

theorem takesFront_readWith {nested : Option (Reader Json)}
    (hnested : ∀ value, nested = some value → TakesFront value) : TakesFront (readWith nested) := by
  intro s x t h
  refine List.IsSuffix.trans ?_ (List.dropWhile_suffix isSpace)
  have hread := readAs_of_run h
  generalize s.dropWhile isSpace = m at hread ⊢
  cases hread with
  | null h => exact (takesFront_word _ h).trans (List.suffix_cons _ _)
  | yes h => exact (takesFront_word _ h).trans (List.suffix_cons _ _)
  | no h => exact (takesFront_word _ h).trans (List.suffix_cons _ _)
  | num h => exact takesFront_number h
  | str h => exact (spelledIn_of_readString h).2.trans (List.suffix_cons _ _)
  | list hitem h =>
    exact (takesFront_items (hnested _ hitem) _ _ h).trans (List.suffix_cons _ _)
  | object hvalue h =>
    exact (takesFront_fields (hnested _ hvalue) _ _ h).trans (List.suffix_cons _ _)

theorem takesFront_readValue (depth : Nat) : TakesFront (readValue depth) := by
  induction depth with
  | zero =>
    refine takesFront_readWith fun value h => ?_
    cases h
  | succ depth ih =>
    refine takesFront_readWith fun value h => ?_
    cases h
    exact ih

/-! ## What an object tells -/

theorem spelledIn_of_readWith {nested : Option (Reader Json)}
    (h : (readWith nested).run s = .ok (.str text, t)) : SpelledIn s text := by
  have hread := readAs_of_run h
  generalize hm : s.dropWhile isSpace = m at hread
  cases hread with
  | str hread =>
    have hsuffix := List.dropWhile_suffix (l := s) isSpace
    rw [hm] at hsuffix
    exact (spelledIn_of_readString hread).1.of_suffix hsuffix

theorem spelledIn_of_readValue {depth : Nat} (h : (readValue depth).run s = .ok (.str text, t)) :
    SpelledIn s text := by
  cases depth <;> exact spelledIn_of_readWith h

/-- The fields of an object from some place behind its bracket on, each with the bytes between the
quotes of its name. -/
inductive FieldsFrom (value : Reader Json) :
    Bool → List UInt8 → List (List UInt8 × String × Json) → Prop
  | nil {first : Bool} {s t : List UInt8} (h : (nextField first).run s = .ok (false, t)) :
    FieldsFrom value first s []
  | cons {first : Bool} {s v t u rest : List UInt8} {name : String} {x : Json}
    {fs : List (List UInt8 × String × Json)}
    (hnext : (nextField first).run s = .ok (true, byte '"' :: (v ++ byte '"' :: t)))
    (hname : Spelling v (encode name.toList)) (hcolon : colon.run t = .ok ((), u))
    (hvalue : value.run u = .ok (x, rest)) (hrest : FieldsFrom value false rest fs) :
    FieldsFrom value first s ((v, name, x) :: fs)

/-- The fields that are read stand one behind the other, by the recursion of the reading. -/
theorem exists_fieldsFrom_of_run {value : Reader Json} {bound : Nat} {first : Bool}
    {fs : List (String × Json)} (h : (fields value bound first).run s = .ok (fs, t)) :
    ∃ spelled, FieldsFrom value first s spelled ∧ spelled.map Prod.snd = fs := by
  induction bound generalizing first s fs t with
  | zero => cases h
  | succ bound ih =>
    obtain ⟨more, u, hnext, h⟩ := run_bind_eq_ok_iff.1 h
    cases more with
    | false =>
      obtain ⟨_, _, _, h⟩ := run_bind_eq_ok_iff.1 h
      cases h
      exact ⟨[], .nil hnext, rfl⟩
    | true =>
      obtain ⟨u, rfl⟩ := (of_run_nextField hnext).2 rfl
      obtain ⟨name, w, hname, h⟩ := run_bind_eq_ok_iff.1 h
      obtain ⟨_, m, hcolon, h⟩ := run_bind_eq_ok_iff.1 h
      obtain ⟨x, rest, hvalue, h⟩ := run_bind_eq_ok_iff.1 h
      obtain ⟨fs, _, hrest, h⟩ := run_bind_eq_ok_iff.1 h
      cases h
      obtain ⟨v, hv, rfl⟩ := readString_eq_ok_iff.1 (of_run_string hname)
      obtain ⟨spelled, hspelled, rfl⟩ := ih hrest
      exact ⟨_, .cons hnext hv hcolon hvalue hspelled, rfl⟩

/-- What a field tells is spelled in the bytes: its name, and its value if that is a text. -/
structure FieldIn (s : List UInt8) (f : List UInt8 × String × Json) : Prop where
  stands : ∃ front back, s = front ++ byte '"' :: (f.1 ++ byte '"' :: back)
  spells : Spelling f.1 (encode f.2.1.toList)
  text : ∀ text, f.2.2 = .str text → SpelledIn s text

theorem FieldIn.of_suffix {f : List UInt8 × String × Json} (h : FieldIn t f) (hsuffix : t <:+ s) :
    FieldIn s f := by
  obtain ⟨more, rfl⟩ := hsuffix
  obtain ⟨front, back, hstands⟩ := h.stands
  refine ⟨⟨more ++ front, back, by rw [hstands, List.append_assoc]⟩, h.spells, fun text htext => ?_⟩
  exact (h.text text htext).of_suffix ⟨more, rfl⟩

theorem FieldsFrom.fieldIn {value : Reader Json} (htakes : TakesFront value)
    (hspelled : ∀ ⦃s text t⦄, value.run s = .ok (.str text, t) → SpelledIn s text)
    {first : Bool} {fs : List (List UInt8 × String × Json)} (h : FieldsFrom value first s fs) :
    ∀ f ∈ fs, FieldIn s f := by
  induction h with
  | nil => exact fun f hf => absurd hf List.not_mem_nil
  | @cons first s v t u rest name x fs hnext hname hcolon hvalue hrest ih =>
    have hquote := (of_run_nextField hnext).1
    have hu : u <:+ s := by
      refine (takesFront_colon hcolon).trans (List.IsSuffix.trans ?_ hquote)
      exact ⟨byte '"' :: (v ++ [byte '"']), by simp⟩
    intro f hf
    rcases List.mem_cons.1 hf with rfl | hf
    · obtain ⟨front, hfront⟩ := hquote
      refine ⟨⟨front, t, hfront.symm⟩, hname, ?_⟩
      rintro text rfl
      exact (hspelled hvalue).of_suffix hu
    · exact (ih f hf).of_suffix ((htakes hvalue).trans hu)

/-- A text that holds an object begins with a brace behind blanks, and behind the brace its fields
stand one after the other. -/
theorem ofBytesWithin_object {depth : Nat} {fs : List (String × Json)}
    (h : ofBytesWithin (depth + 1) s = .ok (.object fs)) :
    ∃ u spelled, s.dropWhile isSpace = byte '\x7b' :: u ∧
      FieldsFrom (readValue depth) true u spelled ∧ spelled.map Prod.snd = fs := by
  obtain ⟨⟨x, t⟩, hrun, hx⟩ := map_eq_ok_iff.1 h
  dsimp only at hx
  subst hx
  obtain ⟨x, u, hread, hrest⟩ := run_bind_eq_ok_iff.1 hrun
  obtain ⟨_, _, _, hrest⟩ := run_bind_eq_ok_iff.1 hrest
  cases hrest
  have hread : ReadAs (some (readValue depth)) _ _ _ := readAs_of_run hread
  generalize s.dropWhile isSpace = m at hread ⊢
  cases hread with
  | object hvalue hfields =>
    cases hvalue
    obtain ⟨spelled, hspelled, hfs⟩ := exists_fieldsFrom_of_run hfields
    exact ⟨_, spelled, rfl, hspelled, hfs⟩

/-- The fields of an object are spelled in its bytes. -/
theorem FieldsFrom.fieldIn_object {depth : Nat} {fs : List (List UInt8 × String × Json)}
    (h : FieldsFrom (readValue depth) true u fs) (hbrace : s.dropWhile isSpace = byte '\x7b' :: u) :
    ∀ f ∈ fs, FieldIn s f := by
  have hsuffix : u <:+ s :=
    (List.suffix_cons (byte '\x7b') u).trans (hbrace ▸ List.dropWhile_suffix isSpace)
  intro f hf
  refine FieldIn.of_suffix ?_ hsuffix
  exact h.fieldIn (takesFront_readValue depth) (fun _ _ _ => spelledIn_of_readValue) f hf

end Json

end PlainNotes

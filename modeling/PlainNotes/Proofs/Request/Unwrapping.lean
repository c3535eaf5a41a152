import PlainNotes.Proofs.Json.Front
import PlainNotes.Proofs.Request.Wrapped
import PlainNotes.Proofs.Text.Ascii

/-!
# The two readings of wrapped requests

The lenient reading gives what the strict one accepts, as long as the name of the field stands in
the text as it is.  That the text begins with a brace makes no difference, since nothing else is an
object.

* `Accepted.exists_fieldsFrom`: what is accepted is an object whose fields are spelled in it.
* `slash_mem_of_fieldIn`: the name of a field that does not stand in the text is escaped.
* `unwrap_eq`: the lenient reading in terms of the strict one.
* `unwrap_layered`: one wrapping comes off at a time.
-/

namespace PlainNotes.Payload

open Json Text Utf8

variable {raw text : String} {body : List UInt8} {s : List Char}

/-! ## Accepted bodies -/

/-- What is accepted is an object, and one of its fields has the text. -/
theorem Accepted.exists_fieldsFrom (h : Accepted body text) :
    ∃ u fs v, body.dropWhile isSpace = byte '\x7b' :: u ∧ FieldsFrom (readValue 126) true u fs ∧
      (v, "text", .str text) ∈ fs := by
  obtain ⟨value, hbytes, ⟨before, after, rfl, -⟩, -⟩ := h
  obtain ⟨u, fs, hbrace, hfields, hfs⟩ := ofBytesWithin_object hbytes
  have hmem : ("text", .str text) ∈ fs.map Prod.snd := by
    rw [hfs]
    simp
  obtain ⟨⟨v, f⟩, hf, rfl⟩ := List.mem_map.1 hmem
  exact ⟨u, fs, v, hbrace, hfields, hf⟩

theorem Accepted.spelledIn (h : Accepted body text) : SpelledIn body text := by
  obtain ⟨u, fs, v, hbrace, hfields, hmem⟩ := h.exists_fieldsFrom
  exact (hfields.fieldIn_object hbrace _ hmem).text text rfl

theorem isBlank_of_isSpace {c : Char} {b : UInt8} (hspace : isSpace b = true)
    (hb : b ∈ encodeChar c) : isBlank c = true := by
  have hvalue : b.toNat = 0x20 ∨ b.toNat = 0x0a ∨ b.toNat = 0x09 ∨ b.toNat = 0x0d := by
    simp only [isSpace, Bool.or_eq_true, beq_iff_eq] at hspace
    rcases hspace with ((rfl | rfl) | rfl) | rfl <;> decide
  obtain ⟨hc, -⟩ := toNat_eq_of_mem_encodeChar (by omega) hb
  simp only [isBlank, hc, Bool.or_eq_true, Bool.and_eq_true, decide_eq_true_eq, beq_iff_eq]
  omega

/-- A brace behind the blanks of the bytes is a brace behind the blanks of the text. -/
theorem head_trimStart_of_brace {u : List UInt8}
    (h : (encode s).dropWhile isSpace = byte '\x7b' :: u) : (trimStart s).head? = some '\x7b' := by
  have hsplit : encode s = (encode s).takeWhile isSpace ++ byte '\x7b' :: u := by
    rw [← h, List.takeWhile_append_dropWhile]
  obtain ⟨gap, c, after, rfl, hgap, hc, -⟩ := exists_split_of_encode (by decide) hsplit
  obtain rfl : c = '\x7b' := Char.toNat_inj.1 hc
  have hblank : ∀ x ∈ gap, isBlank x = true := by
    intro x hx
    obtain ⟨b, v, hb⟩ := List.exists_cons_of_ne_nil (encodeChar_ne_nil x)
    have hmem : b ∈ encodeChar x := hb ▸ List.mem_cons_self
    refine isBlank_of_isSpace ?_ hmem
    have hin : b ∈ (encode (gap ++ '\x7b' :: after)).takeWhile isSpace := by
      rw [← hgap]
      exact List.mem_flatMap.2 ⟨x, hx, hmem⟩
    exact List.all_eq_true.1 List.all_takeWhile b hin
  rw [trimStart, List.dropWhile_append_of_pos hblank]
  rfl

/-! ## Escaped names -/

/-- The body is an object with fields of this name, and each of them is spelled with an escape. -/
def EscapedIn (body : List UInt8) (name : String) : Prop :=
  ∃ u fs, body.dropWhile isSpace = byte '\x7b' :: u ∧ FieldsFrom (readValue 126) true u fs ∧
    (∃ f ∈ fs, f.2.1 = name) ∧ ∀ f ∈ fs, f.2.1 = name → byte '\\' ∈ f.1

/-- Without an escape the name of a field stands in the text as it is. -/
theorem slash_mem_of_fieldIn {f : List UInt8 × String × Json} (h : FieldIn (encode s) f)
    (hword : contains f.2.1.toList s = false) : byte '\\' ∈ f.1 := by
  obtain ⟨front, back, hbytes⟩ := h.stands
  by_cases hslash : byte '\\' ∈ f.1
  · exact hslash
  rw [h.spells.eq_of_not_mem hslash] at hbytes
  obtain ⟨before, c, after, rfl, -, -, hafter⟩ := exists_split_of_encode (by decide) hbytes
  obtain ⟨rest, rfl, -⟩ := exists_append_of_encode hafter
  have hstands : f.2.1.toList <:+: before ++ c :: (f.2.1.toList ++ rest) :=
    ⟨before ++ [c], rest, by simp⟩
  rw [contains_iff_isInfix.2 hstands] at hword
  cases hword

theorem Accepted.escapedIn (h : Accepted (encode s) text)
    (hword : contains "text".toList s = false) : EscapedIn (encode s) "text" := by
  obtain ⟨u, fs, v, hbrace, hfields, hmem⟩ := h.exists_fieldsFrom
  refine ⟨u, fs, hbrace, hfields, ⟨_, hmem, rfl⟩, fun f hf hname => ?_⟩
  exact slash_mem_of_fieldIn (hfields.fieldIn_object hbrace f hf) (hname ▸ hword)

/-! ## The lenient reading -/

theorem requestText_ne (h : requestText (encode raw.toList) = .ok text) : text ≠ raw := by
  rintro rfl
  exact Nat.lt_irrefl _ (requestText_eq_ok_iff.1 h).spelledIn.length_lt

theorem unwrap_eq (raw : String) :
    unwrap raw = if contains "text".toList raw.toList then
      (requestText (encode raw.toList)).toOption.getD raw else raw := by
  have hlooks : ∀ text, requestText (encode raw.toList) = .ok text →
      looksWrapped raw = contains "text".toList raw.toList := by
    intro text h
    obtain ⟨u, -, -, hbrace, -⟩ := (requestText_eq_ok_iff.1 h).exists_fieldsFrom
    rw [looksWrapped, head_trimStart_of_brace hbrace]
    rfl
  have hraw : unwrap raw =
      if looksWrapped raw then (requestText (encode raw.toList)).toOption.getD raw else raw := by
    rw [unwrap, requestText, ofText]
    cases ofBytes (encode raw.toList) with
    | error fault => rfl
    | ok value =>
      dsimp only
      cases textOf value <;> rfl
  rw [hraw]
  cases hread : requestText (encode raw.toList) with
  | error fault => simp [Except.toOption]
  | ok text => rw [hlooks text hread]

theorem unwrap_of_requestText (h : requestText (encode raw.toList) = .ok text) :
    unwrap raw = if contains "text".toList raw.toList then text else raw := by
  rw [unwrap_eq, h]
  rfl

theorem unwrap_eq_self (h : contains "text".toList raw.toList = true →
    ∀ text, requestText (encode raw.toList) ≠ .ok text) : unwrap raw = raw := by
  rw [unwrap_eq]
  split
  case isTrue hword =>
    cases hread : requestText (encode raw.toList) with
    | error fault => rfl
    | ok text => exact absurd hread (h hword text)
  case isFalse => rfl

/-- The readings differ on what the strict one accepts exactly if the name of the field does not stand
in the text. -/
theorem unwrap_ne_iff (h : requestText (encode raw.toList) = .ok text) :
    unwrap raw ≠ text ↔ contains "text".toList raw.toList = false := by
  rw [unwrap_of_requestText h]
  cases contains "text".toList raw.toList with
  | true => exact iff_of_false (fun hne => hne rfl) (by decide)
  | false => exact iff_of_true (fun heq => requestText_ne h heq.symm) rfl

/-! ## Spellings of the name -/

section

variable {name : String} {v w rest : List UInt8}

theorem run_string_spelled (hv : Spelling v (encode name.toList)) (rest : List UInt8) :
    Reader.string.run (byte '"' :: (v ++ byte '"' :: rest)) = .ok (name, rest) :=
  (Reader.run_bind Reader.run_skip).trans
    ((Reader.run_lift_eq readString _).trans (readString_eq_ok_iff.2 ⟨v, hv, rfl⟩))

theorem readValue_spelled (depth : Nat) (hw : Spelling w (encode text.toList))
    (rest : List UInt8) :
    (readValue depth).run (byte '"' :: (w ++ byte '"' :: rest)) = .ok (.str text, rest) := by
  have hstring := run_string_spelled hw rest
  cases depth <;> exact (Reader.run_bind (Reader.run_peek rfl)).trans (Reader.run_bind hstring)

/-- The bytes of an object with one field, as they are spelled. -/
def spelledField (v w : List UInt8) : List UInt8 :=
  byte '\x7b' :: byte '"' :: (v ++ byte '"' :: byte ':' :: byte '"' ::
    (w ++ byte '"' :: [byte '\x7d']))

theorem ofBytes_spelledField (hv : Spelling v (encode name.toList))
    (hw : Spelling w (encode text.toList)) :
    ofBytes (spelledField v w) = .ok (.object [(name, .str text)]) := by
  have hfields : ∀ bound, (Reader.fields (readValue 126) (bound + 2) true).run
      (byte '"' :: (v ++ byte '"' :: byte ':' :: byte '"' :: (w ++ byte '"' :: [byte '\x7d']))) =
        .ok ([(name, .str text)], []) := by
    intro bound
    refine (Reader.run_bind (run_nextField true)).trans ?_
    refine (Reader.run_bind (run_string_spelled hv _)).trans ?_
    refine (Reader.run_bind (Reader.run_colon _)).trans ?_
    refine (Reader.run_bind (readValue_spelled 126 hw _)).trans ?_
    refine Reader.run_bind (a := []) (t := []) ?_
    exact (Reader.run_bind (run_nextField_end false)).trans (Reader.run_bind Reader.run_skip)
  refine ofBytes_of_readValue ?_
  refine (Reader.run_bind (Reader.run_peek rfl)).trans ?_
  refine (Reader.run_bind (Reader.run_pure (readValue 126))).trans ?_
  refine (Reader.run_bind Reader.run_skip).trans ?_
  refine (Reader.run_bind run_partsLeft).trans ?_
  exact Reader.run_bind (hfields _)

/-- The strict reading takes the field however its name and its text are spelled. -/
theorem requestText_spelledField (hv : Spelling v (encode "text".toList))
    (hw : Spelling w (encode text.toList)) (hne : text ≠ "") :
    requestText (spelledField v w) = .ok text := by
  refine requestText_eq_ok_iff.2 ⟨_, ofBytes_spelledField hv hw, ?_, hne⟩
  exact ⟨[], [], rfl, fun f hf => absurd hf List.not_mem_nil⟩

end

/-! ## Wrappings -/

/-- The text in so many wrappings, each inside the next. -/
def layered : Nat → String → String
  | 0, text => text
  | layers + 1, text => (wrap (layered layers text)).render

theorem layered_ne_empty (h : text ≠ "") (layers : Nat) : layered layers text ≠ "" := by
  cases layers with
  | zero => exact h
  | succ layers => exact render_wrap_ne_empty _

theorem unwrap_layered (h : text ≠ "") (layers : Nat) :
    unwrap (layered (layers + 1) text) = layered layers text :=
  unwrap_wrap (layered_ne_empty h layers)

/-- **The lenient reading follows the strict one** wherever the word `text` stands in the text: it
gives what the strict one accepts, and else the text itself.  What is accepted begins with a brace
behind blanks, so it makes no difference that only such texts are looked at.  On what is accepted
the two differ exactly if the word does not stand in the text, and then the name of the field is
spelled with an escape.  What is wrapped comes out again, one wrapping at a time. -/
theorem unwrap_follows_requestText :
    (∀ raw text, contains "text".toList raw.toList = true →
      requestText (encode raw.toList) = .ok text → unwrap raw = text) ∧
    (∀ raw, (contains "text".toList raw.toList = true →
      ∀ text, requestText (encode raw.toList) ≠ .ok text) → unwrap raw = raw) ∧
    (∀ raw, unwrap raw = if contains "text".toList raw.toList then
      (requestText (encode raw.toList)).toOption.getD raw else raw) ∧
    (∀ raw text, requestText (encode raw.toList) = .ok text →
      (trimStart raw.toList).head? = some '\x7b' ∧
      (unwrap raw ≠ text ↔ contains "text".toList raw.toList = false) ∧
      (unwrap raw ≠ text → EscapedIn (encode raw.toList) "text")) ∧
    ∀ text, text ≠ "" → unwrap (wrap text).render = text ∧
      ∀ layers, unwrap (layered (layers + 1) text) = layered layers text := by
  refine ⟨fun raw text hword h => ?_, fun raw h => unwrap_eq_self h, unwrap_eq,
    fun raw text h => ?_, fun text h => ⟨unwrap_wrap h, unwrap_layered h⟩⟩
  · rw [unwrap_of_requestText h, if_pos hword]
  · have haccepted := requestText_eq_ok_iff.1 h
    obtain ⟨u, -, -, hbrace, -⟩ := haccepted.exists_fieldsFrom
    refine ⟨head_trimStart_of_brace hbrace, unwrap_ne_iff h, fun hne => ?_⟩
    exact haccepted.escapedIn ((unwrap_ne_iff h).1 hne)

/-- A name in plain letters, and one that is escaped in a text without the word. -/
theorem unwrap_follows_requestText_note :
    unwrap "\x7b\"text\":\"note\"\x7d" = "note" ∧
      unwrap "\x7b\"\\u0074ext\":\"note\"\x7d" = "\x7b\"\\u0074ext\":\"note\"\x7d" := by
  have hwrapped : (wrap "note").render = "\x7b\"text\":\"note\"\x7d" := by decide
  obtain ⟨hread, hkept, -⟩ := unwrap_follows_requestText
  refine ⟨hread _ _ (by decide) ?_, hkept _ fun hword => ?_⟩
  · rw [← hwrapped]
    exact requestText_sent (by decide)
  · exact absurd hword (by decide)

/-- The two readings agree on a text whose name is spelled in escapes alone, since the word stands in
what it wraps. -/
theorem unwrap_escaped_name :
    encode "\x7b\"\\u0074\\u0065\\u0078\\u0074\":\"my text\"\x7d".toList =
        spelledField (encode "\\u0074\\u0065\\u0078\\u0074".toList) (encode "my text".toList) ∧
      Spelling (encode "\\u0074\\u0065\\u0078\\u0074".toList) (encode "text".toList) ∧
      (∀ c ∈ "text".toList, byte c ∉ encode "\\u0074\\u0065\\u0078\\u0074".toList) ∧
      requestText (encode "\x7b\"\\u0074\\u0065\\u0078\\u0074\":\"my text\"\x7d".toList) =
        .ok "my text" ∧
      unwrap "\x7b\"\\u0074\\u0065\\u0078\\u0074\":\"my text\"\x7d" = "my text" := by
  have hbytes : encode "\x7b\"\\u0074\\u0065\\u0078\\u0074\":\"my text\"\x7d".toList =
      spelledField (encode "\\u0074\\u0065\\u0078\\u0074".toList) (encode "my text".toList) := by
    decide
  have hname : Spelling (encode "\\u0074\\u0065\\u0078\\u0074".toList) (encode "text".toList) :=
    .number (n := 0x74) rfl rfl rfl <| .number (n := 0x65) rfl rfl rfl <|
      .number (n := 0x78) rfl rfl rfl <| .number (n := 0x74) rfl rfl rfl .nil
  have hplain : (encode "my text".toList).all isPlainByte = true := by decide
  have htext : Spelling (encode "my text".toList) (encode "my text".toList) :=
    .refl (List.all_eq_true.1 hplain)
  have habsent : "text".toList.all fun c =>
      byte c ∉ encode "\\u0074\\u0065\\u0078\\u0074".toList := by
    decide
  have hread := requestText_spelledField hname htext (by decide)
  rw [← hbytes] at hread
  refine ⟨hbytes, hname, fun c hc => ?_, hread, ?_⟩
  · exact of_decide_eq_true (List.all_eq_true.1 habsent c hc)
  rw [unwrap_of_requestText hread]
  decide

end PlainNotes.Payload

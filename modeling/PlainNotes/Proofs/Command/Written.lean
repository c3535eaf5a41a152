import PlainNotes.Command.Text
import PlainNotes.Proofs.Command.Form
import PlainNotes.Proofs.Json.Written

/-!
# Written drafts are read back

A written object of draft fields is read from its text as from its value.

* `string_written`, `strings_written`, `optional_written`: the parts of a written draft.
* `draftFields_written`: its fields, by induction over them.
* `draft_ofText_render`: a whole text.
* `command_ofText_eq_ok_iff`: a text holds a command exactly if it holds a draft that passes.
-/

namespace PlainNotes

open Json Json.Reader Utf8

variable {α β : Type} {s t u rest : List UInt8} {b : UInt8}

/-! ## Reading what was written -/

namespace ShapedReader

theorem run_plain {r : Reader α} {a : α} (h : r.run s = .ok (a, t)) :
    (plain r).run s = .ok (a, t) :=
  congrArg (Except.mapError TextFault.json) h

theorem run_plain_peek (hb : isSpace b = false) :
    (plain peek).run (b :: s) = .ok (some b, b :: s) :=
  run_plain (run_peek hb)

theorem string_written (text : String) (rest : List UInt8) :
    string.run (encode (written (.str text)) ++ rest) = .ok (text, rest) := by
  have hstring := run_plain (run_string text rest)
  rw [written]
  refine (run_bind (a := some (byte '"')) (t := encode (quotedString text) ++ rest)
    (run_plain_peek rfl)).trans ?_
  exact hstring

/-- The items of a list of texts are read one after the other, by induction over them. -/
theorem itemsWithin_written {bound : Nat} {texts : List String} (hbound : texts.length < bound)
    (first : Bool) (rest : List UInt8) :
    (itemsWithin string bound first).run
        (encode (partsFrom written first (texts.map .str)) ++ byte ']' :: rest) =
      .ok (texts, rest) := by
  induction texts generalizing bound first with
  | nil =>
    obtain ⟨bound, rfl⟩ : ∃ n, bound = n + 1 := ⟨bound - 1, by omega⟩
    refine (run_bind (run_plain (run_nextItem_end first))).trans ?_
    exact (run_bind (run_plain run_endList)).trans (run_pure [])
  | cons text texts ih =>
    obtain ⟨bound, rfl⟩ : ∃ n, bound = n + 1 := ⟨bound - 1, by omega⟩
    have hnext : (nextItem first).run
        (encode (partsFrom written first ((text :: texts).map .str)) ++ byte ']' :: rest) =
          .ok (true, encode (written (.str text)) ++
            (encode (partsFrom written false (texts.map .str)) ++ byte ']' :: rest)) := by
      rw [List.map_cons, partsFrom, encode_append, encode_append, List.append_assoc,
        List.append_assoc]
      exact run_nextItem first (b := byte '"') rfl (by decide)
    have hrest := ih (Nat.lt_of_succ_lt_succ hbound) false
    refine (run_bind (run_plain hnext)).trans ?_
    refine (run_bind (string_written text _)).trans ?_
    exact (run_bind hrest).trans (run_pure (text :: texts))

theorem strings_written (texts : List String) (rest : List UInt8) :
    strings.run (encode (written (Json.strings texts)) ++ rest) = .ok (texts, rest) := by
  have hbytes : encode (written (Json.strings texts)) ++ rest =
      byte '[' :: (encode (partsFrom written true (texts.map .str)) ++ byte ']' :: rest) := by
    simp only [Json.strings, written, writtenItems_eq, encode_append, List.append_assoc,
      List.cons_append, encode_cons]
    rfl
  have hbound : texts.length <
      (encode (partsFrom written true (texts.map .str)) ++ byte ']' :: rest).length + 1 := by
    have hne : ∀ x ∈ texts.map Json.str, written x ≠ [] := by
      intro x hx hnil
      obtain ⟨text, -, rfl⟩ := List.mem_map.1 hx
      cases hnil
    have hparts := length_le_partsFrom true (texts.map Json.str) hne
    rw [List.length_map] at hparts
    rw [List.length_append]
    omega
  rw [hbytes]
  refine (run_bind (run_plain_peek rfl)).trans ?_
  refine (run_bind (run_plain run_skip)).trans ?_
  refine (run_bind (run_plain run_partsLeft)).trans ?_
  exact itemsWithin_written hbound true rest

theorem optional_null (read : ShapedReader α) (rest : List UInt8) :
    (optional read).run (encode (written .null) ++ rest) = .ok (none, rest) := by
  refine (run_bind (run_plain_peek rfl)).trans ?_
  exact (run_bind (run_plain (readWith_null none rest))).trans (run_pure none)

theorem optional_head {read : ShapedReader α} {a : α} (hspace : isSpace b = false)
    (hb : b ≠ byte 'n') (hread : read.run (b :: s) = .ok (a, t)) :
    (optional read).run (b :: s) = .ok (some a, t) := by
  refine (run_bind (run_plain_peek hspace)).trans ?_
  rw [if_neg (by simpa using hb)]
  exact (run_bind hread).trans (run_pure (some a))

/-- A part is read as its form says, if the form does not begin as null does. -/
theorem optional_written {read : ShapedReader α} {form : α → Json} {value : Json} {x : Option α}
    (hread : ∀ a rest, read.run (encode (written (form a)) ++ rest) = .ok (a, rest))
    (hhead : ∀ a, ∃ b u, encode (written (form a)) = b :: u ∧ isSpace b = false ∧ b ≠ byte 'n')
    (h : Optionally form (some value) x) (rest : List UInt8) :
    (optional read).run (encode (written value) ++ rest) = .ok (x, rest) := by
  generalize hvalue : some value = part at h
  cases h with
  | missing => cases hvalue
  | null =>
    obtain rfl := Option.some.inj hvalue
    exact optional_null read rest
  | given a =>
    obtain rfl := Option.some.inj hvalue
    obtain ⟨b, u, hbytes, hspace, hb⟩ := hhead a
    have hread := hread a rest
    rw [hbytes] at hread ⊢
    exact optional_head hspace hb hread

theorem optional_strings_written {value : Json} {x : Option (List String)}
    (h : Optionally Json.strings (some value) x) (rest : List UInt8) :
    (optional strings).run (encode (written value) ++ rest) = .ok (x, rest) :=
  optional_written strings_written (fun _ => ⟨byte '[', _, rfl, rfl, by decide⟩) h rest

theorem optional_string_written {value : Json} {x : Option String}
    (h : Optionally Json.str (some value) x) (rest : List UInt8) :
    (optional string).run (encode (written value) ++ rest) = .ok (x, rest) :=
  optional_written string_written (fun _ => ⟨byte '"', _, rfl, rfl, by decide⟩) h rest

/-! ### Fields -/

/-- The names of the fields of a draft. -/
def fieldNames : List String :=
  ["action", "title", "content", "folder"]

/-- A slot is filled from the text of a value as from the value. -/
theorem slot_written {name : String} {old : Option α} {value : Json} {given : Except ShapeFault α}
    {read : ShapedReader α} {put : α → DraftFields} {new : DraftFields}
    (hread : ∀ a, given = .ok a → read.run (encode (written value) ++ rest) = .ok (a, rest))
    (h : (do return put (← setOnce name old given)) = Except.ok new) :
    (do return put (← once name old read) : ShapedReader DraftFields).run
        (byte ':' :: (encode (written value) ++ rest)) = .ok (new, rest) := by
  obtain ⟨a, hset, hnew⟩ := bind_eq_ok_iff.1 h
  obtain ⟨rfl, hgiven⟩ := setOnce_eq_ok_iff.1 hset
  obtain rfl := pure_eq_ok_iff.1 hnew
  have honce : (once name none read).run (byte ':' :: (encode (written value) ++ rest)) =
      .ok (a, rest) := (run_bind (run_plain (run_colon _))).trans (hread a hgiven)
  exact run_bind honce

theorem string_written_of_stringOf {value : Json} {text : String} (h : stringOf value = .ok text) :
    string.run (encode (written value) ++ rest) = .ok (text, rest) := by
  rw [stringOf_eq_ok_iff.1 h]
  exact string_written text rest

/-- A field of a draft is read from its text as from its value. -/
theorem draftField_written {slots new : DraftFields} {f : String × Json} (hname : f.1 ∈ fieldNames)
    (h : slots.add f.1 f.2 = .ok new) (rest : List UInt8) :
    (draftField slots f.1).run (byte ':' :: (encode (written f.2) ++ rest)) = .ok (new, rest) := by
  obtain ⟨name, value⟩ := f
  simp only [fieldNames, List.mem_cons, List.not_mem_nil, or_false] at hname
  rcases hname with rfl | rfl | rfl | rfl
  · exact slot_written (fun _ => string_written_of_stringOf) h
  · exact slot_written (fun _ => string_written_of_stringOf) h
  · exact slot_written
      (fun _ h => optional_strings_written (optionalOf_stringsOf_eq_ok_iff.1 h) rest) h
  · exact slot_written
      (fun _ h => optional_string_written (optionalOf_stringOf_eq_ok_iff.1 h) rest) h

/-- The fields of a draft are read one after the other, by induction over them. -/
theorem draftFields_written {bound : Nat} {slots new : DraftFields}
    {fields : List (String × Json)} (hnames : ∀ f ∈ fields, f.1 ∈ fieldNames)
    (hbound : fields.length < bound) (h : slots.addAll fields = .ok new) (first : Bool)
    (rest : List UInt8) :
    (draftFieldsWithin bound first slots).run
        (encode (partsFrom writtenField first fields) ++ byte '\x7d' :: rest) =
      .ok (new, byte '\x7d' :: rest) := by
  induction fields generalizing bound slots first with
  | nil =>
    obtain ⟨bound, rfl⟩ : ∃ n, bound = n + 1 := ⟨bound - 1, by omega⟩
    obtain rfl := Except.ok.inj h
    exact (run_bind (run_plain (run_nextField_end first))).trans (run_pure slots)
  | cons f fields ih =>
    obtain ⟨bound, rfl⟩ : ∃ n, bound = n + 1 := ⟨bound - 1, by omega⟩
    rw [DraftFields.addAll] at h
    split at h
    case h_1 => cases h
    case h_2 slots' hadd =>
      have hnext : (nextField first).run
          (encode (partsFrom writtenField first (f :: fields)) ++ byte '\x7d' :: rest) =
            .ok (true, encode (quotedString f.1) ++ byte ':' :: (encode (written f.2) ++
              (encode (partsFrom writtenField false fields) ++ byte '\x7d' :: rest))) := by
        simp only [partsFrom, writtenField, encode_append, List.append_assoc]
        exact run_nextField first
      have hrest := ih (fun g hg => hnames g (List.mem_cons_of_mem f hg))
        (Nat.lt_of_succ_lt_succ hbound) h false
      refine (run_bind (run_plain hnext)).trans ?_
      refine (run_bind (run_plain (run_string f.1 _))).trans ?_
      refine (run_bind (draftField_written (hnames f (by simp)) hadd _)).trans ?_
      exact hrest

/-! ### Whole texts -/

theorem draft_written {slots : DraftFields} {fields : List (String × Json)} {d : Draft}
    (hnames : ∀ f ∈ fields, f.1 ∈ fieldNames)
    (hslots : ({} : DraftFields).addAll fields = .ok slots)
    (hd : slots.toDraft = .ok d) (rest : List UInt8) :
    draft.run (encode (written (.object fields)) ++ rest) = .ok (d, rest) := by
  have hbytes : encode (written (.object fields)) ++ rest =
      byte '\x7b' :: (encode (partsFrom writtenField true fields) ++ byte '\x7d' :: rest) := by
    simp only [written, writtenFields_eq, encode_append, List.append_assoc, List.cons_append,
      encode_cons]
    rfl
  have hbound : fields.length <
      (encode (partsFrom writtenField true fields) ++ byte '\x7d' :: rest).length + 1 := by
    have hne : ∀ f ∈ fields, writtenField f ≠ [] := fun f _ => List.cons_ne_nil _ _
    have hparts := length_le_partsFrom true fields hne
    rw [List.length_append]
    omega
  rw [hbytes]
  refine (run_bind (run_plain_peek rfl)).trans ?_
  refine (run_bind (run_plain run_skip)).trans ?_
  refine (run_bind (run_plain run_partsLeft)).trans ?_
  refine (run_bind (draftFields_written hnames hbound hslots true rest)).trans ?_
  rw [hd]
  exact (run_bind (run_plain run_skip)).trans (run_pure d)

theorem whole_render {read : ShapedReader α} {value : Json} {a : α}
    (h : read.run (encode (written value) ++ []) = .ok (a, [])) :
    read.whole value.render = .ok a := by
  rw [List.append_nil] at h
  have hend : (plain readEnd).run [] = .ok ((), []) := rfl
  have hall := (run_bind (f := fun a => plain readEnd >>= fun _ => pure a) h).trans (run_bind hend)
  rw [whole, render, String.toList_ofList]
  exact congrArg (Except.map Prod.fst) hall

theorem whole_eq_ok_iff {read : ShapedReader α} {text : String} {a : α} :
    read.whole text = .ok a ↔ ∃ rest e, read.run (encode text.toList) = .ok (a, rest) ∧
      (plain readEnd).run rest = .ok e := by
  have hwhole : read.whole text =
      ((read >>= fun a => plain readEnd >>= fun _ => pure a).run (encode text.toList)).map
        Prod.fst := rfl
  simp only [hwhole, map_eq_ok_iff, StateT.run_bind, bind_eq_ok_iff]
  constructor
  · rintro ⟨_, ⟨⟨x, rest⟩, hx, e, he, hend⟩, rfl⟩
    cases hend
    exact ⟨rest, e, hx, he⟩
  · rintro ⟨rest, e, hx, he⟩
    exact ⟨(a, e.2), ⟨(a, rest), hx, e, he, rfl⟩, rfl⟩

/-- A command is read as a draft that passes the checks. -/
theorem command_run_eq_ok_iff {c : Command} :
    command.run s = .ok (c, t) ↔ ∃ d, draft.run s = .ok (d, t) ∧ d.validate = .ok c := by
  rw [command, StateT.run_bind, bind_eq_ok_iff]
  constructor
  · rintro ⟨⟨d, u⟩, hd, hc⟩
    cases hvalid : d.validate with
    | error e =>
      rw [Draft.check, hvalid] at hc
      cases hc
    | ok c' =>
      rw [Draft.check, hvalid] at hc
      cases hc
      exact ⟨d, hd, hvalid⟩
  · rintro ⟨d, hd, hvalid⟩
    refine ⟨(d, t), hd, ?_⟩
    rw [Draft.check, hvalid]
    rfl

end ShapedReader

theorem draft_ofText_render {fields : List (String × Json)} {d : Draft}
    (hnames : ∀ f ∈ fields, f.1 ∈ ShapedReader.fieldNames) (hnodup : (fields.map Prod.fst).Nodup)
    (h : Draft.ofJson (.object fields) = .ok d) :
    Draft.ofText (Json.object fields).render = .ok d := by
  obtain ⟨slots, hvisited, hd⟩ := bind_eq_ok_iff.1 h
  have hperm := visited_perm fields
  rw [lastOfEach_of_nodup hnodup] at hperm
  have hslots : ({} : DraftFields).addAll fields = .ok slots := by
    rw [addAll_eq_ok_iff hnodup, ← fillsAll_perm hperm hnodup, ← addAll_eq_ok_iff (nodup_visited _)]
    exact hvisited
  exact ShapedReader.whole_render (ShapedReader.draft_written hnames hslots hd [])

theorem command_ofText_eq_ok_iff {text : String} {c : Command} :
    Command.ofText text = .ok c ↔ ∃ d, Draft.ofText text = .ok d ∧ d.validate = .ok c := by
  simp only [Command.ofText, Draft.ofText, ShapedReader.whole_eq_ok_iff,
    ShapedReader.command_run_eq_ok_iff]
  constructor
  · rintro ⟨rest, e, ⟨d, hd, hc⟩, he⟩
    exact ⟨d, ⟨rest, e, hd, he⟩, hc⟩
  · rintro ⟨d, ⟨rest, e, hd, he⟩, hc⟩
    exact ⟨rest, e, ⟨d, hd, hc⟩, he⟩

end PlainNotes

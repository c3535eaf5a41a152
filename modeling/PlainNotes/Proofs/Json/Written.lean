import PlainNotes.Json.Reader
import PlainNotes.Json.Writer
import PlainNotes.Proofs.Json.Quoted

/-!
# Written values are read back

A value without numbers is read as what was written, as long as it is not nested too deep.

* `readValue_written`: one value with anything behind it, by one case for each kind of value.
* `items_written`, `fields_written`: the parts of a list and of an object, by induction over them.
* `ofText_render`: a whole text.
-/

namespace PlainNotes.Json

open Utf8 Reader

variable {α β : Type} {b : UInt8} {s t rest : List UInt8}

/-- A value without numbers in which lists and objects are nested at most so many times. -/
inductive Fits : Nat → Json → Prop
  | null (depth : Nat) : Fits depth .null
  | bool (depth : Nat) (value : Bool) : Fits depth (.bool value)
  | str (depth : Nat) (text : String) : Fits depth (.str text)
  | list {depth : Nat} {items : List Json} (hitems : ∀ x ∈ items, Fits depth x) :
      Fits (depth + 1) (.list items)
  | object {depth : Nat} {fields : List (String × Json)} (hfields : ∀ f ∈ fields, Fits depth f.2) :
      Fits (depth + 1) (.object fields)

/-! ## Steps of a reader -/

namespace Reader

theorem run_bind {ε : Type} {x : StateT (List UInt8) (Except ε) α}
    {f : α → StateT (List UInt8) (Except ε) β} {a : α} (h : x.run s = .ok (a, t)) :
    (x >>= f).run s = (f a).run t := by
  rw [StateT.run_bind, h]
  rfl

theorem run_pure {ε : Type} (a : α) :
    (pure a : StateT (List UInt8) (Except ε) α).run s = .ok (a, s) := rfl

theorem run_skip : skip.run (b :: s) = .ok ((), s) := rfl

theorem run_peek_eq (s : List UInt8) :
    peek.run s = .ok ((s.dropWhile isSpace).head?, s.dropWhile isSpace) := rfl

theorem run_peek (hb : isSpace b = false) : peek.run (b :: s) = .ok (some b, b :: s) := by
  rw [run_peek_eq, List.dropWhile_cons_of_neg (by simp [hb]), List.head?_cons]

theorem run_lift_eq (f : List UInt8 → Except Fault (α × List UInt8)) (s : List UInt8) :
    (lift f).run s = f s := by
  have hrun : (lift f).run s =
      (f s >>= fun r => pure (r, s)) >>= fun r => pure (r.1.1, r.1.2) := rfl
  rw [hrun]
  cases f s <;> rfl

theorem run_string (text : String) (rest : List UInt8) :
    string.run (encode (quotedString text) ++ rest) = .ok (text, rest) := by
  have hbytes : encode (quotedString text) ++ rest =
      byte '"' :: (encode (escaped text.toList) ++ byte '"' :: rest) := by
    rw [quotedString, List.cons_append, encode_cons, encode_append, List.append_assoc,
      List.append_assoc]
    rfl
  have hread := readString_escaped text.toList rest
  rw [String.ofList_toList] at hread
  rw [hbytes]
  exact (run_bind run_skip).trans ((run_lift_eq readString _).trans hread)

theorem run_colon (rest : List UInt8) : colon.run (byte ':' :: rest) = .ok ((), rest) :=
  run_bind (run_peek rfl)

end Reader

/-! ## Values without parts -/

/-- The first byte of a written value, which says what kind it is of. -/
theorem exists_head_written {depth : Nat} {value : Json} (h : Fits depth value) :
    ∃ b u, encode (written value) = b :: u ∧ isSpace b = false ∧ b ≠ byte ']' := by
  cases h with
  | null => exact ⟨byte 'n', _, rfl, rfl, by decide⟩
  | bool _ value =>
    cases value with
    | true => exact ⟨byte 't', _, rfl, rfl, by decide⟩
    | false => exact ⟨byte 'f', _, rfl, rfl, by decide⟩
  | str => exact ⟨byte '"', _, rfl, rfl, by decide⟩
  | list => exact ⟨byte '[', _, rfl, rfl, by decide⟩
  | object => exact ⟨byte '\x7b', _, rfl, rfl, by decide⟩

theorem readWith_null (nested : Option (Reader Json)) (rest : List UInt8) :
    (readWith nested).run (encode (written .null) ++ rest) = .ok (.null, rest) :=
  run_bind (run_peek rfl)

theorem readWith_bool (nested : Option (Reader Json)) (value : Bool) (rest : List UInt8) :
    (readWith nested).run (encode (written (.bool value)) ++ rest) = .ok (.bool value, rest) := by
  cases value <;> exact run_bind (run_peek rfl)

theorem readWith_str (nested : Option (Reader Json)) (text : String) (rest : List UInt8) :
    (readWith nested).run (encode (written (.str text)) ++ rest) = .ok (.str text, rest) := by
  have hstring := run_string text rest
  rw [written]
  refine (run_bind (a := some (byte '"')) (t := encode (quotedString text) ++ rest)
    (run_peek rfl)).trans ?_
  exact run_bind hstring

/-! ## Parts -/

/-- What stands before a part: a comma, but not before the first. -/
def separator (first : Bool) : List Char :=
  if first then [] else [',']

/-- The written parts of a list or of an object, from one of them on. -/
def partsFrom (part : α → List Char) : Bool → List α → List Char
  | _, [] => []
  | first, p :: ps => separator first ++ part p ++ partsFrom part false ps

def writtenField (f : String × Json) : List Char :=
  quotedString f.1 ++ ':' :: written f.2

/-- What writes a part without a comma and puts one before all that follow writes them from the
first on. -/
theorem eq_partsFrom {part : α → List Char} {write : List α → List Char} (hnil : write [] = [])
    (hone : ∀ p, write [p] = part p)
    (hmore : ∀ p q ps, write (p :: q :: ps) = part p ++ ',' :: write (q :: ps)) (ps : List α) :
    write ps = partsFrom part true ps := by
  induction ps with
  | nil => exact hnil
  | cons p ps ih =>
    cases ps with
    | nil => exact (hone p).trans (List.append_nil _).symm
    | cons q ps =>
      rw [hmore, ih]
      rfl

theorem writtenItems_eq (xs : List Json) : writtenItems xs = partsFrom written true xs :=
  eq_partsFrom (by rw [writtenItems]) (fun _ => by rw [writtenItems])
    (fun _ _ _ => by rw [writtenItems]) xs

theorem writtenFields_eq (fs : List (String × Json)) :
    writtenFields fs = partsFrom writtenField true fs :=
  eq_partsFrom (by rw [writtenFields]) (fun _ => by rw [writtenFields, writtenField])
    (fun _ _ _ => by rw [writtenFields, writtenField]) fs

/-- Parts take at least a byte each. -/
theorem length_le_partsFrom {part : α → List Char} (first : Bool) (ps : List α)
    (hpart : ∀ p ∈ ps, part p ≠ []) : ps.length ≤ (encode (partsFrom part first ps)).length := by
  induction ps generalizing first with
  | nil => exact Nat.zero_le _
  | cons p ps ih =>
    have hone := length_encode_pos (hpart p (by simp))
    have hrest := ih false fun q hq => hpart q (List.mem_cons_of_mem p hq)
    rw [partsFrom, encode_append, encode_append, List.length_append, List.length_append,
      List.length_cons]
    omega

theorem run_nextItem_end (first : Bool) :
    (nextItem first).run (byte ']' :: rest) = .ok (false, byte ']' :: rest) :=
  run_bind (run_peek rfl)

theorem run_nextItem (first : Bool) (hb : isSpace b = false) (hend : b ≠ byte ']') :
    (nextItem first).run (encode (separator first) ++ b :: s) = .ok (true, b :: s) := by
  cases first with
  | true =>
    refine (run_bind (run_peek hb)).trans ?_
    simp only [beq_iff_eq, if_neg hend]
    rfl
  | false =>
    refine (run_bind (run_peek (b := byte ',') rfl)).trans ?_
    refine (run_bind run_skip).trans ?_
    refine (run_bind (run_peek hb)).trans ?_
    simp only [beq_iff_eq, if_neg hend]
    rfl

theorem run_endList : endList.run (byte ']' :: rest) = .ok ((), rest) :=
  run_bind (run_peek rfl)

theorem run_nextField_end (first : Bool) :
    (nextField first).run (byte '\x7d' :: rest) = .ok (false, byte '\x7d' :: rest) :=
  run_bind (run_peek rfl)

theorem run_nextField (first : Bool) :
    (nextField first).run (encode (separator first) ++ byte '"' :: s) =
      .ok (true, byte '"' :: s) := by
  cases first with
  | true => exact run_bind (run_peek rfl)
  | false =>
    refine (run_bind (run_peek (b := byte ',') rfl)).trans ?_
    exact (run_bind run_skip).trans (run_bind (run_peek rfl))

/-- The items of a list are read one after the other, by induction over them. -/
theorem items_written {depth bound : Nat} {item : Reader Json} {xs : List Json}
    (hfits : ∀ x ∈ xs, Fits depth x)
    (hitem : ∀ x ∈ xs, ∀ rest, item.run (encode (written x) ++ rest) = .ok (x, rest))
    (hbound : xs.length < bound) (first : Bool) (rest : List UInt8) :
    (items item bound first).run (encode (partsFrom written first xs) ++ byte ']' :: rest) =
      .ok (xs, rest) := by
  induction xs generalizing bound first with
  | nil =>
    obtain ⟨bound, rfl⟩ : ∃ n, bound = n + 1 := ⟨bound - 1, by omega⟩
    exact (run_bind (run_nextItem_end first)).trans (run_bind run_endList)
  | cons x xs ih =>
    obtain ⟨bound, rfl⟩ : ∃ n, bound = n + 1 := ⟨bound - 1, by omega⟩
    obtain ⟨b, u, hhead, hspace, hend⟩ := exists_head_written (hfits x (by simp))
    have hnext : (nextItem first).run
        (encode (partsFrom written first (x :: xs)) ++ byte ']' :: rest) =
          .ok (true, encode (written x) ++
            (encode (partsFrom written false xs) ++ byte ']' :: rest)) := by
      rw [partsFrom, encode_append, encode_append, List.append_assoc, List.append_assoc, hhead]
      exact run_nextItem first hspace hend
    have hrest := ih (fun y hy => hfits y (List.mem_cons_of_mem x hy))
      (fun y hy => hitem y (List.mem_cons_of_mem x hy)) (Nat.lt_of_succ_lt_succ hbound) false
    refine (run_bind hnext).trans ?_
    refine (run_bind (hitem x (by simp) _)).trans ?_
    exact run_bind hrest

/-- The fields of an object are read one after the other, by induction over them. -/
theorem fields_written {bound : Nat} {value : Reader Json} {fs : List (String × Json)}
    (hvalue : ∀ f ∈ fs, ∀ rest, value.run (encode (written f.2) ++ rest) = .ok (f.2, rest))
    (hbound : fs.length < bound) (first : Bool) (rest : List UInt8) :
    (fields value bound first).run
        (encode (partsFrom writtenField first fs) ++ byte '\x7d' :: rest) =
      .ok (fs, rest) := by
  induction fs generalizing bound first with
  | nil =>
    obtain ⟨bound, rfl⟩ : ∃ n, bound = n + 1 := ⟨bound - 1, by omega⟩
    exact (run_bind (run_nextField_end first)).trans (run_bind run_skip)
  | cons f fs ih =>
    obtain ⟨bound, rfl⟩ : ∃ n, bound = n + 1 := ⟨bound - 1, by omega⟩
    have hnext : (nextField first).run
        (encode (partsFrom writtenField first (f :: fs)) ++ byte '\x7d' :: rest) =
          .ok (true, encode (quotedString f.1) ++ byte ':' :: (encode (written f.2) ++
            (encode (partsFrom writtenField false fs) ++ byte '\x7d' :: rest))) := by
      simp only [partsFrom, writtenField, encode_append, List.append_assoc]
      exact run_nextField first
    have hrest := ih (fun g hg => hvalue g (List.mem_cons_of_mem f hg))
      (Nat.lt_of_succ_lt_succ hbound) false
    refine (run_bind hnext).trans ?_
    refine (run_bind (run_string f.1 _)).trans ?_
    refine (run_bind (run_colon _)).trans ?_
    refine (run_bind (hvalue f (by simp) _)).trans ?_
    exact run_bind hrest

/-! ## Whole values -/

theorem run_partsLeft : partsLeft.run s = .ok (s.length + 1, s) := rfl

theorem readWith_list {nested : Reader Json} {depth : Nat} {xs : List Json}
    (hfits : ∀ x ∈ xs, Fits depth x)
    (hnested : ∀ x ∈ xs, ∀ rest, nested.run (encode (written x) ++ rest) = .ok (x, rest))
    (rest : List UInt8) :
    (readWith (some nested)).run (encode (written (.list xs)) ++ rest) = .ok (.list xs, rest) := by
  have hbytes : encode (written (.list xs)) ++ rest =
      byte '[' :: (encode (partsFrom written true xs) ++ byte ']' :: rest) := by
    simp only [written, writtenItems_eq, encode_append, List.append_assoc, List.cons_append,
      encode_cons]
    rfl
  have hne : ∀ x ∈ xs, written x ≠ [] := by
    intro x hx hnil
    obtain ⟨b, u, hhead, -⟩ := exists_head_written (hfits x hx)
    rw [hnil, encode_nil] at hhead
    cases hhead
  have hbound : xs.length <
      (encode (partsFrom written true xs) ++ byte ']' :: rest).length + 1 := by
    have hparts := length_le_partsFrom true xs hne
    rw [List.length_append]
    omega
  rw [hbytes]
  refine (run_bind (run_peek rfl)).trans ?_
  refine (run_bind (run_pure nested)).trans ?_
  refine (run_bind run_skip).trans ?_
  refine (run_bind run_partsLeft).trans ?_
  exact run_bind (items_written hfits hnested hbound true rest)

theorem readWith_object {nested : Reader Json} {fs : List (String × Json)}
    (hnested : ∀ f ∈ fs, ∀ rest, nested.run (encode (written f.2) ++ rest) = .ok (f.2, rest))
    (rest : List UInt8) :
    (readWith (some nested)).run (encode (written (.object fs)) ++ rest) =
      .ok (.object fs, rest) := by
  have hbytes : encode (written (.object fs)) ++ rest =
      byte '\x7b' :: (encode (partsFrom writtenField true fs) ++ byte '\x7d' :: rest) := by
    simp only [written, writtenFields_eq, encode_append, List.append_assoc, List.cons_append,
      encode_cons]
    rfl
  have hne : ∀ f ∈ fs, writtenField f ≠ [] := fun f _ => List.cons_ne_nil _ _
  have hbound : fs.length <
      (encode (partsFrom writtenField true fs) ++ byte '\x7d' :: rest).length + 1 := by
    have hparts := length_le_partsFrom true fs hne
    rw [List.length_append]
    omega
  rw [hbytes]
  refine (run_bind (run_peek rfl)).trans ?_
  refine (run_bind (run_pure nested)).trans ?_
  refine (run_bind run_skip).trans ?_
  refine (run_bind run_partsLeft).trans ?_
  exact run_bind (fields_written hnested hbound true rest)

/-- What is written is read back, with anything behind it. The parts of a value are read one level
deeper, so the induction is on how the value fits. -/
theorem readValue_written {depth : Nat} {value : Json} (h : Fits depth value)
    (rest : List UInt8) :
    (readValue depth).run (encode (written value) ++ rest) = .ok (value, rest) := by
  induction h generalizing rest with
  | null depth => cases depth <;> exact readWith_null _ rest
  | bool depth value => cases depth <;> exact readWith_bool _ value rest
  | str depth text => cases depth <;> exact readWith_str _ text rest
  | list hitems ih => exact readWith_list hitems ih rest
  | object hfields ih => exact readWith_object ih rest

theorem ofBytes_of_readValue {value : Json} (h : (readValue depthLimit).run s = .ok (value, [])) :
    ofBytes s = .ok value := by
  have hend : readEnd.run [] = .ok ((), []) := rfl
  have hall := (run_bind (f := fun value => readEnd >>= fun _ => pure value) h).trans
    (run_bind hend)
  exact congrArg (Except.map Prod.fst) hall

theorem ofBytes_written {value : Json} (h : Fits depthLimit value) :
    ofBytes (encode (written value)) = .ok value := by
  have hread := readValue_written h []
  rw [List.append_nil] at hread
  exact ofBytes_of_readValue hread

theorem ofText_render {value : Json} (h : Fits depthLimit value) :
    ofText (render value) = .ok value := by
  rw [ofText, render, String.toList_ofList]
  exact ofBytes_written h

end PlainNotes.Json

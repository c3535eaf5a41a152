import PlainNotes.Proofs.Json.Quoted

/-!
# How strings are spelled

The bytes of a string as they stand between its quotes, and the bytes that are read from them.  Each
part of a spelling is at least as long as what it stands for, and only escapes stand for anything
but themselves.

* `exists_spelling_of_readChars`, by the recursion of the reading, and `Spelling.readChars_eq`, by the
  parts of a spelling.
* `readString_eq_ok_iff`: what is read is what is spelled.
* `Spelling.length_le`, `Spelling.eq_of_not_mem`: long spellings, and those without escapes.
* `SpelledIn`: texts that are spelled somewhere in bytes.
-/

namespace PlainNotes.Json

open Utf8

variable {s t u v rest : List UInt8} {text : String}

/-! ## Spellings -/

/-- Bytes between quotes that stand for bytes: one part after the other, which is either a plain byte
or an escape of one letter, of one number or of two numbers for one character. -/
inductive Spelling : List UInt8 → List UInt8 → Prop
  | nil : Spelling [] []
  | plain {b : UInt8} {v u : List UInt8} (hb : isPlainByte b = true) (h : Spelling v u) :
      Spelling (b :: v) (b :: u)
  | letter {e x : UInt8} {v u : List UInt8} (he : shortEscape? e = some x) (h : Spelling v u) :
      Spelling (byte '\\' :: e :: v) (x :: u)
  | number {h₁ h₂ h₃ h₄ : UInt8} {n : Nat} {v u : List UInt8} (hn : hex4? h₁ h₂ h₃ h₄ = some n)
      (hlow : isLowSurrogate n = false) (hhigh : isHighSurrogate n = false) (h : Spelling v u) :
      Spelling (byte '\\' :: byte 'u' :: h₁ :: h₂ :: h₃ :: h₄ :: v) (encodeChar (Char.ofNat n) ++ u)
  | pair {h₁ h₂ h₃ h₄ l₁ l₂ l₃ l₄ : UInt8} {n m : Nat} {v u : List UInt8}
      (hn : hex4? h₁ h₂ h₃ h₄ = some n) (hhigh : isHighSurrogate n = true)
      (hm : hex4? l₁ l₂ l₃ l₄ = some m) (hlow : isLowSurrogate m = true) (h : Spelling v u) :
      Spelling (byte '\\' :: byte 'u' :: h₁ :: h₂ :: h₃ :: h₄ ::
        byte '\\' :: byte 'u' :: l₁ :: l₂ :: l₃ :: l₄ :: v) (encodeChar (joinSurrogates n m) ++ u)

theorem length_encodeChar_le (c : Char) : (encodeChar c).length ≤ 4 := by
  unfold encodeChar
  simp only
  split
  · simp
  split
  · simp
  split <;> simp

theorem Spelling.length_le (h : Spelling v u) : u.length ≤ v.length := by
  induction h with
  | nil => exact Nat.le_refl _
  | plain hb h ih => exact Nat.succ_le_succ ih
  | letter he h ih => exact Nat.le_succ_of_le (Nat.succ_le_succ ih)
  | number hn hlow hhigh h ih =>
    rw [List.length_append]
    refine Nat.le_trans (Nat.add_le_add (length_encodeChar_le _) ih) ?_
    simp only [List.length_cons]
    omega
  | pair hn hhigh hm hlow h ih =>
    rw [List.length_append]
    refine Nat.le_trans (Nat.add_le_add (length_encodeChar_le _) ih) ?_
    simp only [List.length_cons]
    omega

/-- Without backslashes all bytes stand for themselves. -/
theorem Spelling.eq_of_not_mem (h : Spelling v u) (hslash : byte '\\' ∉ v) : v = u := by
  induction h with
  | nil => rfl
  | plain hb h ih => rw [ih fun hmem => hslash (List.mem_cons_of_mem _ hmem)]
  | _ => exact absurd List.mem_cons_self hslash

/-- Plain bytes spell themselves. -/
theorem Spelling.refl (h : ∀ b ∈ v, isPlainByte b = true) : Spelling v v := by
  induction v with
  | nil => exact .nil
  | cons b v ih => exact .plain (h b (by simp)) (ih fun x hx => h x (List.mem_cons_of_mem b hx))

/-! ## Reading -/

theorem putBefore_eq_ok_iff {w : List UInt8} {read : Except Fault (List UInt8 × List UInt8)} :
    putBefore w read = .ok (u, rest) ↔ ∃ u', u = w ++ u' ∧ read = .ok (u', rest) := by
  cases read with
  | error fault => simp [putBefore, Except.map]
  | ok r =>
    obtain ⟨u', rest'⟩ := r
    simp only [putBefore, Except.map, Except.ok.injEq, Prod.mk.injEq]
    constructor
    · rintro ⟨rfl, rfl⟩
      exact ⟨u', rfl, rfl, rfl⟩
    · rintro ⟨u', rfl, rfl, rfl⟩
      exact ⟨rfl, rfl⟩

/-- The bytes that are read of a string are spelled up to its closing quote.  The cases are those of
the reading; all but five of them are faults. -/
theorem exists_spelling_of_readChars (h : readChars s = .ok (u, rest)) :
    ∃ v, Spelling v u ∧ s = v ++ byte '"' :: rest := by
  fun_induction readChars s generalizing u with
  | case2 b s hquote =>
    cases h
    rw [beq_iff_eq] at hquote
    exact ⟨[], .nil, by rw [hquote]; rfl⟩
  | case4 b s hquote hlow hslash ih =>
    obtain ⟨u, rfl, hread⟩ := putBefore_eq_ok_iff.1 h
    obtain ⟨v, hv, rfl⟩ := ih hread
    have hb : isPlainByte b = true := by
      rw [isPlainByte, Bool.and_eq_true, Bool.and_eq_true, decide_eq_true_eq, bne, Bool.not_eq_true']
      exact ⟨⟨UInt8.not_lt.1 hlow, Bool.eq_false_iff.2 hquote⟩, hslash⟩
    exact ⟨b :: v, .plain hb hv, rfl⟩
  | case7 b hquote hlow hslash e t he x hx ih =>
    obtain ⟨u, rfl, hread⟩ := putBefore_eq_ok_iff.1 h
    obtain ⟨v, hv, rfl⟩ := ih hread
    obtain rfl : b = byte '\\' := by simpa using hslash
    exact ⟨_, .letter hx hv, rfl⟩
  | case10 b hquote hlow hslash e he h₁ h₂ h₃ h₄ s n hn hlow' hhigh ih =>
    obtain ⟨u, rfl, hread⟩ := putBefore_eq_ok_iff.1 h
    obtain ⟨v, hv, rfl⟩ := ih hread
    obtain rfl : b = byte '\\' := by simpa using hslash
    obtain rfl : e = byte 'u' := by simpa using he
    rw [Bool.not_eq_true] at hlow'
    rw [Bool.not_eq_true'] at hhigh
    exact ⟨_, .number hn hlow' hhigh hv, rfl⟩
  | case15 b hquote hlow hslash e he h₁ h₂ h₃ h₄ n hn hlow' hhigh b₁ b₂ hmark l₁ l₂ l₃ l₄ s m hm
      hpair ih =>
    obtain ⟨u', hu, hread⟩ := putBefore_eq_ok_iff.1 h
    obtain ⟨v, hv, rfl⟩ := ih hread
    rw [hu]
    obtain rfl : b = byte '\\' := by simpa using hslash
    obtain rfl : e = byte 'u' := by simpa using he
    obtain ⟨rfl, rfl⟩ : b₁ = byte '\\' ∧ b₂ = byte 'u' := by simpa using hmark
    rw [Bool.not_eq_true', Bool.not_eq_false] at hhigh
    exact ⟨_, .pair hn hhigh hm hpair hv, rfl⟩
  | _ => cases h

theorem not_isLowSurrogate_of_isHighSurrogate {n : Nat} (h : isHighSurrogate n = true) :
    isLowSurrogate n = false := by
  simp only [isHighSurrogate, Bool.and_eq_true, decide_eq_true_eq] at h
  simp only [isLowSurrogate, Bool.and_eq_false_iff, decide_eq_false_iff_not]
  omega

theorem readChars_pairEscape {h₁ h₂ h₃ h₄ l₁ l₂ l₃ l₄ : UInt8} {n m : Nat}
    (hn : hex4? h₁ h₂ h₃ h₄ = some n) (hhigh : isHighSurrogate n = true)
    (hm : hex4? l₁ l₂ l₃ l₄ = some m) (hlow : isLowSurrogate m = true) (rest : List UInt8) :
    readChars (byte '\\' :: byte 'u' :: h₁ :: h₂ :: h₃ :: h₄ ::
        byte '\\' :: byte 'u' :: l₁ :: l₂ :: l₃ :: l₄ :: rest) =
      putBefore (encodeChar (joinSurrogates n m)) (readChars rest) := by
  have hfirst := not_isLowSurrogate_of_isHighSurrogate hhigh
  rw [readChars.eq_def]
  dsimp only
  rw [if_neg (by decide), if_neg (by decide), if_neg (by decide), if_neg (by decide), hn]
  dsimp only
  rw [hfirst, hhigh, if_neg Bool.false_ne_true, if_neg (by decide), if_neg (by decide), hm]
  dsimp only
  rw [if_pos hlow]

/-- What is spelled is read, by the rule for each part. -/
theorem Spelling.readChars_eq (h : Spelling v u) (rest : List UInt8) :
    readChars (v ++ byte '"' :: rest) = .ok (u, rest) := by
  induction h with
  | nil =>
    rw [readChars.eq_def]
    rfl
  | plain hb h ih =>
    refine (readChars_plainByte hb _).trans ?_
    exact putBefore_eq_ok_iff.2 ⟨_, rfl, ih⟩
  | letter he h ih =>
    refine (readChars_shortEscape ?_ he _).trans ?_
    · rintro rfl
      cases he
    · exact putBefore_eq_ok_iff.2 ⟨_, rfl, ih⟩
  | number hn hlow hhigh h ih =>
    refine (readChars_hexEscape hn hlow hhigh _).trans ?_
    exact putBefore_eq_ok_iff.2 ⟨_, rfl, ih⟩
  | pair hn hhigh hm hlow h ih =>
    refine (readChars_pairEscape hn hhigh hm hlow _).trans ?_
    exact putBefore_eq_ok_iff.2 ⟨_, rfl, ih⟩

/-- A string is read exactly if a spelling of its text stands in front of a quote. -/
theorem readString_eq_ok_iff :
    readString s = .ok (text, rest) ↔
      ∃ v, Spelling v (encode text.toList) ∧ s = v ++ byte '"' :: rest := by
  constructor
  · intro h
    rw [readString] at h
    cases hread : readChars s with
    | error fault =>
      rw [hread] at h
      cases h
    | ok r =>
      obtain ⟨u, rest'⟩ := r
      obtain ⟨v, hv, rfl⟩ := exists_spelling_of_readChars hread
      rw [hread] at h
      simp only [bind, Except.bind] at h
      split at h
      case h_1 chars hchars =>
        cases h
        rw [decode?_eq_some_iff.1 hchars, ← String.toList_ofList (l := chars)] at hv
        exact ⟨v, hv, rfl⟩
      case h_2 => cases h
  · rintro ⟨v, hv, rfl⟩
    simp only [readString, hv.readChars_eq, bind, Except.bind, decode?_encode,
      String.ofList_toList]
    rfl

/-! ## Texts that are spelled in bytes -/

/-- The text is spelled between two quotes. -/
def SpelledIn (s : List UInt8) (text : String) : Prop :=
  ∃ front v back, s = front ++ byte '"' :: (v ++ byte '"' :: back) ∧
    Spelling v (encode text.toList)

theorem SpelledIn.of_suffix (h : SpelledIn t text) (hsuffix : t <:+ s) : SpelledIn s text := by
  obtain ⟨front, v, back, rfl, hv⟩ := h
  obtain ⟨more, rfl⟩ := hsuffix
  exact ⟨more ++ front, v, back, (List.append_assoc _ _ _).symm, hv⟩

theorem SpelledIn.length_lt (h : SpelledIn s text) : (encode text.toList).length < s.length := by
  obtain ⟨front, v, back, rfl, hv⟩ := h
  have hle := hv.length_le
  simp only [List.length_append, List.length_cons]
  omega

theorem spelledIn_of_readString (h : readString s = .ok (text, rest)) :
    SpelledIn (byte '"' :: s) text ∧ rest <:+ s := by
  obtain ⟨v, hv, rfl⟩ := readString_eq_ok_iff.1 h
  exact ⟨⟨[], v, rest, rfl, hv⟩, ⟨v ++ [byte '"'], by simp⟩⟩

end PlainNotes.Json

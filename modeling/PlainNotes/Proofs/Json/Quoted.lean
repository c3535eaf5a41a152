import PlainNotes.Json.Quoted
import PlainNotes.Proofs.Text.Ascii

/-!
# Strings come back

A string is read as the text that was written.

* `readChars_plain`: bytes without quotes, backslashes and control characters stand for themselves.
* `readChars_escapedChar`: a character is read from what it is written as, by one case for each kind
  of escape.
* `readString_escaped`: the whole of a string.
-/

namespace PlainNotes.Json

open Utf8

variable {u rest : List UInt8} {b : UInt8} {c : Char}

/-! ## Bytes that stand for themselves -/

/-- A byte that stands for itself in a string. -/
def isPlainByte (b : UInt8) : Bool :=
  0x20 ≤ b && b != byte '"' && b != byte '\\'

theorem putBefore_nil (read : Except Fault (List UInt8 × List UInt8)) :
    putBefore [] read = read := by
  cases read <;> rfl

theorem putBefore_append (u v : List UInt8) (read : Except Fault (List UInt8 × List UInt8)) :
    putBefore u (putBefore v read) = putBefore (u ++ v) read := by
  cases read with
  | error fault => rfl
  | ok r => simp [putBefore, Except.map]

theorem readChars_plainByte (h : isPlainByte b = true) (rest : List UInt8) :
    readChars (b :: rest) = putBefore [b] (readChars rest) := by
  simp only [isPlainByte, Bool.and_eq_true, decide_eq_true_eq, bne_iff_ne, ne_eq] at h
  obtain ⟨⟨hlow, hquote⟩, hslash⟩ := h
  rw [readChars.eq_def]
  simp [hquote, hslash, UInt8.not_lt.2 hlow]

theorem readChars_plain (h : ∀ b ∈ u, isPlainByte b = true) (rest : List UInt8) :
    readChars (u ++ rest) = putBefore u (readChars rest) := by
  induction u with
  | nil => rw [List.nil_append, putBefore_nil]
  | cons b u ih =>
    rw [List.cons_append, readChars_plainByte (h b (by simp)),
      ih fun x hx => h x (List.mem_cons_of_mem b hx), putBefore_append, List.singleton_append]

theorem isPlainByte_iff :
    isPlainByte b = true ↔ 0x20 ≤ b.toNat ∧ b.toNat ≠ 0x22 ∧ b.toNat ≠ 0x5c := by
  have hquote : b = byte '"' ↔ b.toNat = 0x22 := UInt8.toNat_inj.symm
  have hslash : b = byte '\\' ↔ b.toNat = 0x5c := UInt8.toNat_inj.symm
  simp only [isPlainByte, Bool.and_eq_true, decide_eq_true_eq, bne_iff_ne, ne_eq, hquote, hslash,
    UInt8.le_iff_toNat_le, and_assoc]
  rfl

/-- A character that needs no escape has plain bytes: those of ASCII because it is none of the
excluded ones, the others because they are above all of these. -/
theorem isPlainByte_of_mem_encodeChar (hlow : 0x20 ≤ c.toNat) (hquote : c ≠ '"') (hslash : c ≠ '\\')
    (hb : b ∈ encodeChar c) : isPlainByte b = true := by
  have hq : c.toNat ≠ 0x22 := fun h => hquote (Char.toNat_inj.1 h)
  have hs : c.toNat ≠ 0x5c := fun h => hslash (Char.toNat_inj.1 h)
  rw [isPlainByte_iff]
  by_cases hascii : c.toNat < 0x80
  · rw [encodeChar_of_lt hascii] at hb
    rw [List.mem_singleton.1 hb, toNat_ofNat_of_lt (Nat.lt_trans hascii (by decide))]
    exact ⟨hlow, hq, hs⟩
  · have hhigh := le_of_mem_encodeChar (Nat.le_of_not_lt hascii) hb
    omega

/-! ## Escapes -/

theorem readChars_shortEscape {e x : UInt8} (hu : e ≠ byte 'u') (he : shortEscape? e = some x)
    (rest : List UInt8) : readChars (byte '\\' :: e :: rest) = putBefore [x] (readChars rest) := by
  rw [readChars.eq_def]
  dsimp only
  rw [if_neg (by decide), if_neg (by decide), if_neg (by decide), if_pos (bne_iff_ne.2 hu), he]

theorem readChars_hexEscape {h₁ h₂ h₃ h₄ : UInt8} {n : Nat} (hn : hex4? h₁ h₂ h₃ h₄ = some n)
    (hlow : isLowSurrogate n = false) (hhigh : isHighSurrogate n = false) (rest : List UInt8) :
    readChars (byte '\\' :: byte 'u' :: h₁ :: h₂ :: h₃ :: h₄ :: rest) =
      putBefore (encodeChar (Char.ofNat n)) (readChars rest) := by
  rw [readChars.eq_def]
  dsimp only
  rw [if_neg (by decide), if_neg (by decide), if_neg (by decide), if_neg (by decide), hn]
  simp [hlow, hhigh]

/-- The digits of a control character, as they are written and as they are read. -/
theorem hexDigits_of_lt : ∀ n < 0x20,
    encode ['\\', 'u', '0', '0', hexDigit (n / 16), hexDigit (n % 16)] =
      [byte '\\', byte 'u', byte '0', byte '0', byte (hexDigit (n / 16)),
        byte (hexDigit (n % 16))] ∧
    hex4? (byte '0') (byte '0') (byte (hexDigit (n / 16))) (byte (hexDigit (n % 16))) = some n ∧
    isLowSurrogate n = false ∧ isHighSurrogate n = false := by
  decide

/-- The characters with an escape of one letter. -/
def lettered : List Char :=
  ['"', '\\', '\n', '\r', '\t', Char.ofNat 8, Char.ofNat 12]

theorem escapedChar_of_lettered (h : c ∈ lettered) :
    ∃ e, encode (escapedChar c) = [byte '\\', e] ∧ e ≠ byte 'u' ∧
      shortEscape? e = some (byte c) ∧ encodeChar c = [byte c] := by
  simp only [lettered, List.mem_cons, List.not_mem_nil, or_false] at h
  rcases h with rfl | rfl | rfl | rfl | rfl | rfl | rfl
  all_goals exact ⟨_, rfl, by decide, rfl, rfl⟩

/-- Other characters are written with four digits if they are control characters, and else as they
are. -/
theorem escapedChar_of_not_lettered (h : c ∉ lettered) :
    escapedChar c =
      if c.toNat < 0x20 then
        ['\\', 'u', '0', '0', hexDigit (c.toNat / 16), hexDigit (c.toNat % 16)]
      else [c] := by
  simp only [lettered, List.mem_cons, List.not_mem_nil, or_false, not_or] at h
  obtain ⟨hquote, hslash, hfeed, hreturn, htab, hback, hform⟩ := h
  have hback' : c.toNat ≠ 8 := fun hc => hback (by rw [← hc, Char.ofNat_toNat])
  have hform' : c.toNat ≠ 12 := fun hc => hform (by rw [← hc, Char.ofNat_toNat])
  rw [escapedChar, if_neg hquote, if_neg hslash, if_neg hfeed, if_neg hreturn, if_neg htab,
    if_neg hback', if_neg hform']

theorem readChars_escapedChar (c : Char) (rest : List UInt8) :
    readChars (encode (escapedChar c) ++ rest) = putBefore (encodeChar c) (readChars rest) := by
  by_cases hletter : c ∈ lettered
  · obtain ⟨e, hencode, hu, he, hchar⟩ := escapedChar_of_lettered hletter
    rw [hencode, hchar]
    exact readChars_shortEscape hu he rest
  rw [escapedChar_of_not_lettered hletter]
  by_cases hcontrol : c.toNat < 0x20
  · obtain ⟨hencode, hread, hlow, hhigh⟩ := hexDigits_of_lt c.toNat hcontrol
    rw [if_pos hcontrol, hencode]
    refine (readChars_hexEscape hread hlow hhigh rest).trans ?_
    rw [Char.ofNat_toNat]
  · have hquote : c ≠ '"' := by
      rintro rfl
      exact hletter (by decide)
    have hslash : c ≠ '\\' := by
      rintro rfl
      exact hletter (by decide)
    have hplain : ∀ b ∈ encodeChar c, isPlainByte b = true := fun b hb =>
      isPlainByte_of_mem_encodeChar (Nat.le_of_not_lt hcontrol) hquote hslash hb
    rw [if_neg hcontrol, encode_cons, encode_nil, List.append_nil]
    exact readChars_plain hplain rest

/-! ## Whole strings -/

theorem readChars_escaped (s : List Char) (rest : List UInt8) :
    readChars (encode (escaped s) ++ byte '"' :: rest) = .ok (encode s, rest) := by
  induction s with
  | nil => rw [readChars.eq_def]; rfl
  | cons c s ih =>
    rw [escaped, List.flatMap_cons, encode_append, List.append_assoc, readChars_escapedChar]
    refine (congrArg (putBefore (encodeChar c)) ih).trans ?_
    rw [encode_cons]
    rfl

theorem readString_escaped (s : List Char) (rest : List UInt8) :
    readString (encode (escaped s) ++ byte '"' :: rest) = .ok (String.ofList s, rest) := by
  simp only [readString, readChars_escaped, bind, Except.bind, decode?_encode]
  rfl

end PlainNotes.Json

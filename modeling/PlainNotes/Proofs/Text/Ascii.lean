import PlainNotes.Text.Utf8

/-!
# Characters of ASCII among bytes

A character of ASCII is a byte, and its byte stands in no other character, so that texts can be cut
at such bytes without a look at what is around them.

* `exists_split_of_encode`: a byte of ASCII is a character between two texts.
* `exists_append_of_encode`: bytes of a text in front are the text in front.
-/

namespace PlainNotes.Utf8

variable {c : Char} {b : UInt8} {s w : List Char} {u v : List UInt8}

theorem encodeChar_of_lt (h : c.toNat < 0x80) : encodeChar c = [UInt8.ofNat c.toNat] :=
  if_pos h

/-- All bytes of a character that is not of ASCII are above those of ASCII. -/
theorem le_of_mem_encodeChar (h : 0x80 ≤ c.toNat) (hb : b ∈ encodeChar c) : 0x80 ≤ b.toNat := by
  have hc : c.toNat < 0xd800 ∨ 0xdfff < c.toNat ∧ c.toNat < 0x110000 := c.valid
  have hhigh : ∀ n, 0x80 ≤ n → n < 256 → 0x80 ≤ (UInt8.ofNat n).toNat := by
    intro n hlow hn
    rwa [toNat_ofNat_of_lt hn]
  unfold encodeChar at hb
  simp only at hb
  rw [if_neg (by omega)] at hb
  split at hb
  · simp only [List.mem_cons, List.not_mem_nil, or_false] at hb
    rcases hb with rfl | rfl
    all_goals apply hhigh <;> omega
  split at hb
  · simp only [List.mem_cons, List.not_mem_nil, or_false] at hb
    rcases hb with rfl | rfl | rfl
    all_goals apply hhigh <;> omega
  · simp only [List.mem_cons, List.not_mem_nil, or_false] at hb
    rcases hb with rfl | rfl | rfl | rfl
    all_goals apply hhigh <;> omega

/-- A byte of ASCII stands in no character but its own. -/
theorem toNat_eq_of_mem_encodeChar (hb : b.toNat < 0x80) (h : b ∈ encodeChar c) :
    c.toNat = b.toNat ∧ encodeChar c = [b] := by
  have hc : c.toNat < 0x80 := by
    rw [← Nat.not_le]
    intro hc
    exact absurd (le_of_mem_encodeChar hc h) (Nat.not_le.2 hb)
  rw [encodeChar_of_lt hc] at h ⊢
  obtain rfl := List.mem_singleton.1 h
  exact ⟨(toNat_ofNat_of_lt (Nat.lt_trans hc (by decide))).symm, rfl⟩

/-- Bytes are cut at a byte of ASCII as the text is cut at its character. -/
theorem exists_split_of_encode (hb : b.toNat < 0x80) (h : encode s = u ++ b :: v) :
    ∃ before c after, s = before ++ c :: after ∧ encode before = u ∧ c.toNat = b.toNat ∧
      encode after = v := by
  induction s generalizing u with
  | nil => simp at h
  | cons c s ih =>
    rw [encode_cons] at h
    rcases List.append_eq_append_iff.1 h with ⟨u', rfl, hs⟩ | ⟨v', hc, hv⟩
    · obtain ⟨before, d, after, rfl, rfl, hd, hafter⟩ := ih hs
      exact ⟨c :: before, d, after, rfl, encode_cons c before, hd, hafter⟩
    · cases v' with
      | nil =>
        rw [List.append_nil] at hc
        obtain ⟨before, d, after, rfl, hbefore, hd, hafter⟩ := ih (u := []) hv.symm
        refine ⟨c :: before, d, after, rfl, ?_, hd, hafter⟩
        rw [encode_cons, hbefore, List.append_nil, hc]
      | cons b' v' =>
        obtain ⟨rfl, rfl⟩ := List.cons.inj hv
        obtain ⟨hd, hone⟩ := toNat_eq_of_mem_encodeChar (c := c) hb (by simp [hc])
        rw [hone] at hc
        cases u with
        | nil =>
          obtain ⟨-, rfl⟩ := List.cons.inj hc
          exact ⟨[], c, s, rfl, rfl, hd, rfl⟩
        | cons x u => simp at hc

/-- The bytes of a text are the front of no others but those of texts that go on from it. -/
theorem exists_append_of_encode (h : encode s = encode w ++ v) :
    ∃ after, s = w ++ after ∧ encode after = v := by
  induction w generalizing s with
  | nil => exact ⟨s, rfl, h⟩
  | cons c w ih =>
    have hunits := congrArg units h
    rw [encode_cons, List.append_assoc, units_encodeChar_append, units_encode] at hunits
    obtain ⟨t, rfl, -⟩ := exists_cons_of_map hunits.symm
    rw [encode_cons, encode_cons, List.append_assoc, List.append_cancel_left_eq] at h
    obtain ⟨after, rfl, hafter⟩ := ih h
    exact ⟨after, rfl, hafter⟩

end PlainNotes.Utf8

/-!
# UTF-8

Text as bytes and back. Bytes that are no text are read in one of two ways: `decode?` refuses them,
and `decodeLossy` puts the replacement character in the place of each maximal ill-formed part.

- `units_encode` says that nothing ill-formed is found in what `encode` writes;
- `decode?_encode` and `decodeLossy_encode` follow from it;
- `decode?_eq_some_iff` says that what is read as a text is what the text is written as.
-/

namespace PlainNotes.Utf8

def encodeChar (c : Char) : List UInt8 :=
  let n := c.toNat
  if n < 0x80 then [UInt8.ofNat n]
  else if n < 0x800 then [UInt8.ofNat (0xc0 + n / 64), UInt8.ofNat (0x80 + n % 64)]
  else if n < 0x10000 then
    [UInt8.ofNat (0xe0 + n / 4096), UInt8.ofNat (0x80 + n / 64 % 64), UInt8.ofNat (0x80 + n % 64)]
  else
    [UInt8.ofNat (0xf0 + n / 262144), UInt8.ofNat (0x80 + n / 4096 % 64),
      UInt8.ofNat (0x80 + n / 64 % 64), UInt8.ofNat (0x80 + n % 64)]

def encode (s : List Char) : List UInt8 :=
  s.flatMap encodeChar

/-- The bytes that can stand second behind a leading byte. Behind four leading bytes they are fewer
than elsewhere, so that no character has a longer form and none is a surrogate. -/
def isSecond (lead b : Nat) : Bool :=
  let low := if lead = 0xe0 then 0xa0 else if lead = 0xf0 then 0x90 else 0x80
  let high := if lead = 0xed then 0x9f else if lead = 0xf4 then 0x8f else 0xbf
  low ≤ b && b ≤ high

/-- The bytes that can stand third or fourth. -/
def isTail (b : Nat) : Bool :=
  0x80 ≤ b && b ≤ 0xbf

def join2 (a b : UInt8) : Char :=
  Char.ofNat ((a.toNat - 0xc0) * 64 + (b.toNat - 0x80))

def join3 (a b c : UInt8) : Char :=
  Char.ofNat ((a.toNat - 0xe0) * 4096 + (b.toNat - 0x80) * 64 + (c.toNat - 0x80))

def join4 (a b c d : UInt8) : Char :=
  Char.ofNat ((a.toNat - 0xf0) * 262144 + (b.toNat - 0x80) * 4096 + (c.toNat - 0x80) * 64 +
    (d.toNat - 0x80))

/-- Reads bytes as characters and, in their places, maximal ill-formed parts. Such a part is the
longest beginning of the bytes of a character, or else one byte. -/
def units : List UInt8 → List (Option Char)
  | [] => []
  | a :: s =>
    if a.toNat < 0x80 then some (Char.ofNat a.toNat) :: units s
    else if a.toNat < 0xc2 || 0xf4 < a.toNat then none :: units s
    else
      match s with
      | [] => [none]
      | b :: t =>
        if !isSecond a.toNat b.toNat then none :: units (b :: t)
        else if a.toNat < 0xe0 then some (join2 a b) :: units t
        else
          match t with
          | [] => [none]
          | c :: u =>
            if !isTail c.toNat then none :: units (c :: u)
            else if a.toNat < 0xf0 then some (join3 a b c) :: units u
            else
              match u with
              | [] => [none]
              | d :: v =>
                if !isTail d.toNat then none :: units (d :: v)
                else some (join4 a b c d) :: units v

/-- The text of bytes, if they are well-formed throughout. -/
def decode? (bytes : List UInt8) : Option (List Char) :=
  (units bytes).mapM id

/-- The text of bytes, with a replacement character for each ill-formed part. -/
def decodeLossy (bytes : List UInt8) : List Char :=
  (units bytes).map (·.getD '\ufffd')

@[simp] theorem encode_nil : encode [] = [] := rfl

@[simp] theorem encode_cons (c : Char) (s : List Char) :
    encode (c :: s) = encodeChar c ++ encode s :=
  List.flatMap_cons

@[simp] theorem encode_append (s t : List Char) : encode (s ++ t) = encode s ++ encode t :=
  List.flatMap_append

theorem encodeChar_ne_nil (c : Char) : encodeChar c ≠ [] := by
  unfold encodeChar
  simp only
  split
  · simp
  split
  · simp
  split
  · simp
  · simp

theorem length_encode_pos {s : List Char} (h : s ≠ []) : 0 < (encode s).length := by
  obtain ⟨c, t, rfl⟩ := List.exists_cons_of_ne_nil h
  have hc := List.length_pos_iff.2 (encodeChar_ne_nil c)
  rw [encode_cons, List.length_append]
  omega

/-! ## What is written is read back -/

theorem toNat_ofNat_of_lt {n : Nat} (h : n < 256) : (UInt8.ofNat n).toNat = n := by
  simp only [UInt8.toNat_ofNat']; omega

theorem isSecond_of_bounds {a b : Nat} (low : 0x80 ≤ b) (high : b ≤ 0xbf)
    (h1 : a = 0xe0 → 0xa0 ≤ b) (h2 : a = 0xf0 → 0x90 ≤ b) (h3 : a = 0xed → b ≤ 0x9f)
    (h4 : a = 0xf4 → b ≤ 0x8f) : isSecond a b = true := by
  simp only [isSecond, Bool.and_eq_true, decide_eq_true_eq]
  constructor <;> repeat' split
  all_goals first | assumption | (apply_assumption; assumption)

theorem isTail_of_bounds {b : Nat} (low : 0x80 ≤ b) (high : b ≤ 0xbf) : isTail b = true := by
  simp [isTail, low, high]

/-! One lemma for each length of a code, on the number of its character. -/

theorem units_code1 {n : Nat} (h : n < 0x80) (s : List UInt8) :
    units (UInt8.ofNat n :: s) = some (Char.ofNat n) :: units s := by
  have ha := toNat_ofNat_of_lt (n := n) (by omega)
  rw [units.eq_def]
  simp only [ha, h, if_true]

theorem units_code2 {n : Nat} (hlow : 0x80 ≤ n) (hhigh : n < 0x800) (s : List UInt8) :
    units (UInt8.ofNat (0xc0 + n / 64) :: UInt8.ofNat (0x80 + n % 64) :: s) =
      some (Char.ofNat n) :: units s := by
  have ha := toNat_ofNat_of_lt (n := 0xc0 + n / 64) (by omega)
  have hb := toNat_ofNat_of_lt (n := 0x80 + n % 64) (by omega)
  have hn : (0xc0 + n / 64 - 0xc0) * 64 + (0x80 + n % 64 - 0x80) = n := by omega
  rw [units.eq_def]
  simp only [ha, hb]
  rw [if_neg (by omega), if_neg (by simp; omega),
    isSecond_of_bounds (by omega) (by omega) (by omega) (by omega) (by omega) (by omega),
    Bool.not_true, if_neg (by simp), if_pos (by omega), join2, ha, hb, hn]

theorem units_code3 {n : Nat} (hlow : 0x800 ≤ n) (hhigh : n < 0x10000)
    (hn : n < 0xd800 ∨ 0xdfff < n) (s : List UInt8) :
    units (UInt8.ofNat (0xe0 + n / 4096) :: UInt8.ofNat (0x80 + n / 64 % 64) ::
      UInt8.ofNat (0x80 + n % 64) :: s) = some (Char.ofNat n) :: units s := by
  have ha := toNat_ofNat_of_lt (n := 0xe0 + n / 4096) (by omega)
  have hb := toNat_ofNat_of_lt (n := 0x80 + n / 64 % 64) (by omega)
  have hc := toNat_ofNat_of_lt (n := 0x80 + n % 64) (by omega)
  have hjoin : (0xe0 + n / 4096 - 0xe0) * 4096 + (0x80 + n / 64 % 64 - 0x80) * 64 +
      (0x80 + n % 64 - 0x80) = n := by omega
  rw [units.eq_def]
  simp only [ha, hb, hc]
  rw [if_neg (by omega), if_neg (by simp; omega),
    isSecond_of_bounds (by omega) (by omega) (by omega) (by omega) (by omega) (by omega),
    isTail_of_bounds (by omega) (by omega), Bool.not_true, if_neg (by simp), if_neg (by omega),
    if_neg (by simp), if_pos (by omega), join3, ha, hb, hc, hjoin]

theorem units_code4 {n : Nat} (hlow : 0x10000 ≤ n) (hhigh : n < 0x110000) (s : List UInt8) :
    units (UInt8.ofNat (0xf0 + n / 262144) :: UInt8.ofNat (0x80 + n / 4096 % 64) ::
      UInt8.ofNat (0x80 + n / 64 % 64) :: UInt8.ofNat (0x80 + n % 64) :: s) =
        some (Char.ofNat n) :: units s := by
  have ha := toNat_ofNat_of_lt (n := 0xf0 + n / 262144) (by omega)
  have hb := toNat_ofNat_of_lt (n := 0x80 + n / 4096 % 64) (by omega)
  have hc := toNat_ofNat_of_lt (n := 0x80 + n / 64 % 64) (by omega)
  have hd := toNat_ofNat_of_lt (n := 0x80 + n % 64) (by omega)
  have hjoin : (0xf0 + n / 262144 - 0xf0) * 262144 + (0x80 + n / 4096 % 64 - 0x80) * 4096 +
      (0x80 + n / 64 % 64 - 0x80) * 64 + (0x80 + n % 64 - 0x80) = n := by omega
  rw [units.eq_def]
  simp only [ha, hb, hc, hd]
  rw [if_neg (by omega), if_neg (by simp; omega),
    isSecond_of_bounds (by omega) (by omega) (by omega) (by omega) (by omega) (by omega),
    isTail_of_bounds (by omega) (by omega), isTail_of_bounds (by omega) (by omega),
    Bool.not_true, if_neg (by simp), if_neg (by omega), if_neg (by simp), if_neg (by omega),
    if_neg (by simp), join4, ha, hb, hc, hd, hjoin]

theorem units_encodeChar_append (c : Char) (s : List UInt8) :
    units (encodeChar c ++ s) = some c :: units s := by
  have hc : c.toNat < 0xd800 ∨ 0xdfff < c.toNat ∧ c.toNat < 0x110000 := c.valid
  have hback : some c :: units s = some (Char.ofNat c.toNat) :: units s := by
    rw [Char.ofNat_toNat]
  rw [hback]
  unfold encodeChar
  dsimp only
  split
  case isTrue h1 => exact units_code1 h1 s
  split
  case isTrue h2 => exact units_code2 (by omega) h2 s
  split
  case isTrue h3 => exact units_code3 (by omega) h3 (by omega) s
  case isFalse h3 => exact units_code4 (by omega) (by omega) s

theorem units_encode (s : List Char) : units (encode s) = s.map some := by
  induction s with
  | nil => rfl
  | cons c s ih =>
    rw [encode_cons, units_encodeChar_append, ih, List.map_cons]

theorem decode?_encode (s : List Char) : decode? (encode s) = some s := by
  rw [decode?, units_encode]
  induction s with
  | nil => rfl
  | cons c s ih => simp [ih]

theorem decodeLossy_encode (s : List Char) : decodeLossy (encode s) = s := by
  simp [decodeLossy, units_encode, Function.comp_def]

/-! ## What is read was written -/

theorem toNat_ofNat_of_valid {n : Nat} (h : n.isValidChar) : (Char.ofNat n).toNat = n := by
  rw [Char.ofNat, dif_pos h]
  rfl

theorem bounds_of_isSecond {a b : Nat} (h : isSecond a b = true) :
    0x80 ≤ b ∧ b ≤ 0xbf ∧ (a = 0xe0 → 0xa0 ≤ b) ∧ (a = 0xf0 → 0x90 ≤ b) ∧
      (a = 0xed → b ≤ 0x9f) ∧ (a = 0xf4 → b ≤ 0x8f) := by
  simp only [isSecond, Bool.and_eq_true, decide_eq_true_eq] at h
  obtain ⟨hlow, hhigh⟩ := h
  (repeat' split at hlow) <;> (repeat' split at hhigh) <;> omega

theorem bounds_of_isTail {b : Nat} (h : isTail b = true) : 0x80 ≤ b ∧ b ≤ 0xbf := by
  simpa [isTail] using h

/-- A byte is the one of a number that its own value spells. -/
theorem ofNat_eq {n : Nat} {b : UInt8} (h : n = b.toNat) : UInt8.ofNat n = b := by
  rw [h, UInt8.ofNat_toNat]

theorem encodeChar_byte {a : UInt8} (ha : a.toNat < 0x80) :
    encodeChar (Char.ofNat a.toNat) = [a] := by
  have hn := toNat_ofNat_of_valid (n := a.toNat) (.inl (by omega))
  simp only [encodeChar, hn, if_pos ha, UInt8.ofNat_toNat]

theorem encodeChar_join2 {a b : UInt8} (hlow : 0xc2 ≤ a.toNat) (hhigh : a.toNat < 0xe0)
    (hb : isSecond a.toNat b.toNat = true) : encodeChar (join2 a b) = [a, b] := by
  have hbounds := bounds_of_isSecond hb
  have hn := toNat_ofNat_of_valid
    (n := (a.toNat - 0xc0) * 64 + (b.toNat - 0x80)) (.inl (by omega))
  simp only [encodeChar, join2, hn]
  rw [if_neg (by omega), if_pos (by omega), ofNat_eq (b := a) (by omega),
    ofNat_eq (b := b) (by omega)]

theorem encodeChar_join3 {a b c : UInt8} (hlow : 0xe0 ≤ a.toNat) (hhigh : a.toNat < 0xf0)
    (hb : isSecond a.toNat b.toNat = true) (hc : isTail c.toNat = true) :
    encodeChar (join3 a b c) = [a, b, c] := by
  have hbounds := bounds_of_isSecond hb
  have htail := bounds_of_isTail hc
  have hn := toNat_ofNat_of_valid
    (n := (a.toNat - 0xe0) * 4096 + (b.toNat - 0x80) * 64 + (c.toNat - 0x80))
    (show _ < 55296 ∨ 57343 < _ ∧ _ < 1114112 by omega)
  simp only [encodeChar, join3, hn]
  rw [if_neg (by omega), if_neg (by omega), if_pos (by omega), ofNat_eq (b := a) (by omega),
    ofNat_eq (b := b) (by omega), ofNat_eq (b := c) (by omega)]

theorem encodeChar_join4 {a b c d : UInt8} (hlow : 0xf0 ≤ a.toNat) (hhigh : a.toNat ≤ 0xf4)
    (hb : isSecond a.toNat b.toNat = true) (hc : isTail c.toNat = true)
    (hd : isTail d.toNat = true) : encodeChar (join4 a b c d) = [a, b, c, d] := by
  have hbounds := bounds_of_isSecond hb
  have htail := bounds_of_isTail hc
  have hlast := bounds_of_isTail hd
  have hn := toNat_ofNat_of_valid
    (n := (a.toNat - 0xf0) * 262144 + (b.toNat - 0x80) * 4096 + (c.toNat - 0x80) * 64 +
      (d.toNat - 0x80))
    (.inr (by omega))
  simp only [encodeChar, join4, hn]
  rw [if_neg (by omega), if_neg (by omega), if_neg (by omega), ofNat_eq (b := a) (by omega),
    ofNat_eq (b := b) (by omega), ofNat_eq (b := c) (by omega), ofNat_eq (b := d) (by omega)]

theorem exists_cons_of_map {c : Char} {u : List (Option Char)} {s : List Char}
    (h : some c :: u = s.map some) : ∃ t, s = c :: t ∧ u = t.map some := by
  cases s with
  | nil => cases h
  | cons d t =>
    obtain ⟨hd, hu⟩ := List.cons.inj h
    exact ⟨t, by rw [Option.some.inj hd], hu⟩

theorem none_cons_ne_map (u : List (Option Char)) (s : List Char) : none :: u ≠ s.map some := by
  cases s <;> simp

/-- Bytes without ill-formed parts are what their characters are written as. -/
theorem encode_of_units {bytes : List UInt8} {s : List Char} (h : units bytes = s.map some) :
    encode s = bytes := by
  fun_induction units bytes generalizing s with
  | case1 =>
    obtain rfl : s = [] := by simpa using h.symm
    rfl
  | case2 a v ha ih =>
    obtain ⟨t, rfl, ht⟩ := exists_cons_of_map h
    rw [encode_cons, encodeChar_byte ha, ih ht, List.singleton_append]
  | case6 a hlow hlead b v hb ha ih =>
    obtain ⟨t, rfl, ht⟩ := exists_cons_of_map h
    simp only [Bool.or_eq_true, decide_eq_true_eq, not_or] at hlead
    rw [encode_cons, encodeChar_join2 (by omega) ha (by simpa using hb), ih ht]
    rfl
  | case9 a hlow hlead b hb ha c v hc ha' ih =>
    obtain ⟨t, rfl, ht⟩ := exists_cons_of_map h
    rw [encode_cons, encodeChar_join3 (by omega) ha' (by simpa using hb) (by simpa using hc), ih ht]
    rfl
  | case12 a hlow hlead b hb ha c hc ha' d v hd ih =>
    obtain ⟨t, rfl, ht⟩ := exists_cons_of_map h
    simp only [Bool.or_eq_true, decide_eq_true_eq, not_or] at hlead
    rw [encode_cons, encodeChar_join4 (by omega) (by omega) (by simpa using hb) (by simpa using hc)
      (by simpa using hd), ih ht]
    rfl
  | _ => exact absurd h (none_cons_ne_map _ _)

theorem eq_map_of_mapM {u : List (Option Char)} {s : List Char} (h : u.mapM id = some s) :
    u = s.map some := by
  induction u generalizing s with
  | nil =>
    cases h
    rfl
  | cons c u ih =>
    simp only [List.mapM_cons, id_eq, Option.bind_eq_bind, Option.bind_eq_some_iff,
      Option.pure_def, Option.some.injEq] at h
    obtain ⟨c, rfl, t, ht, rfl⟩ := h
    rw [ih ht, List.map_cons]

/-- Bytes are read as a text if and only if the text is written as these bytes. -/
theorem decode?_eq_some_iff {bytes : List UInt8} {s : List Char} :
    decode? bytes = some s ↔ bytes = encode s := by
  constructor
  · intro h
    exact (encode_of_units (eq_map_of_mapM h)).symm
  · rintro rfl
    exact decode?_encode s

end PlainNotes.Utf8

import PlainNotes.Proofs.Pattern.Way

/-!
# What patterns capture

`p.Catches g cls` says that every way through `p` captures for the group `g` a stretch of the text
that is not empty and consists of characters of `cls`.  A group around a repetition of at least one
character does so (`catches_group`), and a sequence does so if one of its parts does and no part
before it has a mark of the group (`Catches.all`).

* `Way.text_eq`: a way through a pattern without marks of a group leaves the group as it was.
* `Catches.search`: what a search captures.
* `MayCatch.search`: what a search captures for a group that can be left out.
-/

namespace PlainNotes

def Mark.group : Mark → Group
  | .opening g | .closing g => g

namespace Captures

@[simp] theorem text_group (c : Captures) (g : Group) (u s : List Char) :
    ((c.set (.closing g) s).set (.opening g) (u ++ s)).text g = some u := by
  cases g <;> simp [set, text]

theorem text_set_of_ne (c : Captures) {m : Mark} {g : Group} (h : m.group ≠ g) (s : List Char) :
    (c.set m s).text g = c.text g := by
  cases m with
  | opening g' => cases g' <;> cases g <;> first | rfl | exact absurd rfl h
  | closing g' => cases g' <;> cases g <;> first | rfl | exact absurd rfl h

end Captures

namespace Pattern

variable {g : Group} {cls : Char → Bool} {p q : Pattern} {s s' : List Char} {c c' : Captures}

/-! ## Patterns without marks of a group -/

/-- The pattern has no mark of the group. -/
def Spares (g : Group) : Pattern → Prop
  | seq p q | alt p q => p.Spares g ∧ q.Spares g
  | mark m => m.group ≠ g
  | empty | one _ | many _ | few _ | atEnd => True

@[simp] theorem spares_empty : empty.Spares g := trivial

@[simp] theorem spares_one : (one cls).Spares g := trivial

@[simp] theorem spares_many : (many cls).Spares g := trivial

@[simp] theorem spares_seq : (seq p q).Spares g ↔ p.Spares g ∧ q.Spares g := Iff.rfl

@[simp] theorem spares_alt : (alt p q).Spares g ↔ p.Spares g ∧ q.Spares g := Iff.rfl

@[simp] theorem spares_all {ps : List Pattern} : (all ps).Spares g ↔ ∀ p ∈ ps, p.Spares g := by
  induction ps with
  | nil => simp [all]
  | cons p ps ih =>
    cases ps with
    | nil => simp [all]
    | cons q qs =>
      rw [all, spares_seq, ih]
      exact List.forall_mem_cons.symm

@[simp] theorem spares_any {ps : List Pattern} : (any ps).Spares g ↔ ∀ p ∈ ps, p.Spares g := by
  induction ps with
  | nil => simp [any]
  | cons p ps ih =>
    cases ps with
    | nil => simp [any]
    | cons q qs =>
      rw [any, spares_alt, ih]
      exact List.forall_mem_cons.symm

@[simp] theorem spares_optional : p.optional.Spares g ↔ p.Spares g := and_iff_left trivial

@[simp] theorem spares_many1 : (many1 cls).Spares g := ⟨trivial, trivial⟩

@[simp] theorem spares_few1 : (few1 cls).Spares g := ⟨trivial, trivial⟩

theorem spares_group {g' : Group} (h : g' ≠ g) (hp : p.Spares g) : (group g' p).Spares g :=
  ⟨h, hp, h⟩

/-- A way through a pattern without marks of a group leaves the group as it was. -/
theorem Way.text_eq (h : p.Way s s' c c') (hp : p.Spares g) : c'.text g = c.text g := by
  induction p generalizing s s' c c' with
  | empty => rw [h.2]
  | one cls =>
    obtain ⟨x, -, -, rfl⟩ := h
    rfl
  | seq p q ihp ihq =>
    obtain ⟨m, d, h₁, h₂⟩ := h
    exact (ihp h₁ hp.1).trans (ihq h₂ hp.2)
  | alt p q ihp ihq =>
    rcases h with h | h
    · exact ihp h hp.1
    · exact ihq h hp.2
  | many cls =>
    obtain ⟨u, -, -, rfl⟩ := h
    rfl
  | few cls =>
    obtain ⟨u, -, -, rfl⟩ := h
    rfl
  | mark m =>
    obtain ⟨-, rfl⟩ := h
    exact c.text_set_of_ne hp s
  | atEnd => rw [h.2.2]

/-! ## Patterns that capture -/

/-- Every way through the pattern captures for the group a stretch of the text that is not empty
and consists of characters of the class. -/
def Catches (p : Pattern) (g : Group) (cls : Char → Bool) : Prop :=
  ∀ ⦃s s' c c'⦄, p.Way s s' c c' →
    ∃ u, c'.text g = some u ∧ u ≠ [] ∧ (∀ x ∈ u, cls x = true) ∧ u <:+: s

/-- A group around a pattern that takes at least one character of a class, and no others. -/
theorem catches_group (hp : ∀ {s s' c c'}, p.Way s s' c c' →
    ∃ u, u ≠ [] ∧ s = u ++ s' ∧ (∀ x ∈ u, cls x = true) ∧ c = c') : (group g p).Catches g cls := by
  intro s s' c c' h
  obtain ⟨m, d, ⟨rfl, rfl⟩, m', d', hway, rfl, rfl⟩ := h
  obtain ⟨u, hne, rfl, hu, rfl⟩ := hp hway
  exact ⟨u, c.text_group g u m', hne, hu, List.infix_append' [] u m'⟩

theorem Catches.left (h : p.Catches g cls) : (seq p q).Catches g cls := by
  rintro s s' c c' ⟨m, d, hp, -⟩
  exact h hp

theorem Catches.right (hp : p.Spares g) (h : q.Catches g cls) : (seq p q).Catches g cls := by
  rintro s s' c c' ⟨m, d, hway, hq⟩
  obtain ⟨u, hu, hne, hcls, hin⟩ := h hq
  obtain ⟨v, rfl⟩ := hway.exists_append
  exact ⟨u, (hway.text_eq hp).trans hu, hne, hcls, hin.trans (List.suffix_append v m).isInfix⟩

/-- A sequence captures what one of its parts captures, if no part before has marks of the group. -/
theorem Catches.all (ps : List Pattern) {qs : List Pattern} (hp : p.Catches g cls)
    (hps : ∀ r ∈ ps, r.Spares g) :
    (Pattern.all (ps ++ p :: qs)).Catches g cls := by
  induction ps with
  | nil =>
    rintro s s' c c' h
    obtain ⟨m, d, hway, -⟩ := way_all_cons.1 h
    exact hp hway
  | cons r rs ih =>
    intro s s' c c' h
    obtain ⟨m, d, hr, hrest⟩ := way_all_cons.1 h
    exact Catches.right (hps r (by simp)) (ih fun r' hr' => hps r' (List.mem_cons_of_mem r hr'))
      ⟨m, d, hr, hrest⟩

/-- **What a search captures** is not empty, of the class, and part of the text. -/
theorem Catches.search (hp : p.Catches g cls) (h : p.search s = some c) :
    ∃ u, c.text g = some u ∧ u ≠ [] ∧ (∀ x ∈ u, cls x = true) ∧ u <:+: s := by
  obtain ⟨v, t, s', rfl, hway⟩ := exists_way_of_search h
  obtain ⟨u, hu, hne, hcls, hin⟩ := hp hway
  exact ⟨u, hu, hne, hcls, hin.trans (List.suffix_append v t).isInfix⟩

/-! ## Patterns that may capture -/

/-- Every way through the pattern leaves the group as it was, or captures for it a stretch of the
text that is not empty and consists of characters of the class. -/
def MayCatch (p : Pattern) (g : Group) (cls : Char → Bool) : Prop :=
  ∀ ⦃s s' c c'⦄, p.Way s s' c c' → c'.text g = c.text g ∨
    ∃ u, c'.text g = some u ∧ u ≠ [] ∧ (∀ x ∈ u, cls x = true) ∧ u <:+: s

theorem Spares.mayCatch (hp : p.Spares g) : p.MayCatch g cls :=
  fun _ _ _ _ h => Or.inl (h.text_eq hp)

theorem Catches.mayCatch (hp : p.Catches g cls) : p.MayCatch g cls :=
  fun _ _ _ _ h => Or.inr (hp h)

theorem MayCatch.optional (hp : p.MayCatch g cls) : p.optional.MayCatch g cls := by
  rintro s s' c c' (h | h)
  · exact hp h
  · exact Or.inl (by rw [h.2])

theorem MayCatch.all (ps : List Pattern) (hps : ∀ p ∈ ps, p.MayCatch g cls) :
    (Pattern.all ps).MayCatch g cls := by
  induction ps with
  | nil =>
    intro s s' c c' h
    exact Or.inl (by rw [h.2])
  | cons p ps ih =>
    intro s s' c c' h
    obtain ⟨m, d, hp, hrest⟩ := way_all_cons.1 h
    rcases hps p (by simp) hp with heq | hcaught
    · obtain ⟨v, rfl⟩ := hp.exists_append
      rcases ih (fun q hq => hps q (List.mem_cons_of_mem p hq)) hrest with hsame | hcaught
      · exact Or.inl (heq.trans hsame)
      · obtain ⟨u, hu, hne, hcls, hin⟩ := hcaught
        exact Or.inr ⟨u, heq.trans hu, hne, hcls, hin.trans (List.suffix_append v m).isInfix⟩
    · exact Or.inr hcaught

/-- What a search captures, if anything, is not empty, of the class, and part of the text. -/
theorem MayCatch.search {u : List Char} (hp : p.MayCatch g cls) (h : p.search s = some c)
    (hu : c.text g = some u) : u ≠ [] ∧ (∀ x ∈ u, cls x = true) ∧ u <:+: s := by
  obtain ⟨v, t, s', rfl, hway⟩ := exists_way_of_search h
  rcases hp hway with hsame | ⟨w, hw, hne, hcls, hin⟩
  · rw [hu] at hsame
    cases g <;> cases hsame
  · obtain rfl := Option.some.inj (hu.symm.trans hw)
    exact ⟨hne, hcls, hin.trans (List.suffix_append v t).isInfix⟩

end Pattern

end PlainNotes
